import HardwareDrivers.Theory.Interference
import Mathlib.Data.BitVec
import Mathlib.Data.Fintype.Basic

/-!
# The command mailbox of a PTU

A command of a PTU acts on argument registers, and a dump command leaves its result in
other registers. The functions of `ptu_dev.cpp` write the arguments and the command
while they hold `mtx_dev_`; those of `libptu.cpp` for ARP and for `dump_tcb` take the
mutex for each register by itself (`reg_write`, `reg_read`), on the same registers.

## What is proved

* `asserts_own`, `asserts_others` — what each access of an operation makes true, and
  what the accesses of the others keep.
* `mailbox_sound` — if between an argument and its command nobody else writes another
  value to the register, and between a dump and its last register nobody else dumps,
  then every command acts on its own arguments, and every dump returned is the one that
  was asked for.
* `not_mailbox_sound` — a release between the cid and the command of `dump_tcb` makes it
  dump another connection.
-/

namespace HardwareDrivers.Libptu

open Theory

/-! ### Registers and commands -/

/-- The registers of `ptu_reg.h` that take part. -/
inductive Reg where
  /-- `TCP_REMOTE_IP` -/
  | tcpRemoteIp
  /-- `TCP_REMOTE_PORT` -/
  | tcpRemotePort
  /-- `TCP_LOCAL_PORT` -/
  | tcpLocalPort
  /-- `TCP_CID` -/
  | tcpCid
  /-- `TCP_COMMAND` -/
  | tcpCommand
  /-- `ARP_COMMAND` -/
  | arpCommand
  /-- `ARP_ARG0` -/
  | arpArg0
  /-- `ARP_ARG1` -/
  | arpArg1
  /-- `ARP_ARG2` -/
  | arpArg2
  /-- `PTU_VERSION` -/
  | ptuVersion
  /-- `ARP_ENTRY` -/
  | arpEntry
  /-- `ARP_IPV4` -/
  | arpIpv4
  /-- `ARP_MAC_HI` -/
  | arpMacHi
  /-- `ARP_MAC_LO` -/
  | arpMacLo
  /-- `TCB_USR_READ` -/
  | tcbUsrRead
  /-- `TCB_USR_WRT` -/
  | tcbUsrWrt
  /-- `TCB_SND_UNA` -/
  | tcbSndUna
  /-- `TCB_SND_NXT` -/
  | tcbSndNxt
  /-- `TCB_RCV_NXT` -/
  | tcbRcvNxt
  /-- `TCB_RCV_UP` -/
  | tcbRcvUp
  /-- `TCB_SND_WND` -/
  | tcbSndWnd
  deriving DecidableEq

namespace TcpHostCmd

/-- `TCP_HOST_CMD_CNN_OPEN` -/
def cnnOpen : BitVec 32 := 2

/-- `TCP_HOST_CMD_LSN_OPEN` -/
def lsnOpen : BitVec 32 := 4

/-- `TCP_HOST_CMD_LSN_CLOSE` -/
def lsnClose : BitVec 32 := 5

/-- `TCP_HOST_CMD_ABORT` -/
def abort : BitVec 32 := 10

/-- `TCP_HOST_CMD_RELEASE` -/
def release : BitVec 32 := 11

/-- `TCP_HOST_CMD_DUMP_TCB` -/
def dumpTcb : BitVec 32 := 12

end TcpHostCmd

namespace ArpCmd

/-- `ARP_SET_ENTRY` -/
def setEntry : BitVec 32 := 1

/-- `ARP_DEL_ENTRY` -/
def delEntry : BitVec 32 := 2

/-- `ARP_SET_RETRY` -/
def setRetry : BitVec 32 := 3

/-- `ARP_DUMP_ENTRY` -/
def dumpEntry : BitVec 32 := 6

end ArpCmd

/-- The registers that `dump_tcb` reads. -/
def tcbRegs : List Reg :=
  [.tcbUsrRead, .tcbUsrWrt, .tcbSndUna, .tcbSndNxt, .tcbRcvNxt, .tcbRcvUp, .tcbSndWnd]

/-- The registers of an entry of the ARP table. -/
def arpRegs : List Reg := [.arpEntry, .arpIpv4, .arpMacHi, .arpMacLo]

/-- The registers that a command acts on. -/
def argRegs : Reg → BitVec 32 → List Reg
  | .tcpCommand, v =>
    if v = TcpHostCmd.cnnOpen then [.tcpRemoteIp, .tcpRemotePort, .tcpLocalPort]
    else if v = TcpHostCmd.lsnOpen ∨ v = TcpHostCmd.lsnClose then [.tcpLocalPort]
    else if v = TcpHostCmd.abort ∨ v = TcpHostCmd.release ∨ v = TcpHostCmd.dumpTcb then [.tcpCid]
    else []
  | .arpCommand, v =>
    if v = ArpCmd.setEntry then [.arpArg0, .arpArg1, .arpArg2]
    else if v = ArpCmd.delEntry ∨ v = ArpCmd.setRetry ∨ v = ArpCmd.dumpEntry then [.arpArg0]
    else []
  | _, _ => []

/-- The registers in which a command leaves its result. -/
def dumpRegs : Reg → BitVec 32 → List Reg
  | .tcpCommand, v => if v = TcpHostCmd.dumpTcb then tcbRegs else []
  | .arpCommand, v => if v = ArpCmd.dumpEntry then arpRegs else []
  | _, _ => []

/-- A write to the register gives a command. -/
def Reg.isCommand : Reg → Bool
  | .tcpCommand | .arpCommand => true
  | _ => false

/-! ### The operations -/

/-- An access to a register. -/
inductive Access where
  /-- `ptu_reg_write` -/
  | write (r : Reg) (v : BitVec 32)
  /-- `ptu_reg_read` -/
  | read (r : Reg)
  deriving DecidableEq

/-- An operation of a PTU: arguments, a command, and the registers that are read afterwards. -/
structure Op where
  /-- The arguments, in the order in which they are written. -/
  args : List (Reg × BitVec 32)
  /-- The command register and the command. -/
  cmd : Reg × BitVec 32
  /-- Whether `mtx_dev_` is held from the first argument to the command. -/
  locked : Bool
  /-- What is read. -/
  reads : List Reg

/-- The accesses of an operation, grouped as they are made under one hold of `mtx_dev_`. -/
def Op.groups (op : Op) : List (List Access) :=
  if op.locked then [op.args.map (fun a => .write a.1 a.2) ++ [.write op.cmd.1 op.cmd.2]]
  else op.args.map (fun a => [.write a.1 a.2]) ++
    [.write op.cmd.1 op.cmd.2] :: op.reads.map fun r => [.read r]

/-- `tcp_listen` -/
def tcpListen (lport : BitVec 16) : Op :=
  ⟨[(.tcpLocalPort, lport.setWidth 32 <<< 16)], (.tcpCommand, TcpHostCmd.lsnOpen), true, []⟩

/-- `tcp_listen_close` -/
def tcpListenClose (lport : BitVec 16) : Op :=
  ⟨[(.tcpLocalPort, lport.setWidth 32 <<< 16)], (.tcpCommand, TcpHostCmd.lsnClose), true, []⟩

/-- `tcp_connect` -/
def tcpConnect (lport : BitVec 16) (raddr : BitVec 32) (rport : BitVec 16) : Op :=
  ⟨[(.tcpRemoteIp, raddr), (.tcpRemotePort, rport.setWidth 32),
    (.tcpLocalPort, lport.setWidth 32)], (.tcpCommand, TcpHostCmd.cnnOpen), true, []⟩

/-- `tcp_abort` -/
def tcpAbort (cid : BitVec 16) : Op :=
  ⟨[(.tcpCid, cid.setWidth 32)], (.tcpCommand, TcpHostCmd.abort), true, []⟩

/-- `tcp_release` -/
def tcpRelease (cid : BitVec 16) : Op :=
  ⟨[(.tcpCid, cid.setWidth 32)], (.tcpCommand, TcpHostCmd.release), true, []⟩

/-- `fpga_ptu_dump_tcb` -/
def fpgaPtuDumpTcb (cid : BitVec 32) : Op :=
  ⟨[(.tcpCid, cid)], (.tcpCommand, TcpHostCmd.dumpTcb), false, tcbRegs⟩

/-- A MAC address. -/
abbrev Mac := Vector (BitVec 8) 6

/-- The upper two bytes of a MAC address. -/
def macHi (mac : Mac) : BitVec 32 := mac[0].setWidth 32 <<< 8 ||| mac[1].setWidth 32

/-- The lower four bytes. -/
def macLo (mac : Mac) : BitVec 32 :=
  mac[2].setWidth 32 <<< 24 ||| mac[3].setWidth 32 <<< 16 ||| mac[4].setWidth 32 <<< 8 |||
    mac[5].setWidth 32

/-- `fpga_ptu_set_arp_entry` -/
def fpgaPtuSetArpEntry (addr : BitVec 32) (mac : Mac) : Op :=
  ⟨[(.arpArg0, addr), (.arpArg1, macHi mac), (.arpArg2, macLo mac)],
    (.arpCommand, ArpCmd.setEntry), false, []⟩

/-- `fpga_ptu_del_arp_entry` -/
def fpgaPtuDelArpEntry (addr : BitVec 32) : Op :=
  ⟨[(.arpArg0, addr)], (.arpCommand, ArpCmd.delEntry), false, []⟩

/-- `fpga_ptu_set_arp_retry` -/
def fpgaPtuSetArpRetry (timeout retryNum : BitVec 16) : Op :=
  ⟨[(.arpArg0, (timeout &&& 0x01ff).setWidth 32 <<< 16 ||| (retryNum &&& 0x000f).setWidth 32)],
    (.arpCommand, ArpCmd.setRetry), false, []⟩

/-- `fpga_ptu_get_arp_entry` -/
def fpgaPtuGetArpEntry (index : BitVec 8) : Op :=
  ⟨[(.arpArg0, index.setWidth 32)], (.arpCommand, ArpCmd.dumpEntry), false,
    .ptuVersion :: arpRegs⟩

/-- A call. -/
inductive PtuCall where
  /-- `ptu_dev::listen` -/
  | listen (lport : BitVec 16)
  /-- `ptu_dev::listen_close` -/
  | listenClose (lport : BitVec 16)
  /-- `ptu_dev::connect` -/
  | connect (lport : BitVec 16) (raddr : BitVec 32) (rport : BitVec 16)
  /-- `fpga_ptu_disconnect` -/
  | disconnect (cid : BitVec 16)
  /-- The event thread releases a cid. -/
  | release (cid : BitVec 16)
  /-- `fpga_ptu_dump_tcb` -/
  | dumpTcb (cid : BitVec 32)
  /-- `fpga_ptu_set_arp_entry` -/
  | setArpEntry (addr : BitVec 32) (mac : Mac)
  /-- `fpga_ptu_del_arp_entry` -/
  | delArpEntry (addr : BitVec 32)
  /-- `fpga_ptu_set_arp_retry` -/
  | setArpRetry (timeout retryNum : BitVec 16)
  /-- `fpga_ptu_get_arp_entry` -/
  | getArpEntry (index : BitVec 8)

/-- The operation of a call. -/
def PtuCall.op : PtuCall → Op
  | listen lport => tcpListen lport
  | listenClose lport => tcpListenClose lport
  | connect lport raddr rport => tcpConnect lport raddr rport
  | disconnect cid => tcpAbort cid
  | release cid => tcpRelease cid
  | dumpTcb cid => fpgaPtuDumpTcb cid
  | setArpEntry addr mac => fpgaPtuSetArpEntry addr mac
  | delArpEntry addr => fpgaPtuDelArpEntry addr
  | setArpRetry timeout retryNum => fpgaPtuSetArpRetry timeout retryNum
  | getArpEntry index => fpgaPtuGetArpEntry index

/-- The input check of a call; a call that does not pass it returns without any access. -/
def PtuCall.valid : PtuCall → Bool
  | dumpTcb cid => !(cid < 1 || cid > 511)
  | setArpRetry timeout retryNum => !(timeout > 511 || retryNum > 15)
  | _ => true

/-! ### What is returned -/

/-- `fpga_dump_tcb_t` -/
structure FpgaDumpTcb where
  /-- `tcb_usr_read` -/
  tcbUsrRead : BitVec 32
  /-- `tcb_usr_wrt` -/
  tcbUsrWrt : BitVec 32
  /-- `tcb_snd_una` -/
  tcbSndUna : BitVec 32
  /-- `tcb_snd_nxt` -/
  tcbSndNxt : BitVec 32
  /-- `tcb_rcv_nxt` -/
  tcbRcvNxt : BitVec 32
  /-- `tcb_rcv_up` -/
  tcbRcvUp : BitVec 32
  /-- `tcb_snd_wnd` -/
  tcbSndWnd : BitVec 32
  deriving DecidableEq

/-- The structure that `fpga_ptu_dump_tcb` fills. -/
def FpgaDumpTcb.ofRegs (got : Reg → BitVec 32) : FpgaDumpTcb :=
  ⟨got .tcbUsrRead, got .tcbUsrWrt, got .tcbSndUna, got .tcbSndNxt, got .tcbRcvNxt, got .tcbRcvUp,
    got .tcbSndWnd⟩

/-- `fpga_arp_entry_t` -/
structure FpgaArpEntry where
  /-- `dump_permanent` -/
  dumpPermanent : BitVec 8
  /-- `dump_incmp` -/
  dumpIncmp : BitVec 8
  /-- `dump_used` -/
  dumpUsed : BitVec 8
  /-- `dump_life` -/
  dumpLife : BitVec 16
  /-- `dump_retry` -/
  dumpRetry : BitVec 8
  /-- `dump_arp_index` -/
  dumpArpIndex : BitVec 8
  /-- `dump_ipddr` -/
  dumpIpddr : BitVec 32
  /-- `dump_mac` -/
  dumpMac : BitVec 64
  deriving DecidableEq

/-- The structure that `fpga_ptu_get_arp_entry` fills. -/
def FpgaArpEntry.ofRegs (got : Reg → BitVec 32) : FpgaArpEntry :=
  let data := got .arpEntry
  { dumpPermanent := ((data &&& 0x80000000) >>> 31).setWidth 8
    dumpIncmp := ((data &&& 0x40000000) >>> 30).setWidth 8
    dumpUsed := ((data &&& 0x20000000) >>> 29).setWidth 8
    dumpLife := ((data &&& 0x01ff0000) >>> 16).setWidth 16
    dumpRetry := ((data &&& 0x00000f00) >>> 8).setWidth 8
    dumpArpIndex := (data &&& 0x000000ff).setWidth 8
    dumpIpddr := got .arpIpv4
    dumpMac := (got .arpMacHi).setWidth 64 <<< 32 ||| (got .arpMacLo).setWidth 64 }

/-! ### The hardware -/

/-- A command that was executed: the call that gave it, and what stood in its registers. -/
structure Executed where
  /-- The call. -/
  call : PtuCall
  /-- The contents of the argument registers. -/
  args : List (BitVec 32)

/-- The registers, and the commands executed, the last one first. -/
structure Machine where
  /-- The registers. -/
  regs : Reg → BitVec 32
  /-- The commands. -/
  log : List Executed

/-- What the dump of the command of a number, with its arguments, leaves in a register. -/
abbrev DumpResult := ℕ → List (BitVec 32) → Reg → BitVec 32

/-- A write to a register. A command is executed on the registers as they are, and its dump is
left in the dump registers. -/
def Machine.write (hw : DumpResult) (call : PtuCall) (m : Machine) (r : Reg) (v : BitVec 32) :
    Machine :=
  let regs := Function.update m.regs r v
  if r.isCommand then
    let args := (argRegs r v).map regs
    { regs := fun x => if x ∈ dumpRegs r v then hw m.log.length args x else regs x
      log := ⟨call, args⟩ :: m.log }
  else { m with regs }

/-- An access of a call, with the registers it has read. -/
def access (hw : DumpResult) (call : PtuCall) (s : Machine × (Reg → BitVec 32)) :
    Access → Machine × (Reg → BitVec 32)
  | .write r v => (s.1.write hw call r v, s.2)
  | .read r => (s.1, Function.update s.2 r (s.1.regs r))

/-- The accesses of a group. -/
def accesses (hw : DumpResult) (call : PtuCall) (group : List Access)
    (s : Machine × (Reg → BitVec 32)) : Machine × (Reg → BitVec 32) :=
  group.foldl (access hw call) s

/-- Where a thread is. -/
inductive PtuPoint where
  /-- In no call. -/
  | idle
  /-- In a call, with the number of groups done, and what was read. -/
  | running (call : PtuCall) (pc : ℕ) (got : Reg → BitVec 32)

/-- A step of a thread. -/
inductive PtuMove where
  /-- It calls. -/
  | call (call : PtuCall)
  /-- It makes the next group of accesses, or returns. -/
  | go

/-- The step of a thread from where it is, if it can take it. -/
def ptuNext (hw : DumpResult) : PtuMove → PtuPoint → Machine → Option (PtuPoint × Machine)
  | .call call, .idle, m => some (if call.valid then .running call 0 fun _ => 0 else .idle, m)
  | .go, .running call pc got, m =>
    match call.op.groups[pc]? with
    | none => some (.idle, m)
    | some group =>
      let r := accesses hw call group (m, got)
      some (.running call (pc + 1) r.2, r.1)
  | _, _, _ => none

/-! ### What is promised -/

/-- Every command acted on the arguments of its call. -/
def CommandsOk (m : Machine) : Prop := ∀ e ∈ m.log, e.args = e.call.op.args.map (·.2)

/-- The dump of a call: that of a command it gave, for the cid or index it asked for. -/
def IsDump (m : Machine) (call : PtuCall) (n : ℕ) : Prop :=
  m.log.reverse[n]? = some ⟨call, call.op.args.map (·.2)⟩

/-- What a call returns, when it has made all its accesses. -/
def ReturnOk (hw : DumpResult) (m : Machine) : PtuPoint → Prop
  | .idle => True
  | .running call pc got => pc = call.op.groups.length →
    match call with
    | .dumpTcb cid => ∃ n, IsDump m call n ∧
        FpgaDumpTcb.ofRegs got = FpgaDumpTcb.ofRegs (hw n [cid])
    | .getArpEntry index => ∃ n, IsDump m call n ∧
        FpgaArpEntry.ofRegs got = FpgaArpEntry.ofRegs (hw n [index.setWidth 32])
    | _ => True

/-- The mailbox as it is promised. -/
structure MailboxOk {ι : Type} (hw : DumpResult) (s : Procs ι PtuPoint Machine) : Prop where
  /-- The commands. -/
  commands : CommandsOk s.state
  /-- What is returned. -/
  returns : ∀ i, ReturnOk hw s.state (s.points i)

/-! ### When the code keeps it -/

/-- The access writes no other value to the register of the argument. -/
def Access.Keeps (a : Reg × BitVec 32) : Access → Prop
  | .write r v => r = a.1 → v = a.2
  | .read _ => True

/-- The accesses of another thread leave what the call relies on: the arguments that are written
and whose command is not given, and the dump that is not read to its end. -/
def PtuPoint.Undisturbed (group : List Access) : PtuPoint → Prop
  | .idle => True
  | .running call pc _ => call.op.locked = false →
    (pc ≤ call.op.args.length → ∀ a ∈ call.op.args.take pc, ∀ x ∈ group, x.Keeps a) ∧
    (call.op.args.length < pc → pc < call.op.groups.length →
      .write call.op.cmd.1 call.op.cmd.2 ∉ group)

/-- The step disturbs no other thread. -/
def Undisturbed {ι : Type} (s : Procs ι PtuPoint Machine) (a : ι × PtuMove) : Prop :=
  match a.2, s.points a.1 with
  | .go, .running call pc _ =>
    ∀ group ∈ call.op.groups[pc]?, ∀ j, j ≠ a.1 → (s.points j).Undisturbed group
  | _, _ => True

/-! ### The operations are well formed -/

/-- A register that a command leaves its result in. -/
def Reg.isDump (r : Reg) : Prop := r ∈ tcbRegs ∨ r ∈ arpRegs

instance (r : Reg) : Decidable r.isDump := inferInstanceAs (Decidable (_ ∨ _))

/-- The arguments are those of the command, in different registers, and what is read is not
changed by writing them. -/
structure Op.WellFormed (op : Op) : Prop where
  /-- The command is written to a command register. -/
  cmd : op.cmd.1.isCommand
  /-- The arguments are those of the command. -/
  args : op.args.map (·.1) = argRegs op.cmd.1 op.cmd.2
  /-- They are in different registers. -/
  nodup : (op.args.map (·.1)).Nodup
  /-- They are no commands and no results. -/
  plain : ∀ r ∈ op.args.map (·.1), r.isCommand = false ∧ ¬ r.isDump
  /-- Nothing is read under the hold of the mutex. -/
  reads : op.locked → op.reads = []

/-- The command decides. -/
theorem Op.WellFormed.of_cmd {args : List (Reg × BitVec 32)} {cmd : Reg × BitVec 32}
    {locked : Bool} {reads : List Reg} (hargs : args.map (·.1) = argRegs cmd.1 cmd.2)
    (h : cmd.1.isCommand = true ∧ (argRegs cmd.1 cmd.2).Nodup ∧
      ∀ r ∈ argRegs cmd.1 cmd.2, r.isCommand = false ∧ ¬ r.isDump)
    (hreads : locked → reads = []) : Op.WellFormed ⟨args, cmd, locked, reads⟩ :=
  ⟨h.1, hargs, hargs ▸ h.2.1, hargs ▸ h.2.2, hreads⟩

theorem PtuCall.wellFormed (call : PtuCall) : call.op.WellFormed := by
  cases call with
  | listen lport => exact .of_cmd rfl (by decide) fun _ => rfl
  | listenClose lport => exact .of_cmd rfl (by decide) fun _ => rfl
  | connect lport raddr rport => exact .of_cmd rfl (by decide) fun _ => rfl
  | disconnect cid => exact .of_cmd rfl (by decide) fun _ => rfl
  | release cid => exact .of_cmd rfl (by decide) fun _ => rfl
  | dumpTcb cid => exact .of_cmd rfl (by decide) fun h => by cases h
  | setArpEntry addr mac => exact .of_cmd rfl (by decide) fun h => by cases h
  | delArpEntry addr => exact .of_cmd rfl (by decide) fun h => by cases h
  | setArpRetry timeout retryNum => exact .of_cmd rfl (by decide) fun h => by cases h
  | getArpEntry index => exact .of_cmd rfl (by decide) fun h => by cases h

theorem mem_dumpRegs {r x : Reg} {v : BitVec 32} : x ∈ dumpRegs r v ↔
    (r = .tcpCommand ∧ v = TcpHostCmd.dumpTcb ∧ x ∈ tcbRegs) ∨
    (r = .arpCommand ∧ v = ArpCmd.dumpEntry ∧ x ∈ arpRegs) := by
  cases r <;> simp [dumpRegs]

/-- The results of different commands are in different registers. -/
theorem cmd_of_mem_dumpRegs {x r r' : Reg} {v v' : BitVec 32} (h : x ∈ dumpRegs r v)
    (h' : x ∈ dumpRegs r' v') : r = r' ∧ v = v' := by
  have hapart : ∀ x ∈ tcbRegs, x ∉ arpRegs := by decide
  rcases mem_dumpRegs.mp h with ⟨rfl, rfl, hx⟩ | ⟨rfl, rfl, hx⟩ <;>
    rcases mem_dumpRegs.mp h' with ⟨rfl, rfl, hx'⟩ | ⟨rfl, rfl, hx'⟩
  · exact ⟨rfl, rfl⟩
  · exact absurd hx' (hapart x hx)
  · exact absurd hx (hapart x hx')
  · exact ⟨rfl, rfl⟩

theorem isDump_of_mem_dumpRegs {x r : Reg} {v : BitVec 32} (h : x ∈ dumpRegs r v) : x.isDump := by
  rcases mem_dumpRegs.mp h with ⟨-, -, hx⟩ | ⟨-, -, hx⟩
  · exact .inl hx
  · exact .inr hx

/-! ### What an access changes -/

variable {hw : DumpResult} {call : PtuCall} {m : Machine} {got : Reg → BitVec 32}

/-- A register that is no result holds what is written to it. -/
theorem regs_write {r x : Reg} {v : BitVec 32} (hx : ¬ x.isDump) :
    (m.write hw call r v).regs x = Function.update m.regs r v x := by
  unfold Machine.write
  split
  · exact if_neg fun h => hx (isDump_of_mem_dumpRegs h)
  · rfl

/-- A result is changed by its command only. -/
theorem regs_write_dump {r x : Reg} {v : BitVec 32} (hne : x ≠ r) (hx : x ∉ dumpRegs r v) :
    (m.write hw call r v).regs x = m.regs x := by
  unfold Machine.write
  split
  · exact (if_neg hx).trans (Function.update_of_ne hne ..)
  · exact Function.update_of_ne hne ..

/-- An argument executes nothing. -/
theorem log_write {r : Reg} {v : BitVec 32} (hr : r.isCommand = false) :
    (m.write hw call r v).log = m.log := by
  rw [Machine.write, if_neg (by rw [hr]; exact Bool.false_ne_true)]

theorem accesses_append (hw : DumpResult) (call : PtuCall) (group group' : List Access)
    (s : Machine × (Reg → BitVec 32)) :
    accesses hw call (group ++ group') s = accesses hw call group' (accesses hw call group s) :=
  List.foldl_append

/-- The arguments are written one after another, and nothing is executed. -/
theorem accesses_args (hw : DumpResult) (call : PtuCall) (got : Reg → BitVec 32)
    {args : List (Reg × BitVec 32)}
    (hplain : ∀ r ∈ args.map (·.1), r.isCommand = false ∧ ¬ r.isDump)
    (hnodup : (args.map (·.1)).Nodup) : ∃ m' : Machine,
      accesses hw call (args.map fun a => .write a.1 a.2) (m, got) = (m', got) ∧
      m'.log = m.log ∧ (∀ a ∈ args, m'.regs a.1 = a.2) ∧
      ∀ r, ¬ r.isDump → r ∉ args.map (·.1) → m'.regs r = m.regs r := by
  induction args generalizing m with
  | nil => exact ⟨m, rfl, rfl, fun _ h => (by cases h), fun _ _ _ => rfl⟩
  | cons a args ih =>
    obtain ⟨hcmd, hdump⟩ := hplain a.1 (List.mem_cons_self ..)
    obtain ⟨hnotin, hnodup⟩ := List.nodup_cons.mp hnodup
    obtain ⟨m', heq, hlog, hregs, hrest⟩ := ih (m := m.write hw call a.1 a.2)
      (fun r hr => hplain r (List.mem_cons_of_mem _ hr)) hnodup
    refine ⟨m', heq, hlog.trans (log_write hcmd), fun b hb => ?_, fun r hr hne => ?_⟩
    · rcases List.mem_cons.mp hb with rfl | hb
      · rw [hrest b.1 hdump hnotin, regs_write hdump, Function.update_self]
      · exact hregs b hb
    · obtain ⟨hne, hnotin⟩ := not_or.mp (mt List.mem_cons.mpr hne)
      rw [hrest r hr hnotin, regs_write hr, Function.update_of_ne hne]

/-- The command is executed on the arguments. -/
theorem write_cmd (hw : DumpResult) (call : PtuCall) {op : Op} (hop : op.WellFormed)
    (h : ∀ a ∈ op.args, m.regs a.1 = a.2) :
    (m.write hw call op.cmd.1 op.cmd.2).log = ⟨call, op.args.map (·.2)⟩ :: m.log ∧
      ∀ r ∈ dumpRegs op.cmd.1 op.cmd.2, (m.write hw call op.cmd.1 op.cmd.2).regs r =
        hw m.log.length (op.args.map (·.2)) r := by
  have hargs : (argRegs op.cmd.1 op.cmd.2).map (Function.update m.regs op.cmd.1 op.cmd.2) =
      op.args.map (·.2) := by
    rw [← hop.args, List.map_map]
    refine List.map_congr_left fun a ha => ?_
    have hne : a.1 ≠ op.cmd.1 := by
      intro heq
      have hplain := (hop.plain a.1 (List.mem_map_of_mem ha)).1
      rw [heq, hop.cmd] at hplain
      cases hplain
    exact (Function.update_of_ne hne ..).trans (h a ha)
  rw [Machine.write, if_pos hop.cmd]
  dsimp only
  rw [hargs]
  exact ⟨rfl, fun r hr => if_pos hr⟩

/-- Commands are only added. -/
theorem log_accesses (hw : DumpResult) (call : PtuCall) (got : Reg → BitVec 32)
    (group : List Access) :
    ∃ new, (accesses hw call group (m, got)).1.log = new ++ m.log := by
  induction group generalizing m got with
  | nil => exact ⟨[], rfl⟩
  | cons x group ih =>
    cases x with
    | read r => exact ih (Function.update got r (m.regs r))
    | write r v =>
      obtain ⟨new, hnew⟩ := ih (m := m.write hw call r v) got
      have hwrite : ∃ new, (m.write hw call r v).log = new ++ m.log := by
        unfold Machine.write
        split
        · exact ⟨[_], rfl⟩
        · exact ⟨[], rfl⟩
      obtain ⟨new', hnew'⟩ := hwrite
      exact ⟨new ++ new', hnew.trans (by rw [hnew', List.append_assoc])⟩

/-- Accesses that keep an argument leave it in its register. -/
theorem regs_accesses_arg {group : List Access} {a : Reg × BitVec 32} (ha : ¬ a.1.isDump)
    (hkeeps : ∀ x ∈ group, x.Keeps a) (h : m.regs a.1 = a.2) :
    (accesses hw call group (m, got)).1.regs a.1 = a.2 := by
  induction group generalizing m got with
  | nil => exact h
  | cons x group ih =>
    have hx := hkeeps x (List.mem_cons_self ..)
    have hrest := fun y hy => hkeeps y (List.mem_cons_of_mem _ hy)
    cases x with
    | read r => exact ih hrest h
    | write r v =>
      refine ih hrest ?_
      rw [regs_write ha]
      by_cases heq : a.1 = r
      · rw [heq, Function.update_self]
        exact hx heq.symm
      · rw [Function.update_of_ne heq, h]

/-- Accesses without the command leave its result. -/
theorem regs_accesses_dump {group : List Access} {x r : Reg} {v : BitVec 32}
    (hx : x ∈ dumpRegs r v) (hplain : ∀ r' v', .write r' v' ∈ group → ¬ r'.isDump)
    (hcmd : .write r v ∉ group) : (accesses hw call group (m, got)).1.regs x = m.regs x := by
  induction group generalizing m got with
  | nil => rfl
  | cons y group ih =>
    have hrest := fun r' v' h => hplain r' v' (List.mem_cons_of_mem _ h)
    have hcmd' := fun h => hcmd (List.mem_cons_of_mem _ h)
    cases y with
    | read r' => exact ih hrest hcmd'
    | write r' v' =>
      refine (ih hrest hcmd').trans (regs_write_dump ?_ fun h => ?_)
      · rintro rfl
        exact hplain x v' (List.mem_cons_self ..) (isDump_of_mem_dumpRegs hx)
      · obtain ⟨rfl, rfl⟩ := cmd_of_mem_dumpRegs hx h
        exact hcmd (List.mem_cons_self ..)

/-! ### The groups of an operation -/

theorem Op.groups_of_locked {op : Op} (h : op.locked = true) :
    op.groups = [op.args.map (fun a => .write a.1 a.2) ++ [.write op.cmd.1 op.cmd.2]] :=
  if_pos h

theorem Op.groups_of_not_locked {op : Op} (h : op.locked = false) :
    op.groups = op.args.map (fun a => [.write a.1 a.2]) ++
      [.write op.cmd.1 op.cmd.2] :: op.reads.map fun r => [.read r] :=
  if_neg (by rw [h]; exact Bool.false_ne_true)

theorem Op.length_groups {op : Op} (h : op.locked = false) :
    op.groups.length = op.args.length + 1 + op.reads.length := by
  rw [groups_of_not_locked h, List.length_append, List.length_cons, List.length_map,
    List.length_map]
  omega

theorem Op.length_args_lt {op : Op} (h : op.locked = false) :
    op.args.length < op.groups.length := by
  rw [length_groups h]
  omega

/-- Where no mutex is held, a group is an argument, the command, or a register that is read. -/
theorem Op.getElem?_groups {op : Op} {pc : ℕ} {group : List Access} (hl : op.locked = false)
    (h : op.groups[pc]? = some group) :
    (∃ a, op.args[pc]? = some a ∧ group = [.write a.1 a.2]) ∨
    (pc = op.args.length ∧ group = [.write op.cmd.1 op.cmd.2]) ∨
    (∃ r, op.args.length < pc ∧ op.reads[pc - op.args.length - 1]? = some r ∧
      group = [.read r]) := by
  rw [groups_of_not_locked hl] at h
  by_cases hpc : pc < op.args.length
  · rw [List.getElem?_append_left (by rw [List.length_map]; exact hpc), List.getElem?_map] at h
    obtain ⟨a, ha, rfl⟩ := Option.map_eq_some_iff.mp h
    exact .inl ⟨a, ha, rfl⟩
  · rw [List.getElem?_append_right (by rw [List.length_map]; omega), List.length_map] at h
    by_cases heq : pc = op.args.length
    · rw [heq, Nat.sub_self, List.getElem?_cons_zero] at h
      exact .inr (.inl ⟨heq, (Option.some.inj h).symm⟩)
    · obtain ⟨k, hk⟩ : ∃ k, pc - op.args.length = k + 1 := ⟨pc - op.args.length - 1, by omega⟩
      rw [hk, List.getElem?_cons_succ, List.getElem?_map] at h
      obtain ⟨r, hr, rfl⟩ := Option.map_eq_some_iff.mp h
      exact .inr (.inr ⟨r, by omega, by rw [hk]; exact hr, rfl⟩)

/-- No operation writes to a result. -/
theorem not_isDump_of_mem_groups {op : Op} (hop : op.WellFormed) {pc : ℕ} {group : List Access}
    (h : op.groups[pc]? = some group) {r : Reg} {v : BitVec 32} (hr : .write r v ∈ group) :
    ¬ r.isDump := by
  have hcommand : ∀ r : Reg, r.isCommand = true → ¬ r.isDump := by
    intro r
    cases r <;> decide
  have harg : ∀ a ∈ op.args, ¬ a.1.isDump := fun a ha => (hop.plain _ (List.mem_map_of_mem ha)).2
  cases hl : op.locked with
  | false =>
    rcases Op.getElem?_groups hl h with ⟨a, ha, rfl⟩ | ⟨-, rfl⟩ | ⟨r', -, -, rfl⟩
    · cases List.mem_singleton.mp hr
      exact harg a (List.mem_of_getElem? ha)
    · cases List.mem_singleton.mp hr
      exact hcommand _ hop.cmd
    · cases List.mem_singleton.mp hr
  | true =>
    rw [Op.groups_of_locked hl] at h
    rw [List.mem_singleton.mp (List.mem_of_getElem? h)] at hr
    rcases List.mem_append.mp hr with hr | hr
    · obtain ⟨a, ha, heq⟩ := List.mem_map.mp hr
      cases heq
      exact harg a ha
    · cases List.mem_singleton.mp hr
      exact hcommand _ hop.cmd

/-! ### The assertions -/

/-- What a call has made true that does not hold the mutex throughout: its arguments are in their
registers until its command; the result is in its registers until it is read. -/
structure CallAsserts (hw : DumpResult) (m : Machine) (call : PtuCall) (pc : ℕ)
    (got : Reg → BitVec 32) : Prop where
  /-- The arguments. -/
  args : pc ≤ call.op.args.length → ∀ a ∈ call.op.args.take pc, m.regs a.1 = a.2
  /-- The result. -/
  dump : call.op.args.length < pc → ∃ n, IsDump m call n ∧
    (pc < call.op.groups.length → ∀ r ∈ dumpRegs call.op.cmd.1 call.op.cmd.2,
      m.regs r = hw n (call.op.args.map (·.2)) r) ∧
    ∀ r ∈ call.op.reads.take (pc - call.op.args.length - 1),
      r ∈ dumpRegs call.op.cmd.1 call.op.cmd.2 → got r = hw n (call.op.args.map (·.2)) r

/-- The assertion of a point. -/
def Asserts (hw : DumpResult) : PtuPoint → Machine → Prop
  | .idle, _ => True
  | .running call pc got, m => call.op.locked = false → CallAsserts hw m call pc got

theorem IsDump.append {m' : Machine} {n : ℕ} {new : List Executed} (h : IsDump m call n)
    (hlog : m'.log = new ++ m.log) : IsDump m' call n := by
  rw [IsDump, hlog, List.reverse_append,
    List.getElem?_append_left (List.getElem?_eq_some_iff.mp h).1]
  exact h

/-- The next group of a call that does not hold the mutex. -/
theorem own_loose {pc : ℕ} {group : List Access} (hm : CommandsOk m)
    (h : CallAsserts hw m call pc got) (hl : call.op.locked = false)
    (hgroup : call.op.groups[pc]? = some group) :
    CommandsOk (accesses hw call group (m, got)).1 ∧
      CallAsserts hw (accesses hw call group (m, got)).1 call (pc + 1)
        (accesses hw call group (m, got)).2 := by
  have hop := call.wellFormed
  rcases Op.getElem?_groups hl hgroup with ⟨a, ha, rfl⟩ | ⟨rfl, rfl⟩ | ⟨r, hpc, hr, rfl⟩
  · -- an argument is written
    have hlt := (List.getElem?_eq_some_iff.mp ha).1
    have hmem := List.mem_of_getElem? ha
    obtain ⟨hcmd, -⟩ := hop.plain a.1 (List.mem_map_of_mem hmem)
    change CommandsOk (m.write hw call a.1 a.2) ∧
      CallAsserts hw (m.write hw call a.1 a.2) call (pc + 1) got
    refine ⟨fun e he => hm e (log_write hcmd ▸ he), fun _ b hb => ?_, fun hgt => by omega⟩
    rw [List.take_add_one, ha] at hb
    have hb' : b ∈ call.op.args := by
      rcases List.mem_append.mp hb with hb | hb
      · exact List.mem_of_mem_take hb
      · rw [List.mem_singleton.mp hb]
        exact hmem
    rw [regs_write (hop.plain b.1 (List.mem_map_of_mem hb')).2]
    by_cases heq : b.1 = a.1
    · rw [heq, Function.update_self, List.inj_on_of_nodup_map hop.nodup hb' hmem heq]
    · rw [Function.update_of_ne heq]
      rcases List.mem_append.mp hb with hb | hb
      · exact h.args (Nat.le_of_lt hlt) b hb
      · exact absurd (congrArg Prod.fst (List.mem_singleton.mp hb)) heq
  · -- the command is given
    have hargs : ∀ a ∈ call.op.args, m.regs a.1 = a.2 := fun a ha =>
      h.args le_rfl a (by rw [List.take_length]; exact ha)
    obtain ⟨hlog, hdump⟩ := write_cmd hw call hop hargs
    change CommandsOk (m.write hw call call.op.cmd.1 call.op.cmd.2) ∧
      CallAsserts hw (m.write hw call call.op.cmd.1 call.op.cmd.2) call _ got
    refine ⟨fun e he => ?_, fun hle => by omega, fun _ => ⟨m.log.length, ?_, fun _ => hdump, ?_⟩⟩
    · rw [hlog] at he
      rcases List.mem_cons.mp he with rfl | he
      · rfl
      · exact hm e he
    · rw [IsDump, hlog, List.reverse_cons, List.getElem?_append_right (by rw [List.length_reverse]),
        List.length_reverse, Nat.sub_self, List.getElem?_cons_zero]
    · rw [Nat.add_sub_cancel_left, Nat.sub_self, List.take_zero]
      exact fun r hr => by cases hr
  · -- a register is read
    change CommandsOk m ∧
      CallAsserts hw m call (pc + 1) (Function.update got r (m.regs r))
    obtain ⟨n, hn, hregs, hgot⟩ := h.dump hpc
    have hlt := (List.getElem?_eq_some_iff.mp hgroup).1
    refine ⟨hm, fun hle => by omega, fun _ => ⟨n, hn, fun _ => hregs hlt, fun x hx hxd => ?_⟩⟩
    by_cases heq : x = r
    · rw [heq, Function.update_self]
      exact hregs hlt r (heq ▸ hxd)
    · rw [Function.update_of_ne heq]
      rw [show pc + 1 - call.op.args.length - 1 = pc - call.op.args.length - 1 + 1 by omega,
        List.take_add_one, hr] at hx
      rcases List.mem_append.mp hx with hx | hx
      · exact hgot x hx hxd
      · exact absurd (List.mem_singleton.mp hx) heq

/-- The group of a call that holds the mutex. -/
theorem own_locked {pc : ℕ} {group : List Access} (hm : CommandsOk m)
    (hl : call.op.locked = true) (hgroup : call.op.groups[pc]? = some group) :
    CommandsOk (accesses hw call group (m, got)).1 := by
  have hop := call.wellFormed
  rw [Op.groups_of_locked hl] at hgroup
  rw [List.mem_singleton.mp (List.mem_of_getElem? hgroup)]
  obtain ⟨m', heq, hlog, hregs, -⟩ := accesses_args (m := m) hw call got
    hop.plain hop.nodup
  rw [accesses_append, heq]
  intro e he
  have he' : e ∈ (m'.write hw call call.op.cmd.1 call.op.cmd.2).log := he
  rw [(write_cmd hw call hop hregs).1, hlog] at he'
  rcases List.mem_cons.mp he' with rfl | he'
  · rfl
  · exact hm e he'

/-- What each access of an operation makes true. -/
theorem asserts_own (move : PtuMove) (p : PtuPoint) (m : Machine) (p' : PtuPoint) (m' : Machine)
    (hm : CommandsOk m) (hp : Asserts hw p m) (h : ptuNext hw move p m = some (p', m')) :
    CommandsOk m' ∧ Asserts hw p' m' := by
  cases move with
  | call call =>
    cases p with
    | running call' pc got => cases h
    | idle =>
      cases h
      refine ⟨hm, ?_⟩
      split
      · exact fun _ => ⟨fun _ a ha => (by cases ha), fun hlt => (by cases hlt)⟩
      · trivial
  | go =>
    cases p with
    | idle => cases h
    | running call pc got =>
      dsimp only [ptuNext] at h
      split at h
      · cases h
        exact ⟨hm, trivial⟩
      · next group hgroup =>
        cases h
        cases hl : call.op.locked with
        | true => exact ⟨own_locked hm hl hgroup, fun hl' => by rw [hl] at hl'; cases hl'⟩
        | false =>
          obtain ⟨hm', hcall⟩ := own_loose hm (hp hl) hl hgroup
          exact ⟨hm', fun _ => hcall⟩

/-- What the accesses of another call keep. -/
theorem asserts_others {p : PtuPoint} {call' : PtuCall} {pc' : ℕ} {group : List Access}
    (hp : Asserts hw p m) (hgroup : call'.op.groups[pc']? = some group)
    (hcond : p.Undisturbed group) : Asserts hw p (accesses hw call' group (m, got)).1 := by
  cases p with
  | idle => trivial
  | running call pc got' =>
    intro hl
    have h := hp hl
    obtain ⟨hargs, hdump⟩ := hcond hl
    have hop := call.wellFormed
    obtain ⟨new, hlog⟩ := log_accesses (m := m) hw call' got group
    refine ⟨fun hle a ha => ?_, fun hlt => ?_⟩
    · exact regs_accesses_arg (hop.plain a.1 (List.mem_map_of_mem (List.mem_of_mem_take ha))).2
        (hargs hle a ha) (h.args hle a ha)
    · obtain ⟨n, hn, hregs, hgot⟩ := h.dump hlt
      refine ⟨n, hn.append hlog, fun hpc r hr => ?_, hgot⟩
      rw [regs_accesses_dump hr
        (fun r' v' => not_isDump_of_mem_groups call'.wellFormed hgroup) (hdump hlt hpc)]
      exact hregs hpc r hr

/-! ### Runs -/

theorem FpgaDumpTcb.ofRegs_congr {f g : Reg → BitVec 32} (h : ∀ r ∈ tcbRegs, f r = g r) :
    ofRegs f = ofRegs g := by
  simp only [tcbRegs, List.forall_mem_cons] at h
  simp only [ofRegs, h]

theorem FpgaArpEntry.ofRegs_congr {f g : Reg → BitVec 32} (h : ∀ r ∈ arpRegs, f r = g r) :
    ofRegs f = ofRegs g := by
  simp only [arpRegs, List.forall_mem_cons] at h
  simp only [ofRegs, h]

/-- The assertion of a call that has made all its accesses. -/
theorem returnOk_of_asserts {p : PtuPoint} (hp : Asserts hw p m) : ReturnOk hw m p := by
  cases p with
  | idle => trivial
  | running call pc got =>
    rintro rfl
    cases call with
    | dumpTcb cid =>
      obtain ⟨n, hn, -, hgot⟩ := (hp rfl).dump (Op.length_args_lt rfl)
      exact ⟨n, hn, FpgaDumpTcb.ofRegs_congr fun r hr => hgot r hr hr⟩
    | getArpEntry index =>
      obtain ⟨n, hn, -, hgot⟩ := (hp rfl).dump (Op.length_args_lt rfl)
      exact ⟨n, hn, FpgaArpEntry.ofRegs_congr fun r hr => hgot r (List.mem_cons_of_mem _ hr) hr⟩
    | _ => trivial

/-- All threads idle, nothing executed. -/
def mailboxInit (ι : Type) (regs : Reg → BitVec 32) : Procs ι PtuPoint Machine :=
  ⟨⟨regs, []⟩, fun _ => .idle⟩

/-- In every run of calls by any number of threads in which no step disturbs another thread, every
command acts on the arguments of its call, and every dump returned is that of a command of the
call. -/
theorem mailbox_sound {ι : Type} [DecidableEq ι] (hw : DumpResult) (regs : Reg → BitVec 32)
    (acts : List (ι × PtuMove))
    (h : Along (Procs.step (ptuNext hw)) Undisturbed (mailboxInit ι regs) acts) :
    Always (Procs.step (ptuNext hw)) (MailboxOk hw) (mailboxInit ι regs) acts := by
  have hinit : Procs.Asserted CommandsOk (Asserts hw) (mailboxInit ι regs) :=
    ⟨fun e he => (by cases he), fun _ => trivial⟩
  refine (Procs.always_asserted asserts_own (fun s i move p' m' j hcond hs hstep hj => ?_) hinit
    h).mono fun s hs => ⟨hs.state, fun i => returnOk_of_asserts (hs.points i)⟩
  have hasserts := hs.points j
  cases move with
  | call call =>
    cases hp : s.points i with rw [hp] at hstep
    | running call' pc got => cases hstep
    | idle => cases hstep; exact hasserts
  | go =>
    cases hp : s.points i with rw [hp] at hstep
    | idle => cases hstep
    | running call pc got =>
      dsimp only [ptuNext] at hstep
      split at hstep
      · cases hstep; exact hasserts
      · next group hgroup =>
        cases hstep
        simp only [Undisturbed, hp] at hcond
        exact asserts_others hasserts hgroup (hcond group hgroup j hj)

/-! ### Where the code is wrong -/

instance (a : Reg × BitVec 32) : ∀ x : Access, Decidable (x.Keeps a)
  | .write r v => inferInstanceAs (Decidable (r = a.1 → v = a.2))
  | .read _ => isTrue trivial

instance (group : List Access) : ∀ p : PtuPoint, Decidable (p.Undisturbed group)
  | .idle => isTrue trivial
  | .running call pc _ => inferInstanceAs (Decidable (call.op.locked = false →
      (pc ≤ call.op.args.length → ∀ a ∈ call.op.args.take pc, ∀ x ∈ group, x.Keeps a) ∧
      (call.op.args.length < pc → pc < call.op.groups.length →
        .write call.op.cmd.1 call.op.cmd.2 ∉ group)))

instance {ι : Type} [DecidableEq ι] [Fintype ι] (s : Procs ι PtuPoint Machine) :
    ∀ a, Decidable (Undisturbed s a)
  | (_, .call _) => isTrue (by simp only [Undisturbed])
  | (i, .go) =>
    match h : s.points i with
    | .idle => isTrue (by simp only [Undisturbed, h])
    | .running call pc _ => decidable_of_iff (∀ group ∈ call.op.groups[pc]?, ∀ j, j ≠ i →
        (s.points j).Undisturbed group) (by simp only [Undisturbed, h])

/-- A device whose dumps show what they were asked for. -/
def echo : DumpResult := fun _ args _ => args.headD 0

/-- The event thread releases cid 2 while another thread dumps cid 1. -/
def releaseRun : List (Bool × PtuMove) :=
  [(false, .call (.dumpTcb 1)), (false, .go), (true, .call (.release 2)), (true, .go), (false, .go)]

/-- An entry of the ARP table is deleted while another one is set. -/
def arpRun : List (Bool × PtuMove) :=
  [(false, .call (.setArpEntry 1 (.replicate 6 0))), (false, .go), (true, .call (.delArpEntry 2)),
    (true, .go), (false, .go), (false, .go), (false, .go)]

/-- Cid 2 is dumped after the command that dumps cid 1. -/
def dumpRun : List (Bool × PtuMove) :=
  [(false, .call (.dumpTcb 1)), (false, .go), (false, .go), (true, .call (.dumpTcb 2)), (true, .go),
    (true, .go)] ++ List.replicate 7 (false, .go)

/-- The cid and the result of a `fpga_ptu_dump_tcb` that has made all its accesses. -/
def PtuPoint.dumped : PtuPoint → Option (BitVec 32 × FpgaDumpTcb)
  | .running (.dumpTcb cid) pc got =>
    if pc = (fpgaPtuDumpTcb cid).groups.length then some (cid, .ofRegs got) else none
  | _ => none

theorem ReturnOk.dumped {p : PtuPoint} (h : ReturnOk hw m p) {cid : BitVec 32} {d : FpgaDumpTcb}
    (hd : p.dumped = some (cid, d)) : ∃ n, d = .ofRegs (hw n [cid]) := by
  unfold PtuPoint.dumped at hd
  split at hd
  · obtain ⟨hpc, heq⟩ := Option.ite_none_right_eq_some.mp hd
    cases heq
    obtain ⟨n, -, hn⟩ := h hpc
    exact ⟨n, hn⟩
  · cases hd

/-- A command that acts on what its call has not written. -/
theorem not_always_of_log {acts : List (Bool × PtuMove)}
    (h : (run (Procs.step (ptuNext echo)) (mailboxInit Bool 0) acts).any
      (fun s => s.state.log.any fun e => e.args ≠ e.call.op.args.map (·.2)) = true) :
    ¬ Always (Procs.step (ptuNext echo)) (MailboxOk echo) (mailboxInit Bool 0) acts := by
  intro halways
  obtain ⟨s, hs, hlog⟩ := Option.any_eq_true _ _ |>.mp h
  obtain ⟨e, he, hne⟩ := List.any_eq_true.mp hlog
  exact of_decide_eq_true hne ((halways.last hs).commands e he)

/-- A release between the cid and the command of a dump, a deletion between the address and the
command of an ARP entry, and a dump between another one and its registers break what is promised. -/
theorem not_mailbox_sound :
    ¬ Always (Procs.step (ptuNext echo)) (MailboxOk echo) (mailboxInit Bool 0) releaseRun ∧
    ¬ Always (Procs.step (ptuNext echo)) (MailboxOk echo) (mailboxInit Bool 0) arpRun ∧
    ¬ Always (Procs.step (ptuNext echo)) (MailboxOk echo) (mailboxInit Bool 0) dumpRun := by
  refine ⟨not_always_of_log (by decide +kernel), not_always_of_log (by decide +kernel),
    fun halways => ?_⟩
  have hdumped : (run (Procs.step (ptuNext echo)) (mailboxInit Bool 0) dumpRun).any
      (fun s => (s.points false).dumped = some (1, ⟨2, 2, 2, 2, 2, 2, 2⟩)) = true := by
    decide +kernel
  obtain ⟨s, hs, hd⟩ := Option.any_eq_true _ _ |>.mp hdumped
  obtain ⟨n, hn⟩ := ((halways.last hs).returns false).dumped (of_decide_eq_true hd)
  have hread : (2 : BitVec 32) = 1 := congrArg FpgaDumpTcb.tcbUsrRead hn
  exact absurd hread (by decide)

/-- Cid 1 is dumped; cid 2 is released after the command. -/
def quietRun : List (Bool × PtuMove) :=
  [(false, .call (.dumpTcb 1)), (false, .go), (false, .go), (true, .call (.release 2)),
    (true, .go)] ++ List.replicate 7 (false, .go)

theorem mailbox_sound_quietRun :
    (run (Procs.step (ptuNext echo)) (mailboxInit Bool 0) quietRun).any
        (fun s => (s.points false).dumped = some (1, ⟨1, 1, 1, 1, 1, 1, 1⟩)) = true ∧
      Always (Procs.step (ptuNext echo)) (MailboxOk echo) (mailboxInit Bool 0) quietRun :=
  ⟨by decide +kernel, mailbox_sound echo 0 quietRun (by decide +kernel)⟩

end HardwareDrivers.Libptu
