import HardwareDrivers.Libptu.Mailbox
import HardwareDrivers.Libptu.PtuDev
import HardwareDrivers.Theory.PointerMap

/-!
# The lanes of the PTU library

`libptu.cpp` keeps its devices in a map from a device id and a lane. `fpga_ptu_init` puts one in,
`fpga_ptu_exit` takes it out, and every other call does something with the one that is there. Most
of them ask with `find` first whether there is one; `fpga_ptu_listen`, `fpga_ptu_listen_close`,
`fpga_ptu_accept`, `fpga_ptu_connect` and `fpga_ptu_disconnect` go through `operator[]` at once.

A call is one step here; what happens during it (what the registers hold, what the event thread
makes of the sockets while a call waits) comes from outside.

## What is proved

* `LaneCall.run_missing` — a call that asks first does nothing where there is no device.
* `LaneCall.run_subscript` — one that does not comes to a null device.
* `Tracks.step` — the map has the pairs that were initialised, and no null device.
* `laneCallsRight_iff` — a sequence of calls does what it should exactly if those five are only made
  for pairs that are initialised.
-/

namespace HardwareDrivers.Libptu.Lane

open Theory

/-! ### Devices -/

/-- The registers of `ptu_reg.h` that `libptu.cpp` uses. -/
inductive PtuReg where
  /-- Those of the command mailbox. -/
  | box (r : Reg)
  | myIpv4Addr | myIpv4Subnet | myIpv4Gateway | myMacHi | myMacLo | tcprxtxBase | tcpRetTimer
  | rtprxBase | rtprxPort | rtprxEna0 | rtprxEna1 | rtprxRst0 | rtprxRst1
  | arpStatus | tcpEventMiss | tcpEventCnt | tcpCmdCnt
  | recvFrameCnt | recvRawethCnt | dropRawethCnt | recvRawipCnt | dropRawipCnt | recvTcpCnt
  | dropTcpCnt | sendFrameCnt | sendRawethCnt | sendRawipCnt | sendTcpCnt | tcpCtlStatus
  | rawethRxCmdCnt | rawethRxLen
  deriving DecidableEq

/-- What is read from the registers. -/
abbrev Hardware := PtuReg → BitVec 32

/-- A write to a register. -/
structure RegWrite where
  /-- The file descriptor. -/
  fd : ℤ
  /-- The base of the PTU. -/
  base : BitVec 32
  /-- The register. -/
  reg : PtuReg
  /-- The value. -/
  value : BitVec 32
  deriving DecidableEq

/-- `ptu_dev`. -/
structure PtuDev where
  /-- `fd_`. -/
  fd : ℤ
  /-- `id_`. -/
  id : BitVec 32
  /-- `dev_id_`. -/
  devId : BitVec 32
  /-- `base_`. -/
  base : BitVec 32
  /-- `ip_addr_`. -/
  ipAddr : BitVec 32
  /-- `stop_evt_`. -/
  stopEvt : Bool
  /-- `th_evt_` can be joined. -/
  thEvt : Bool
  /-- `listen_socks_`. -/
  listenSocks : List (BitVec 16)
  /-- `socks_`. -/
  socks : Socks

/-- `fpga_arp_status_t`. -/
structure FpgaArpStatus where
  /-- `sts_pmnt_rest`. -/
  stsPmntRest : BitVec 16
  /-- `sts_entry_evicted`. -/
  stsEntryEvicted : BitVec 8
  /-- `sts_aging_enabled`. -/
  stsAgingEnabled : BitVec 8
  /-- `sts_ipv4_conflicted`. -/
  stsIpv4Conflicted : BitVec 8
  deriving DecidableEq

/-- `fpga_ptu_stat_t`. -/
structure FpgaPtuStat where
  recvFrameCnt : BitVec 32
  recvRawethCnt : BitVec 32
  dropRawethCnt : BitVec 32
  recvRawipCnt : BitVec 32
  dropRawipCnt : BitVec 32
  recvTcpCnt : BitVec 32
  dropTcpCnt : BitVec 32
  sendFrameCnt : BitVec 32
  sendRawethCnt : BitVec 32
  sendRawipCnt : BitVec 32
  sendTcpCnt : BitVec 32
  tcpCtlStatus : BitVec 32
  rawethRxCmdCnt : BitVec 32
  rawethRxLen : BitVec 32
  tcpEventMiss : BitVec 16
  tcpEventMissQueue : BitVec 16
  tcpEventCnt : BitVec 16
  tcpEventMerge : BitVec 16
  tcpCmdCnt : BitVec 16
  tcpCmdCntAvail : BitVec 8
  deriving DecidableEq

/-- What a call stores for its caller. -/
inductive PtuOut where
  /-- `*cid`. -/
  | cid (cid : BitVec 32)
  /-- `*addr`, `*subnet`, `*gateway` and `mac`. -/
  | setting (addr subnet gateway : BitVec 32) (mac : Mac)
  /-- `*arp_status`. -/
  | arpStatus (status : FpgaArpStatus)
  /-- `*arp_entry`. -/
  | arpEntry (entry : FpgaArpEntry)
  /-- `*ptu_stat`. -/
  | stat (stat : FpgaPtuStat)
  /-- `*dump_tcb`. -/
  | tcb (tcb : FpgaDumpTcb)
  /-- `*is_success`. -/
  | success (isSuccess : Bool)

/-- What a method of a device comes to. -/
structure PtuAnswer where
  /-- What it returns. -/
  ret : ℤ
  /-- What it stores. -/
  out : Option PtuOut
  /-- What it writes. -/
  writes : List RegWrite

/-- `reg_write`, several times. -/
def PtuDev.regWrite (dev : PtuDev) (writes : List (PtuReg × BitVec 32)) : List RegWrite :=
  writes.map fun w => ⟨dev.fd, dev.base, w.1, w.2⟩

/-- The writes of an operation of the mailbox. -/
def PtuDev.command (dev : PtuDev) (op : Op) : List RegWrite :=
  dev.regWrite ((op.args ++ [op.cmd]).map fun w => (.box w.1, w.2))

/-- A method that writes and returns `0`. -/
def writing (writes : PtuDev → List RegWrite) (dev : PtuDev) : PtuAnswer × PtuDev :=
  (⟨0, none, writes dev⟩, dev)

/-- What `init` and `modify` write first. -/
def settingWrites (ipAddr gateway : BitVec 32) (mac : Mac) : List (PtuReg × BitVec 32) :=
  [(.myIpv4Addr, ipAddr), (.myIpv4Gateway, gateway), (.myMacHi, macHi mac), (.myMacLo, macLo mac)]

/-- `ptu_dev::init`; the mask is not written. -/
def PtuDev.init (ipAddr _netmask gateway : BitVec 32) (mac : Mac) (dev : PtuDev) :
    PtuAnswer × PtuDev :=
  (⟨0, none, dev.regWrite (settingWrites ipAddr gateway mac ++ [(.tcprxtxBase, 0x200000)])⟩,
    { dev with ipAddr })

/-- `ptu_dev::modify`. -/
def PtuDev.modify (ipAddr gateway : BitVec 32) (mac : Mac) (dev : PtuDev) : PtuAnswer × PtuDev :=
  (⟨0, none, dev.regWrite (settingWrites ipAddr gateway mac)⟩, { dev with ipAddr })

/-- `ptu_dev::listen`. -/
def PtuDev.listen (lport : BitVec 16) (dev : PtuDev) : PtuAnswer × PtuDev :=
  if dev.listenSocks.contains lport then (⟨-1, none, []⟩, dev)
  else (⟨0, none, dev.command (tcpListen lport)⟩,
    { dev with listenSocks := lport :: dev.listenSocks })

/-- `ptu_dev::listen_close`. -/
def PtuDev.listenClose (lport : BitVec 16) (dev : PtuDev) : PtuAnswer × PtuDev :=
  if !dev.listenSocks.contains lport then (⟨-1, none, []⟩, dev)
  else (⟨0, none, dev.command (tcpListenClose lport)⟩,
    { dev with listenSocks := dev.listenSocks.erase lport })

/-- What comes of a wait for the sockets. -/
structure SockWait where
  /-- The timeout passes, if there is one. -/
  timedOut : Bool
  /-- The sockets at the end. -/
  socks : Socks

/-- `ptu_dev::accept`. -/
def PtuDev.accept (lport : BitVec 16) (raddr : BitVec 32) (rport : BitVec 16)
    (timeoutUs : BitVec 64) (wait : SockWait) (dev : PtuDev) : PtuAnswer × PtuDev :=
  let info : SockInfo := ⟨dev.ipAddr, lport, raddr, rport⟩
  match establishedCid dev.socks info with
  | some cid => (⟨0, some (.cid (cid.setWidth 32)), []⟩, dev)
  | none =>
    if !dev.listenSocks.contains lport then (⟨-3, none, []⟩, dev)
    else
      let dev := { dev with socks := wait.socks }
      if timeoutUs ≠ 0 ∧ wait.timedOut then (⟨-1, none, []⟩, dev)
      else match establishedCid dev.socks info with
        | some cid => (⟨0, some (.cid (cid.setWidth 32)), []⟩, dev)
        | none => (⟨-2, none, []⟩, dev)

/-- `ptu_dev::connect`. -/
def PtuDev.connect (lport : BitVec 16) (raddr : BitVec 32) (rport : BitVec 16)
    (timeoutUs : BitVec 64) (wait : SockWait) (dev : PtuDev) : PtuAnswer × PtuDev :=
  let info : SockInfo := ⟨dev.ipAddr, lport, raddr, rport⟩
  if info ∈ dev.socks then (⟨-3, none, []⟩, dev)
  else
    let writes := dev.command (tcpConnect lport raddr rport)
    let dev := { dev with socks := wait.socks }
    if timeoutUs ≠ 0 ∧ wait.timedOut then (⟨-1, none, writes⟩, dev)
    else match establishedCid dev.socks info with
      | some cid => (⟨0, some (.cid (cid.setWidth 32)), writes⟩, dev)
      | none => (⟨-2, none, writes⟩, dev)

/-- `ptu_dev::abort`. -/
def PtuDev.abort (cid : BitVec 32) (dev : PtuDev) : PtuAnswer × PtuDev :=
  if hasCid dev.socks cid then (⟨0, none, dev.command (tcpAbort (cid.setWidth 16))⟩, dev)
  else (⟨-1, none, []⟩, dev)

/-- `ptu_dev::start_event`. -/
def PtuDev.startEvent (dev : PtuDev) : PtuDev := { dev with thEvt := true }

/-- `ptu_dev::stop_event`. -/
def PtuDev.stopEvent (dev : PtuDev) : PtuDev := { dev with stopEvt := true, thEvt := false }

/-- `~ptu_dev`: what it writes. -/
def PtuDev.destroy (dev : PtuDev) : List RegWrite :=
  dev.listenSocks.flatMap fun lport => dev.command (tcpListenClose lport)

/-! ### The library -/

/-- A device id and a lane. -/
abbrev Pair := BitVec 32 × BitVec 32

/-- `ptu_devices`, and what was written to the registers. -/
structure PtuLib where
  /-- `ptu_devices`. -/
  ptuDevices : PointerMap Pair PtuDev
  /-- The writes. -/
  bus : List RegWrite

/-- What a call comes to. -/
inductive PtuOutcome where
  /-- It returns, and stores something. -/
  | returned (ret : ℤ) (out : Option PtuOut)
  /-- A null device is dereferenced. -/
  | nullDevice

/-- `ptu_devices[pair]->method()`. -/
def arrow (pair : Pair) (method : PtuDev → PtuAnswer × PtuDev) (lib : PtuLib) :
    PtuOutcome × PtuLib :=
  match lib.ptuDevices.arrow pair method with
  | (some answer, ptuDevices) =>
    (.returned answer.ret answer.out, ⟨ptuDevices, lib.bus ++ answer.writes⟩)
  | (none, ptuDevices) => (.nullDevice, { lib with ptuDevices })

/-- The same after `find`, with what is returned where there is no device. -/
def found (missing : ℤ) (pair : Pair) (method : PtuDev → PtuAnswer × PtuDev) (lib : PtuLib) :
    PtuOutcome × PtuLib :=
  if lib.ptuDevices.contains pair then arrow pair method lib else (.returned missing none, lib)

/-- `-FAILURE_DEVICE_OPEN`. -/
def failureDeviceOpen : ℤ := -7

/-- `-INVALID_ARGUMENT`. -/
def invalidArgument : ℤ := -4

/-- `PTU_BASE`. -/
def ptuBase : BitVec 32 := 0x00020000

/-- `fpga_ptu_init`, with the descriptor of the device that `fpga_get_device` finds. -/
def fpgaPtuInit (dev : Option ℤ) (addr subnet gateway : BitVec 32) (mac : Mac) (pair : Pair)
    (lib : PtuLib) : PtuOutcome × PtuLib :=
  match dev with
  | none => (.returned (-1) none, lib)
  | some fd =>
    if lib.ptuDevices.contains pair then (.returned (-1) none, lib)
    else
      let new : PtuDev := ⟨fd, pair.2, pair.1, ptuBase + 0x1000 * pair.2, 0, false, false, [], ∅⟩
      arrow pair (fun dev =>
          let (answer, dev) := dev.init addr subnet gateway mac
          if answer.ret ≠ 0 then ({ answer with ret := -1 }, dev)
          else
            let timer := dev.regWrite [(.tcpRetTimer, 20 <<< 20 ||| 6000 <<< 4 ||| 1 <<< 3 ||| 5)]
            ({ answer with writes := answer.writes ++ timer }, dev.startEvent))
        { lib with ptuDevices := lib.ptuDevices.assign pair new }

/-- `fpga_ptu_exit`. -/
def fpgaPtuExit (pair : Pair) (lib : PtuLib) : PtuOutcome × PtuLib :=
  match lib.ptuDevices pair with
  | none => (.returned (-1) none, lib)
  | some none => (.nullDevice, lib)
  | some (some dev) =>
    (.returned 0 none, ⟨lib.ptuDevices.erase pair, lib.bus ++ dev.stopEvent.destroy⟩)

/-- `fpga_ptu_rtp`. -/
def fpgaPtuRtp (rtpSport rtpEport : BitVec 16) (pair : Pair) : PtuLib → PtuOutcome × PtuLib :=
  found (-1) pair (writing fun dev => dev.regWrite
    [(.rtprxEna0, 0xffffffff), (.rtprxEna1, 0xffffffff), (.rtprxBase, 32 * 2 * 32 * 1024 * 1024),
      (.rtprxPort, rtpSport.setWidth 32 <<< 16 ||| rtpEport.setWidth 32)])

/-- `fpga_ptu_rtp_reset`. -/
def fpgaPtuRtpReset (pair : Pair) : PtuLib → PtuOutcome × PtuLib :=
  found (-1) pair (writing fun dev => dev.regWrite
    [(.rtprxRst0, 0xffffffff), (.rtprxRst1, 0xffffffff)])

/-- `fpga_ptu_listen`. -/
def fpgaPtuListen (port : BitVec 16) (pair : Pair) : PtuLib → PtuOutcome × PtuLib :=
  arrow pair fun dev =>
    let (answer, dev) := dev.listen port
    ({ answer with ret := if answer.ret ≠ 0 then -1 else 0 }, dev)

/-- `fpga_ptu_listen_close`. -/
def fpgaPtuListenClose (port : BitVec 16) (pair : Pair) : PtuLib → PtuOutcome × PtuLib :=
  arrow pair (·.listenClose port)

/-- `timeout_us`, from the seconds and microseconds of `timeout`. -/
def timeoutUs : Option (ℤ × ℤ) → BitVec 64
  | none => 0
  | some (sec, usec) => BitVec.ofInt 64 (sec * 1000000 + usec)

/-- `fpga_ptu_accept`. -/
def fpgaPtuAccept (lport : BitVec 16) (raddr : BitVec 32) (rport : BitVec 16)
    (timeout : Option (ℤ × ℤ)) (wait : SockWait) (pair : Pair) : PtuLib → PtuOutcome × PtuLib :=
  arrow pair (·.accept lport raddr rport (timeoutUs timeout) wait)

/-- `fpga_ptu_connect`. -/
def fpgaPtuConnect (lport : BitVec 16) (raddr : BitVec 32) (rport : BitVec 16)
    (timeout : Option (ℤ × ℤ)) (wait : SockWait) (pair : Pair) : PtuLib → PtuOutcome × PtuLib :=
  arrow pair (·.connect lport raddr rport (timeoutUs timeout) wait)

/-- `fpga_ptu_disconnect`. -/
def fpgaPtuDisconnect (cid : BitVec 32) (pair : Pair) : PtuLib → PtuOutcome × PtuLib :=
  arrow pair (·.abort cid)

/-- `fpga_ptu_mod_setting`. -/
def fpgaPtuModSetting (addr gateway : BitVec 32) (mac : Mac) (pair : Pair) :
    PtuLib → PtuOutcome × PtuLib :=
  found failureDeviceOpen pair fun dev =>
    let (answer, dev) := dev.modify addr gateway mac
    ({ answer with ret := 0 }, dev)

/-- A call that reads, after the check of its pointers. -/
def reading (valid : Bool) (writes : PtuDev → List RegWrite) (out : PtuOut) (pair : Pair)
    (lib : PtuLib) : PtuOutcome × PtuLib :=
  if valid then
    found failureDeviceOpen pair (fun dev => (⟨0, some out, writes dev⟩, dev)) lib
  else (.returned invalidArgument none, lib)

/-- `fpga_ptu_get_setting`. -/
def fpgaPtuGetSetting (addr subnet gateway : Bool) (hw : Hardware) : Pair → PtuLib → PtuOutcome × PtuLib :=
  reading (addr && subnet && gateway) (fun _ => [])
    (.setting (hw .myIpv4Addr) (hw .myIpv4Subnet) (hw .myIpv4Gateway)
      #v[((hw .myMacHi &&& 0x0000ff00) >>> 8).setWidth 8, (hw .myMacHi &&& 0x000000ff).setWidth 8,
        ((hw .myMacLo &&& 0xff000000) >>> 24).setWidth 8,
        ((hw .myMacLo &&& 0x00ff0000) >>> 16).setWidth 8,
        ((hw .myMacLo &&& 0x0000ff00) >>> 8).setWidth 8, (hw .myMacLo &&& 0x000000ff).setWidth 8])

/-- A call that gives a command of the mailbox and reads nothing. -/
def commanding (op : Op) (pair : Pair) : PtuLib → PtuOutcome × PtuLib :=
  found failureDeviceOpen pair (writing fun dev => dev.command op)

/-- `fpga_ptu_set_arp_entry`. -/
def fpgaPtuSetArpEntry (addr : BitVec 32) (mac : Mac) : Pair → PtuLib → PtuOutcome × PtuLib :=
  commanding (Libptu.fpgaPtuSetArpEntry addr mac)

/-- `fpga_ptu_del_arp_entry`. -/
def fpgaPtuDelArpEntry (addr : BitVec 32) : Pair → PtuLib → PtuOutcome × PtuLib :=
  commanding (Libptu.fpgaPtuDelArpEntry addr)

/-- `fpga_ptu_set_arp_retry`. -/
def fpgaPtuSetArpRetry (timeout retryNum : BitVec 16) (pair : Pair) (lib : PtuLib) :
    PtuOutcome × PtuLib :=
  if timeout > 511 ∨ retryNum > 15 then (.returned invalidArgument none, lib)
  else commanding (Libptu.fpgaPtuSetArpRetry timeout retryNum) pair lib

/-- `fpga_ptu_set_arp_aging_en`. -/
def fpgaPtuSetArpAgingEn (enableFlag : BitVec 8) (pair : Pair) (lib : PtuLib) :
    PtuOutcome × PtuLib :=
  if enableFlag > 1 then (.returned invalidArgument none, lib)
  else found failureDeviceOpen pair (writing fun dev => dev.regWrite
    [(.box .arpCommand, if enableFlag = 1 then 5 else 4)]) lib

/-- `fpga_ptu_get_arp_status`. -/
def fpgaPtuGetArpStatus (arpStatus : Bool) (hw : Hardware) : Pair → PtuLib → PtuOutcome × PtuLib :=
  reading arpStatus (fun _ => []) (.arpStatus
    { stsPmntRest := (hw .arpStatus &&& 0x0000ffff).setWidth 16
      stsEntryEvicted := ((hw .arpStatus &&& 0x80000000) >>> 31).setWidth 8
      stsAgingEnabled := ((hw .arpStatus &&& 0x40000000) >>> 30).setWidth 8
      stsIpv4Conflicted := ((hw .arpStatus &&& 0x20000000) >>> 29).setWidth 8 })

/-- `fpga_ptu_clear_arp_status`. -/
def fpgaPtuClearArpStatus (arpStatus : FpgaArpStatus) (pair : Pair) : PtuLib → PtuOutcome × PtuLib :=
  found failureDeviceOpen pair (writing fun dev => dev.regWrite
    [(.arpStatus, (arpStatus.stsEntryEvicted &&& 0x01).setWidth 32 <<< 31 |||
      (arpStatus.stsIpv4Conflicted &&& 0x01).setWidth 32 <<< 29)])

/-- `fpga_ptu_get_arp_entry`. -/
def fpgaPtuGetArpEntry (index : BitVec 8) (arpEntry : Bool) (hw : Hardware) :
    Pair → PtuLib → PtuOutcome × PtuLib :=
  reading arpEntry (fun dev => dev.command (Libptu.fpgaPtuGetArpEntry index))
    (.arpEntry (FpgaArpEntry.ofRegs fun r => hw (.box r)))

/-- `fpga_ptu_get_stat`: the counts of UDP are overwritten by those of TCP. -/
def fpgaPtuGetStat (ptuStat : Bool) (hw : Hardware) : Pair → PtuLib → PtuOutcome × PtuLib :=
  reading ptuStat (fun _ => []) (.stat
    { recvFrameCnt := hw .recvFrameCnt
      recvRawethCnt := hw .recvRawethCnt
      dropRawethCnt := hw .dropRawethCnt
      recvRawipCnt := hw .recvRawipCnt
      dropRawipCnt := hw .dropRawipCnt
      recvTcpCnt := hw .recvTcpCnt
      dropTcpCnt := hw .dropTcpCnt
      sendFrameCnt := hw .sendFrameCnt
      sendRawethCnt := hw .sendRawethCnt
      sendRawipCnt := hw .sendRawipCnt
      sendTcpCnt := hw .sendTcpCnt
      tcpCtlStatus := hw .tcpCtlStatus
      rawethRxCmdCnt := hw .rawethRxCmdCnt
      rawethRxLen := hw .rawethRxLen
      tcpEventMiss := ((hw .tcpEventMiss &&& 0xffff0000) >>> 16).setWidth 16
      tcpEventMissQueue := (hw .tcpEventMiss &&& 0x0000ffff).setWidth 16
      tcpEventCnt := ((hw .tcpEventCnt &&& 0xffff0000) >>> 16).setWidth 16
      tcpEventMerge := (hw .tcpEventCnt &&& 0x0000ffff).setWidth 16
      tcpCmdCnt := ((hw .tcpCmdCnt &&& 0xffff0000) >>> 16).setWidth 16
      tcpCmdCntAvail := (hw .tcpCmdCnt &&& 0x000000ff).setWidth 8 })

/-- `fpga_ptu_dump_tcb`. -/
def fpgaPtuDumpTcb (cid : BitVec 32) (dump : Bool) (hw : Hardware) : Pair → PtuLib → PtuOutcome × PtuLib :=
  reading (dump && !(cid < 1 || cid > 511)) (fun dev => dev.command (Libptu.fpgaPtuDumpTcb cid))
    (.tcb (FpgaDumpTcb.ofRegs fun r => hw (.box r)))

/-- `__fpga_ptu_wait_tcb_buffer_empty_clb`. -/
def waitTcbClb (cid : BitVec 32) (hw : Hardware) (pair : Pair) (lib : PtuLib) :
    PtuOutcome × PtuLib :=
  match fpgaPtuDumpTcb cid true hw pair lib with
  | (.returned ret out, lib) =>
    if ret ≠ 0 then (.returned ret none, lib)
    else match out with
      | some (.tcb tcb) => (.returned (if tcb.tcbUsrWrt = tcb.tcbSndUna then 0 else 1) none, lib)
      | _ => (.returned 1 none, lib)
  | (.nullDevice, lib) => (.nullDevice, lib)

/-- `__fpga_common_polling` of it, where the timeout passes after so many more rounds. -/
def pollTcb (cid : BitVec 32) (hw : ℕ → Hardware) (pair : Pair) : ℕ → PtuLib → PtuOutcome × PtuLib
  | rounds, lib =>
    match waitTcbClb cid (hw rounds) pair lib with
    | (.returned ret _, lib) =>
      if ret ≤ 0 then (.returned ret none, lib)
      else match rounds with
        | 0 => (.returned ret none, lib)
        | rounds + 1 => pollTcb cid hw pair rounds lib
    | (.nullDevice, lib) => (.nullDevice, lib)

/-- `fpga_ptu_wait_tcb_buffer_empty`; the polling takes the place of a method here. -/
def fpgaPtuWaitTcbBufferEmpty (cid : BitVec 32) (isSuccess : Bool) (hw : ℕ → Hardware)
    (rounds : ℕ) (pair : Pair) (lib : PtuLib) : PtuOutcome × PtuLib :=
  if isSuccess = false ∨ cid < 1 ∨ cid > 511 then (.returned invalidArgument none, lib)
  else if lib.ptuDevices.contains pair then
    match pollTcb cid hw pair rounds lib with
    | (.returned ret _, lib) =>
      if ret < 0 then (.returned ret none, lib)
      else (.returned 0 (some (.success (ret = 0))), lib)
    | (.nullDevice, lib) => (.nullDevice, lib)
  else (.returned failureDeviceOpen none, lib)

/-! ### Calls -/

/-- A call, and what happens during it. -/
inductive LaneCall where
  /-- `fpga_ptu_init`. -/
  | init (dev : Option ℤ) (addr subnet gateway : BitVec 32) (mac : Mac)
  /-- `fpga_ptu_exit`. -/
  | exit
  /-- `fpga_ptu_rtp`. -/
  | rtp (rtpSport rtpEport : BitVec 16)
  /-- `fpga_ptu_rtp_reset`. -/
  | rtpReset
  /-- `fpga_ptu_listen`. -/
  | listen (port : BitVec 16)
  /-- `fpga_ptu_listen_close`. -/
  | listenClose (port : BitVec 16)
  /-- `fpga_ptu_accept`. -/
  | accept (lport : BitVec 16) (raddr : BitVec 32) (rport : BitVec 16) (timeout : Option (ℤ × ℤ))
    (wait : SockWait)
  /-- `fpga_ptu_connect`. -/
  | connect (lport : BitVec 16) (raddr : BitVec 32) (rport : BitVec 16) (timeout : Option (ℤ × ℤ))
    (wait : SockWait)
  /-- `fpga_ptu_disconnect`. -/
  | disconnect (cid : BitVec 32)
  /-- `fpga_ptu_mod_setting`. -/
  | modSetting (addr gateway : BitVec 32) (mac : Mac)
  /-- `fpga_ptu_get_setting`. -/
  | getSetting (addr subnet gateway : Bool) (hw : Hardware)
  /-- `fpga_ptu_set_arp_entry`. -/
  | setArpEntry (addr : BitVec 32) (mac : Mac)
  /-- `fpga_ptu_del_arp_entry`. -/
  | delArpEntry (addr : BitVec 32)
  /-- `fpga_ptu_set_arp_retry`. -/
  | setArpRetry (timeout retryNum : BitVec 16)
  /-- `fpga_ptu_set_arp_aging_en`. -/
  | setArpAgingEn (enableFlag : BitVec 8)
  /-- `fpga_ptu_get_arp_status`. -/
  | getArpStatus (arpStatus : Bool) (hw : Hardware)
  /-- `fpga_ptu_clear_arp_status`. -/
  | clearArpStatus (arpStatus : FpgaArpStatus)
  /-- `fpga_ptu_get_arp_entry`. -/
  | getArpEntry (index : BitVec 8) (arpEntry : Bool) (hw : Hardware)
  /-- `fpga_ptu_get_stat`. -/
  | getStat (ptuStat : Bool) (hw : Hardware)
  /-- `fpga_ptu_dump_tcb`. -/
  | dumpTcb (cid : BitVec 32) (dump : Bool) (hw : Hardware)
  /-- `fpga_ptu_wait_tcb_buffer_empty`. -/
  | waitTcbBufferEmpty (cid : BitVec 32) (isSuccess : Bool) (hw : ℕ → Hardware) (rounds : ℕ)

/-- The function that is called. -/
def LaneCall.run : LaneCall → Pair → PtuLib → PtuOutcome × PtuLib
  | .init dev addr subnet gateway mac => fpgaPtuInit dev addr subnet gateway mac
  | .exit => fpgaPtuExit
  | .rtp rtpSport rtpEport => fpgaPtuRtp rtpSport rtpEport
  | .rtpReset => fpgaPtuRtpReset
  | .listen port => fpgaPtuListen port
  | .listenClose port => fpgaPtuListenClose port
  | .accept lport raddr rport timeout wait => fpgaPtuAccept lport raddr rport timeout wait
  | .connect lport raddr rport timeout wait => fpgaPtuConnect lport raddr rport timeout wait
  | .disconnect cid => fpgaPtuDisconnect cid
  | .modSetting addr gateway mac => fpgaPtuModSetting addr gateway mac
  | .getSetting addr subnet gateway hw => fpgaPtuGetSetting addr subnet gateway hw
  | .setArpEntry addr mac => fpgaPtuSetArpEntry addr mac
  | .delArpEntry addr => fpgaPtuDelArpEntry addr
  | .setArpRetry timeout retryNum => fpgaPtuSetArpRetry timeout retryNum
  | .setArpAgingEn enableFlag => fpgaPtuSetArpAgingEn enableFlag
  | .getArpStatus arpStatus hw => fpgaPtuGetArpStatus arpStatus hw
  | .clearArpStatus arpStatus => fpgaPtuClearArpStatus arpStatus
  | .getArpEntry index arpEntry hw => fpgaPtuGetArpEntry index arpEntry hw
  | .getStat ptuStat hw => fpgaPtuGetStat ptuStat hw
  | .dumpTcb cid dump hw => fpgaPtuDumpTcb cid dump hw
  | .waitTcbBufferEmpty cid isSuccess hw rounds => fpgaPtuWaitTcbBufferEmpty cid isSuccess hw rounds

/-- The calls that do not ask whether there is a device. -/
def LaneCall.subscripts : LaneCall → Bool
  | .listen _ | .listenClose _ | .accept .. | .connect .. | .disconnect _ => true
  | _ => false

/-- `fpga_ptu_init`, and the descriptor of the device that it is for. -/
def LaneCall.inits : LaneCall → Option (Option ℤ)
  | .init dev .. => some dev
  | _ => none

/-! ### Runs -/

/-- The library, and which pairs are initialised. -/
structure LaneRun where
  /-- The library. -/
  lib : PtuLib
  /-- The pairs for which `fpga_ptu_init` returned `0`, and `fpga_ptu_exit` did not since. -/
  initialised : Set Pair

/-- What a call that returned makes of the pairs that are initialised. -/
def initialisedAfter (call : LaneCall) (pair : Pair) (ret : ℤ) (initialised : Set Pair) : Set Pair :=
  match call with
  | .init .. => if ret = 0 then insert pair initialised else initialised
  | .exit => if ret = 0 then initialised \ {pair} else initialised
  | _ => initialised

/-- A call; nothing comes after a null device was dereferenced. -/
def laneStep (s : LaneRun) (a : Pair × LaneCall) : Option LaneRun :=
  match a.2.run a.1 s.lib with
  | (.returned ret _, lib) => some ⟨lib, initialisedAfter a.2 a.1 ret s.initialised⟩
  | (.nullDevice, _) => none

/-- Before the first call. -/
def LaneRun.start : LaneRun := ⟨⟨PointerMap.empty, []⟩, ∅⟩

/-- It returns an error. -/
def PtuOutcome.Fails : PtuOutcome → Prop
  | .returned ret _ => ret < 0
  | .nullDevice => False

/-- What a call is to do for a pair that is not initialised. -/
structure UninitialisedRight (s : LaneRun) (a : Pair × LaneCall) : Prop where
  /-- It dereferences no null device. -/
  reaches : (a.2.run a.1 s.lib).1 ≠ .nullDevice
  /-- Any other than `fpga_ptu_init` fails, and changes nothing. -/
  fails : a.2.inits = none → (a.2.run a.1 s.lib).1.Fails ∧ (a.2.run a.1 s.lib).2 = s.lib
  /-- `fpga_ptu_init` succeeds where the device is open. -/
  succeeds : ∀ fd, a.2.inits = some (some fd) → (a.2.run a.1 s.lib).1 = .returned 0 none
  /-- Where it fails, the pair is not in the map afterwards. -/
  leaves : ∀ dev, a.2.inits = some dev → (a.2.run a.1 s.lib).1.Fails →
    (a.2.run a.1 s.lib).2.ptuDevices.contains a.1 = false

/-- It does so where the pair is not initialised. -/
def LaneRight (s : LaneRun) (a : Pair × LaneCall) : Prop :=
  a.1 ∉ s.initialised → UninitialisedRight s a

/-- A call that does not ask whether there is a device is for a pair that is initialised. -/
def Asks (s : LaneRun) (a : Pair × LaneCall) : Prop :=
  a.2.subscripts = true → a.1 ∈ s.initialised

variable {pair : Pair} {lib : PtuLib} {s t : LaneRun}

/-! ### Without a device -/

theorem found_missing (h : lib.ptuDevices.contains pair = false) (missing : ℤ)
    (method : PtuDev → PtuAnswer × PtuDev) :
    found missing pair method lib = (.returned missing none, lib) := by
  unfold found
  rw [if_neg (by simp [h])]

/-- Its check fails, or it finds no device. -/
theorem reading_missing (h : lib.ptuDevices.contains pair = false) (valid : Bool)
    (writes : PtuDev → List RegWrite) (out : PtuOut) :
    ∃ ret < 0, reading valid writes out pair lib = (.returned ret none, lib) := by
  unfold reading
  split
  · exact ⟨failureDeviceOpen, by decide, found_missing h ..⟩
  · exact ⟨invalidArgument, by decide, rfl⟩

/-- What is reached by `operator[]` is null. -/
theorem arrow_missing (h : lib.ptuDevices.contains pair = false)
    (method : PtuDev → PtuAnswer × PtuDev) : (arrow pair method lib).1 = .nullDevice := by
  unfold arrow
  rw [PointerMap.arrow_of_missing (PointerMap.eq_none_of_not_contains h)]

/-- **A call that asks first does nothing where there is no device.** -/
theorem LaneCall.run_missing (h : lib.ptuDevices.contains pair = false) {call : LaneCall}
    (hinits : call.inits = none) (hasks : call.subscripts = false) :
    ∃ ret < 0, call.run pair lib = (.returned ret none, lib) := by
  cases call with
  | init => cases hinits
  | listen | listenClose | accept | connect | disconnect => cases hasks
  | exit =>
    refine ⟨-1, by decide, ?_⟩
    simp only [LaneCall.run, fpgaPtuExit, PointerMap.eq_none_of_not_contains h]
  | rtp | rtpReset => exact ⟨-1, by decide, found_missing h ..⟩
  | modSetting | setArpEntry | delArpEntry | clearArpStatus =>
    exact ⟨failureDeviceOpen, by decide, found_missing h ..⟩
  | getSetting | getArpStatus | getArpEntry | getStat | dumpTcb => exact reading_missing h ..
  | setArpRetry timeout retryNum =>
    simp only [LaneCall.run, fpgaPtuSetArpRetry]
    split
    · exact ⟨invalidArgument, by decide, rfl⟩
    · exact ⟨failureDeviceOpen, by decide, found_missing h ..⟩
  | setArpAgingEn enableFlag =>
    simp only [LaneCall.run, fpgaPtuSetArpAgingEn]
    split
    · exact ⟨invalidArgument, by decide, rfl⟩
    · exact ⟨failureDeviceOpen, by decide, found_missing h ..⟩
  | waitTcbBufferEmpty cid isSuccess hw rounds =>
    simp only [LaneCall.run, fpgaPtuWaitTcbBufferEmpty, h, Bool.false_eq_true, if_false]
    split
    · exact ⟨invalidArgument, by decide, rfl⟩
    · exact ⟨failureDeviceOpen, by decide, rfl⟩

/-- **One that does not comes to a null device.** -/
theorem LaneCall.run_subscript (h : lib.ptuDevices.contains pair = false) {call : LaneCall}
    (hsubscripts : call.subscripts = true) : (call.run pair lib).1 = .nullDevice := by
  cases call with
  | listen | listenClose | accept | connect | disconnect => exact arrow_missing h _
  | _ => cases hsubscripts

/-- `fpga_ptu_init` fails, and changes nothing, where the device is not open or the pair is in the
map. -/
theorem fpgaPtuInit_fails {dev : Option ℤ} (h : dev = none ∨ lib.ptuDevices.contains pair = true)
    (addr subnet gateway : BitVec 32) (mac : Mac) :
    fpgaPtuInit dev addr subnet gateway mac pair lib = (.returned (-1) none, lib) := by
  cases dev with
  | none => rfl
  | some fd =>
    have hpair := h.resolve_left nofun
    unfold fpgaPtuInit
    dsimp only
    rw [if_pos hpair]

/-- And `fpga_ptu_init` takes what such a call leaves for a device. -/
theorem fpgaPtuInit_after_subscript (h : lib.ptuDevices.contains pair = false)
    (method : PtuDev → PtuAnswer × PtuDev) (dev : Option ℤ) (addr subnet gateway : BitVec 32)
    (mac : Mac) :
    (fpgaPtuInit dev addr subnet gateway mac pair (arrow pair method lib).2).1 =
      .returned (-1) none := by
  have hleft : (arrow pair method lib).2.ptuDevices.contains pair = true := by
    unfold arrow
    rw [PointerMap.arrow_of_missing (PointerMap.eq_none_of_not_contains h)]
    exact PointerMap.contains_of_eq (Function.update_self ..)
  rw [fpgaPtuInit_fails (.inr hleft)]

/-! ### With devices -/

/-- A device that is there answers. -/
theorem arrow_live {dev : PtuDev} (h : lib.ptuDevices pair = some (some dev))
    (method : PtuDev → PtuAnswer × PtuDev) :
    arrow pair method lib = (.returned (method dev).1.ret (method dev).1.out,
      ⟨lib.ptuDevices.assign pair (method dev).2, lib.bus ++ (method dev).1.writes⟩) := by
  unfold arrow
  rw [PointerMap.arrow_of_live h]

/-- A call that returns, and leaves the map with its keys and without null devices. -/
def Keeps (lib : PtuLib) (result : PtuOutcome × PtuLib) : Prop :=
  result.1 ≠ .nullDevice ∧ result.2.ptuDevices.NoNull ∧
    result.2.ptuDevices.keys = lib.ptuDevices.keys

theorem keeps_returned (h : lib.ptuDevices.NoNull) (ret : ℤ) (out : Option PtuOut) :
    Keeps lib (.returned ret out, lib) := ⟨nofun, h, rfl⟩

theorem arrow_keeps (h : lib.ptuDevices.NoNull) (hpair : lib.ptuDevices.contains pair = true)
    (method : PtuDev → PtuAnswer × PtuDev) : Keeps lib (arrow pair method lib) := by
  obtain ⟨dev, hdev⟩ := h.live hpair
  rw [arrow_live hdev]
  refine ⟨nofun, h.assign pair (method dev).2, ?_⟩
  have hkeys := PointerMap.keys_arrow h hpair method
  rwa [PointerMap.arrow_of_live hdev] at hkeys

theorem found_keeps (h : lib.ptuDevices.NoNull) (missing : ℤ)
    (method : PtuDev → PtuAnswer × PtuDev) : Keeps lib (found missing pair method lib) := by
  unfold found
  split
  · next hpair => exact arrow_keeps h hpair method
  · exact keeps_returned h ..

theorem reading_keeps (h : lib.ptuDevices.NoNull) (valid : Bool)
    (writes : PtuDev → List RegWrite) (out : PtuOut) : Keeps lib (reading valid writes out pair lib) := by
  unfold reading
  split
  · exact found_keeps h ..
  · exact keeps_returned h ..

theorem waitTcbClb_keeps (h : lib.ptuDevices.NoNull) (cid : BitVec 32) (hw : Hardware)
    (pair : Pair) :
    Keeps lib (waitTcbClb cid hw pair lib) := by
  have hdump : Keeps lib (fpgaPtuDumpTcb cid true hw pair lib) := reading_keeps h ..
  unfold waitTcbClb
  generalize fpgaPtuDumpTcb cid true hw pair lib = result at hdump
  obtain ⟨outcome, lib'⟩ := result
  obtain ⟨hnull, hrest⟩ := hdump
  cases outcome with
  | nullDevice => exact absurd rfl hnull
  | returned ret out =>
    dsimp only
    split
    · exact ⟨nofun, hrest⟩
    · split
      · exact ⟨nofun, hrest⟩
      · exact ⟨nofun, hrest⟩

/-- However often it is polled. -/
theorem pollTcb_keeps (cid : BitVec 32) (hw : ℕ → Hardware) (pair : Pair) (rounds : ℕ)
    (lib : PtuLib) (h : lib.ptuDevices.NoNull) : Keeps lib (pollTcb cid hw pair rounds lib) := by
  induction rounds generalizing lib with
  | zero =>
    have hclb := waitTcbClb_keeps h cid (hw 0) pair
    unfold pollTcb
    generalize waitTcbClb cid (hw 0) pair lib = result at hclb
    obtain ⟨outcome, lib'⟩ := result
    obtain ⟨hnull, hrest⟩ := hclb
    cases outcome with
    | nullDevice => exact absurd rfl hnull
    | returned ret out =>
      dsimp only
      split
      · exact ⟨nofun, hrest⟩
      · exact ⟨nofun, hrest⟩
  | succ rounds ih =>
    have hclb := waitTcbClb_keeps h cid (hw (rounds + 1)) pair
    unfold pollTcb
    generalize waitTcbClb cid (hw (rounds + 1)) pair lib = result at hclb
    obtain ⟨outcome, lib'⟩ := result
    obtain ⟨hnull, hnone, hkeys⟩ := hclb
    cases outcome with
    | nullDevice => exact absurd rfl hnull
    | returned ret out =>
      dsimp only
      split
      · exact ⟨nofun, hnone, hkeys⟩
      · obtain ⟨hnull', hnone', hkeys'⟩ := ih lib' hnone
        exact ⟨hnull', hnone', hkeys'.trans hkeys⟩

/-- **Every call but `fpga_ptu_init` and `fpga_ptu_exit` leaves the keys of the map alone.** -/
theorem LaneCall.run_keeps (h : lib.ptuDevices.NoNull) (pair : Pair) {call : LaneCall}
    (hinits : call.inits = none) (hexit : call ≠ .exit)
    (hasks : call.subscripts = true → lib.ptuDevices.contains pair = true) :
    Keeps lib (call.run pair lib) := by
  cases call with
  | init => cases hinits
  | exit => exact absurd rfl hexit
  | listen | listenClose | accept | connect | disconnect => exact arrow_keeps h (hasks rfl) _
  | rtp | rtpReset | modSetting | setArpEntry | delArpEntry | clearArpStatus =>
    exact found_keeps h ..
  | getSetting | getArpStatus | getArpEntry | getStat | dumpTcb => exact reading_keeps h ..
  | setArpRetry timeout retryNum =>
    simp only [LaneCall.run, fpgaPtuSetArpRetry]
    split
    · exact keeps_returned h ..
    · exact found_keeps h ..
  | setArpAgingEn enableFlag =>
    simp only [LaneCall.run, fpgaPtuSetArpAgingEn]
    split
    · exact keeps_returned h ..
    · exact found_keeps h ..
  | waitTcbBufferEmpty cid isSuccess hw rounds =>
    simp only [LaneCall.run, fpgaPtuWaitTcbBufferEmpty]
    split
    · exact keeps_returned h ..
    · split
      · have hpoll := pollTcb_keeps cid hw pair rounds lib h
        generalize pollTcb cid hw pair rounds lib = result at hpoll
        obtain ⟨outcome, lib'⟩ := result
        obtain ⟨hnull, hrest⟩ := hpoll
        cases outcome with
        | nullDevice => exact absurd rfl hnull
        | returned ret out =>
          dsimp only
          split
          · exact ⟨nofun, hrest⟩
          · exact ⟨nofun, hrest⟩
      · exact keeps_returned h ..

/-- `fpga_ptu_init` succeeds for a device that is open, and a pair that has none. -/
theorem fpgaPtuInit_missing (h : lib.ptuDevices.contains pair = false) (fd : ℤ)
    (addr subnet gateway : BitVec 32) (mac : Mac) :
    ∃ dev bus, fpgaPtuInit (some fd) addr subnet gateway mac pair lib =
      (.returned 0 none, ⟨lib.ptuDevices.assign pair dev, bus⟩) := by
  unfold fpgaPtuInit
  dsimp only
  rw [if_neg (by simp [h]), arrow_live (Function.update_self ..), PointerMap.assign_assign]
  exact ⟨_, _, rfl⟩

/-! ### Sequences of calls -/

/-- The map has the pairs that are initialised, and no null device. -/
structure Tracks (s : LaneRun) : Prop where
  /-- No device is null. -/
  noNull : s.lib.ptuDevices.NoNull
  /-- The pairs. -/
  keys : s.lib.ptuDevices.keys = s.initialised

theorem tracks_start : Tracks LaneRun.start := by
  refine ⟨PointerMap.noNull_empty, ?_⟩
  ext pair
  simp [LaneRun.start, PointerMap.keys, PointerMap.contains, PointerMap.empty]

theorem Tracks.contains_iff (h : Tracks s) (pair : Pair) :
    s.lib.ptuDevices.contains pair = true ↔ pair ∈ s.initialised := by
  rw [← h.keys]
  rfl

theorem Tracks.missing (h : Tracks s) (hpair : pair ∉ s.initialised) :
    s.lib.ptuDevices.contains pair = false := by
  rw [← Bool.not_eq_true, h.contains_iff]
  exact hpair

theorem Tracks.init (h : Tracks s) {dev : Option ℤ} {addr subnet gateway : BitVec 32} {mac : Mac}
    (ht : laneStep s (pair, .init dev addr subnet gateway mac) = some t) : Tracks t := by
  unfold laneStep at ht
  dsimp only [LaneCall.run] at ht
  by_cases hfails : dev = none ∨ s.lib.ptuDevices.contains pair = true
  · rw [fpgaPtuInit_fails hfails] at ht
    cases ht
    exact ⟨h.noNull, h.keys⟩
  · rw [not_or, Bool.not_eq_true] at hfails
    obtain ⟨fd, rfl⟩ := Option.ne_none_iff_exists'.mp hfails.1
    obtain ⟨new, bus, heq⟩ := fpgaPtuInit_missing hfails.2 fd addr subnet gateway mac
    rw [heq] at ht
    cases ht
    refine ⟨h.noNull.assign pair new, ?_⟩
    rw [PointerMap.keys_assign, h.keys]
    rfl

theorem Tracks.exit (h : Tracks s) (ht : laneStep s (pair, .exit) = some t) : Tracks t := by
  unfold laneStep at ht
  dsimp only [LaneCall.run, fpgaPtuExit] at ht
  cases hpair : s.lib.ptuDevices pair with
  | none =>
    rw [hpair] at ht
    cases ht
    exact ⟨h.noNull, h.keys⟩
  | some p =>
    cases p with
    | none => exact absurd hpair (h.noNull pair)
    | some dev =>
      rw [hpair] at ht
      cases ht
      refine ⟨h.noNull.erase pair, ?_⟩
      rw [PointerMap.keys_erase, h.keys]
      rfl

/-- **The map has the pairs that are initialised, as long as calls ask for their device.** -/
theorem Tracks.step (h : Tracks s) {a : Pair × LaneCall} (hasks : Asks s a)
    (ht : laneStep s a = some t) : Tracks t := by
  obtain ⟨pair, call⟩ := a
  by_cases hother : call.inits = none ∧ call ≠ .exit
  · obtain ⟨hinits, hexit⟩ := hother
    have hkeeps := LaneCall.run_keeps h.noNull pair hinits hexit fun hsubscripts =>
      (h.contains_iff pair).mpr (hasks hsubscripts)
    unfold laneStep at ht
    dsimp only at ht
    generalize call.run pair s.lib = result at hkeeps ht
    obtain ⟨outcome, lib⟩ := result
    obtain ⟨hnull, hnone, hkeys⟩ := hkeeps
    cases outcome with
    | nullDevice => exact absurd rfl hnull
    | returned ret out =>
      cases ht
      refine ⟨hnone, hkeys.trans (h.keys.trans ?_)⟩
      cases call with
      | init => cases hinits
      | exit => exact absurd rfl hexit
      | _ => rfl
  · cases call with
    | init => exact h.init ht
    | exit => exact h.exit ht
    | _ => exact absurd ⟨rfl, nofun⟩ hother

/-- `fpga_ptu_init` does what it should where there is no device. -/
theorem init_right (h : s.lib.ptuDevices.contains pair = false) (dev : Option ℤ)
    (addr subnet gateway : BitVec 32) (mac : Mac) :
    UninitialisedRight s (pair, .init dev addr subnet gateway mac) := by
  cases dev with
  | none => exact ⟨nofun, nofun, nofun, fun _ _ _ => h⟩
  | some fd =>
    obtain ⟨new, bus, heq⟩ := fpgaPtuInit_missing h fd addr subnet gateway mac
    refine ⟨?_, nofun, fun fd' _ => ?_, fun dev' _ hfails => ?_⟩
    · dsimp only [LaneCall.run]
      rw [heq]
      nofun
    · dsimp only [LaneCall.run]
      rw [heq]
    · dsimp only [LaneCall.run] at hfails
      rw [heq] at hfails
      exact absurd hfails (lt_irrefl 0)

/-- **A call does what it should exactly if it asks for its device, or there is one.** -/
theorem Tracks.right_iff (h : Tracks s) (a : Pair × LaneCall) : LaneRight s a ↔ Asks s a := by
  obtain ⟨pair, call⟩ := a
  constructor
  · intro hright hsubscripts
    by_contra hpair
    exact (hright hpair).reaches (LaneCall.run_subscript (h.missing hpair) hsubscripts)
  · intro hasks hpair
    have hmissing := h.missing hpair
    cases hinits : call.inits with
    | none =>
      have hsubscripts : call.subscripts = false :=
        Bool.eq_false_iff.mpr fun hs => hpair (hasks hs)
      obtain ⟨ret, hret, heq⟩ := LaneCall.run_missing hmissing hinits hsubscripts
      refine ⟨?_, fun _ => ?_, fun fd hfd => ?_, fun dev hdev => ?_⟩
      · rw [heq]
        nofun
      · rw [heq]
        exact ⟨hret, rfl⟩
      · cases hinits.symm.trans hfd
      · cases hinits.symm.trans hdev
    | some dev =>
      cases call with
      | init dev addr subnet gateway mac => exact init_right hmissing dev addr subnet gateway mac
      | _ => cases hinits

/-- **A sequence of calls does for pairs that are not initialised what it should exactly if
`fpga_ptu_listen`, `fpga_ptu_listen_close`, `fpga_ptu_accept`, `fpga_ptu_connect` and
`fpga_ptu_disconnect` are only called for pairs that are.** -/
theorem laneCallsRight_iff (calls : List (Pair × LaneCall)) :
    AtEvery laneStep LaneRight LaneRun.start calls ↔ AtEvery laneStep Asks LaneRun.start calls :=
  atEvery_iff_atEvery (fun _ _ _ h hasks ht => Tracks.step h hasks ht)
    (fun _ a h => Tracks.right_iff h a) tracks_start

/-- A call of `fpga_ptu_listen` before there is any device. -/
theorem not_laneCallsRight :
    ¬ AtEvery laneStep LaneRight LaneRun.start [((0, 0), .listen 5000)] := by
  intro h
  have hright := h.1 (Set.notMem_empty _)
  exact hright.reaches rfl

end HardwareDrivers.Libptu.Lane
