import HardwareDrivers.Libptu.Lanes
import HardwareDrivers.Theory.BitFields
import Mathlib.Tactic.IntervalCases

/-!
# The settings of a lane

`fpga_ptu_init` and `fpga_ptu_mod_setting` give a lane its addresses, and
`fpga_ptu_get_setting` reads them back from the registers. Here the registers keep what is
written to them, so that what a lane reads is decided by the writes so far. `ptu_dev::init`
is given the mask of the subnet and writes it nowhere.

The base of a lane is computed from its number in 32 bits and nothing limits the number, so that
two lanes of a device can have the same registers.

## What is proved

* `unpackMac_pack`, `dumpMac_pack` — a MAC address comes out of its two words.
* `LaneCall.run_quiet` — the other calls leave the registers of the settings alone.
* `settingsRight_iff` — every lane is read back as it was set throughout a run exactly if each mask
  given is what its register held at the start, and no other lane has the registers and other
  settings.
-/

namespace HardwareDrivers.Libptu.Lane

open Theory

/-! ### MAC addresses -/

/-- The six bytes that `fpga_ptu_get_setting` takes out of the two words. -/
def unpackMac (hi lo : BitVec 32) : Mac :=
  #v[((hi &&& 0x0000ff00) >>> 8).setWidth 8, (hi &&& 0x000000ff).setWidth 8,
    ((lo &&& 0xff000000) >>> 24).setWidth 8, ((lo &&& 0x00ff0000) >>> 16).setWidth 8,
    ((lo &&& 0x0000ff00) >>> 8).setWidth 8, (lo &&& 0x000000ff).setWidth 8]

theorem unpackHi (a b : BitVec 8) :
    (((a.setWidth 32 <<< 8 ||| b.setWidth 32 : BitVec 32) &&& 0x0000ff00) >>> 8).setWidth 8 = a ∧
      ((a.setWidth 32 <<< 8 ||| b.setWidth 32 : BitVec 32) &&& 0x000000ff).setWidth 8 = b := by
  constructor <;> ext i hi <;> interval_cases i <;> simp

theorem unpackLo (a b c d : BitVec 8) (lo : BitVec 32)
    (h : lo = a.setWidth 32 <<< 24 ||| b.setWidth 32 <<< 16 ||| c.setWidth 32 <<< 8 ||| d.setWidth 32) :
    ((lo &&& 0xff000000) >>> 24).setWidth 8 = a ∧ ((lo &&& 0x00ff0000) >>> 16).setWidth 8 = b ∧
      ((lo &&& 0x0000ff00) >>> 8).setWidth 8 = c ∧ (lo &&& 0x000000ff).setWidth 8 = d := by
  subst h
  refine ⟨?_, ?_, ?_, ?_⟩ <;> ext i hi <;> interval_cases i <;> simp

/-- **The bytes of a packed address are those of the address.** -/
theorem unpackMac_pack (mac : Mac) : unpackMac (macHi mac) (macLo mac) = mac := by
  obtain ⟨h₀, h₁⟩ := unpackHi mac[0] mac[1]
  obtain ⟨h₂, h₃, h₄, h₅⟩ := unpackLo mac[2] mac[3] mac[4] mac[5] (macLo mac) rfl
  refine Vector.ext fun i hi => ?_
  interval_cases i
  · exact h₀
  · exact h₁
  · exact h₂
  · exact h₃
  · exact h₄
  · exact h₅

/-- An address as one number, its first byte the highest. -/
def macNumber (mac : Mac) : ℕ := mac.toList.foldl (fun n b => 256 * n + b.toNat) 0

theorem exists_bytes (mac : Mac) : ∃ a b c d e f, mac = #v[a, b, c, d, e, f] := by
  refine ⟨mac[0], mac[1], mac[2], mac[3], mac[4], mac[5], Vector.ext fun i hi => ?_⟩
  interval_cases i <;> rfl

theorem toNat_macHi (a b c d e f : BitVec 8) :
    (macHi #v[a, b, c, d, e, f]).toNat = a.toNat * 2 ^ 8 + b.toNat := by
  have ha := toNat_setWidth_shiftLeft (w := 32) a (s := 8) (by decide)
  have hb : (b.setWidth 32).toNat = b.toNat := BitVec.toNat_setWidth_of_le (by decide)
  have hlt := b.isLt
  have hor := toNat_or_of_dvd (s := 8) (x := a.setWidth 32 <<< 8) (y := b.setWidth 32) (by omega)
    (by omega)
  change (a.setWidth 32 <<< 8 ||| b.setWidth 32 : BitVec 32).toNat = _
  omega

theorem toNat_macLo (a b c d e f : BitVec 8) :
    (macLo #v[a, b, c, d, e, f]).toNat =
      c.toNat * 2 ^ 24 + d.toNat * 2 ^ 16 + e.toNat * 2 ^ 8 + f.toNat := by
  have hc := toNat_setWidth_shiftLeft (w := 32) c (s := 24) (by decide)
  have hd := toNat_setWidth_shiftLeft (w := 32) d (s := 16) (by decide)
  have he := toNat_setWidth_shiftLeft (w := 32) e (s := 8) (by decide)
  have hf : (f.setWidth 32).toNat = f.toNat := BitVec.toNat_setWidth_of_le (by decide)
  have hdlt := d.isLt
  have helt := e.isLt
  have hflt := f.isLt
  -- each byte comes below the bytes before it
  have hord := toNat_or_of_dvd (s := 24) (x := c.setWidth 32 <<< 24) (y := d.setWidth 32 <<< 16)
    (by omega) (by omega)
  have hore := toNat_or_of_dvd (s := 16) (x := c.setWidth 32 <<< 24 ||| d.setWidth 32 <<< 16)
    (y := e.setWidth 32 <<< 8) (by omega) (by omega)
  have horf := toNat_or_of_dvd (s := 8)
    (x := c.setWidth 32 <<< 24 ||| d.setWidth 32 <<< 16 ||| e.setWidth 32 <<< 8)
    (y := f.setWidth 32) (by omega) (by omega)
  change (c.setWidth 32 <<< 24 ||| d.setWidth 32 <<< 16 ||| e.setWidth 32 <<< 8 |||
    f.setWidth 32 : BitVec 32).toNat = _
  omega

theorem macNumber_eq (a b c d e f : BitVec 8) :
    macNumber #v[a, b, c, d, e, f] = a.toNat * 2 ^ 40 + b.toNat * 2 ^ 32 + c.toNat * 2 ^ 24 +
      d.toNat * 2 ^ 16 + e.toNat * 2 ^ 8 + f.toNat := by
  change [a, b, c, d, e, f].foldl (fun n b => 256 * n + b.toNat) 0 = _
  simp only [List.foldl_cons, List.foldl_nil]
  omega

/-- **The address that `fpga_ptu_get_arp_entry` assembles** from the two words that
`fpga_ptu_set_arp_entry` packs. -/
theorem dumpMac_pack (mac : Mac) (got : Reg → BitVec 32) (hhi : got .arpMacHi = macHi mac)
    (hlo : got .arpMacLo = macLo mac) : (FpgaArpEntry.ofRegs got).dumpMac.toNat = macNumber mac := by
  obtain ⟨a, b, c, d, e, f, hmac⟩ := exists_bytes mac
  have hhi' := toNat_macHi a b c d e f
  have hlo' := toNat_macLo a b c d e f
  rw [← hmac] at hhi' hlo'
  have hhi64 := toNat_setWidth_shiftLeft (w := 64) (macHi mac) (s := 32) (by decide)
  have hlo64 : ((macLo mac).setWidth 64).toNat = (macLo mac).toNat :=
    BitVec.toNat_setWidth_of_le (by decide)
  have hlt := (macLo mac).isLt
  have hor := toNat_or_of_dvd (s := 32) (x := (macHi mac).setWidth 64 <<< 32)
    (y := (macLo mac).setWidth 64) (by omega) (by omega)
  simp only [FpgaArpEntry.ofRegs, hhi, hlo]
  rw [hor, hhi64, hlo64, hhi', hlo', hmac, macNumber_eq]
  omega

/-! ### Registers that keep what is written -/

/-- The registers, by the descriptor and the base of the PTU. -/
abbrev RegFile := ℤ × BitVec 32 × PtuReg → BitVec 32

/-- The registers after a write. -/
def RegFile.store (regs : RegFile) (w : RegWrite) : RegFile :=
  Function.update regs (w.fd, w.base, w.reg) w.value

/-- The registers after all writes. -/
def RegFile.stored (regs : RegFile) (bus : List RegWrite) : RegFile := bus.foldl RegFile.store regs

/-- The registers that `fpga_ptu_get_setting` reads. -/
def settingRegs : List PtuReg := [.myIpv4Addr, .myIpv4Subnet, .myIpv4Gateway, .myMacHi, .myMacLo]

/-- What a lane was given, or gives. -/
@[ext]
structure Setting where
  /-- The address. -/
  addr : BitVec 32
  /-- The mask of the subnet. -/
  subnet : BitVec 32
  /-- The gateway. -/
  gateway : BitVec 32
  /-- The MAC address. -/
  mac : Mac
  deriving DecidableEq

/-- The setting in the registers. -/
def readSetting (hw : Hardware) : Setting :=
  ⟨hw .myIpv4Addr, hw .myIpv4Subnet, hw .myIpv4Gateway, unpackMac (hw .myMacHi) (hw .myMacLo)⟩

/-- The descriptor and the base of the device of a pair. -/
def regsOf (lib : PtuLib) (pair : Pair) : Option (ℤ × BitVec 32) :=
  (lib.ptuDevices pair).bind fun p => p.map fun dev => (dev.fd, dev.base)

/-- What the registers of a PTU hold after the writes. -/
def RegFile.heldAt (regs : RegFile) (bus : List RegWrite) (ptu : ℤ × BitVec 32) : Hardware :=
  fun r => regs.stored bus (ptu.1, ptu.2, r)

variable {regs : RegFile} {lib lib' : PtuLib} {pair : Pair} {ws : List RegWrite}

theorem stored_append (regs : RegFile) (bus ws : List RegWrite) :
    regs.stored (bus ++ ws) = (regs.stored bus).stored ws := List.foldl_append

/-- A register that is not written to keeps what it holds. -/
theorem stored_of_not_mem {fd : ℤ} {base : BitVec 32} {r : PtuReg}
    (h : ∀ w ∈ ws, ¬ (w.fd = fd ∧ w.base = base ∧ w.reg = r)) :
    regs.stored ws (fd, base, r) = regs (fd, base, r) := by
  induction ws generalizing regs with
  | nil => rfl
  | cons w ws ih =>
    show (regs.store w).stored ws (fd, base, r) = _
    rw [ih fun w' hw' => h w' (List.mem_cons_of_mem _ hw')]
    refine Function.update_of_ne (fun heq => h w (List.mem_cons_self ..) ?_) _ _
    simp only [Prod.mk.injEq] at heq
    exact ⟨heq.1.symm, heq.2.1.symm, heq.2.2.symm⟩

/-- None of the writes is to a register of the settings. -/
def QuietWrites (ws : List RegWrite) : Prop := ∀ w ∈ ws, w.reg ∉ settingRegs

/-- The registers of the settings and the devices stay as they are. -/
structure Quiet (lib lib' : PtuLib) : Prop where
  /-- The registers of each pair. -/
  regs : regsOf lib' = regsOf lib
  /-- What is written. -/
  writes : ∃ ws, lib'.bus = lib.bus ++ ws ∧ QuietWrites ws

theorem Quiet.refl (lib : PtuLib) : Quiet lib lib := ⟨rfl, [], (List.append_nil _).symm, nofun⟩

theorem QuietWrites.append {ws' : List RegWrite} (h : QuietWrites ws) (h' : QuietWrites ws') :
    QuietWrites (ws ++ ws') := List.forall_mem_append.mpr ⟨h, h'⟩

theorem Quiet.trans {lib'' : PtuLib} (h : Quiet lib lib') (h' : Quiet lib' lib'') :
    Quiet lib lib'' := by
  obtain ⟨ws, hws, hquiet⟩ := h.writes
  obtain ⟨ws', hws', hquiet'⟩ := h'.writes
  exact ⟨h'.regs.trans h.regs, ws ++ ws', by rw [hws', hws, List.append_assoc], hquiet.append hquiet'⟩

theorem readSetting_congr {hw hw' : Hardware} (h : ∀ r ∈ settingRegs, hw r = hw' r) :
    readSetting hw = readSetting hw' := by
  unfold readSetting
  rw [h .myIpv4Addr (by decide), h .myIpv4Subnet (by decide), h .myIpv4Gateway (by decide),
    h .myMacHi (by decide), h .myMacLo (by decide)]

/-- The settings read at a PTU do not change. -/
theorem readSetting_of_quiet (h : QuietWrites ws) (bus : List RegWrite) (ptu : ℤ × BitVec 32) :
    readSetting (regs.heldAt (bus ++ ws) ptu) = readSetting (regs.heldAt bus ptu) := by
  refine readSetting_congr fun r hr => ?_
  unfold RegFile.heldAt
  rw [stored_append]
  exact stored_of_not_mem fun w hw heq => h w hw (heq.2.2 ▸ hr)

/-! ### Calls that do not set anything -/

/-- A method that keeps the descriptor and the base and writes no setting. -/
def QuietMethod (method : PtuDev → PtuAnswer × PtuDev) : Prop :=
  ∀ dev, (method dev).2.fd = dev.fd ∧ (method dev).2.base = dev.base ∧
    QuietWrites (method dev).1.writes

theorem quietWrites_regWrite (dev : PtuDev) {writes : List (PtuReg × BitVec 32)}
    (h : ∀ w ∈ writes, w.1 ∉ settingRegs) : QuietWrites (dev.regWrite writes) := by
  intro w hw
  obtain ⟨w', hw', rfl⟩ := List.mem_map.mp hw
  exact h w' hw'

/-- A command only writes to the mailbox. -/
theorem quietWrites_command (dev : PtuDev) (op : Op) : QuietWrites (dev.command op) := by
  refine quietWrites_regWrite dev fun w hw => ?_
  obtain ⟨w', -, rfl⟩ := List.mem_map.mp hw
  simp [settingRegs]

theorem quietMethod_writing {writes : PtuDev → List RegWrite} (h : ∀ dev, QuietWrites (writes dev)) :
    QuietMethod (writing writes) := fun dev => ⟨rfl, rfl, h dev⟩

/-- Assigning a device with the same registers. -/
theorem regsOf_assign {dev dev' : PtuDev} (h : lib.ptuDevices pair = some (some dev))
    (hfd : dev'.fd = dev.fd) (hbase : dev'.base = dev.base) (bus : List RegWrite) :
    regsOf ⟨lib.ptuDevices.assign pair dev', bus⟩ = regsOf lib := by
  funext q
  unfold regsOf
  by_cases hq : q = pair
  · subst hq
    simp [PointerMap.assign, h, hfd, hbase]
  · simp [PointerMap.assign, Function.update_of_ne hq]

theorem regsOf_assign_self (dev : PtuDev) (bus : List RegWrite) :
    regsOf ⟨lib.ptuDevices.assign pair dev, bus⟩ pair = some (dev.fd, dev.base) := by
  unfold regsOf
  simp only [PointerMap.assign_self, Option.bind_some, Option.map_some]

theorem regsOf_assign_of_ne {q : Pair} (h : q ≠ pair) (dev : PtuDev) (bus : List RegWrite) :
    regsOf ⟨lib.ptuDevices.assign pair dev, bus⟩ q = regsOf lib q := by
  unfold regsOf PointerMap.assign
  simp only [Function.update_of_ne h]

theorem arrow_quiet {method : PtuDev → PtuAnswer × PtuDev} (hm : QuietMethod method)
    (h : lib.ptuDevices.NoNull) (hpair : lib.ptuDevices.contains pair = true) :
    Quiet lib (arrow pair method lib).2 := by
  obtain ⟨dev, hdev⟩ := h.live hpair
  obtain ⟨hfd, hbase, hwrites⟩ := hm dev
  rw [arrow_live hdev]
  exact ⟨regsOf_assign hdev hfd hbase _, _, rfl, hwrites⟩

theorem found_quiet {method : PtuDev → PtuAnswer × PtuDev} (hm : QuietMethod method)
    (h : lib.ptuDevices.NoNull) (missing : ℤ) : Quiet lib (found missing pair method lib).2 := by
  unfold found
  split
  · next hpair => exact arrow_quiet hm h hpair
  · exact .refl lib

theorem reading_quiet {writes : PtuDev → List RegWrite} (hw : ∀ dev, QuietWrites (writes dev))
    (h : lib.ptuDevices.NoNull) (valid : Bool) (out : PtuOut) :
    Quiet lib (reading valid writes out pair lib).2 := by
  unfold reading
  split
  · exact found_quiet (fun dev => ⟨rfl, rfl, hw dev⟩) h _
  · exact .refl lib

theorem quietWrites_nil : QuietWrites [] := nofun

theorem quietMethod_listen (lport : BitVec 16) : QuietMethod (·.listen lport) := by
  intro dev
  dsimp only [PtuDev.listen]
  split
  · exact ⟨rfl, rfl, quietWrites_nil⟩
  · exact ⟨rfl, rfl, quietWrites_command dev _⟩

theorem quietMethod_listenClose (lport : BitVec 16) : QuietMethod (·.listenClose lport) := by
  intro dev
  dsimp only [PtuDev.listenClose]
  split
  · exact ⟨rfl, rfl, quietWrites_nil⟩
  · exact ⟨rfl, rfl, quietWrites_command dev _⟩

theorem quietMethod_accept (lport : BitVec 16) (raddr : BitVec 32) (rport : BitVec 16)
    (timeoutUs : BitVec 64) (wait : SockWait) :
    QuietMethod (·.accept lport raddr rport timeoutUs wait) := by
  intro dev
  dsimp only [PtuDev.accept]
  split
  · exact ⟨rfl, rfl, quietWrites_nil⟩
  · split
    · exact ⟨rfl, rfl, quietWrites_nil⟩
    · split
      · exact ⟨rfl, rfl, quietWrites_nil⟩
      · split <;> exact ⟨rfl, rfl, quietWrites_nil⟩

theorem quietMethod_connect (lport : BitVec 16) (raddr : BitVec 32) (rport : BitVec 16)
    (timeoutUs : BitVec 64) (wait : SockWait) :
    QuietMethod (·.connect lport raddr rport timeoutUs wait) := by
  intro dev
  dsimp only [PtuDev.connect]
  split
  · exact ⟨rfl, rfl, quietWrites_nil⟩
  · split
    · exact ⟨rfl, rfl, quietWrites_command dev _⟩
    · split <;> exact ⟨rfl, rfl, quietWrites_command dev _⟩

theorem quietMethod_abort (cid : BitVec 32) : QuietMethod (·.abort cid) := by
  intro dev
  dsimp only [PtuDev.abort]
  split
  · exact ⟨rfl, rfl, quietWrites_command dev _⟩
  · exact ⟨rfl, rfl, quietWrites_nil⟩

theorem waitTcbClb_quiet (h : lib.ptuDevices.NoNull) (cid : BitVec 32) (hw : Hardware)
    (pair : Pair) : Quiet lib (waitTcbClb cid hw pair lib).2 := by
  have hdump : Quiet lib (fpgaPtuDumpTcb cid true hw pair lib).2 :=
    reading_quiet (fun dev => quietWrites_command dev _) h ..
  unfold waitTcbClb
  generalize fpgaPtuDumpTcb cid true hw pair lib = result at hdump
  obtain ⟨outcome, lib'⟩ := result
  cases outcome with
  | nullDevice => exact hdump
  | returned ret out =>
    dsimp only
    split
    · exact hdump
    · split <;> exact hdump

/-- However often it is polled. -/
theorem pollTcb_quiet (cid : BitVec 32) (hw : ℕ → Hardware) (pair : Pair) (rounds : ℕ)
    (lib : PtuLib) (h : lib.ptuDevices.NoNull) : Quiet lib (pollTcb cid hw pair rounds lib).2 := by
  induction rounds generalizing lib with
  | zero =>
    have hclb := waitTcbClb_quiet h cid (hw 0) pair
    unfold pollTcb
    generalize waitTcbClb cid (hw 0) pair lib = result at hclb
    obtain ⟨outcome, lib'⟩ := result
    cases outcome with
    | nullDevice => exact hclb
    | returned ret out =>
      dsimp only
      split <;> exact hclb
  | succ rounds ih =>
    have hclb := waitTcbClb_quiet h cid (hw (rounds + 1)) pair
    have hkeeps := waitTcbClb_keeps h cid (hw (rounds + 1)) pair
    unfold pollTcb
    generalize waitTcbClb cid (hw (rounds + 1)) pair lib = result at hclb hkeeps
    obtain ⟨outcome, lib'⟩ := result
    cases outcome with
    | nullDevice => exact hclb
    | returned ret out =>
      dsimp only
      split
      · exact hclb
      · exact hclb.trans (ih lib' hkeeps.2.1)

/-- The calls that give a lane its settings. -/
def LaneCall.sets : LaneCall → Bool
  | .init .. | .modSetting .. => true
  | _ => false

/-- **The other calls leave the registers of the settings alone.** -/
theorem LaneCall.run_quiet (h : lib.ptuDevices.NoNull) (pair : Pair) {call : LaneCall}
    (hsets : call.sets = false) (hexit : call ≠ .exit)
    (hasks : call.subscripts = true → lib.ptuDevices.contains pair = true) :
    Quiet lib (call.run pair lib).2 := by
  have hregs : ∀ (dev : PtuDev) (writes : List (PtuReg × BitVec 32)),
      (∀ w ∈ writes, w.1 ∉ settingRegs) → QuietWrites (dev.regWrite writes) :=
    fun dev _ => quietWrites_regWrite dev
  cases call with
  | init | modSetting => cases hsets
  | exit => exact absurd rfl hexit
  | listen port => exact arrow_quiet (quietMethod_listen port) h (hasks rfl)
  | listenClose port => exact arrow_quiet (quietMethod_listenClose port) h (hasks rfl)
  | accept => exact arrow_quiet (quietMethod_accept _ _ _ _ _) h (hasks rfl)
  | connect => exact arrow_quiet (quietMethod_connect _ _ _ _ _) h (hasks rfl)
  | disconnect cid => exact arrow_quiet (quietMethod_abort cid) h (hasks rfl)
  | rtp => exact found_quiet (quietMethod_writing fun dev => hregs dev _ (by simp [settingRegs])) h _
  | rtpReset =>
    exact found_quiet (quietMethod_writing fun dev => hregs dev _ (by simp [settingRegs])) h _
  | clearArpStatus =>
    exact found_quiet (quietMethod_writing fun dev => hregs dev _ (by simp [settingRegs])) h _
  | setArpEntry | delArpEntry =>
    exact found_quiet (quietMethod_writing fun dev => quietWrites_command dev _) h _
  | setArpRetry timeout retryNum =>
    simp only [LaneCall.run, fpgaPtuSetArpRetry]
    split
    · exact .refl lib
    · exact found_quiet (quietMethod_writing fun dev => quietWrites_command dev _) h _
  | setArpAgingEn enableFlag =>
    simp only [LaneCall.run, fpgaPtuSetArpAgingEn]
    split
    · exact .refl lib
    · exact found_quiet (quietMethod_writing fun dev => hregs dev _ (by simp [settingRegs])) h _
  | getSetting | getArpStatus | getStat => exact reading_quiet (fun _ => quietWrites_nil) h ..
  | getArpEntry | dumpTcb => exact reading_quiet (fun dev => quietWrites_command dev _) h ..
  | waitTcbBufferEmpty cid isSuccess hw rounds =>
    simp only [LaneCall.run, fpgaPtuWaitTcbBufferEmpty]
    split
    · exact .refl lib
    · split
      · have hpoll := pollTcb_quiet cid hw pair rounds lib h
        generalize pollTcb cid hw pair rounds lib = result at hpoll
        obtain ⟨outcome, lib'⟩ := result
        cases outcome with
        | nullDevice => exact hpoll
        | returned ret out =>
          dsimp only
          split <;> exact hpoll
      · exact .refl lib

/-! ### Runs -/

/-- The library, and the setting that each pair was given. -/
structure SettingRun where
  /-- The library, and which pairs are initialised. -/
  run : LaneRun
  /-- The setting of the last `fpga_ptu_init` or `fpga_ptu_mod_setting`, the mask that of the last
  `fpga_ptu_init`. -/
  given : Pair → Setting

/-- What a call that returned gives. -/
def givenAfter (call : LaneCall) (pair : Pair) (ret : ℤ) (given : Pair → Setting) :
    Pair → Setting :=
  match call with
  | .init _ addr subnet gateway mac =>
    if ret = 0 then Function.update given pair ⟨addr, subnet, gateway, mac⟩ else given
  | .modSetting addr gateway mac =>
    if ret = 0 then Function.update given pair ⟨addr, (given pair).subnet, gateway, mac⟩ else given
  | _ => given

/-- A call; nothing comes after a null device was dereferenced. -/
def settingStep (s : SettingRun) (a : Pair × LaneCall) : Option SettingRun :=
  match a.2.run a.1 s.run.lib with
  | (.returned ret _, lib) =>
    some ⟨⟨lib, initialisedAfter a.2 a.1 ret s.run.initialised⟩, givenAfter a.2 a.1 ret s.given⟩
  | (.nullDevice, _) => none

/-- Before the first call. -/
def SettingRun.start : SettingRun := ⟨LaneRun.start, fun _ => ⟨0, 0, 0, Vector.replicate 6 0⟩⟩

/-- What a lane reads from its registers. -/
def laneHardware (regs : RegFile) (lib : PtuLib) (pair : Pair) : Hardware :=
  match regsOf lib pair with
  | some ptu => regs.heldAt lib.bus ptu
  | none => fun _ => 0

/-- `fpga_ptu_get_setting` returns for every initialised lane what it was given. -/
def SettingsRight (regs : RegFile) (s : SettingRun) : Prop :=
  ∀ pair ∈ s.run.initialised,
    (fpgaPtuGetSetting true true true (laneHardware regs s.run.lib pair) pair s.run.lib).1 =
      .returned 0 (some (.setting (s.given pair).addr (s.given pair).subnet (s.given pair).gateway
        (s.given pair).mac))

/-- The other initialised lanes with these registers were given the same addresses. -/
def Alone (s : SettingRun) (pair : Pair) (ptu : ℤ × BitVec 32) (addr gateway : BitVec 32)
    (mac : Mac) : Prop :=
  ∀ q ∈ s.run.initialised, q ≠ pair → regsOf s.run.lib q = some ptu →
    (s.given q).addr = addr ∧ (s.given q).gateway = gateway ∧ (s.given q).mac = mac

/-- The base that `fpga_ptu_init` computes for a pair. -/
def laneBase (pair : Pair) : BitVec 32 := ptuBase + 0x1000 * pair.2

/-- A mask that is given is in its register already, and no other lane has the registers and other
addresses. -/
def Gives (regs : RegFile) (s : SettingRun) (a : Pair × LaneCall) : Prop :=
  match a.2 with
  | .init (some fd) addr subnet gateway mac =>
    a.1 ∉ s.run.initialised → regs (fd, laneBase a.1, .myIpv4Subnet) = subnet ∧
      Alone s a.1 (fd, laneBase a.1) addr gateway mac
  | .modSetting addr gateway mac =>
    ∀ ptu, regsOf s.run.lib a.1 = some ptu → Alone s a.1 ptu addr gateway mac
  | _ => True

/-- The address that `fpga_ptu_get_arp_entry` assembles is the one that `fpga_ptu_set_arp_entry`
packed into its words. -/
def ArpRight : Prop :=
  ∀ (addr : BitVec 32) (mac : Mac) (hi lo : BitVec 32) (got : Reg → BitVec 32),
    (.arpArg1, hi) ∈ (Libptu.fpgaPtuSetArpEntry addr mac).args →
    (.arpArg2, lo) ∈ (Libptu.fpgaPtuSetArpEntry addr mac).args →
    got .arpMacHi = hi → got .arpMacLo = lo →
      (FpgaArpEntry.ofRegs got).dumpMac.toNat = macNumber mac

theorem arpRight : ArpRight := by
  intro addr mac hi lo got hhi hlo hgothi hgotlo
  simp only [Libptu.fpgaPtuSetArpEntry, List.mem_cons, Prod.mk.injEq, reduceCtorEq, false_and,
    true_and, false_or, List.not_mem_nil, or_false] at hhi hlo
  exact dumpMac_pack mac got (hgothi.trans hhi) (hgotlo.trans hlo)

/-- No write so far was to the register of the mask. -/
def MaskKept (bus : List RegWrite) : Prop := ∀ w ∈ bus, w.reg ≠ .myIpv4Subnet

/-- The registers of every initialised lane hold what it was given. -/
def Held (regs : RegFile) (s : SettingRun) : Prop :=
  ∀ pair ∈ s.run.initialised, ∀ ptu, regsOf s.run.lib pair = some ptu →
    readSetting (regs.heldAt s.run.lib.bus ptu) = s.given pair

variable {s t : SettingRun}

theorem MaskKept.subnet {bus : List RegWrite} (h : MaskKept bus) (ptu : ℤ × BitVec 32) :
    (readSetting (regs.heldAt bus ptu)).subnet = regs (ptu.1, ptu.2, .myIpv4Subnet) :=
  stored_of_not_mem fun w hw heq => h w hw heq.2.2

theorem QuietWrites.maskKept (h : QuietWrites ws) : MaskKept ws :=
  fun w hw heq => h w hw (by rw [heq]; decide)

theorem MaskKept.append {bus : List RegWrite} (h : MaskKept bus) (h' : MaskKept ws) :
    MaskKept (bus ++ ws) := List.forall_mem_append.mpr ⟨h, h'⟩

/-- The writes of `fpga_ptu_mod_setting` leave the mask. -/
theorem maskKept_settingWrites (dev : PtuDev) (ipAddr gateway : BitVec 32) (mac : Mac) :
    MaskKept (dev.regWrite (settingWrites ipAddr gateway mac)) := by
  intro w hw
  obtain ⟨w', hw', rfl⟩ := List.mem_map.mp hw
  simp only [settingWrites, List.mem_cons, List.not_mem_nil, or_false] at hw'
  rcases hw' with rfl | rfl | rfl | rfl <;> nofun

theorem regsOf_of_live {dev : PtuDev} (h : lib.ptuDevices pair = some (some dev)) :
    regsOf lib pair = some (dev.fd, dev.base) := by
  unfold regsOf
  rw [h]
  rfl

/-- A lane with a device reads its setting. -/
theorem fpgaPtuGetSetting_live {dev : PtuDev} (h : lib.ptuDevices pair = some (some dev))
    (hw : Hardware) :
    (fpgaPtuGetSetting true true true hw pair lib).1 =
      .returned 0 (some (.setting (readSetting hw).addr (readSetting hw).subnet
        (readSetting hw).gateway (readSetting hw).mac)) := by
  unfold fpgaPtuGetSetting reading found
  rw [if_pos (show (true && true && true) = true from rfl), if_pos (PointerMap.contains_of_eq h),
    arrow_live h]
  rfl

/-- **What is read back is what the registers hold.** -/
theorem settingsRight_iff_held (h : Tracks s.run) : SettingsRight regs s ↔ Held regs s := by
  have hread : ∀ pair ∈ s.run.initialised, ∃ ptu, regsOf s.run.lib pair = some ptu ∧
      (fpgaPtuGetSetting true true true (laneHardware regs s.run.lib pair) pair s.run.lib).1 =
        .returned 0 (some (.setting (readSetting (regs.heldAt s.run.lib.bus ptu)).addr
          (readSetting (regs.heldAt s.run.lib.bus ptu)).subnet
          (readSetting (regs.heldAt s.run.lib.bus ptu)).gateway
          (readSetting (regs.heldAt s.run.lib.bus ptu)).mac)) := by
    intro pair hpair
    have hcontains := (h.contains_iff pair).mpr hpair
    obtain ⟨dev, hdev⟩ := h.noNull.live hcontains
    have hregs := regsOf_of_live hdev
    have hhw : laneHardware regs s.run.lib pair = regs.heldAt s.run.lib.bus (dev.fd, dev.base) := by
      unfold laneHardware
      rw [hregs]
    exact ⟨_, hregs, by rw [fpgaPtuGetSetting_live hdev, hhw]⟩
  constructor
  · intro hright pair hpair ptu hptu
    obtain ⟨ptu', hptu', heq⟩ := hread pair hpair
    cases hptu.symm.trans hptu'
    have hgiven := heq.symm.trans (hright pair hpair)
    simp only [PtuOutcome.returned.injEq, Option.some.injEq, PtuOut.setting.injEq, true_and] at hgiven
    obtain ⟨haddr, hsubnet, hgateway, hmac⟩ := hgiven
    exact Setting.ext haddr hsubnet hgateway hmac
  · intro hheld pair hpair
    obtain ⟨ptu, hptu, heq⟩ := hread pair hpair
    rw [heq, hheld pair hpair ptu hptu]

/-- What the registers hold after an address, a gateway and a MAC address were written. -/
theorem readSetting_settingWrites (dev : PtuDev) (ipAddr gateway : BitVec 32) (mac : Mac)
    (bus : List RegWrite) (ptu : ℤ × BitVec 32) :
    readSetting (regs.heldAt (bus ++ dev.regWrite (settingWrites ipAddr gateway mac)) ptu) =
      if ptu = (dev.fd, dev.base) then
        ⟨ipAddr, (readSetting (regs.heldAt bus ptu)).subnet, gateway, mac⟩
      else readSetting (regs.heldAt bus ptu) := by
  split_ifs with hptu
  · subst hptu
    unfold readSetting RegFile.heldAt
    simp only [stored_append]
    simp [PtuDev.regWrite, settingWrites, RegFile.stored, RegFile.store, unpackMac_pack]
  · refine readSetting_congr fun r _ => ?_
    unfold RegFile.heldAt
    rw [stored_append]
    refine stored_of_not_mem fun w hw heq => hptu ?_
    obtain ⟨w', -, rfl⟩ := List.mem_map.mp hw
    exact Prod.ext heq.1.symm heq.2.1.symm

/-- A call that gives a lane its addresses, and perhaps a mask. -/
structure Sets (s t : SettingRun) (pair : Pair) (ptu : ℤ × BitVec 32) (new : Setting) : Prop where
  own : regsOf t.run.lib pair = some ptu
  others : ∀ q ≠ pair, regsOf t.run.lib q = regsOf s.run.lib q
  bus : ∃ (dev : PtuDev) (ws : List RegWrite), ptu = (dev.fd, dev.base) ∧ QuietWrites ws ∧
    t.run.lib.bus = s.run.lib.bus ++ dev.regWrite (settingWrites new.addr new.gateway new.mac) ++ ws
  initialised : t.run.initialised = insert pair s.run.initialised
  given : t.given = Function.update s.given pair new

theorem Sets.maskKept {ptu : ℤ × BitVec 32} {new : Setting} (h : Sets s t pair ptu new)
    (hmask : MaskKept s.run.lib.bus) : MaskKept t.run.lib.bus := by
  obtain ⟨dev, ws, -, hws, hbus⟩ := h.bus
  rw [hbus]
  exact (hmask.append (maskKept_settingWrites dev _ _ _)).append hws.maskKept

/-- **When the registers hold after such a call what every lane was given**: the mask is there
already, and no other lane has the registers and other addresses. -/
theorem Sets.held_iff {ptu : ℤ × BitVec 32} {new : Setting} (h : Sets s t pair ptu new)
    (hmask : MaskKept s.run.lib.bus) (hheld : Held regs s) :
    Held regs t ↔ regs (ptu.1, ptu.2, .myIpv4Subnet) = new.subnet ∧
      Alone s pair ptu new.addr new.gateway new.mac := by
  have hread : ∀ p, readSetting (regs.heldAt t.run.lib.bus p) =
      if p = ptu then ⟨new.addr, regs (ptu.1, ptu.2, .myIpv4Subnet), new.gateway, new.mac⟩
      else readSetting (regs.heldAt s.run.lib.bus p) := by
    intro p
    obtain ⟨dev, ws, hptu, hws, hbus⟩ := h.bus
    rw [hbus, readSetting_of_quiet hws, readSetting_settingWrites, hptu]
    split_ifs with hp
    · rw [hmask.subnet, hp]
    · rfl
  constructor
  · intro ht
    constructor
    · have hown := ht pair (h.initialised ▸ Set.mem_insert ..) ptu h.own
      rw [hread, if_pos rfl, h.given, Function.update_self] at hown
      exact congrArg Setting.subnet hown
    · intro q hq hne hptu
      have hother := ht q (h.initialised ▸ Set.mem_insert_of_mem _ hq) ptu
        ((h.others q hne).trans hptu)
      rw [hread, if_pos rfl, h.given, Function.update_of_ne hne] at hother
      rw [← hother]
      exact ⟨rfl, rfl, rfl⟩
  · rintro ⟨hsubnet, halone⟩ q hq p hp
    rw [hread, h.given]
    by_cases hne : q = pair
    · subst hne
      cases h.own.symm.trans hp
      rw [if_pos rfl, Function.update_self, hsubnet]
    · have hq' : q ∈ s.run.initialised := by
        rw [h.initialised] at hq
        exact hq.resolve_left hne
      have hp' := (h.others q hne).symm.trans hp
      have hold := hheld q hq' p hp'
      rw [Function.update_of_ne hne]
      split_ifs with hpp
      · subst hpp
        obtain ⟨haddr, hgateway, hmac⟩ := halone q hq' hne hp'
        have hkept := congrArg Setting.subnet hold
        rw [hmask.subnet] at hkept
        exact Setting.ext haddr.symm hkept hgateway.symm hmac.symm
      · exact hold

/-- A call that gives nothing. -/
structure Leaves (s t : SettingRun) : Prop where
  regs : ∀ q ∈ t.run.initialised, q ∈ s.run.initialised ∧
    regsOf t.run.lib q = regsOf s.run.lib q
  bus : ∃ ws, t.run.lib.bus = s.run.lib.bus ++ ws ∧ QuietWrites ws
  given : t.given = s.given

theorem Leaves.maskKept (h : Leaves s t) (hmask : MaskKept s.run.lib.bus) :
    MaskKept t.run.lib.bus := by
  obtain ⟨ws, hbus, hws⟩ := h.bus
  rw [hbus]
  exact hmask.append hws.maskKept

theorem Leaves.held (h : Leaves s t) (hheld : Held regs s) : Held regs t := by
  obtain ⟨ws, hbus, hws⟩ := h.bus
  intro q hq ptu hptu
  obtain ⟨hq', hregs⟩ := h.regs q hq
  rw [hbus, readSetting_of_quiet hws, h.given]
  exact hheld q hq' ptu (hregs.symm.trans hptu)

/-- The device that `fpga_ptu_init` leaves. -/
def initDev (fd : ℤ) (pair : Pair) (addr : BitVec 32) : PtuDev :=
  ⟨fd, pair.2, pair.1, laneBase pair, addr, false, true, [], ∅⟩

theorem fpgaPtuInit_eq (h : lib.ptuDevices.contains pair = false) (fd : ℤ)
    (addr subnet gateway : BitVec 32) (mac : Mac) :
    fpgaPtuInit (some fd) addr subnet gateway mac pair lib =
      (.returned 0 none, ⟨lib.ptuDevices.assign pair (initDev fd pair addr),
        lib.bus ++ ((initDev fd pair addr).regWrite
          (settingWrites addr gateway mac ++ [(.tcprxtxBase, 0x200000)]) ++
            (initDev fd pair addr).regWrite
              [(.tcpRetTimer, 20 <<< 20 ||| 6000 <<< 4 ||| 1 <<< 3 ||| 5)])⟩) := by
  unfold fpgaPtuInit
  dsimp only
  rw [if_neg (by simp [h]), arrow_live (Function.update_self ..), PointerMap.assign_assign]
  rfl

theorem fpgaPtuModSetting_eq {dev : PtuDev} (h : lib.ptuDevices pair = some (some dev))
    (addr gateway : BitVec 32) (mac : Mac) :
    fpgaPtuModSetting addr gateway mac pair lib =
      (.returned 0 none, ⟨lib.ptuDevices.assign pair { dev with ipAddr := addr },
        lib.bus ++ dev.regWrite (settingWrites addr gateway mac)⟩) := by
  unfold fpgaPtuModSetting found
  rw [if_pos (PointerMap.contains_of_eq h), arrow_live h]
  rfl

/-- `fpga_ptu_init` of a lane that is not initialised. -/
theorem sets_init (hmissing : s.run.lib.ptuDevices.contains pair = false) (fd : ℤ)
    (addr subnet gateway : BitVec 32) (mac : Mac)
    (ht : settingStep s (pair, .init (some fd) addr subnet gateway mac) = some t) :
    Sets s t pair (fd, laneBase pair) ⟨addr, subnet, gateway, mac⟩ := by
  unfold settingStep at ht
  dsimp only [LaneCall.run] at ht
  rw [fpgaPtuInit_eq hmissing] at ht
  cases ht
  refine ⟨regsOf_assign_self (initDev fd pair addr) _, fun q hq => regsOf_assign_of_ne hq _ _,
    ⟨initDev fd pair addr, (initDev fd pair addr).regWrite
      [(.tcprxtxBase, 0x200000), (.tcpRetTimer, 20 <<< 20 ||| 6000 <<< 4 ||| 1 <<< 3 ||| 5)], rfl,
      quietWrites_regWrite _ (by simp [settingRegs]), ?_⟩, rfl, rfl⟩
  simp only [PtuDev.regWrite, List.map_append, List.append_assoc]
  rfl

/-- `fpga_ptu_mod_setting` of a lane that is initialised. -/
theorem sets_modSetting {dev : PtuDev} (hdev : s.run.lib.ptuDevices pair = some (some dev))
    (hpair : pair ∈ s.run.initialised) (addr gateway : BitVec 32) (mac : Mac)
    (ht : settingStep s (pair, .modSetting addr gateway mac) = some t) :
    Sets s t pair (dev.fd, dev.base) ⟨addr, (s.given pair).subnet, gateway, mac⟩ := by
  unfold settingStep at ht
  dsimp only [LaneCall.run] at ht
  rw [fpgaPtuModSetting_eq hdev] at ht
  cases ht
  exact ⟨regsOf_assign_self { dev with ipAddr := addr } _, fun q hq => regsOf_assign_of_ne hq _ _,
    ⟨dev, [], rfl, quietWrites_nil, (List.append_nil _).symm⟩,
    (Set.insert_eq_of_mem hpair).symm, rfl⟩

/-- The other calls give nothing. -/
theorem leaves_of_quiet (hnone : s.run.lib.ptuDevices.NoNull) {call : LaneCall}
    (ht : settingStep s (pair, call) = some t) (hsets : call.sets = false) (hexit : call ≠ .exit)
    (hasks : call.subscripts = true → s.run.lib.ptuDevices.contains pair = true) : Leaves s t := by
  have hquiet := LaneCall.run_quiet hnone pair hsets hexit hasks
  unfold settingStep at ht
  dsimp only at ht
  generalize call.run pair s.run.lib = result at hquiet ht
  obtain ⟨outcome, lib⟩ := result
  cases outcome with
  | nullDevice => cases ht
  | returned ret out =>
    cases ht
    refine ⟨fun q hq => ⟨?_, congrFun hquiet.regs q⟩, hquiet.writes, ?_⟩
    · cases call with
      | init | modSetting => cases hsets
      | exit => exact absurd rfl hexit
      | _ => exact hq
    · cases call with
      | init | modSetting => cases hsets
      | _ => rfl

/-- `fpga_ptu_exit` takes a lane away. -/
theorem leaves_exit (ht : settingStep s (pair, .exit) = some t) : Leaves s t := by
  unfold settingStep at ht
  dsimp only [LaneCall.run, fpgaPtuExit] at ht
  cases hpair : s.run.lib.ptuDevices pair with
  | none =>
    rw [hpair] at ht
    cases ht
    exact ⟨fun q hq => ⟨hq, rfl⟩, ⟨[], (List.append_nil _).symm, quietWrites_nil⟩, rfl⟩
  | some p =>
    cases p with
    | none =>
      rw [hpair] at ht
      cases ht
    | some dev =>
      rw [hpair] at ht
      cases ht
      refine ⟨fun q hq => ⟨hq.1, ?_⟩, ⟨_, rfl, ?_⟩, rfl⟩
      · have hne : q ≠ pair := hq.2
        simp only [regsOf, PointerMap.erase, Function.update_of_ne hne]
      · intro w hw
        obtain ⟨lport, -, hw⟩ := List.mem_flatMap.mp hw
        exact quietWrites_command _ _ w hw

/-! ### All calls -/

/-- A call that is taken asks for its device or has one. -/
theorem asks_of_settingStep (h : Tracks s.run) {a : Pair × LaneCall}
    (ht : settingStep s a = some t) : Asks s.run a := by
  intro hsubscripts
  by_contra hpair
  have hnull := LaneCall.run_subscript (h.missing hpair) hsubscripts
  unfold settingStep at ht
  generalize a.2.run a.1 s.run.lib = result at hnull ht
  obtain ⟨outcome, lib⟩ := result
  cases hnull
  cases ht

theorem laneStep_of_settingStep {a : Pair × LaneCall} (ht : settingStep s a = some t) :
    laneStep s.run a = some t.run := by
  unfold settingStep at ht
  unfold laneStep
  generalize a.2.run a.1 s.run.lib = result at ht ⊢
  obtain ⟨outcome, lib⟩ := result
  cases outcome with
  | returned ret out =>
    cases ht
    rfl
  | nullDevice => cases ht

/-- A call that fails changes nothing. -/
theorem leaves_of_fails {call : LaneCall} {ret : ℤ} (ht : settingStep s (pair, call) = some t)
    (heq : call.run pair s.run.lib = (.returned ret none, s.run.lib)) (hret : ret ≠ 0) :
    Leaves s t := by
  unfold settingStep at ht
  dsimp only at ht
  rw [heq] at ht
  cases ht
  refine ⟨fun q hq => ⟨?_, rfl⟩, ⟨[], (List.append_nil _).symm, quietWrites_nil⟩, ?_⟩
  · cases call with
    | init | exit =>
      dsimp only [initialisedAfter] at hq
      rwa [if_neg hret] at hq
    | _ => exact hq
  · cases call with
    | init | modSetting => exact if_neg hret
    | _ => rfl

/-- **What a call does to registers that hold what was given.** -/
theorem held_step_iff (h : Tracks s.run) (hmask : MaskKept s.run.lib.bus) (hheld : Held regs s)
    {a : Pair × LaneCall} (ht : settingStep s a = some t) :
    MaskKept t.run.lib.bus ∧ (Held regs t ↔ Gives regs s a) := by
  obtain ⟨pair, call⟩ := a
  have hleaves : Leaves s t → Gives regs s (pair, call) →
      MaskKept t.run.lib.bus ∧ (Held regs t ↔ Gives regs s (pair, call)) := fun hl hg =>
    ⟨hl.maskKept hmask, iff_of_true (hl.held hheld) hg⟩
  cases call with
  | init dev addr subnet gateway mac =>
    by_cases hfails : dev = none ∨ s.run.lib.ptuDevices.contains pair = true
    · have heq : (LaneCall.init dev addr subnet gateway mac).run pair s.run.lib =
          (.returned (-1) none, s.run.lib) := fpgaPtuInit_fails hfails addr subnet gateway mac
      refine hleaves (leaves_of_fails ht heq (by decide)) ?_
      rcases hfails with rfl | hpair
      · trivial
      · cases dev with
        | none => trivial
        | some fd => exact fun hno => absurd ((h.contains_iff pair).mp hpair) hno
    · rw [not_or, Bool.not_eq_true] at hfails
      obtain ⟨fd, rfl⟩ := Option.ne_none_iff_exists'.mp hfails.1
      have hsets := sets_init hfails.2 fd addr subnet gateway mac ht
      have hno : pair ∉ s.run.initialised := by
        rw [← h.contains_iff, hfails.2]
        decide
      refine ⟨hsets.maskKept hmask, (hsets.held_iff hmask hheld).trans ?_⟩
      exact ⟨fun hg _ => hg, fun hg => hg hno⟩
  | modSetting addr gateway mac =>
    by_cases hpair : pair ∈ s.run.initialised
    · obtain ⟨dev, hdev⟩ := h.noNull.live ((h.contains_iff pair).mpr hpair)
      have hregs := regsOf_of_live hdev
      have hsets := sets_modSetting hdev hpair addr gateway mac ht
      have hsubnet : regs (dev.fd, dev.base, .myIpv4Subnet) = (s.given pair).subnet := by
        rw [← hheld pair hpair _ hregs, hmask.subnet]
      refine ⟨hsets.maskKept hmask, (hsets.held_iff hmask hheld).trans ?_⟩
      constructor
      · rintro ⟨-, halone⟩ ptu hptu
        cases hregs.symm.trans hptu
        exact halone
      · exact fun hg => ⟨hsubnet, hg _ hregs⟩
    · have hmissing := h.missing hpair
      have heq : (LaneCall.modSetting addr gateway mac).run pair s.run.lib =
          (.returned failureDeviceOpen none, s.run.lib) := found_missing hmissing ..
      refine hleaves (leaves_of_fails ht heq (by decide)) fun ptu hptu => ?_
      simp [regsOf, PointerMap.eq_none_of_not_contains hmissing] at hptu
  | exit => exact hleaves (leaves_exit ht) trivial
  | _ =>
    refine hleaves (leaves_of_quiet h.noNull ht rfl nofun fun hsubscripts => ?_) trivial
    exact (h.contains_iff pair).mpr (asks_of_settingStep h ht hsubscripts)

/-- **What `fpga_ptu_get_setting` and `fpga_ptu_get_arp_entry` return is what was given**, for every
initialised lane throughout a run, exactly if each mask given is the one its register held at the
start, and no call gives a lane other addresses than another initialised lane with its registers. -/
theorem settingsRight_iff (regs : RegFile) (calls : List (Pair × LaneCall)) :
    (Always settingStep (SettingsRight regs) .start calls ∧ ArpRight) ↔
      Along settingStep (Gives regs) .start calls := by
  rw [and_iff_left arpRight]
  have hstart : Tracks SettingRun.start.run ∧ MaskKept SettingRun.start.run.lib.bus ∧
      Held regs .start := ⟨tracks_start, nofun, fun pair hpair => absurd hpair (Set.notMem_empty pair)⟩
  refine always_iff_along
    (I := fun s => Tracks s.run ∧ MaskKept s.run.lib.bus ∧ Held regs s)
    (fun s a t h hg ht => ?_) (fun s h => (settingsRight_iff_held h.1).mpr h.2.2)
    (fun s a t h ht hright => ?_) hstart calls
  · obtain ⟨htracks, hmask, hheld⟩ := h
    obtain ⟨hmask', hiff⟩ := held_step_iff htracks hmask hheld ht
    exact ⟨htracks.step (asks_of_settingStep htracks ht) (laneStep_of_settingStep ht), hmask',
      hiff.mpr hg⟩
  · obtain ⟨htracks, hmask, hheld⟩ := h
    have htracks' := htracks.step (asks_of_settingStep htracks ht) (laneStep_of_settingStep ht)
    exact (held_step_iff htracks hmask hheld ht).2.mp ((settingsRight_iff_held htracks').mp hright)

/-- A mask given to a lane whose register holds none. -/
theorem not_settingsRight :
    ¬ ∀ (regs : RegFile) (calls : List (Pair × LaneCall)),
      Always settingStep (SettingsRight regs) .start calls ∧ ArpRight := by
  intro h
  have halways := (h (fun _ => 0) [((0, 0), .init (some 3) 0x0a000001 0xffffff00 0x0a0000fe
    #v[2, 0, 0, 0, 0, 1])]).1
  obtain ⟨t, ht⟩ : ∃ t, settingStep .start ((0, 0), .init (some 3) 0x0a000001 0xffffff00 0x0a0000fe
      #v[2, 0, 0, 0, 0, 1]) = some t := ⟨_, rfl⟩
  have hright := (halways.2 t ht).head
  have htracks := tracks_start.step (asks_of_settingStep tracks_start ht) (laneStep_of_settingStep ht)
  have hmask : MaskKept SettingRun.start.run.lib.bus := fun w hw => absurd hw List.not_mem_nil
  have hheld : Held (fun _ => 0) .start := fun pair hpair => absurd hpair (Set.notMem_empty pair)
  have hgives := (held_step_iff tracks_start hmask hheld ht).2.mp
    ((settingsRight_iff_held htracks).mp hright)
  obtain ⟨hmask, -⟩ := hgives (Set.notMem_empty _)
  revert hmask
  decide

end HardwareDrivers.Libptu.Lane
