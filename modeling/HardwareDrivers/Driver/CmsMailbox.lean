import HardwareDrivers.Driver.ModuleRegs
import HardwareDrivers.Theory.BitFields
import HardwareDrivers.Theory.Faults

/-!
# The strings of the CMS mailbox

`libxpcie_cms.c`: the driver asks the CMS of a card for its serial id and its name, waits until the
mailbox is valid, and copies the two strings out of its registers into the record of the device,
which the probe has set to zero. The name begins in the middle of a register. Both strings are
printed, the serial id is part of the name of the device node, and `GET_DEVICE_INFO` copies the name
of the card.

## What is proved

* `eval_xpcieFpgaGetMailbox` — when the mailbox is read, and what is in the two arrays then.
* `cardName_terminated`, `serialId_eq` — the name ends in its array, the serial id is the whole of
  its 32 bytes.
* `mailboxRight_iff` — the strings are right exactly if the mailbox ends the serial id.
-/

namespace HardwareDrivers.Driver.Cms

open Theory

/-! ### The registers -/

/-- `XPCIE_FPGA_CMS_UNREST`. -/
def cmsUnrest : BitVec 64 := 0x20000

/-- `XPCIE_FPGA_CMS_MAILBOX_STATUS`. -/
def cmsMailboxStatus : BitVec 64 := 0x28018

/-- `XPCIE_FPGA_CMS_MESSAGE_ERROR`. -/
def cmsMessageError : BitVec 64 := 0x28304

/-- `XPCIE_FPGA_CMS_MAILBOX`. -/
def cmsMailbox : BitVec 64 := 0x29000

/-- `XPCIE_FPGA_CMS_MAILBOX_SERIAL_ID`. -/
def cmsMailboxSerialId : BitVec 64 := 0x1C + cmsMailbox

/-- `XPCIE_FPGA_CMS_MAILBOX_CARD_NAME`. -/
def cmsMailboxCardName : BitVec 64 := 0x06 + cmsMailbox

/-- `XPCIE_4BYTE_ALIGNED`. -/
def xpcie4byteAligned (addr : BitVec 64) : BitVec 64 := (addr - 0b1) &&& ~~~0b11

/-- `XPCIE_FPGA_CMS_SERIAL_GET_CMD`. -/
def cmsSerialGetCmd : BitVec 32 := 0x04000000

/-- `XPCIE_FPGA_CMS_MAILBOX_NOTICE_CMD`. -/
def cmsMailboxNoticeCmd : BitVec 32 := 0x00000020

/-- `SERIAL_ID_LEN`. -/
def serialIdLen : ℕ := 32

/-- `FPGA_CARD_NAME_LEN`. -/
def fpgaCardNameLen : ℕ := 32

/-- `EBUSY`. -/
def ebusy : ℤ := 16

/-! ### Reading the mailbox -/

/-- The strings of `fpga_dev_info_t`. -/
structure CmsStrings where
  /-- `serial_id`. -/
  serialId : Fin serialIdLen → UInt8
  /-- `card_name`. -/
  cardName : Fin fpgaCardNameLen → UInt8

variable (m : FpgaModuleInfo)

/-- `xpcie_fpga_set_cms_unrest`. -/
def xpcieFpgaSetCmsUnrest (data : BitVec 32) : RegProg Unit := regWrite m cmsUnrest 0 data

/-- The loop that waits for the mailbox, with the tries that are left: whether it became valid. -/
def waitMailbox : ℕ → RegProg Bool
  | 0 => pure false
  | tries + 1 => do
    let ret ← regRead m cmsMailboxStatus 0
    if ret &&& 0b100000 = 0 then pure true else waitMailbox tries

/-- The first `n` rounds of the loop that gets the serial id. -/
def getSerialId : (n : ℕ) → 4 * n ≤ serialIdLen → (Fin serialIdLen → UInt8) →
    RegProg (Fin serialIdLen → UInt8)
  | 0, _, serialId => pure serialId
  | n + 1, h, serialId => do
    let serialId ← getSerialId n (by omega) serialId
    let data ← regRead m (cmsMailboxSerialId + BitVec.ofNat 64 (4 * n)) 0
    pure (putBytes serialId (4 * n) 4 h data)

/-- The statements that get the name of the card: a half word, two words and three bytes. -/
def getCardName (cardName : Fin fpgaCardNameLen → UInt8) :
    RegProg (Fin fpgaCardNameLen → UInt8) := do
  let addr := xpcie4byteAligned cmsMailboxCardName
  let data ← regRead m addr 0
  let cardName := Function.update cardName ⟨0, by decide⟩
    (.ofBitVec (((data >>> 16) &&& 0xFF).setWidth 8))
  let cardName := Function.update cardName ⟨1, by decide⟩
    (.ofBitVec (((data >>> 24) &&& 0xFF).setWidth 8))
  let data ← regRead m (addr + 4) 0
  let cardName := putBytes cardName 2 4 (by decide) data
  let data ← regRead m (addr + 4 + 4) 0
  let cardName := putBytes cardName 6 4 (by decide) data
  let data ← regRead m (addr + 4 + 4 + 4) 0
  pure (putBytes cardName 10 3 (by decide) data)

/-- `xpcie_fpga_get_mailbox`. -/
def xpcieFpgaGetMailbox (dev : CmsStrings) : RegProg (ℤ × CmsStrings) := do
  xpcieFpgaSetCmsUnrest m 1
  let ret ← regRead m cmsMailboxStatus 0
  if ret &&& 0b10 ≠ 0 then pure (-ebusy, dev)
  else
    regWrite m cmsMailbox 0 cmsSerialGetCmd
    regWrite m cmsMailboxStatus 0 cmsMailboxNoticeCmd
    let valid ← waitMailbox m (60 * 5)
    if valid = false then pure (-ebusy, dev)
    else
      let ret ← regRead m cmsMessageError 0
      if ret &&& 0b11111111111 ≠ 0 then pure (-ebusy, dev)
      else
        let serialId ← getSerialId m (serialIdLen / 4) (by decide) dev.serialId
        let cardName ← getCardName m dev.cardName
        pure (0, ⟨serialId, cardName⟩)

/-- What `xpcie_pci_probe` gives it: the record was set to zero. -/
def CmsStrings.zero : CmsStrings := ⟨fun _ => 0, fun _ => 0⟩

/-! ### Using the strings -/

/-- An access behind the end of an array. -/
inductive CharsFault where
  /-- The end of the string is not in the array. -/
  | pastEnd
  deriving DecidableEq

/-- `XPCIE_DEVICE_NAME`, which is `DRIVER_NAME`. -/
def driverName : List UInt8 := [0x78, 0x70, 0x63, 0x69, 0x65]

/-- `SERIAL_ID=%s` and `CARD_NAME=%s` in `xpcie_fpga_dev_init`: what is printed. -/
def printStrings (dev : CmsStrings) : Except CharsFault (List UInt8 × List UInt8) := do
  let serialId ← readStr .pastEnd dev.serialId
  let cardName ← readStr .pastEnd dev.cardName
  pure (serialId, cardName)

/-- The name that `xpcie_pci_probe` gives to `device_create`. -/
def deviceNode (dev : CmsStrings) : Except CharsFault (List UInt8) := do
  let serialId ← readStr .pastEnd dev.serialId
  pure (driverName ++ 0x5f :: serialId)

/-- `card_name` of the answer to `XPCIE_DEV_DRIVER_GET_DEVICE_INFO`, a local variable. -/
def getDeviceInfo (cardName : Fin fpgaCardNameLen → UInt8) (dev : CmsStrings) :
    Except CharsFault (Fin fpgaCardNameLen → UInt8) :=
  strcpy .pastEnd cardName dev.cardName

/-! ### The CMS -/

/-- A CMS, by what it answers. -/
structure CmsHw where
  /-- What the reads of `CMS_MAILBOX_STATUS` give, one after another. -/
  status : ℕ → BitVec 32
  /-- `CMS_MESSAGE_ERROR`. -/
  messageError : BitVec 32
  /-- The bytes from `CMS_MAILBOX` on. -/
  mailbox : ℕ → UInt8

/-- An access; the state is how often the status was read. -/
def CmsHw.access (hw : CmsHw) : (c : RegCmd) → ℕ → c.Ans × ℕ
  | .read32 offset, reads =>
    if offset = m.offset cmsMailboxStatus 0 then (hw.status reads, reads + 1)
    else if offset = m.offset cmsMessageError 0 then (hw.messageError, reads)
    else (wordAt hw.mailbox (offset - m.offset cmsMailbox 0).toNat, reads)
  | .write32 .., reads => ((), reads)

/-- The mailbox is read: no error, and valid in time. -/
def CmsHw.Answers (hw : CmsHw) : Prop :=
  hw.status 0 &&& 0b10 = 0 ∧ (∃ k < 60 * 5, hw.status (k + 1) &&& 0b100000 = 0) ∧
    hw.messageError &&& 0b11111111111 = 0

/-! ### What is said of the strings -/

/-- The strings of the record are those of the mailbox, and using them stays inside their arrays. -/
structure StringsRight (hw : CmsHw) (dev : CmsStrings) : Prop where
  /-- The serial id ends in its array. -/
  serialIdEnds : Terminated dev.serialId
  /-- The name of the card ends in its array. -/
  cardNameEnds : Terminated dev.cardName
  /-- Before its end the serial id is that of the mailbox. -/
  serialId : ∀ i, (∀ j ≤ i, dev.serialId j ≠ 0) → dev.serialId i = hw.mailbox (0x1C + i)
  /-- Before its end the name is that of the mailbox. -/
  cardName : ∀ i, (∀ j ≤ i, dev.cardName j ≠ 0) → dev.cardName i = hw.mailbox (0x06 + i)
  /-- Printing stays inside the arrays. -/
  prints : NoFault (printStrings dev)
  /-- So does making the name of the device node. -/
  names : NoFault (deviceNode dev)
  /-- So does copying the name of the card. -/
  copies : ∀ cardName, NoFault (getDeviceInfo cardName dev)

/-- If the mailbox is read, the strings are right. -/
def MailboxRight (hw : CmsHw) : Prop :=
  ∀ dev, ((xpcieFpgaGetMailbox m .zero).eval (hw.access m) 0).1 = (0, dev) → StringsRight hw dev

/-! ### The reads -/

variable {m} {hw : CmsHw} {dev : CmsStrings}

theorem eval_regRead (offset : BitVec 64) (reads : ℕ) :
    (regRead m offset 0).eval (hw.access m) reads = hw.access m (.read32 (m.offset offset 0)) reads :=
  rfl

theorem eval_regWrite (offset : BitVec 64) (value : BitVec 32) (reads : ℕ) :
    (regWrite m offset 0 value).eval (hw.access m) reads = ((), reads) := rfl

theorem eval_status (reads : ℕ) :
    (regRead m cmsMailboxStatus 0).eval (hw.access m) reads = (hw.status reads, reads + 1) := by
  rw [eval_regRead, CmsHw.access, if_pos rfl]

theorem eval_messageError (reads : ℕ) :
    (regRead m cmsMessageError 0).eval (hw.access m) reads = (hw.messageError, reads) := by
  have hne : m.offset cmsMessageError 0 ≠ m.offset cmsMailboxStatus 0 := fun h =>
    absurd (FpgaModuleInfo.offset_inj.mp h) (by decide)
  rw [eval_regRead, CmsHw.access, if_neg hne, if_pos rfl]

/-- A register of the mailbox. -/
theorem eval_mailbox {offset : BitVec 64} {d : ℕ} (hoffset : offset = cmsMailbox + BitVec.ofNat 64 d)
    (hd : d < 0x1000) (reads : ℕ) :
    (regRead m offset 0).eval (hw.access m) reads = (wordAt hw.mailbox d, reads) := by
  have hnum : (offset.setWidth 32).toNat = 0x29000 + d := by
    rw [hoffset, BitVec.toNat_setWidth, BitVec.toNat_add, BitVec.toNat_ofNat]
    change ((0x29000 + d % 2 ^ 64) % 2 ^ 64) % 2 ^ 32 = 0x29000 + d
    omega
  have hother : ∀ x : BitVec 64, (x.setWidth 32).toNat < 0x29000 → m.offset offset 0 ≠ m.offset x 0 := by
    intro x hx heq
    rw [FpgaModuleInfo.offset_inj.mp heq] at hnum
    omega
  have hbase : m.offset offset 0 - m.offset cmsMailbox 0 =
      offset.setWidth 32 - cmsMailbox.setWidth 32 := by
    simp only [FpgaModuleInfo.offset, BitVec.setWidth_add _ _ (by decide : 32 ≤ 64)]
    exact add_sub_add_left_eq_sub ..
  have hindex : (m.offset offset 0 - m.offset cmsMailbox 0).toNat = d := by
    rw [hbase, BitVec.toNat_sub, hnum]
    change (2 ^ 32 - 0x29000 + (0x29000 + d)) % 2 ^ 32 = d
    omega
  rw [eval_regRead, CmsHw.access, if_neg (hother _ (by decide)), if_neg (hother _ (by decide)), hindex]

/-- The loop that waits finds out whether the mailbox becomes valid while it looks. -/
theorem eval_waitMailbox (tries reads : ℕ) :
    ((waitMailbox m tries).eval (hw.access m) reads).1 =
      decide (∃ k < tries, hw.status (reads + k) &&& 0b100000 = 0) := by
  induction tries generalizing reads with
  | zero => exact (decide_eq_false fun ⟨k, hk, _⟩ => absurd hk (Nat.not_lt_zero k)).symm
  | succ tries ih =>
    unfold waitMailbox
    rw [Prog.eval_bind, eval_status]
    by_cases hvalid : hw.status reads &&& 0b100000 = 0
    · rw [if_pos hvalid]
      exact (decide_eq_true ⟨0, Nat.succ_pos tries, hvalid⟩).symm
    · rw [if_neg hvalid, ih]
      refine decide_eq_decide.mpr ⟨?_, ?_⟩
      · rintro ⟨k, hk, h⟩
        exact ⟨k + 1, Nat.succ_lt_succ hk, by rw [← h]; congr 2; omega⟩
      · rintro ⟨k, hk, h⟩
        cases k with
        | zero => exact absurd h hvalid
        | succ k => exact ⟨k, Nat.lt_of_succ_lt_succ hk, by rw [← h]; congr 2; omega⟩

/-- The first rounds of the loop copy the first bytes of the serial id. -/
theorem eval_getSerialId {n : ℕ} (h : 4 * n ≤ serialIdLen) (serialId : Fin serialIdLen → UInt8)
    (reads : ℕ) : (getSerialId m n h serialId).eval (hw.access m) reads =
      (copied hw.mailbox 0x1C (4 * n) serialId, reads) := by
  induction n with
  | zero => rfl
  | succ n ih =>
    have hlen : 4 * n + 4 ≤ 32 := h
    have hoffset : cmsMailboxSerialId + BitVec.ofNat 64 (4 * n) =
        cmsMailbox + BitVec.ofNat 64 (0x1C + 4 * n) := by
      rw [BitVec.ofNat_add, ← BitVec.add_assoc]
      rfl
    unfold getSerialId
    rw [Prog.eval_bind, ih, Prog.eval_bind, eval_mailbox hoffset (by omega), Prog.eval_pure]
    exact Prod.ext (putBytes_copied serialId hlen hw.mailbox 0x1C le_rfl) rfl

/-- The half word that the name begins with. -/
theorem update_halfWord (mem : ℕ → UInt8) (cardName : Fin fpgaCardNameLen → UInt8) :
    Function.update (Function.update cardName ⟨0, by decide⟩
      (.ofBitVec (((wordAt mem 0x04 >>> 16) &&& 0xFF).setWidth 8))) ⟨1, by decide⟩
      (.ofBitVec (((wordAt mem 0x04 >>> 24) &&& 0xFF).setWidth 8)) = copied mem 0x06 2 cardName := by
  have hlow : .ofBitVec (((wordAt mem 0x04 >>> 16) &&& 0xFF).setWidth 8) = mem 0x06 :=
    (byteOf_eq_shift _ 2).trans (byteOf_wordAt mem 0x04 (by decide))
  have hhigh : .ofBitVec (((wordAt mem 0x04 >>> 24) &&& 0xFF).setWidth 8) = mem 0x07 :=
    (byteOf_eq_shift _ 3).trans (byteOf_wordAt mem 0x04 (by decide))
  rw [hlow, hhigh]
  funext i
  by_cases hone : i = ⟨1, by decide⟩
  · rw [hone, Function.update_self]
    rfl
  · rw [Function.update_of_ne hone]
    by_cases hzero : i = ⟨0, by decide⟩
    · rw [hzero, Function.update_self]
      rfl
    · have hle : ¬ (i : ℕ) < 2 := fun hlt => by
        have hval : (i : ℕ) = 0 ∨ (i : ℕ) = 1 := by omega
        exact hval.elim (fun h => hzero (Fin.ext h)) fun h => hone (Fin.ext h)
      rw [Function.update_of_ne hzero, copied, if_neg hle]

/-- The name of the card is in 13 bytes of four registers. -/
theorem eval_getCardName (cardName : Fin fpgaCardNameLen → UInt8) (reads : ℕ) :
    (getCardName m cardName).eval (hw.access m) reads =
      (copied hw.mailbox 0x06 13 cardName, reads) := by
  unfold getCardName
  rw [Prog.eval_bind, eval_mailbox (d := 0x04) (by decide) (by decide), Prog.eval_bind,
    eval_mailbox (d := 0x08) (by decide) (by decide), Prog.eval_bind,
    eval_mailbox (d := 0x0C) (by decide) (by decide), Prog.eval_bind,
    eval_mailbox (d := 0x10) (by decide) (by decide), Prog.eval_pure]
  refine Prod.ext ?_ rfl
  dsimp only
  rw [update_halfWord, putBytes_copied _ _ hw.mailbox 0x06 (by decide),
    putBytes_copied _ _ hw.mailbox 0x06 (by decide), putBytes_copied _ _ hw.mailbox 0x06 (by decide)]

instance : Decidable hw.Answers := inferInstanceAs (Decidable (_ ∧ _ ∧ _))

/-- What is in the arrays when the mailbox was read. -/
def CmsHw.strings (hw : CmsHw) (dev : CmsStrings) : CmsStrings :=
  ⟨copied hw.mailbox 0x1C 32 dev.serialId, copied hw.mailbox 0x06 13 dev.cardName⟩

/-- **`xpcie_fpga_get_mailbox`** reads the strings if there is no error and the mailbox becomes valid,
and fails otherwise. -/
theorem eval_xpcieFpgaGetMailbox (dev : CmsStrings) :
    ((xpcieFpgaGetMailbox m dev).eval (hw.access m) 0).1 =
      if hw.Answers then (0, hw.strings dev) else (-ebusy, dev) := by
  have hwait : ((waitMailbox m (60 * 5)).eval (hw.access m) 1).1 =
      decide (∃ k < 60 * 5, hw.status (k + 1) &&& 0b100000 = 0) := by
    rw [eval_waitMailbox]
    exact decide_eq_decide.mpr (exists_congr fun k => by rw [Nat.add_comm 1 k])
  unfold xpcieFpgaGetMailbox xpcieFpgaSetCmsUnrest
  rw [Prog.eval_bind, eval_regWrite, Prog.eval_bind, eval_status]
  by_cases herror : hw.status 0 &&& 0b10 = 0
  · rw [if_neg (not_not.mpr herror), Prog.eval_bind, eval_regWrite, Prog.eval_bind, eval_regWrite,
      Prog.eval_bind, hwait]
    by_cases hvalid : ∃ k < 60 * 5, hw.status (k + 1) &&& 0b100000 = 0
    · rw [decide_eq_true hvalid, if_neg (by decide), Prog.eval_bind, eval_messageError]
      by_cases hmessage : hw.messageError &&& 0b11111111111 = 0
      · rw [if_neg (not_not.mpr hmessage), Prog.eval_bind, eval_getSerialId, Prog.eval_bind,
          eval_getCardName, Prog.eval_pure, if_pos ⟨herror, hvalid, hmessage⟩]
        rfl
      · rw [if_pos hmessage, if_neg fun h => hmessage h.2.2]
        rfl
    · rw [decide_eq_false hvalid, if_pos rfl, if_neg fun h => hvalid h.2.1]
      rfl
  · rw [if_pos herror, if_neg fun h => herror h.1]
    rfl

/-! ### What is in the arrays -/

/-- The serial id is the whole of its array. -/
theorem serialId_eq (i : Fin serialIdLen) :
    (hw.strings dev).serialId i = hw.mailbox (0x1C + i) := if_pos i.isLt

/-- The array of the name was set to zero, and 13 bytes of it are written. -/
theorem cardName_eq_zero {i : Fin fpgaCardNameLen} (hi : 13 ≤ (i : ℕ)) :
    (hw.strings .zero).cardName i = 0 := if_neg (Nat.not_lt.mpr hi)

theorem cardName_terminated : Terminated (hw.strings .zero).cardName :=
  ⟨⟨13, by decide⟩, cardName_eq_zero le_rfl⟩

/-- Before its end the name of the card is that of the mailbox. -/
theorem cardName_eq {i : Fin fpgaCardNameLen} (hi : (hw.strings .zero).cardName i ≠ 0) :
    (hw.strings .zero).cardName i = hw.mailbox (0x06 + i) := by
  by_cases hlt : (i : ℕ) < 13
  · exact if_pos hlt
  · exact absurd (cardName_eq_zero (Nat.le_of_not_lt hlt)) hi

theorem serialId_terminated_iff :
    Terminated (hw.strings dev).serialId ↔ ∃ i < serialIdLen, hw.mailbox (0x1C + i) = 0 := by
  constructor
  · rintro ⟨i, hi⟩
    rw [serialId_eq] at hi
    exact ⟨i, i.isLt, hi⟩
  · rintro ⟨i, hlt, hi⟩
    exact ⟨⟨i, hlt⟩, (serialId_eq _).trans hi⟩

/-! ### Using the strings -/

theorem noFault_printStrings (hserial : Terminated dev.serialId) (hcard : Terminated dev.cardName) :
    NoFault (printStrings dev) := by
  have hserial : NoFault (readStr CharsFault.pastEnd dev.serialId) := noFault_readStr_iff.mpr hserial
  have hcard : NoFault (readStr CharsFault.pastEnd dev.cardName) := noFault_readStr_iff.mpr hcard
  obtain ⟨serialId, hserialId⟩ := hserial
  obtain ⟨cardName, hcardName⟩ := hcard
  exact noFault_bind.mpr ⟨serialId, hserialId, noFault_bind.mpr ⟨cardName, hcardName, noFault_pure _⟩⟩

theorem noFault_deviceNode (h : Terminated dev.serialId) : NoFault (deviceNode dev) := by
  have hserial : NoFault (readStr CharsFault.pastEnd dev.serialId) := noFault_readStr_iff.mpr h
  obtain ⟨serialId, hserialId⟩ := hserial
  exact noFault_bind.mpr ⟨serialId, hserialId, noFault_pure _⟩

/-- The strings of a device that was probed are right exactly if the mailbox ends the serial id. -/
theorem stringsRight_iff :
    StringsRight hw (hw.strings .zero) ↔ ∃ i < serialIdLen, hw.mailbox (0x1C + i) = 0 := by
  rw [← serialId_terminated_iff]
  refine ⟨StringsRight.serialIdEnds, fun h => ?_⟩
  exact
    { serialIdEnds := h
      cardNameEnds := cardName_terminated
      serialId := fun i _ => serialId_eq i
      cardName := fun i hi => cardName_eq (hi i le_rfl)
      prints := noFault_printStrings h cardName_terminated
      names := noFault_deviceNode h
      copies := fun _ => noFault_strcpy_iff.mpr cardName_terminated }

/-- **The strings are right** exactly if the mailbox is not read, or one of the 32 bytes of the
serial id in it is zero. -/
theorem mailboxRight_iff (m : FpgaModuleInfo) (hw : CmsHw) :
    MailboxRight m hw ↔ (hw.Answers → ∃ i < serialIdLen, hw.mailbox (0x1C + i) = 0) := by
  have heval : ((xpcieFpgaGetMailbox m .zero).eval (hw.access m) 0).1 = _ :=
    eval_xpcieFpgaGetMailbox .zero
  rw [← stringsRight_iff]
  constructor
  · intro h hanswers
    exact h _ (heval.trans (if_pos hanswers))
  · intro h dev hdev
    have hstrings := heval.symm.trans hdev
    split_ifs at hstrings with hanswers
    · cases hstrings
      exact h hanswers
    · cases hstrings

/-- A CMS whose serial id has 32 characters. -/
def unendedSerialId : CmsHw := ⟨fun _ => 0, 0, fun _ => 0x41⟩

/-- It is read, and does not end in its array: the name of the device node is read behind it. -/
theorem not_mailboxRight : ¬ ∀ (m : FpgaModuleInfo) (hw : CmsHw), MailboxRight m hw := by
  intro h
  have hanswers : unendedSerialId.Answers := ⟨rfl, ⟨0, by decide, rfl⟩, rfl⟩
  have hright := h ⟨0x40000, 0x40000⟩ unendedSerialId _
    ((eval_xpcieFpgaGetMailbox _).trans (if_pos hanswers))
  obtain ⟨i, -, hi⟩ := serialId_terminated_iff.mp hright.serialIdEnds
  have hchar : unendedSerialId.mailbox (0x1C + i) = 0x41 := rfl
  exact absurd (hi.symm.trans hchar) (by decide)

end HardwareDrivers.Driver.Cms
