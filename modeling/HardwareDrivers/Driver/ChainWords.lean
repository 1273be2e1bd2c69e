import HardwareDrivers.Driver.Chain

/-!
# The words of the function chain tables

An entry is packed into `SESSION` and `CHANNEL` bit by bit, and unpacked by the read of
the table, with masks and shifts.

## What is proved

* `entryKey_inj` — two connections have the same place for ingress only if they are the same.
* `readIngress_ingressChannel`, `readEgress_egressSession` — what is read is what was packed.
-/

namespace HardwareDrivers.Driver

/-! ### The bits -/

theorem getLsbD_one32 (i : ℕ) : (1 : BitVec 32).getLsbD i = decide (i = 0) := by
  simp

theorem getLsbD_flagBit (flag : BitVec 8) {place i : ℕ} (hi : i < 32) :
    (flagBit flag place).getLsbD i = (decide (i = place) && flag.getLsbD 0) := by
  unfold flagBit
  rw [BitVec.getLsbD_shiftLeft, BitVec.getLsbD_and, BitVec.getLsbD_setWidth, getLsbD_one32]
  by_cases h : i < place
  · have hne : i ≠ place := by omega
    simp [h, hne]
  · by_cases h' : i = place
    · subst h'
      simp [hi]
    · have hne : i - place ≠ 0 := by omega
      simp [h', hne]

theorem ExtifidCid.Valid.getLsbD_cid {e : ExtifidCid} (he : e.Valid) {i : ℕ} (hi : 9 ≤ i) :
    e.cid.getLsbD i = false := by
  refine Nat.testBit_lt_two_pow (lt_of_le_of_lt he.1 ?_)
  exact lt_of_lt_of_le (by decide : 511 < 2 ^ 9) (Nat.pow_le_pow_right (by decide) hi)

theorem getLsbD_session {e : ExtifidCid} (he : e.Valid) {i : ℕ} (hi : i < 32) :
    e.session.getLsbD i =
      (decide (i < 9) && e.cid.getLsbD i || decide (i = 9) && e.extifId.getLsbD 0) := by
  unfold ExtifidCid.session
  rw [BitVec.getLsbD_or, BitVec.getLsbD_setWidth, BitVec.getLsbD_shiftLeft, BitVec.getLsbD_and,
    getLsbD_one32]
  rcases lt_trichotomy i 9 with h | h | h
  · simp [h, hi, h.ne]
  · have hcid := he.getLsbD_cid h.ge
    subst h
    simp only [BitVec.getLsbD_eq_getElem (by decide : 9 < 16)] at hcid
    simp [hcid]
  · have h9 : ¬ i < 9 := by omega
    have hne : i - 9 ≠ 0 := by omega
    simp [h9, hne, he.getLsbD_cid h.le, h.ne']

theorem getLsbD_ingressChannel (id : FpgaId) {i : ℕ} (hi : i < 32) :
    id.ingressChannel.getLsbD i =
      (id.fchid.getLsbD i || decide (i = 16) && id.enableFlag.getLsbD 0 ||
        decide (i = 17) && id.activeFlag.getLsbD 0 || decide (i = 18) && id.directFlag.getLsbD 0) := by
  unfold FpgaId.ingressChannel
  simp only [BitVec.getLsbD_or, getLsbD_flagBit _ hi, BitVec.getLsbD_setWidth, hi, decide_true,
    Bool.true_and]

theorem getLsbD_egressSession {id : FpgaId} (hid : id.entry.Valid) {i : ℕ} (hi : i < 32) :
    id.egressSession.getLsbD i =
      (decide (i < 9) && id.cid.getLsbD i || decide (i = 9) && id.extifId.getLsbD 0 ||
        decide (i = 16) && id.enableFlag.getLsbD 0 || decide (i = 17) && id.activeFlag.getLsbD 0 ||
        decide (i = 19) && id.virtualFlag.getLsbD 0 ||
        decide (i = 20) && id.blockingFlag.getLsbD 0) := by
  unfold FpgaId.egressSession
  simp only [BitVec.getLsbD_or, getLsbD_flagBit _ hi, getLsbD_session hid hi]
  rfl

/-! ### What a word says -/

/-- The function chain in a word of ingress. -/
def wordFchid (word : BitVec 32) : Fchid := (word &&& 0x1FF).setWidth 9

/-- The connection in a word of egress. -/
def wordEntry (word : BitVec 32) : ExtifidCid :=
  ⟨(word &&& 0x200) >>> 9, (word &&& 0x1FF).setWidth 16⟩

/-- The entry is enabled. -/
def Enabled (word : BitVec 32) : Prop := word.getLsbD 16 = true

instance : DecidablePred Enabled := fun word => inferInstanceAs (Decidable (word.getLsbD 16 = true))

theorem getLsbD_mask : ∀ i < 32, (0x1FF : BitVec 32).getLsbD i = decide (i < 9) := by
  decide

theorem twoPow_shift : ∀ place < 32, BitVec.twoPow 32 place >>> place = 1 := by
  decide

theorem and_twoPow_shift (word : BitVec 32) {place : ℕ} (hp : place < 32) :
    (word &&& BitVec.twoPow 32 place) >>> place = if word.getLsbD place then 1 else 0 := by
  rw [BitVec.and_twoPow]
  split_ifs with h
  · exact twoPow_shift place hp
  · simp

theorem readFlag_eq (readVal : BitVec 32) {place : ℕ} (hp : place < 32) :
    readFlag readVal (BitVec.twoPow 32 place) place =
      if readVal.getLsbD place then 1 else 0 := by
  unfold readFlag
  rw [and_twoPow_shift readVal hp]
  split_ifs with h
  · rfl
  · rfl

/-- A flag that is zero or one is its lowest bit. -/
theorem flag_eq {flag : BitVec 8} (hflag : flag ≤ 1) :
    (if flag.getLsbD 0 then 1 else 0) = flag := by
  have h : flag = 0 ∨ flag = 1 := by
    have hle : flag.toNat ≤ 1 := hflag
    have htoNat : flag.toNat = 0 ∨ flag.toNat = 1 := by omega
    exact htoNat.imp BitVec.eq_of_toNat_eq BitVec.eq_of_toNat_eq
  obtain rfl | rfl := h <;> rfl

theorem ExtifidCid.Valid.extifId_eq {e : ExtifidCid} (he : e.Valid) :
    (if e.extifId.getLsbD 0 then 1 else 0) = e.extifId := by
  obtain h | h := he.2 <;> rw [h] <;> rfl

theorem wordFchid_ingressChannel (id : FpgaId) : wordFchid id.ingressChannel = id.fchid := by
  apply BitVec.eq_of_getLsbD_eq
  intro i hi
  have hi32 : i < 32 := by omega
  unfold wordFchid
  rw [BitVec.getLsbD_setWidth, BitVec.getLsbD_and, getLsbD_ingressChannel id hi32,
    getLsbD_mask i hi32]
  have h16 : i ≠ 16 := by omega
  have h17 : i ≠ 17 := by omega
  have h18 : i ≠ 18 := by omega
  simp [hi, h16, h17, h18]

/-- A word whose low bits are those of the session of a connection names the connection. -/
theorem wordEntry_of_getLsbD {e : ExtifidCid} (he : e.Valid) {word : BitVec 32}
    (h : ∀ i < 10, word.getLsbD i = e.session.getLsbD i) : wordEntry word = e := by
  have hextif : (word &&& 0x200) >>> 9 = e.extifId := by
    have h9 := and_twoPow_shift word (by decide : 9 < 32)
    rw [h 9 (by decide), getLsbD_session he (by decide)] at h9
    exact h9.trans (by simpa using he.extifId_eq)
  have hcid : (word &&& 0x1FF).setWidth 16 = e.cid := by
    apply BitVec.eq_of_getLsbD_eq
    intro i hi
    have hi32 : i < 32 := by omega
    rw [BitVec.getLsbD_setWidth, BitVec.getLsbD_and, getLsbD_mask i hi32]
    by_cases h9 : i < 9
    · have hne : i ≠ 9 := by omega
      rw [h i (by omega), getLsbD_session he hi32]
      simp [hi, h9, hne]
    · simp [h9, he.getLsbD_cid (by omega : 9 ≤ i)]
  unfold wordEntry
  rw [hextif, hcid]

theorem wordEntry_egressSession {id : FpgaId} (hid : id.entry.Valid) :
    wordEntry id.egressSession = id.entry := by
  apply wordEntry_of_getLsbD hid
  intro i hi
  have hi32 : i < 32 := by omega
  rw [getLsbD_egressSession hid hi32, getLsbD_session hid hi32]
  have h16 : i ≠ 16 := by omega
  have h17 : i ≠ 17 := by omega
  have h19 : i ≠ 19 := by omega
  have h20 : i ≠ 20 := by omega
  simp [h16, h17, h19, h20, FpgaId.entry]

theorem enabled_word {id : FpgaId} (hid : id.entry.Valid) (hflag : id.enableFlag.getLsbD 0 = true)
    (kind : CidKind) : Enabled (id.word kind) := by
  unfold Enabled
  cases kind with
  | ingress =>
    rw [FpgaId.word, getLsbD_ingressChannel id (by decide), hflag]
    simp
  | egress =>
    rw [FpgaId.word, getLsbD_egressSession hid (by decide), hflag]
    simp

/-- The place of an ingress entry names its connection. -/
theorem entryKey_inj {e e' : ExtifidCid} (he : e.Valid) (he' : e'.Valid) {f f' : Fchid}
    (h : entryKey e f .ingress = entryKey e' f' .ingress) : e = e' := by
  have hbits : ∀ i < 10, e.session.getLsbD i = e'.session.getLsbD i := by
    intro i hi
    have hkey := congrArg (·.getLsbD i) h
    simpa [entryKey, BitVec.getLsbD_setWidth, hi] using hkey
  exact (wordEntry_of_getLsbD he fun _ _ => rfl).symm.trans (wordEntry_of_getLsbD he' hbits)

theorem entryKey_egress_inj {e e' : ExtifidCid} {f f' : Fchid}
    (h : entryKey e f .egress = entryKey e' f' .egress) : f = f' := by
  have hf := congrArg (BitVec.setWidth 9) h
  simpa [entryKey, BitVec.setWidth_setWidth_of_le] using hf

/-! ### What is read -/

/-- What was packed for ingress is read, into whatever `id'` is. -/
theorem readIngress_ingressChannel (id id' : FpgaId) (hactive : id.activeFlag ≤ 1)
    (henable : id.enableFlag ≤ 1) (hdirect : id.directFlag ≤ 1) :
    id'.readIngress id.ingressChannel = { id' with
      fchid := id.fchid
      enableFlag := id.enableFlag
      activeFlag := id.activeFlag
      directFlag := id.directFlag } := by
  have hflag : ∀ place < 32, ∀ flag : BitVec 8, flag ≤ 1 →
      id.ingressChannel.getLsbD place = flag.getLsbD 0 →
      readFlag id.ingressChannel (BitVec.twoPow 32 place) place = flag := by
    intro place hp flag hle hbit
    rw [readFlag_eq _ hp, hbit, flag_eq hle]
  unfold FpgaId.readIngress
  congr 1
  · exact wordFchid_ingressChannel id
  · apply hflag 16 (by decide) _ henable
    rw [getLsbD_ingressChannel id (by decide)]
    simp
  · apply hflag 17 (by decide) _ hactive
    rw [getLsbD_ingressChannel id (by decide)]
    simp
  · apply hflag 18 (by decide) _ hdirect
    rw [getLsbD_ingressChannel id (by decide)]
    simp

/-- What was packed for egress is read, into whatever `id'` is. -/
theorem readEgress_egressSession (id id' : FpgaId) (hid : id.entry.Valid)
    (henable : id.enableFlag ≤ 1) (hactive : id.activeFlag ≤ 1) (hvirtual : id.virtualFlag ≤ 1)
    (hblocking : id.blockingFlag ≤ 1) :
    id'.readEgress id.egressSession = { id' with
      extifId := id.extifId
      cid := id.cid
      enableFlag := id.enableFlag
      activeFlag := id.activeFlag
      virtualFlag := id.virtualFlag
      blockingFlag := id.blockingFlag } := by
  have hflag : ∀ place < 32, ∀ flag : BitVec 8, flag ≤ 1 →
      id.egressSession.getLsbD place = flag.getLsbD 0 →
      readFlag id.egressSession (BitVec.twoPow 32 place) place = flag := by
    intro place hp flag hle hbit
    rw [readFlag_eq _ hp, hbit, flag_eq hle]
  have hentry := wordEntry_egressSession hid
  unfold FpgaId.readEgress
  congr 1
  · exact congrArg ExtifidCid.extifId hentry
  · exact congrArg ExtifidCid.cid hentry
  · apply hflag 16 (by decide) _ henable
    rw [getLsbD_egressSession hid (by decide)]
    simp
  · apply hflag 17 (by decide) _ hactive
    rw [getLsbD_egressSession hid (by decide)]
    simp
  · apply hflag 19 (by decide) _ hvirtual
    rw [getLsbD_egressSession hid (by decide)]
    simp
  · apply hflag 20 (by decide) _ hblocking
    rw [getLsbD_egressSession hid (by decide)]
    simp

end HardwareDrivers.Driver
