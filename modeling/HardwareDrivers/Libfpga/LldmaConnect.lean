import HardwareDrivers.Driver.LldmaConnect
import HardwareDrivers.Libfpga.LldmaTableAgrees

/-!
# Connecting two devices

`fpga_lldma_buf_connect` and `fpga_lldma_direct_connect`: what is in the registers of the
two channels when the call returns 0.

## What is proved

* `bufConnectBody_ok` — the two requests behind a connection.
* `connect_links_iff` — a call that returns 0 has linked the two channels, and left the
  registers of all others, exactly if both numbers are below the counts of their devices.
-/

namespace HardwareDrivers.Libfpga

open Driver

variable {p p' : LldmaProcess} {info : FpgaLldmaConnect} {env : ConnectEnv}

/-- A call that connects two channels. -/
inductive ConnectCall where
  /-- `fpga_lldma_buf_connect`. -/
  | buf (m : ShmemMaps)
  /-- `fpga_lldma_direct_connect`. -/
  | direct

/-- The result of the call, and the process after it. -/
def ConnectCall.run (p : LldmaProcess) (info : FpgaLldmaConnect) (env : ConnectEnv) :
    ConnectCall → Except LibfpgaErr Unit × LldmaProcess
  | .buf m => fpgaLldmaBufConnect p m info env
  | .direct => fpgaLldmaDirectConnect p info env

/-- The buffer asked for, by its physical address. -/
def ConnectCall.buffer (info : FpgaLldmaConnect) : ConnectCall → Option (BitVec 64 × BitVec 32)
  | .buf m =>
    some (BitVec.ofNat 64 (dmaPaFromVa m info.bufAddr info.bufSize.toNat).1, info.bufSize)
  | .direct => none

/-- The physical address of the buffer fits in its `uint64_t`. -/
def ConnectCall.Fits (info : FpgaLldmaConnect) : ConnectCall → Prop
  | .buf m => (dmaPaFromVa m info.bufAddr info.bufSize.toNat).1 < 2 ^ 64
  | .direct => True

/-- Each of the two channels has the other one, and the address of the other device, in its
registers, with the same buffer, and no other channel of the devices has changed. -/
structure Linked (p p' : LldmaProcess) (info : FpgaLldmaConnect) (env : ConnectEnv)
    (buf : Option (BitVec 64 × BitVec 32)) : Prop where
  /-- The `TX` channel. -/
  tx : Links .tx info.txChid (BitVec.ofNat 32 info.rxChid)
    (env.txAlloc.baseaddr (p.devs info.rxDevId).devId) buf (p.devs info.txDevId)
    (p'.devs info.txDevId)
  /-- The `RX` channel. -/
  rx : Links .rx info.rxChid (BitVec.ofNat 32 info.txChid)
    (env.rxAlloc.baseaddr (p.devs info.txDevId).devId) buf (p.devs info.rxDevId)
    (p'.devs info.rxDevId)

/-! ### The two requests -/

/-- `__fpga_lldma_buf_connect` returns 0 after a request on each of the devices. -/
theorem bufConnectBody_ok {dstPa64 : BitVec 64} {id : ConnectorId}
    (hne : info.txDevId ≠ info.rxDevId)
    (h : fpgaLldmaBufConnectBody p info dstPa64 id env = (.ok (), p')) :
    (∃ r priv, xpcieFpgaIoctlLldma (p.devs info.txDevId) none env.txAlloc
      (.allocConnection (info.txConnect p dstPa64 id)) = (.ok r, p'.devs info.txDevId, priv)) ∧
    ∃ r priv, xpcieFpgaIoctlLldma (p.devs info.rxDevId) none env.rxAlloc
      (.allocConnection (info.rxConnect p dstPa64 id)) = (.ok r, p'.devs info.rxDevId, priv) := by
  unfold fpgaLldmaBufConnectBody at h
  rcases fpgaLldmaCheckQueue_cases p info.txSlot env.tx with
    ⟨-, hr⟩ | ⟨txFd, ho, ⟨-, e, hr⟩ | ⟨-, hr⟩⟩
  · simp [hr] at h
  · simp [hr] at h
  simp only [hr] at h
  rcases fpgaLldmaCheckQueue_cases (p.checked info.txSlot txFd) info.rxSlot env.rx with
    ⟨-, hr'⟩ | ⟨rxFd, ho', ⟨-, e, hr'⟩ | ⟨-, hr'⟩⟩
  · simp [hr'] at h
  · simp [hr'] at h
  simp only [hr'] at h
  have hfd : txFd ≠ rxFd := by
    rintro rfl
    have hopen := (opens_eq_some.mp ho').2
    rw [checked_fds] at hopen
    cases hopen
  set q := (p.checked info.txSlot txFd).checked info.rxSlot rxFd with hq
  have htx : q.fds txFd = some ⟨info.txDevId, none⟩ :=
    (Function.update_of_ne hfd ..).trans (checked_fds info.txSlot txFd)
  have hrx : q.fds rxFd = some ⟨info.rxDevId, none⟩ := checked_fds info.rxSlot rxFd
  have hdevs : q.devs = p.devs := rfl
  clear_value q
  unfold requestChannels at h
  have htxConnect : info.txConnect q dstPa64 id = info.txConnect p dstPa64 id := by
    simp only [FpgaLldmaConnect.txConnect, hdevs]
  rw [htxConnect] at h
  rcases ioctl_allocConnection_cases (p.devs info.txDevId) none env.txAlloc
      (info.txConnect p dstPa64 id) with
    ⟨e, ha, -⟩ | ⟨dev, -, -, -, -, htake, ha⟩
  · simp [fpgautilIoctl_of_file htx (hdevs ▸ ha), Except.map, Except.mapError] at h
  simp only [fpgautilIoctl_of_file htx (hdevs ▸ ha), Except.map, Except.mapError] at h
  set q' := q.setFile txFd info.txDevId _ dev with hq'
  have hrx' : q'.fds rxFd = some ⟨info.rxDevId, none⟩ :=
    (Function.update_of_ne hfd.symm ..).trans hrx
  have hdevs' : q'.devs = Function.update p.devs info.txDevId dev := by
    rw [hq', devs_setFile, hdevs]
  clear_value q'
  have hrxDev : q'.devs info.rxDevId = p.devs info.rxDevId := by
    rw [hdevs', Function.update_of_ne hne.symm]
  have hrxConnect : info.rxConnect q' dstPa64 id = info.rxConnect p dstPa64 id := by
    simp only [FpgaLldmaConnect.rxConnect, hdevs', Function.update_self, htake.leaves.devId]
  rw [hrxConnect] at h
  rcases ioctl_allocConnection_cases (p.devs info.rxDevId) none env.rxAlloc
      (info.rxConnect p dstPa64 id) with
    ⟨e, ha', -⟩ | ⟨dev', -, -, -, -, -, ha'⟩
  · simp [fpgautilIoctl_of_file hrx' (hrxDev ▸ ha'), Except.map, Except.mapError] at h
  simp only [fpgautilIoctl_of_file hrx' (hrxDev ▸ ha'), Except.map, Except.mapError] at h
  obtain ⟨-, rfl⟩ := Prod.mk.inj h
  constructor
  · rw [devs_setFile, Function.update_of_ne hne, hdevs', Function.update_self]
    exact ⟨_, _, ha⟩
  · rw [devs_setFile, Function.update_self]
    exact ⟨_, _, ha'⟩

/-! ### What is linked -/

/-- A name is accepted only for two devices. -/
theorem ne_of_accepted {id : ConnectorId} (h : info.accepted p = some id) :
    info.txDevId ≠ info.rxDevId := by
  obtain ⟨-, hacc⟩ := Option.filter_eq_some_iff.mp h
  exact (of_decide_eq_true hacc).2.2.2

/-- The number of a channel is no truncated `255`. -/
theorem toNat_ofNat_chid_lt (chid : Chid) : (BitVec.ofNat 32 chid).toNat < 255 := by
  have hlt : (chid : ℕ) < 32 := chid.isLt
  rw [BitVec.toNat_ofNat]
  omega

theorem linked_iff {dstPa64 : BitVec 64} {id : ConnectorId}
    {buf : Option (BitVec 64 × BitVec 32)}
    (hbuf : buf = if dstPa64 = 0 then none else some (dstPa64, info.bufSize))
    (hreach : ∀ devId, (p.devs devId).Reachable) (hne : info.txDevId ≠ info.rxDevId)
    (h : fpgaLldmaBufConnectBody p info dstPa64 id env = (.ok (), p')) :
    Linked p p' info env buf ↔
      info.txChid < (p.devs info.txDevId).availableDmaChannelNum ∧
        info.rxChid < (p.devs info.rxDevId).availableDmaChannelNum := by
  obtain ⟨⟨r, priv, htx⟩, r', priv', hrx⟩ := bufConnectBody_ok hne h
  have htxLinks :=
    allocConnection_links_iff (hreach info.txDevId) (toNat_ofNat_chid_lt info.rxChid) htx
  have hrxLinks :=
    allocConnection_links_iff (hreach info.rxDevId) (toNat_ofNat_chid_lt info.txChid) hrx
  subst hbuf
  constructor
  · exact fun hlinked => ⟨htxLinks.mp hlinked.tx, hrxLinks.mp hlinked.rx⟩
  · exact fun ⟨htlt, hrlt⟩ => ⟨htxLinks.mpr htlt, hrxLinks.mpr hrlt⟩

/-- **A connection that returns 0 has linked the two channels** exactly if their numbers are below
the counts of their devices. -/
theorem connect_links_iff (call : ConnectCall) (hreach : ∀ devId, (p.devs devId).Reachable)
    (hfits : call.Fits info) (h : call.run p info env = (.ok (), p')) :
    Linked p p' info env (call.buffer info) ↔
      info.txChid < (p.devs info.txDevId).availableDmaChannelNum ∧
        info.rxChid < (p.devs info.rxDevId).availableDmaChannelNum := by
  cases call with
  | buf m =>
    simp only [ConnectCall.run, fpgaLldmaBufConnect] at h
    cases hid : info.accepted p with
    | none => simp [hid] at h
    | some id =>
      cases hvalid : fpgaLldmaCheckBufValid m info.bufAddr info.bufSize.toNat with
      | error e => simp [hid, hvalid] at h
      | ok pa =>
        simp only [hid, hvalid] at h
        obtain ⟨-, hpa, -, heq⟩ := fpgaLldmaCheckBufValid_ok hvalid
        simp only [ConnectCall.Fits, heq] at hfits
        have hne : BitVec.ofNat 64 pa ≠ 0 := by
          intro h0
          have hn := congrArg BitVec.toNat h0
          rw [BitVec.toNat_ofNat, Nat.mod_eq_of_lt hfits] at hn
          exact hpa hn
        refine linked_iff ?_ hreach (ne_of_accepted hid) h
        rw [if_neg hne]
        simp only [ConnectCall.buffer, heq]
  | direct =>
    simp only [ConnectCall.run, fpgaLldmaDirectConnect] at h
    cases hid : info.accepted p with
    | none => simp [hid] at h
    | some id =>
      simp only [hid] at h
      exact linked_iff rfl hreach (ne_of_accepted hid) h

/-! ### Runs -/

/-- Nothing fails, and each device is at an address of its own. -/
def ConnectEnv.quiet : ConnectEnv :=
  let alloc : CallEnv := { CallEnv.quiet with baseaddr := fun devId => BitVec.ofNat 64 (devId + 1) }
  ⟨.quiet 5 0, .quiet 6 0, alloc, alloc, alloc, fun _ => 0, fun _ => 0⟩

/-- Channel 3 of the one device and channel 0 of the other. -/
theorem connect_links_twoDevices :
    let info : FpgaLldmaConnect := ⟨0, 3, 1, 0, 0, 0, some .empty⟩
    Linked twoDevices (ConnectCall.direct.run twoDevices info .quiet).2 info .quiet none :=
  (connect_links_iff .direct (fun _ => .init ..) trivial rfl).mpr (by decide)

/-- Two devices whose only channel has number 2. -/
def gapDevices : LldmaProcess :=
  { twoDevices with devs := fun devId => xpcieFpgaDevInit devId (.reset 4 4) fun _ _ => 0 }

/-- Both channels 2 are available, the call returns 0, and neither is in the mode of a
connection. -/
theorem not_connect_links_gap :
    let info : FpgaLldmaConnect := ⟨0, 2, 1, 2, 0, 0, some .empty⟩
    (gapDevices.devs 0).Implemented .devToHost 2 ∧ (gapDevices.devs 1).Implemented .hostToDev 2 ∧
      (ConnectCall.direct.run gapDevices info .quiet).1 = .ok () ∧
      ¬ Linked gapDevices (ConnectCall.direct.run gapDevices info .quiet).2 info .quiet none := by
  refine ⟨by decide, by decide, rfl, fun h => ?_⟩
  have hmode := h.tx.linked.mode
  revert hmode
  decide

end HardwareDrivers.Libfpga
