import HardwareDrivers.Libfpga.DeviceTable

/-!
# The endpoints of the shared memory controller

`fpga_shmem_controller_set_ip` and `fpga_shmem_controller_set_ip_notice` store the port and the address
that the controller and its notice thread listen on. Each compares with what the other has, and cuts
the address to its array.

## What is proved

* `ipStep_cases` — what a call does.
* `setIp_right_iff` — when one call does what it should.
* `ipCallsRight_iff` — when all calls of a run do.
-/

namespace HardwareDrivers.Libfpga

open Theory

/-! ### The variables -/

/-- What one of the two listens on. -/
structure Endpoint where
  /-- The port. -/
  port : BitVec 16
  /-- The address. -/
  addr : CString
  deriving DecidableEq

/-- Which of the two. -/
inductive EndpointOf where
  /-- The controller. -/
  | controller
  /-- Its notice thread. -/
  | notice
  deriving DecidableEq

/-- The other one. -/
def EndpointOf.other : EndpointOf → EndpointOf
  | controller => notice
  | notice => controller

/-- `shmem_ctrlr_listen_port` and `shmem_ctrlr_listen_addr`, and those of the notice thread. -/
abbrev Endpoints := EndpointOf → Endpoint

/-- `sizeof(shmem_ctrlr_listen_addr)`, and that of the notice thread. -/
def listenAddrSize : ℕ := 32

/-- `LOCALHOST`. -/
def localhost : CString := ['1', '2', '7', '.', '0', '.', '0', '.', '1']

/-- `SHMEM_CONTROLLER_PORT`. -/
def shmemControllerPort : BitVec 16 := 60000

/-- `SHMEM_CONTROLLER_PORT_NOTICE`. -/
def shmemControllerPortNotice : BitVec 16 := shmemControllerPort + 1

/-- The defaults. -/
def Endpoints.start : Endpoints
  | .controller => ⟨shmemControllerPort, localhost⟩
  | .notice => ⟨shmemControllerPortNotice, localhost⟩

/-- The errors of the calls. -/
inductive EndpointErr where
  /-- `INVALID_ARGUMENT`. -/
  | invalidArgument
  /-- `INVALID_DATA`. -/
  | invalidData
  /-- `FAILURE_MEMORY_ALLOC`. -/
  | failureMemoryAlloc
  deriving DecidableEq

/-! ### The calls -/

/-- What is stored of a port and an address: `strncpy` into an array of zeros. -/
def stored (port : BitVec 16) (addr : CString) : Endpoint := ⟨port, addr.take (listenAddrSize - 1)⟩

/-- The body of both calls that store. -/
def setIp (which : EndpointOf) (port : BitVec 16) (addr : Option CString) (s : Endpoints) :
    Except EndpointErr Unit × Endpoints :=
  match addr with
  | none => (.error .invalidArgument, s)
  | some addr =>
    -- `strcmp` is not 0 if the addresses are different
    if port = (s which.other).port ∧ addr ≠ (s which.other).addr then (.error .invalidData, s)
    else (.ok (), Function.update s which (stored port addr))

/-- `fpga_shmem_controller_set_ip`. -/
def fpgaShmemControllerSetIp : BitVec 16 → Option CString → Endpoints →
    Except EndpointErr Unit × Endpoints :=
  setIp .controller

/-- `fpga_shmem_controller_set_ip_notice`. -/
def fpgaShmemControllerSetIpNotice : BitVec 16 → Option CString → Endpoints →
    Except EndpointErr Unit × Endpoints :=
  setIp .notice

/-- The body of both calls that read; `out` says whether both pointers are given, `strdup` whether
there is memory. -/
def getIp (which : EndpointOf) (out strdup : Bool) (s : Endpoints) : Except EndpointErr Endpoint :=
  if out = false then .error .invalidArgument
  else if strdup = false then .error .failureMemoryAlloc
  else .ok (s which)

/-- `fpga_shmem_controller_get_ip`. -/
def fpgaShmemControllerGetIp : Bool → Bool → Endpoints → Except EndpointErr Endpoint :=
  getIp .controller

/-- `fpga_shmem_controller_get_ip_notice`. -/
def fpgaShmemControllerGetIpNotice : Bool → Bool → Endpoints → Except EndpointErr Endpoint :=
  getIp .notice

/-! ### Calls in any order -/

/-- The variables, and the pairs of the last calls that were accepted. -/
structure EndpointSystem where
  /-- The variables. -/
  vars : Endpoints
  /-- The pairs. -/
  accepted : Endpoints

/-- At the start the defaults are what is accepted. -/
def EndpointSystem.start : EndpointSystem := ⟨.start, .start⟩

/-- A call that stores, with an address. -/
inductive IpCall where
  /-- `fpga_shmem_controller_set_ip`. -/
  | setIp (port : BitVec 16) (addr : CString)
  /-- `fpga_shmem_controller_set_ip_notice`. -/
  | setIpNotice (port : BitVec 16) (addr : CString)

namespace IpCall

/-- Whose endpoint it stores. -/
def which : IpCall → EndpointOf
  | setIp .. => .controller
  | setIpNotice .. => .notice

/-- The pair it is to store. -/
def pair : IpCall → Endpoint
  | setIp port addr | setIpNotice port addr => ⟨port, addr⟩

/-- What it does. -/
def exec : IpCall → Endpoints → Except EndpointErr Unit × Endpoints
  | setIp port addr => fpgaShmemControllerSetIp port (some addr)
  | setIpNotice port addr => fpgaShmemControllerSetIpNotice port (some addr)

end IpCall

/-- A call. -/
def ipStep (s : EndpointSystem) (call : IpCall) : Option EndpointSystem :=
  match call.exec s.vars with
  | (.ok (), vars) => some ⟨vars, Function.update s.accepted call.which call.pair⟩
  | (.error _, vars) => some ⟨vars, s.accepted⟩

/-- What is to hold after a call. -/
structure IpCallRight (s : EndpointSystem) (call : IpCall) (t : EndpointSystem) : Prop where
  /-- The two are different. -/
  ne : t.vars .controller ≠ t.vars .notice
  /-- A call is refused only if they would not be. -/
  refused : (call.exec s.vars).1 ≠ .ok () →
    stored call.pair.port call.pair.addr = s.vars call.which.other
  /-- The calls that read give what was accepted last. -/
  controller : fpgaShmemControllerGetIp true true t.vars = .ok (t.accepted .controller)
  /-- So do those of the notice thread. -/
  notice : fpgaShmemControllerGetIpNotice true true t.vars = .ok (t.accepted .notice)

/-- The port is not that of the other one and the address fits; or the port is, and the address is one
that does not fit and becomes that of the other when it is cut. -/
def FairIpCall (s : EndpointSystem) (call : IpCall) : Prop :=
  if call.pair.port = (s.vars call.which.other).port then
    call.pair.addr ≠ (s.vars call.which.other).addr ∧
      call.pair.addr.take (listenAddrSize - 1) = (s.vars call.which.other).addr
  else call.pair.addr.length < listenAddrSize

variable {s t : EndpointSystem} {call : IpCall}

/-- The endpoints are different, and those that were accepted. -/
structure EndpointSystem.Right (s : EndpointSystem) : Prop where
  /-- They are different. -/
  ne : s.vars .controller ≠ s.vars .notice
  /-- They were accepted. -/
  eq : s.vars = s.accepted
  /-- The addresses fit. -/
  fits : ∀ which, (s.vars which).addr.length < listenAddrSize

theorem EndpointOf.other_ne (which : EndpointOf) : which.other ≠ which := by
  cases which <;> decide

theorem EndpointSystem.right_start : EndpointSystem.start.Right :=
  ⟨by decide, rfl, fun which => by cases which <;> decide⟩

/-- Both calls have the same body. -/
theorem ipCall_exec_eq (call : IpCall) (vars : Endpoints) :
    call.exec vars = setIp call.which call.pair.port (some call.pair.addr) vars := by
  cases call <;> rfl

theorem ne_iff_ne_other (vars : Endpoints) (which : EndpointOf) :
    vars .controller ≠ vars .notice ↔ vars which ≠ vars which.other := by
  cases which
  · exact Iff.rfl
  · exact ne_comm

/-- What is read is what was accepted, for both. -/
theorem ipCallRight_def : IpCallRight s call t ↔ t.vars .controller ≠ t.vars .notice ∧
    ((call.exec s.vars).1 ≠ .ok () →
      stored call.pair.port call.pair.addr = s.vars call.which.other) ∧ t.vars = t.accepted := by
  constructor
  · rintro ⟨hne, hrefused, hcontroller, hnotice⟩
    refine ⟨hne, hrefused, funext fun which => ?_⟩
    cases which
    · exact Except.ok.inj hcontroller
    · exact Except.ok.inj hnotice
  · rintro ⟨hne, hrefused, heq⟩
    exact ⟨hne, hrefused, congrArg Except.ok (congrFun heq _), congrArg Except.ok (congrFun heq _)⟩

/-- What a call does. -/
inductive IpOutcome (s : EndpointSystem) (call : IpCall) : EndpointSystem → Prop
  /-- It is refused. -/
  | refused (hport : call.pair.port = (s.vars call.which.other).port)
      (haddr : call.pair.addr ≠ (s.vars call.which.other).addr)
      (hexec : (call.exec s.vars).1 ≠ .ok ()) : IpOutcome s call s
  /-- It is accepted. -/
  | accepted (h : ¬ (call.pair.port = (s.vars call.which.other).port ∧
        call.pair.addr ≠ (s.vars call.which.other).addr)) (hexec : (call.exec s.vars).1 = .ok ()) :
      IpOutcome s call ⟨Function.update s.vars call.which (stored call.pair.port call.pair.addr),
        Function.update s.accepted call.which call.pair⟩

theorem ipStep_cases (h : ipStep s call = some t) : IpOutcome s call t := by
  have hexec := ipCall_exec_eq call s.vars
  unfold ipStep at h
  simp only [setIp] at hexec
  split_ifs at hexec with hsame
  · rw [hexec] at h
    cases h
    refine .refused hsame.1 hsame.2 ?_
    rw [hexec]
    simp
  · rw [hexec] at h
    cases h
    exact .accepted hsame (by rw [hexec])

/-- **A call** does what it should exactly if its condition holds. -/
theorem setIp_right_iff (hs : s.Right) (h : ipStep s call = some t) :
    IpCallRight s call t ↔ FairIpCall s call := by
  rw [ipCallRight_def]
  unfold FairIpCall
  cases ipStep_cases h with
  | refused hport haddr hexec =>
    rw [if_pos hport]
    constructor
    · intro hright
      have hsame := hright.2.1 hexec
      exact ⟨haddr, congrArg Endpoint.addr hsame⟩
    · rintro ⟨-, hcut⟩
      refine ⟨hs.ne, fun _ => ?_, hs.eq⟩
      rw [stored, hcut, hport]
  | accepted hsame hexec =>
    rw [ne_iff_ne_other _ call.which]
    dsimp only
    rw [Function.update_self, Function.update_of_ne call.which.other_ne]
    have hstored : stored call.pair.port call.pair.addr = call.pair ↔
        call.pair.addr.length < listenAddrSize := by
      have hsize : listenAddrSize = 32 := rfl
      constructor
      · intro heq
        have hlen := congrArg (fun e => e.addr.length) heq
        simp only [stored, List.length_take] at hlen
        omega
      · intro hlt
        rw [stored, List.take_of_length_le (by omega)]
    have hvars : Function.update s.vars call.which (stored call.pair.port call.pair.addr) =
        Function.update s.accepted call.which call.pair ↔
          call.pair.addr.length < listenAddrSize := by
      rw [hs.eq, ← hstored]
      constructor
      · intro heq
        have hself := congrFun heq call.which
        rwa [Function.update_self, Function.update_self] at hself
      · exact fun heq => by rw [heq]
    rw [hvars]
    by_cases hport : call.pair.port = (s.vars call.which.other).port
    · rw [if_pos hport]
      have haddr : call.pair.addr = (s.vars call.which.other).addr :=
        not_not.mp fun hne => hsame ⟨hport, hne⟩
      refine iff_of_false (fun hright => hright.1 ?_) fun hfair => hfair.1 haddr
      have hfits := hs.fits call.which.other
      rw [stored, hport, haddr, List.take_of_length_le (Nat.le_sub_one_of_lt hfits)]
    · rw [if_neg hport]
      constructor
      · exact fun hright => hright.2.2
      · intro hlen
        refine ⟨fun heq => ?_, fun hnot => absurd hexec hnot, hlen⟩
        have hsameport := congrArg Endpoint.port heq
        exact hport hsameport

theorem EndpointSystem.Right.step (hs : s.Right) (h : ipStep s call = some t)
    (hfair : FairIpCall s call) : t.Right := by
  obtain ⟨hne, -, heq⟩ := ipCallRight_def.mp ((setIp_right_iff hs h).mpr hfair)
  refine ⟨hne, heq, fun which => ?_⟩
  cases ipStep_cases h with
  | refused => exact hs.fits which
  | accepted =>
    dsimp only
    by_cases hwhich : which = call.which
    · rw [hwhich, Function.update_self]
      exact Nat.lt_of_le_of_lt (List.length_take_le ..) (by decide)
    · rw [Function.update_of_ne hwhich]
      exact hs.fits which

/-- **In every run** the calls do what they should exactly if their conditions hold. -/
theorem ipCallsRight_iff (calls : List IpCall) :
    Along ipStep (fun s call => ∀ t, ipStep s call = some t → IpCallRight s call t) .start calls ↔
      Along ipStep FairIpCall .start calls := by
  refine along_iff_along (I := EndpointSystem.Right) (fun s call t hs hfair ht => hs.step ht hfair)
    (fun s call t hs ht => ?_) EndpointSystem.right_start
  rw [← setIp_right_iff hs ht]
  constructor
  · exact fun h => h t ht
  · intro h u hu
    cases ht.symm.trans hu
    exact h

/-- The controller gets the endpoint of the notice thread. -/
theorem not_ipCallsRight :
    ¬ ∀ calls : List IpCall,
      Along ipStep (fun s call => ∀ t, ipStep s call = some t → IpCallRight s call t) .start calls := by
  intro h
  have hright := (h [.setIp shmemControllerPortNotice localhost] _ rfl).1 _ rfl
  exact hright.ne (by decide)

end HardwareDrivers.Libfpga
