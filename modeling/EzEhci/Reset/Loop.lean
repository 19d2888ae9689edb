import Mathlib.Algebra.Order.Group.Nat
import Mathlib.Algebra.Order.Monoid.Prod
import Mathlib.Data.Finset.Card
import EzEhci.Hw.Pages
import EzEhci.Reset.Refine
import EzEhci.Start.Run

/-!
# The reset loop of a poll ends

The loop has no counter: it goes on after every step of a reset and after every
answer, and takes further requests in the same poll. What decreases is the
number of pending requests, then the number of steps left of the reset in
progress. A request is worth the four steps of its reset and the iteration that
takes it, so both are one number (`RunnerWorld.iterationsLeft`). The other steps
of the driver fall between two ticks as everywhere.
-/

namespace EzEhci

open Lib

/-! ## What is left to do -/

def ResetStage.left : ResetStage → Nat
  | .waitingToStopReset => 4
  | .waitForPortToBeEnabled => 3
  | .waitForSetAddr _ => 2
  | .waitForQhRemove _ _ => 1

namespace ResetState

def left (s : ResetState) : Nat := s.ongoing.elim 0 fun r => r.stage.left

/-- The first `n` root ports with a pending request. -/
def pending (s : ResetState) (n : Nat) : Finset Nat :=
  (Finset.range n).filter fun i => (s.portReq i).isSome

end ResetState

/-- A step after which the loop goes on brings the reset in progress nearer to its end. -/
theorem ResetProgress.left_lt {s s' : ResetState} {rds : ResetReadings} {r : OngoingReset}
    {l : List ResetEvent} (h : ResetProgress s rds r l s') (hr : s.ongoing = some r)
    (hl : .pollEnded ∉ l) : s'.left < s.left ∧ s'.portReq = s.portReq := by
  have hleft : s.left = r.stage.left := by rw [ResetState.left, hr, Option.elim_some]
  have hpos : 0 < r.stage.left := by cases r.stage <;> simp [ResetStage.left]
  rw [hleft]
  cases h with
  | disconnected hstage hread => exact ⟨hpos, rfl⟩
  | fullSpeed hstage hread => exact ⟨hpos, rfl⟩
  | removed addr sender device e hstage hsent hdevice ports hports hsorted => exact ⟨hpos, rfl⟩
  | resetDone v hstage hread hv =>
    rw [hstage]
    exact ⟨show 3 < 4 by omega, rfl⟩
  | enabled alloc addr prepared async hstage hread halloc hasync =>
    rw [hstage]
    exact ⟨show 2 < 3 by omega, rfl⟩
  | addressed addr hstage hread =>
    rw [hstage]
    exact ⟨show 1 < 2 by omega, rfl⟩
  | waits hwait => exact absurd List.mem_cons_self hl

theorem ResetState.card_pending_taken {s : ResetState} {n i : Nat} {req : ResetDeviceResources}
    (hi : i < n) (hreq : s.portReq i = some req) :
    ({ s with portReq := Function.update s.portReq i none }.pending n).card + 1 = (s.pending n).card := by
  have hmem : i ∈ s.pending n := by simp [pending, hi, hreq]
  have herase : { s with portReq := Function.update s.portReq i none }.pending n =
      (s.pending n).erase i := by
    ext j
    by_cases hj : j = i
    · subst hj
      simp [pending]
    · simp [pending, hj]
  rw [herase, Finset.card_erase_add_one hmem]

namespace RunnerWorld

variable {W : Type} [Wakers W] {oc : OverflowChecks} {w : W} {rds : ResetReadings} {s s' : RunnerWorld W}

/-- The number of root ports with a pending request. -/
def pendingRequests (s : RunnerWorld W) : Nat := (s.resetState.pending s.nPorts).card

/-- The iterations left of the reset loop, from a point in it. -/
def iterationsLeft (s : RunnerWorld W) : PollPc → Nat
  | .reset => 5 * s.pendingRequests + s.resetState.left + 1
  | _ => 5 * s.pendingRequests

/-- The ticks left of the poll, from a point in the reset loop. -/
def ticksLeft (s : RunnerWorld W) : PollPc → Nat
  | .rootPorts todo => 5 * s.pendingRequests * (s.nPorts + 2) + todo.length + 1
  | _ => (5 * s.pendingRequests + s.resetState.left + 1) * (s.nPorts + 2)

def InResetLoop (s : RunnerWorld W) : PollPc → Prop
  | .reset => True
  | .rootPorts todo => s.resettingDevice = none ∧ ∀ i ∈ todo, i < s.nPorts
  | _ => False

omit [Wakers W] in
theorem iterEvents_goesOn (r : OngoingReset) : .pollEnded ∉ iterEvents rds r s s' true := by
  have hassign : .pollEnded ∉ assignEvents r s' := by
    unfold assignEvents
    split <;> simp
  have hremove : .pollEnded ∉ removeEvents rds r s s' := by
    unfold removeEvents
    split
    · split <;> simp
    · simp
  have hwrite : .pollEnded ∉ writeEvents s s' := by
    intro hmem
    obtain ⟨x, -, hx⟩ := List.mem_map.mp hmem
    cases hx
  have hanswer : .pollEnded ∉ answerEvents r.req s s' := by
    intro hmem
    obtain ⟨x, -, hx⟩ := List.mem_map.mp hmem
    cases hx
  simp [iterEvents, hwrite, hassign, hremove, hanswer]

theorem ResetOutcome.nPorts {rd : ResettingDevice W} {b : Bool} (h : ResetOutcome oc w rds s rd s' b) :
    s'.nPorts = s.nPorts := by
  cases h with
  | enabled hstep hm =>
    obtain ⟨alloc, packets, qtds, heap, addr, rfl⟩ := startSetAddr_eq_some hm
    rfl
  | _ => rfl

omit [Wakers W] in
theorem left_eq_zero (h : s.resettingDevice = none) : s.resetState.left = 0 := by
  rw [resetState, h, Option.map_none]
  rfl

theorem resetStep_left {rd : ResettingDevice W} (hrd : s.resettingDevice = some rd)
    (h : s.resetStep oc w rds rd = some (s', true)) :
    s'.resetState.left < s.resetState.left ∧ s'.pendingRequests = s.pendingRequests ∧
      s'.nPorts = s.nPorts := by
  have hongoing : s.resetState.ongoing = some rd.ongoing := by rw [resetState, hrd, Option.map_some]
  have hports := (resetStep_outcome h).nPorts
  obtain ⟨hleft, hreq⟩ := (resetStep_progress hrd h).left_lt hongoing (iterEvents_goesOn _)
  refine ⟨hleft, ?_, hports⟩
  rw [pendingRequests, pendingRequests, ResetState.pending, ResetState.pending, hreq, hports]

theorem startReset_left {i : Nat} {req : ResetDeviceResources} (hi : i < s.nPorts)
    (hreq : (s.rootPorts i).reqSignal.value? = some req)
    (h : (s.pollRootPort w i).startReset rds i req = some s') :
    s'.resetState.left = 4 ∧ s'.pendingRequests + 1 = s.pendingRequests ∧ s'.nPorts = s.nPorts := by
  obtain ⟨port, v, rfl⟩ := startReset_eq_some h
  have htaken := ResetState.card_pending_taken (s := s.resetState) hi hreq
  rw [← resetState_pollRootPort (w := w)] at htaken
  exact ⟨rfl, htaken, rfl⟩

/-- **A tick of the reset loop** returns `Pending`, or leaves less to do. -/
theorem tick_resetLoop {pc : PollPc} {pc' : Option PollPc} (hloop : s.InResetLoop pc)
    (h : s.tick oc w rds pc = some (s', pc')) :
    pc' = none ∧ s'.pending = true ∨
      ∃ q, pc' = some q ∧ s'.InResetLoop q ∧ s'.nPorts = s.nPorts ∧
        (if pc = .reset then 1 else 0) + s'.iterationsLeft q ≤ s.iterationsLeft pc ∧
        1 + s'.ticksLeft q ≤ s.ticksLeft pc := by
  cases Ticked.of_tick h with
  | noReset hrd =>
    refine .inr ⟨_, rfl, ⟨hrd, fun i hi => List.mem_range.mp hi⟩, rfl, ?_, ?_⟩
    · simp only [if_true, iterationsLeft]
      omega
    · simp only [ticksLeft, left_eq_zero hrd, List.length_range, Nat.add_mul]
      omega
  | goesOn hrd hm =>
    obtain ⟨hleft, hreq, hports⟩ := resetStep_left hrd hm
    refine .inr ⟨_, rfl, trivial, hports, ?_, ?_⟩
    · simp only [if_true, iterationsLeft, hreq]
      omega
    · have hmul := Nat.mul_lt_mul_of_pos_right hleft (show 0 < s.nPorts + 2 by omega)
      simp only [ticksLeft, hreq, hports, Nat.add_mul] at hmul ⊢
      omega
  | waits hrd hm => exact .inl ⟨rfl, rfl⟩
  | noRequest => exact .inl ⟨rfl, rfl⟩
  | @pollRootPort i todo hready =>
    have hsame : (s.pollRootPort w i).resetState = s.resetState := by
      rw [resetState_pollRootPort, ← hready, update_portReq_self]
    have hpending : (s.pollRootPort w i).pendingRequests = s.pendingRequests := by
      rw [pendingRequests, hsame]
      rfl
    refine .inr ⟨_, rfl, ⟨hloop.1, fun j hj => hloop.2 j (List.mem_cons_of_mem i hj)⟩, rfl, ?_, ?_⟩
    · simp only [iterationsLeft, hpending, reduceCtorEq, if_false]
      omega
    · show 1 + (5 * (s.pollRootPort w i).pendingRequests * (s.nPorts + 2) + todo.length + 1) ≤ _
      simp only [ticksLeft, hpending, List.length_cons]
      omega
  | @startReset i todo req m hready hm =>
    obtain ⟨hleft, hreq, hports⟩ := startReset_left (hloop.2 i List.mem_cons_self) hready hm
    refine .inr ⟨_, rfl, trivial, hports, ?_, ?_⟩
    · simp only [iterationsLeft, hleft, reduceCtorEq, if_false]
      omega
    · have hsum : 5 * s'.pendingRequests + 4 + 1 = 5 * s.pendingRequests := by omega
      simp only [ticksLeft, hleft, hports, hsum]
      omega
  | _ => exact hloop.elim

omit [Wakers W] in
theorem resetLoop_pos {pc : PollPc} (hloop : s.InResetLoop pc) :
    (if pc = .reset then 1 else 0) ≤ s.iterationsLeft pc ∧ 1 ≤ s.ticksLeft pc := by
  cases pc with
  | reset =>
    have hmul : 1 ≤ (5 * s.pendingRequests + s.resetState.left + 1) * (s.nPorts + 2) :=
      Nat.mul_pos (by omega) (by omega)
    exact ⟨by simp [iterationsLeft], hmul⟩
  | rootPorts todo => exact ⟨by simp, by simp [ticksLeft]⟩
  | _ => exact hloop.elim

/-! ## Where the loop panics -/

/-- The iteration gives the device of the reset in progress an address. -/
structure AllocatesAddr (s : RunnerWorld W) (rds : ResetReadings) (rd : ResettingDevice W) : Prop where
  ongoing : s.resettingDevice = some rd
  step : rd.step = .waitForPortToBeEnabled
  connected : rds.portSc.currentConnectStatus = true
  enabled : rds.portSc.portEnabled = true

/-- What `get_addr_offset` and `new_contiguous` ask of the resources of a reset. -/
structure Addressable (s : RunnerWorld W) (req : ResetDeviceResources) : Prop where
  setupQtd : s.ctrlDsSegment.Contains req.setupQtd.physAddr
  statusQtd : s.ctrlDsSegment.Contains req.statusQtd.physAddr
  qh : s.async.mgr.ctrlDsSegment.Contains req.qh.physAddr
  buffer : req.buffer.physAddr.toNat - req.buffer.physAddr.toNat % 4096 + 0x5000 < 2 ^ 64

omit [Wakers W] in
theorem startSetAddr_isSome {rd : ResettingDevice W} (haddr : s.addrAllocator.allocateAddr.isSome)
    (h : s.Addressable rd.req) : (s.startSetAddr oc rd).isSome := by
  obtain ⟨⟨alloc, addr⟩, halloc⟩ := Option.isSome_iff_exists.mp haddr
  obtain ⟨ptrs, hptrs⟩ : ∃ ptrs, BufferPtrs.newContiguous oc rd.req.buffer.physAddr 8 = some ptrs := by
    rw [← Option.ne_none_iff_exists', Ne, newContiguous_eq_none_iff (by decide)]
    have hbuffer := h.buffer
    omega
  simp only [startSetAddr, halloc, setAddressStart, hptrs, getAddrOffset_of_contains h.statusQtd,
    getAddrOffset_of_contains h.setupQtd, AsyncListManager.addQhToAsyncList, getAddrOffset_of_contains h.qh,
    Option.bind_eq_bind, Option.bind_some, Option.isSome_some]

theorem resetStep_isSome {rd : ResettingDevice W} (hrd : s.resettingDevice = some rd)
    (haddr : ∀ rd, s.AllocatesAddr rds rd → s.addrAllocator.allocateAddr.isSome ∧ s.Addressable rd.req) :
    (s.resetStep oc w rds rd).isSome := by
  unfold resetStep
  split
  next =>
    split
    · rfl
    · split <;> rfl
  next hstep =>
    split
    · rfl
    next hconnected =>
      split
      next henabled =>
        obtain ⟨halloc, hreq⟩ := haddr rd ⟨hrd, hstep, by simpa using hconnected, henabled⟩
        rw [Option.isSome_map]
        exact startSetAddr_isSome halloc hreq
      next => split <;> rfl
  next => split <;> rfl
  next => split <;> rfl

/-- **The loop panics only where it gives an address.** -/
theorem tick_isSome {pc : PollPc} (hloop : s.InResetLoop pc) (hports : s.nPorts ≤ 15)
    (haddr : ∀ rd, s.AllocatesAddr rds rd → s.addrAllocator.allocateAddr.isSome ∧ s.Addressable rd.req) :
    (s.tick oc w rds pc).isSome := by
  cases pc with
  | reset =>
    simp only [tick]
    split
    · rfl
    next rd hrd =>
      rw [Option.isSome_map]
      exact resetStep_isSome hrd haddr
  | rootPorts todo =>
    cases todo with
    | nil => rfl
    | cons i todo =>
      simp only [tick]
      split
      · rfl
      next req hreq =>
        have hi : i < 16 := Nat.lt_of_lt_of_le (hloop.2 i List.mem_cons_self) (by omega)
        rw [Option.isSome_map, startReset, if_pos hi]
        rfl
  | _ => exact hloop.elim

/-! ## What the other steps leave alone -/

/-- The same requests are pending and the same reset is in progress. -/
structure SameResets (s s' : RunnerWorld W) : Prop where
  resettingDevice : s'.resettingDevice = s.resettingDevice
  portReq : s'.resetState.portReq = s.resetState.portReq
  nPorts : s'.nPorts = s.nPorts

namespace SameResets

omit [Wakers W] in
theorem inResetLoop (h : SameResets s s') {pc : PollPc} (hloop : s.InResetLoop pc) : s'.InResetLoop pc := by
  cases pc with
  | reset => trivial
  | rootPorts todo =>
    rw [InResetLoop, h.resettingDevice, h.nPorts]
    exact hloop
  | _ => exact hloop.elim

omit [Wakers W] in
theorem left_eq (h : SameResets s s') (pc : PollPc) :
    s'.iterationsLeft pc = s.iterationsLeft pc ∧ s'.ticksLeft pc = s.ticksLeft pc := by
  have hleft : s'.resetState.left = s.resetState.left := by
    rw [ResetState.left, resetState, h.resettingDevice]
    rfl
  have hpending : s'.pendingRequests = s.pendingRequests := by
    rw [pendingRequests, pendingRequests, ResetState.pending, ResetState.pending, h.portReq, h.nPorts]
  cases pc <;> simp only [iterationsLeft, ticksLeft, hleft, hpending, h.nPorts, and_self]

end SameResets

end RunnerWorld

def RunLabel.isResetRequest {W : Type} : RunLabel W → Bool
  | .client (.resetDevice _ _) => true
  | _ => false

namespace RunWorld

variable {W : Type} [Wakers W] {oc : OverflowChecks} {w : W} {s s' : RunWorld W}

/-- A step that is neither a tick nor a reset request leaves the loop as it is. -/
theorem sameResets_step {a : RunLabel W} {pc : RunPc} (hpoll : s.poll = some (w, pc))
    (hreq : a.isResetRequest = false) (htick : ∀ rds reset, a ≠ .tick rds reset)
    (h : s.step oc a = some s') :
    s'.poll = s.poll ∧ s.driver.runner.SameResets s'.driver.runner := by
  cases Stepped.of_step h with
  | client driver hnot hd =>
    refine ⟨rfl, ?_⟩
    cases DriverWorld.Stepped.of_step hd with
    | resetDevice hi => cases hreq
    | poll runner hw hp => cases hnot
    | _ => exact ⟨rfl, rfl, rfl⟩
  | pollReset i w' =>
    have hport := RunnerWorld.resetState_modifyPort s.driver.runner i fun sh =>
      { sh with resSignal := ((s.driver.runner.rootPorts i).resSignal.pollWait w').state }
    have hreq := congrArg ResetState.portReq hport
    rw [RunnerWorld.update_portReq_self] at hreq
    exact ⟨rfl, rfl, hreq, rfl⟩
  | callStart | pollStart | dropStart => exact ⟨rfl, rfl, rfl, rfl⟩
  | startPoll w' hnone hw =>
    rw [hpoll] at hnone
    cases hnone
  | tick => exact absurd rfl (htick _ _)

/-! ## The loop ends -/

/-- The poll in progress is in the reset loop. -/
def InResetLoop (s : RunWorld W) : Prop :=
  ∃ w pc, s.poll = some (w, .running pc) ∧ s.driver.runner.InResetLoop pc

def ReturnedPending (s : RunWorld W) : Prop := s.poll = none ∧ s.driver.runner.pending = true

/-- The iterations of the reset loop and the ticks that a step makes. -/
def loopCost (s : RunWorld W) : RunLabel W → ℕ × ℕ
  | .tick _ _ => (if s.poll.map Prod.snd = some (.running .reset) then 1 else 0, 1)
  | _ => (0, 0)

/-- The iterations of the reset loop and the ticks that are left of the poll. -/
def loopLeft (s : RunWorld W) : ℕ × ℕ :=
  match s.poll with
  | some (_, .running pc) => (s.driver.runner.iterationsLeft pc, s.driver.runner.ticksLeft pc)
  | _ => (0, 0)

/-- Without new requests the loop makes no more iterations than there are left and returns `Pending`.
Until then it goes on, if its readings are `Allowed`. -/
def ResetLoopEnds (oc : OverflowChecks) (Allowed : RunWorld W → ResetReadings → Prop) (s : RunWorld W) :
    Prop :=
  ∀ tr s', (∀ a ∈ tr, a.isResetRequest = false) → exec (step oc) s tr = some s' →
    (s'.InResetLoop ∧ cost (step oc) loopCost s tr + s'.loopLeft ≤ s.loopLeft ∧
      ∀ rds reset, Allowed s' reset → (s'.step oc (.tick rds reset)).isSome) ∨
    ∃ tr₁ m, tr₁ <+: tr ∧ exec (step oc) s tr₁ = some m ∧ m.ReturnedPending ∧
      cost (step oc) loopCost s tr₁ ≤ s.loopLeft

/-- An address is available when one is allocated. -/
def AddressAvailable (s : RunWorld W) (reset : ResetReadings) : Prop :=
  ∀ rd, s.driver.runner.AllocatesAddr reset rd → s.driver.runner.addrAllocator.allocateAddr.isSome

/-- The driver can address the resources of a reset when it starts to use them. -/
def ResourcesAddressable (s : RunWorld W) (reset : ResetReadings) : Prop :=
  ∀ rd, s.driver.runner.AllocatesAddr reset rd → s.driver.runner.Addressable rd.req

omit [Wakers W] in
theorem loopLeft_eq {pc : PollPc} (h : s.poll = some (w, .running pc)) :
    s.loopLeft = (s.driver.runner.iterationsLeft pc, s.driver.runner.ticksLeft pc) := by
  rw [loopLeft, h]

/-- **A step in the loop** is paid for by what is left of it. -/
theorem step_resetLoop {a : RunLabel W} (hloop : s.InResetLoop) (hreq : a.isResetRequest = false)
    (h : s.step oc a = some s') :
    s'.InResetLoop ∧ s'.driver.runner.nPorts = s.driver.runner.nPorts ∧
        s.loopCost a + s'.loopLeft ≤ s.loopLeft ∨
      s'.ReturnedPending ∧ s.loopCost a ≤ s.loopLeft := by
  obtain ⟨w, pc, hpoll, hloop⟩ := hloop
  by_cases htick : ∃ rds reset, a = .tick rds reset
  · obtain ⟨rds, reset, rfl⟩ := htick
    cases Stepped.of_step h with
    | tick hpoll' ht =>
      rw [hpoll] at hpoll'
      cases hpoll'
      cases ht with
      | @running _ pc' r hr =>
        have hcost : s.loopCost (.tick rds reset) = (if pc = .reset then 1 else 0, 1) := by
          simp [loopCost, hpoll]
        rw [hcost, loopLeft_eq hpoll]
        rcases RunnerWorld.tick_resetLoop hloop hr with
          ⟨rfl, hpending⟩ | ⟨q, rfl, hq, hports, hiter, hticks⟩
        · exact .inr ⟨⟨rfl, hpending⟩, RunnerWorld.resetLoop_pos hloop⟩
        · exact .inl ⟨⟨w, q, rfl, hq⟩, hports, hiter, hticks⟩
  · obtain ⟨hpoll', hsame⟩ := sameResets_step hpoll hreq (fun rds reset ha => htick ⟨rds, reset, ha⟩) h
    rw [hpoll] at hpoll'
    have hcost : s.loopCost a = (0, 0) := by
      cases a with
      | tick rds reset => exact absurd ⟨rds, reset, rfl⟩ htick
      | _ => rfl
    obtain ⟨hiter, hticks⟩ := hsame.left_eq pc
    refine .inl ⟨⟨w, pc, hpoll', hsame.inResetLoop hloop⟩, hsame.nPorts, ?_⟩
    rw [hcost, loopLeft_eq hpoll, loopLeft_eq hpoll', hiter, hticks]
    simp

/-- The start, a reset request with its status descriptor at `statusQtd`, and a poll up to the reset
loop. -/
def exampleResetLoop (statusQtd : BitVec 64) : List (RunLabel TaskWaker) :=
  exampleStart ++ .client (.resetDevice 0
    ⟨⟨0x2000, 0x2000⟩, ⟨0x3000, 0x3000⟩, ⟨statusQtd, 0x3040⟩, ⟨0x4000, 0x4000⟩⟩) :: exampleTicks 9 0 true

end RunWorld

end EzEhci
