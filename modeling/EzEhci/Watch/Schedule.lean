import EzEhci.Watch.World

/-!
# The periodic lists of the running driver

`Scheduled` relates the calls of `watch` to the runner: the calls it has served,
in the order of their callbacks, are those the periodic lists were built from,
and the request of every other call is in the signal of its endpoint. It is
kept by every tick of the runner and by every call of a client, and it says
that the runner never panics over a request.
-/

namespace EzEhci

open Lib

theorem scheduleOf_perm (reqs : List PeriodicEntry) : (scheduleOf reqs).Perm reqs := by
  induction reqs using List.reverseRecOn with
  | nil => exact .refl _
  | append_singleton reqs x ih =>
    have hsched : scheduleOf (reqs ++ [x]) = insertEntry x (scheduleOf reqs) := by simp [scheduleOf]
    rw [hsched]
    exact (insertEntry_perm x _).trans ((ih.cons x).trans (List.perm_append_singleton x reqs).symm)

theorem exists_of_mem_ptrs {calls : List WatchCall} {p : Ptr}
    (h : p ∈ ptrs (scheduleOf (calls.map WatchCall.entry))) : ∃ c ∈ calls, c.ptr = p := by
  have hmem := ((scheduleOf_perm _).map fun e : PeriodicEntry => e.qh.ptr).mem_iff.mp h
  rw [List.map_map] at hmem
  exact List.mem_map.mp hmem

theorem nodup_map_snoc {α : Type} {calls : List WatchCall} {f : WatchCall → α} {x : WatchCall}
    (h : (calls.map f).Nodup) (hx : ∀ c ∈ calls, f c ≠ f x) : ((calls ++ [x]).map f).Nodup := by
  rw [List.map_append, List.map_singleton, ← List.concat_eq_append, List.nodup_concat]
  refine ⟨fun hmem => ?_, h⟩
  obtain ⟨c, hc, heq⟩ := List.mem_map.mp hmem
  exact hx c hc heq

/-- What is written apart from the links, or outside of the list, does not matter. -/
theorem PeriodicRep.congr {dma : Dma} {s : PeriodicState} {l : List PeriodicEntry}
    (h : PeriodicRep dma s l) (heap : Heap QhWithMetaP)
    (hlink : ∀ p ∈ ptrs l, (heap p).qh.horizontalLinkPtr = (s.heap p).qh.horizontalLinkPtr)
    (hnext : ∀ p ∈ ptrs l, (heap p).next = (s.heap p).next)
    (hprev : ∀ p ∈ ptrs l, (heap p).prev = (s.heap p).prev) :
    PeriodicRep dma { s with heap } l where
  list := { h.list with
    next := linked_congr hnext h.list.next
    links := linked_congr (fun p hp => hwNext_congr (hlink p hp)) h.list.links
    prev := backLinked_congr hprev h.list.prev }
  slots := h.slots

namespace RunnerWorld

variable {W : Type} [Wakers W] {dma : Dma} {calls served : List WatchCall} {s s' : RunnerWorld W}
  {oc : OverflowChecks} {w : W} {rds : ResetReadings} {rd : ResettingDevice W}

/-- The runner against the calls of `watch`, of which it served `served`. -/
structure Scheduled (dma : Dma) (calls served : List WatchCall) (s : RunnerWorld W) : Prop where
  rep : PeriodicRep dma s.periodic (scheduleOf (served.map WatchCall.entry))
  callbacks : served.map WatchCall.callback = s.callbacks
  called : ∀ c ∈ served, c ∈ calls
  once : served.Nodup
  requested : ∀ e req, (s.interruptShared e).reqSignal.value? = some req ↔
    ∃ c ∈ calls, c ∉ served ∧ c.shared = e ∧ c.req = req
  distinct : (calls.map WatchCall.callback).Nodup
  endpoints : (calls.map WatchCall.shared).Nodup
  memory : (calls.map WatchCall.ptr).Nodup
  usable : ∀ c ∈ calls, c.entry.qh.Usable dma s.periodic.mgr.ctrlDsSegment
  old : ∀ c ∈ calls, c.callback < s.nextSender
  known : ∀ c ∈ calls, c.shared < s.nextInterrupt

namespace Scheduled

omit [Wakers W] in
theorem setInterrupt (h : Scheduled dma calls served s) (shared : Heap (InterruptEndpointSharedState W))
    (hreq : ∀ e, (shared e).reqSignal.value? = (s.interruptShared e).reqSignal.value?) :
    Scheduled dma calls served { s with interruptShared := shared } :=
  { h with requested := fun e req => by rw [hreq e]; exact h.requested e req }

omit [Wakers W] in
theorem ptr_not_mem (h : Scheduled dma calls served s) {c : WatchCall} (hc : c ∈ calls)
    (hnew : c ∉ served) : c.ptr ∉ ptrs (scheduleOf (served.map WatchCall.entry)) := by
  intro hmem
  obtain ⟨d, hd, hptr⟩ := exists_of_mem_ptrs hmem
  have : d = c := List.inj_on_of_nodup_map h.memory (h.called d hd) hc hptr
  exact hnew (this ▸ hd)

omit [Wakers W] in
theorem request_iff (h : Scheduled dma calls served s) {c c' : WatchCall} (hc : c ∈ calls)
    (hc' : c' ∈ calls) : c'.shared = c.shared ↔ c' = c :=
  ⟨fun he => List.inj_on_of_nodup_map h.endpoints hc' hc he, fun he => he ▸ rfl⟩

/-- **Serving a request**: the runner takes the request of a call, does not panic over it, and the
call is served. -/
theorem serve (h : Scheduled dma calls served s) {e : InterruptEpId} {req : AddInterruptQhReq}
    (hready : (s.interruptShared e).reqSignal.value? = some req) (w : W) :
    ∃ c s', s.pollInterruptEndpoint w e = some s' ∧ Scheduled dma calls (served ++ [c]) s' := by
  obtain ⟨c, hc, hnew, rfl, rfl⟩ := (h.requested e req).mp hready
  obtain ⟨periodic, hadd, hrep, hseg⟩ := addQh_refines h.rep (h.usable c hc) (h.ptr_not_mem hc hnew)
  refine ⟨c, ?_⟩
  simp only [pollInterruptEndpoint, Signal.ready_pollWait, hready]
  have hadd' : PeriodicListManager.addQh s.periodic c.req.qh c.req.interval = some periodic := hadd
  refine ⟨_, by simp only [wake, hadd', Option.map_some]; rfl, ?_⟩
  exact {
    rep := by
      rw [List.map_append, scheduleOf, List.foldl_append]
      exact hrep
    callbacks := by
      rw [List.map_append, h.callbacks]
      rfl
    called := fun d hd => by
      rcases List.mem_append.mp hd with hd | hd
      · exact h.called d hd
      · rw [List.mem_singleton.mp hd]
        exact hc
    once := List.nodup_append.mpr ⟨h.once, List.nodup_singleton c, fun a ha b hb hab =>
      hnew (by rw [← List.mem_singleton.mp hb, ← hab]; exact ha)⟩
    requested := fun e req => by
      simp only [Heap.modify_apply]
      split
      next he =>
        subst he
        simp only [Signal.value?_pollWait, reduceCtorEq, false_iff]
        rintro ⟨d, hd, hnot, hshared, -⟩
        rw [(h.request_iff hc hd).mp hshared] at hnot
        exact hnot (List.mem_append_right _ (List.mem_singleton.mpr rfl))
      next he =>
        rw [h.requested e req]
        refine exists_congr fun d => and_congr_right fun hd => and_congr_left fun hs => ?_
        have hdc : d ≠ c := fun heq => he (by rw [← hs.1, heq])
        simp [hdc]
    distinct := h.distinct
    endpoints := h.endpoints
    memory := h.memory
    usable := fun d hd => hseg ▸ h.usable d hd
    old := h.old
    known := h.known }

/-- A poll of an endpoint's request signal does not panic and serves at most its call. -/
theorem pollInterruptEndpoint (h : Scheduled dma calls served s) (w : W) (e : InterruptEpId) :
    ∃ s' l, s.pollInterruptEndpoint w e = some s' ∧ Scheduled dma calls (served ++ l) s' := by
  cases hready : (s.interruptShared e).reqSignal.value? with
  | some req =>
    obtain ⟨c, s', hs, hsch⟩ := h.serve hready w
    exact ⟨s', [c], hs, hsch⟩
  | none =>
    have hset := h.setInterrupt (s.interruptShared.modify e fun sh =>
      { sh with reqSignal := ((s.interruptShared e).reqSignal.pollWait w).state }) fun e' => by
        rw [Heap.modify_apply]
        split
        next he => rw [he, hready, Signal.value?_pollWait]
        next => rfl
    refine ⟨_, [], by simp only [RunnerWorld.pollInterruptEndpoint, Signal.ready_pollWait, hready]; rfl, ?_⟩
    rw [List.append_nil]
    exact { hset with }

theorem signalInterruptInt (h : Scheduled dma calls served s) (e : InterruptEpId) :
    Scheduled dma calls served (s.signalInterruptInt e) := by
  have hset := h.setInterrupt (s.interruptShared.modify e fun sh =>
    { sh with intSignal := ((s.interruptShared e).intSignal.signal ()).1 }) fun e' => by
      rw [Heap.modify_apply]
      split <;> rfl
  exact { hset with }

theorem fireRemoved (h : Scheduled dma calls served s) : Scheduled dma calls served s.fireRemoved := by
  obtain ⟨rd, waker, heq⟩ := fireRemoved_eq s
  rw [heq]
  exact { h with }

theorem pollDevice (h : Scheduled dma calls served s) (d : DeviceId) :
    Scheduled dma calls served (s.pollDevice w d) := by
  rw [pollDevice_eq]
  exact { h with }

theorem outcome (h : Scheduled dma calls served s) {b : Bool} (ho : ResetOutcome oc w rds s rd s' b) :
    Scheduled dma calls served s' := by
  cases ho with
  | enabled _ hset =>
    obtain ⟨alloc, packets, qtds, heap, addr, rfl⟩ := startSetAddr_eq_some hset
    exact { h with }
  | addressed addr => exact { h with old := fun c hc => Nat.lt_succ_of_lt (h.old c hc) }
  | failed | resetDone | waits | removed | registered => exact { h with }

/-- **A tick of the runner** serves at most one call, and keeps the others. -/
theorem tick (h : Scheduled dma calls served s) {pc : PollPc} {pc' : Option PollPc}
    (ht : s.tick oc w rds pc = some (s', pc')) : ∃ l, Scheduled dma calls (served ++ l) s' := by
  have hkeeps : Scheduled dma calls served s' → ∃ l, Scheduled dma calls (served ++ l) s' :=
    fun h => ⟨[], (List.append_nil served).symm ▸ h⟩
  cases Ticked.of_tick ht with
  | @pollInterrupt e _ _ hp =>
    obtain ⟨m, l, hm, hsch⟩ := h.pollInterruptEndpoint w e
    rw [hp] at hm
    cases hm
    exact ⟨l, hsch⟩
  | signalInterrupt => exact hkeeps (h.signalInterruptInt _)
  | fireRemoved => exact hkeeps h.fireRemoved
  | pollDevice => exact hkeeps (h.pollDevice _)
  | pollControl hp =>
    obtain ⟨heap, rfl⟩ := pollControlEndpoint_eq_some hp
    exact hkeeps { h with }
  | goesOn _ hm => exact hkeeps (h.outcome (resetStep_outcome hm))
  | waits _ hm =>
    have ho := h.outcome (resetStep_outcome hm)
    exact hkeeps { ho with }
  | startReset _ hm =>
    obtain ⟨port, v, rfl⟩ := startReset_eq_some hm
    exact hkeeps { h with }
  | _ => exact hkeeps { h with }

/-! ## The calls of the clients -/

theorem register (h : Scheduled dma calls served s) (d : DeviceId) :
    Scheduled dma calls served (s.register d) := by
  have hset := h.setInterrupt (s.interruptShared.modify s.nextInterrupt fun _ => .default)
    fun e => by
      rw [Heap.modify_apply]
      split
      next he =>
        cases hreq : (s.interruptShared e).reqSignal.value? with
        | none => rfl
        | some req =>
          obtain ⟨c, hc, -, hshared, -⟩ := (h.requested e req).mp hreq
          exact absurd (hshared.trans he) (Nat.ne_of_lt (h.known c hc))
      next => rfl
  exact { hset with known := fun c hc => Nat.lt_succ_of_lt (h.known c hc) }

omit [Wakers W] in
/-- A new call is in the signal of its endpoint, where no other is. -/
theorem requested_snoc (h : Scheduled dma calls served s) {x : WatchCall}
    (hep : ∀ c ∈ calls, c.shared ≠ x.shared) (e : InterruptEpId) (req : AddInterruptQhReq) :
    (∃ c ∈ calls ++ [x], c ∉ served ∧ c.shared = e ∧ c.req = req) ↔
      if e = x.shared then x.req = req else (s.interruptShared e).reqSignal.value? = some req := by
  have hfresh : x ∉ served := fun hx => hep x (h.called x hx) rfl
  split
  next he =>
    subst he
    constructor
    · rintro ⟨c, hc, -, hshared, hreq⟩
      rcases List.mem_append.mp hc with hc | hc
      · exact absurd hshared (hep c hc)
      · rwa [List.mem_singleton.mp hc] at hreq
    · intro hreq
      exact ⟨x, List.mem_append_right _ (List.mem_singleton.mpr rfl), hfresh, rfl, hreq⟩
  next he =>
    rw [h.requested e req]
    constructor
    · rintro ⟨c, hc, hnot, hshared, hreq⟩
      rcases List.mem_append.mp hc with hc | hc
      · exact ⟨c, hc, hnot, hshared, hreq⟩
      · rw [List.mem_singleton.mp hc] at hshared
        exact absurd hshared.symm he
    · rintro ⟨c, hc, hrest⟩
      exact ⟨c, List.mem_append_left _ hc, hrest⟩

/-- **A call of `watch`** on an endpoint nobody watches, with a queue head nobody lent. -/
theorem startWatch (h : Scheduled dma calls served s) {ep : InterruptEndpoint} {qhMem : MappedMem}
    (qh : Qh) (iv : NormalizedInterval) (hknown : ep.shared < s.nextInterrupt)
    (hep : ∀ c ∈ calls, c.shared ≠ ep.shared)
    (hu : qhMem.Usable dma s.periodic.mgr.ctrlDsSegment) (hmem : ∀ c ∈ calls, c.ptr ≠ qhMem.ptr) :
    Scheduled dma (calls ++ [⟨ep.shared, s.nextSender, ⟨qhMem, iv⟩⟩]) served
      (s.startWatch ep qhMem qh iv) := by
  have hall : ∀ {P : WatchCall → Prop}, (∀ c ∈ calls, P c) →
      P ⟨ep.shared, s.nextSender, ⟨qhMem, iv⟩⟩ →
      ∀ c ∈ calls ++ [⟨ep.shared, s.nextSender, ⟨qhMem, iv⟩⟩], P c :=
    fun h1 h2 => List.forall_mem_append.mpr ⟨h1, List.forall_mem_singleton.mpr h2⟩
  have hout : ∀ p ∈ ptrs (scheduleOf (served.map WatchCall.entry)), p ≠ qhMem.ptr := by
    rintro p hp rfl
    obtain ⟨c, hc, hptr⟩ := exists_of_mem_ptrs hp
    exact hmem c (h.called c hc) hptr
  exact {
    rep := h.rep.congr _ (fun p hp => by rw [Heap.modify_of_ne _ _ (hout p hp)])
      (fun p hp => by rw [Heap.modify_of_ne _ _ (hout p hp)])
      (fun p hp => by rw [Heap.modify_of_ne _ _ (hout p hp)])
    callbacks := h.callbacks
    called := fun c hc => List.mem_append_left _ (h.called c hc)
    once := h.once
    requested := fun e req => by
      rw [h.requested_snoc hep]
      simp only [RunnerWorld.startWatch, wake, Heap.modify_apply]
      split
      next =>
        rw [Signal.value?_signal, Option.some.injEq]
        rfl
      next => rfl
    distinct := nodup_map_snoc h.distinct fun c hc => Nat.ne_of_lt (h.old c hc)
    endpoints := nodup_map_snoc h.endpoints hep
    memory := nodup_map_snoc h.memory hmem
    usable := hall h.usable hu
    old := hall (fun c hc => Nat.lt_succ_of_lt (h.old c hc)) (Nat.lt_succ_self _)
    known := hall h.known hknown }

end Scheduled

end RunnerWorld

end EzEhci
