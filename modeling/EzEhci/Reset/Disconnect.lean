import EzEhci.Lib.Trace
import EzEhci.Reset.Refine

/-!
# Disconnected while resetting

A reset whose port reads disconnected should end: with an error, or with its
queue head on the way out of the list and no device. The first two stages look
at the connection, the two that wait for the transfer and for the removal do
not. A run keeps to the rule as long as no port reads disconnected in these,
and a run that answers all its requests does so in no other case.
-/

namespace EzEhci

open Lib

/-! ## What a record says -/

/-- The port of the request taken last has read disconnected since. -/
def goneEvent (b : Bool) : ResetEvent → Bool
  | .consumed _ _ => false
  | .disconnected _ _ => true
  | _ => b

def gone (log : List ResetEvent) : Bool := log.foldl goneEvent false

def goneInPollEvent (b : Bool) : ResetEvent → Bool
  | .consumed _ _ | .pollEnded => false
  | .disconnected _ _ => true
  | _ => b

def goneInPoll (log : List ResetEvent) : Bool := log.foldl goneInPollEvent false

/-- The request taken last waits on its device: it was not answered with `DeviceDisconnected` and its
queue head was not queued for removal. -/
def waitsEvent (b : Bool) : ResetEvent → Bool
  | .consumed _ _ => true
  | .removalQueued _ _ => false
  | .answered _ _ (.error .deviceDisconnected) _ => false
  | _ => b

def waitsOnDevice (log : List ResetEvent) : Bool := log.foldl waitsEvent false

/-- A poll in which the port read disconnected does not leave the request waiting on its device, and
the request is not answered with a device. -/
def EndsGone (l : List ResetEvent) : ResetEvent → Prop
  | .pollEnded => goneInPoll l = true → waitsOnDevice l = false
  | .answered _ _ (.ok _) _ => gone l = false
  | _ => True

/-- Disconnects end resets. -/
def DisconnectEnds (log : List ResetEvent) : Prop := ∀ l e, l ++ [e] <+: log → EndsGone l e

def ResetStage.checks : ResetStage → Bool
  | .waitingToStopReset | .waitForPortToBeEnabled => true
  | .waitForSetAddr _ | .waitForQhRemove _ _ => false

/-- The port reads disconnected in the stages that look at the connection only. -/
def DisconnectsSeen (s : ResetState) (o : Option ResetReadings) : Prop :=
  ∀ r rds, s.ongoing = some r → o = some rds → rds.portSc.currentConnectStatus = false →
    r.stage.checks = true

instance (s : ResetState) : (o : Option ResetReadings) → Decidable (DisconnectsSeen s o)
  | none => .isTrue nofun
  | some rds => decidable_of_iff (∀ r ∈ s.ongoing, rds.portSc.currentConnectStatus = false →
      r.stage.checks = true) (by simp [DisconnectsSeen])

section Record

variable {log l : List ResetEvent} {e : ResetEvent}

theorem gone_append (log l : List ResetEvent) : gone (log ++ l) = l.foldl goneEvent (gone log) :=
  List.foldl_append

theorem goneInPoll_append (log l : List ResetEvent) :
    goneInPoll (log ++ l) = l.foldl goneInPollEvent (goneInPoll log) :=
  List.foldl_append

theorem waitsOnDevice_append (log l : List ResetEvent) :
    waitsOnDevice (log ++ l) = l.foldl waitsEvent (waitsOnDevice log) :=
  List.foldl_append

/-- The event neither takes a request nor reads a port disconnected. -/
def ResetEvent.calm : ResetEvent → Bool
  | .consumed _ _ | .disconnected _ _ => false
  | _ => true

theorem ResetEvent.calm_of_outside (h : e.outside = true) : e.calm = true := by
  cases e <;> first | rfl | cases h

theorem gone_calm (hl : ∀ e ∈ l, e.calm = true) : gone (log ++ l) = gone log := by
  rw [gone_append]
  refine foldl_of_neutral fun e he => ?_
  cases e <;> first | rfl | cases hl _ he

theorem goneInPoll_calm (he : e.calm = true) (h : goneInPoll (log ++ [e]) = true) :
    goneInPoll log = true := by
  rw [goneInPoll_append] at h
  cases e with
  | consumed | disconnected => cases he
  | pollEnded => cases h
  | _ => exact h

theorem waitsOnDevice_calm (he : e.calm = true) (h : waitsOnDevice log = false) :
    waitsOnDevice (log ++ [e]) = false := by
  rw [waitsOnDevice_append]
  simp only [List.foldl_cons, List.foldl_nil, h]
  unfold waitsEvent
  split <;> first | rfl | cases he

theorem not_disconnectEnds_append (h : ¬ DisconnectEnds log) (l : List ResetEvent) :
    ¬ DisconnectEnds (log ++ l) :=
  fun h' => h fun l' e hl => h' l' e (hl.trans (List.prefix_append log l))

end Record

/-! ## Runs that keep to the rule -/

section Steps

variable {dma : Dma} {log l : List ResetEvent} {s s' : ResetState} {o : Option ResetReadings}

/-- What holds between the steps: a request whose port read disconnected is answered. -/
structure Ending (log : List ResetEvent) (s : ResetState) : Prop where
  ends : Each EndsGone [] log
  gone : gone log = true → s.ongoing = none
  inPoll : goneInPoll log = true → EzEhci.gone log = true ∧ waitsOnDevice log = false

namespace Ending

theorem calm (h : Ending log s) (hl : ∀ e ∈ l, e.calm = true)
    (hgone : EzEhci.gone log = true → s'.ongoing = none ∧ ∀ e ∈ l, e.outside = true) :
    Ending (log ++ l) s' := by
  induction l generalizing log s with
  | nil =>
    rw [List.append_nil]
    exact ⟨h.ends, fun hg => (hgone hg).1, h.inPoll⟩
  | cons e l ih =>
    have he : e.calm = true := hl e List.mem_cons_self
    have hgone' : EzEhci.gone (log ++ [e]) = EzEhci.gone log :=
      gone_calm fun e' h' => List.mem_singleton.mp h' ▸ he
    have hends : EndsGone log e := by
      cases e with
      | pollEnded => exact fun hpoll => (h.inPoll hpoll).2
      | answered i req result heap =>
        cases result with
        | error err => trivial
        | ok device =>
          rw [EndsGone, ← Bool.not_eq_true]
          intro hg
          cases (hgone hg).2 _ List.mem_cons_self
      | _ => trivial
    have hstep : Ending (log ++ [e]) s' := {
      ends := h.ends.record ⟨hends, trivial⟩
      gone := fun hg => (hgone (hgone' ▸ hg)).1
      inPoll := fun hpoll => by
        obtain ⟨hg, hw⟩ := h.inPoll (goneInPoll_calm he hpoll)
        exact ⟨hgone'.trans hg, waitsOnDevice_calm he hw⟩ }
    have hrest := ih hstep (fun e' h' => hl e' (List.mem_cons_of_mem _ h')) fun hg => by
      obtain ⟨hnone, hout⟩ := hgone (hgone' ▸ hg)
      exact ⟨hnone, fun e' h' => hout e' (List.mem_cons_of_mem _ h')⟩
    rwa [List.append_assoc, List.singleton_append] at hrest

theorem not_gone (h : Ending log s) {r : OngoingReset} (hr : s.ongoing = some r) :
    EzEhci.gone log = false := by
  rw [← Bool.not_eq_true]
  intro hg
  rw [h.gone hg] at hr
  cases hr

theorem progress (h : Ending log s) {r : OngoingReset} (hr : s.ongoing = some r) {rds : ResetReadings}
    (hp : ResetProgress s rds r l s') : Ending (log ++ l) s' := by
  refine h.calm (fun e he => ?_) fun hg => ?_
  · cases hp with
    | addressed => rcases List.mem_pair.mp he with rfl | rfl <;> rfl
    | disconnected | resetDone | fullSpeed | enabled | removed | waits =>
      cases List.mem_singleton.mp he
      rfl
  · rw [h.not_gone hr] at hg
    cases hg

theorem step (h : Ending log s) (hD : DisconnectsSeen s o) (hs : ResetStep dma log s o l s') :
    Ending (log ++ l) s' := by
  rcases hs.kinds with ⟨-, hl, hongoing, -⟩ | ⟨i, req, v, -, rfl, -, hnone, -, -, rfl⟩ |
    ⟨rds, r, l', ho, hr, rfl, hp⟩
  · exact h.calm (fun e he => ResetEvent.calm_of_outside (hl e he)) fun hg => ⟨hongoing.trans (h.gone hg), hl⟩
  · refine ⟨h.ends.record ⟨trivial, trivial, trivial⟩, fun hg => ?_, fun hg => ?_⟩
    · rw [gone_append] at hg
      cases hg
    · rw [goneInPoll_append] at hg
      cases hg
  · cases hread : rds.portSc.currentConnectStatus with
    | true =>
      have hnil : disconnectedEvents rds r = [] := by rw [disconnectedEvents, hread, if_pos rfl]
      rw [hnil, List.nil_append]
      exact h.progress hr hp
    | false =>
      have hchecks := hD r rds hr ho hread
      have hdisc : disconnectedEvents rds r = [.disconnected r.rootPort r.req] := by
        rw [disconnectedEvents, hread]
        rfl
      rw [hdisc]
      cases hp with
      | disconnected =>
        refine ⟨h.ends.record ⟨trivial, trivial, trivial⟩, fun _ => rfl, fun _ => ?_⟩
        rw [gone_append, waitsOnDevice_append]
        exact ⟨rfl, rfl⟩
      | resetDone v hstage hread' | fullSpeed hstage hread' | enabled _ _ _ _ hstage hread' =>
        rw [hread] at hread'
        cases hread'
      | addressed addr hstage =>
        rw [hstage] at hchecks
        cases hchecks
      | removed addr sender device e hstage =>
        rw [hstage] at hchecks
        cases hchecks
      | waits hwait =>
        rcases hwait with ⟨-, hread'⟩ | ⟨addr, hstage, -⟩ | ⟨addr, sender, hstage, -⟩
        · rw [hread] at hread'
          cases hread'
        · rw [hstage] at hchecks
          cases hchecks
        · rw [hstage] at hchecks
          cases hchecks

end Ending

/-! ## Runs that do not -/

/-- The reset in progress will be answered with a device although its port read disconnected. -/
def Doomed (log : List ResetEvent) (s : ResetState) : Prop :=
  gone log = true ∧ ∃ r, s.ongoing = some r ∧ r.stage.checks = false

/-- The stages that do not look at the connection lead to a device. -/
theorem doomed_of_progress (hgone : gone log = true) {rds : ResetReadings} {r : OngoingReset}
    (hr : s.ongoing = some r) (hstage : r.stage.checks = false) (hp : ResetProgress s rds r l s') :
    ¬ DisconnectEnds (log ++ l) ∨ Doomed (log ++ l) s' := by
  cases hp with
  | disconnected hst =>
    rcases hst with hst | hst <;> (rw [hst] at hstage; cases hstage)
  | resetDone v hst | fullSpeed hst | enabled alloc addr prepared async hst =>
    rw [hst] at hstage
    cases hstage
  | addressed addr hst =>
    refine .inr ⟨?_, _, rfl, rfl⟩
    rw [gone_append]
    exact hgone
  | removed addr sender device e hst =>
    refine .inl fun hends => ?_
    have hok : gone log = false := hends log _ List.prefix_rfl
    rw [hgone] at hok
    cases hok
  | waits =>
    refine .inr ⟨?_, r, hr, hstage⟩
    rw [gone_append]
    exact hgone

theorem Doomed.step (h : Doomed log s) (hs : ResetStep dma log s o l s') :
    ¬ DisconnectEnds (log ++ l) ∨ Doomed (log ++ l) s' := by
  obtain ⟨hgone, r, hr, hstage⟩ := h
  rcases hs.kinds with ⟨-, hl, hongoing, -⟩ | ⟨i, req, v, -, -, -, hnone, -⟩ | ⟨rds, r', l', -, hr', rfl, hp⟩
  · refine .inr ⟨?_, r, hongoing.trans hr, hstage⟩
    rw [gone_calm fun e he => ResetEvent.calm_of_outside (hl e he)]
    exact hgone
  · rw [hnone] at hr
    cases hr
  · rw [hr] at hr'
    cases hr'
    rw [← List.append_assoc]
    refine doomed_of_progress ?_ hr hstage hp
    rw [gone_append, hgone]
    unfold disconnectedEvents
    split <;> rfl

/-- A port that reads disconnected in a stage that does not look. -/
theorem doomed_of_unseen (hD : ¬ DisconnectsSeen s o) (hs : ResetStep dma log s o l s') :
    ¬ DisconnectEnds (log ++ l) ∨ Doomed (log ++ l) s' := by
  simp only [DisconnectsSeen, not_forall, Bool.not_eq_true] at hD
  obtain ⟨r, rds, hr, ho, hread, hstage⟩ := hD
  rcases hs.kinds with ⟨ho', -⟩ | ⟨i, req, v, ho', -⟩ | ⟨rds', r', l', ho', hr', rfl, hp⟩
  · rw [ho] at ho'
    cases ho'
  · rw [ho] at ho'
    cases ho'
  · rw [ho] at ho'
    cases ho'
    rw [hr] at hr'
    cases hr'
    rw [← List.append_assoc]
    refine doomed_of_progress ?_ hr hstage hp
    rw [gone_append, disconnectedEvents, hread]
    rfl

end Steps

/-! ## Runs -/

namespace ResetWorld

variable {W : Type} [Wakers W] {dma : Dma} {oc : OverflowChecks} {nPorts : Nat} {s₀ s : ResetWorld W}

omit [Wakers W] in
theorem Begun.ending (h : s₀.Begun dma nPorts) : Ending s₀.log s₀.state := by
  obtain ⟨seg, anchor, list, heap₀, heap, periodicHeap, qtds, runnerTask, -, -, rfl⟩ := h
  exact ⟨trivial, nofun, nofun⟩

/-- A run not within the condition has answered a request wrongly, or will. -/
theorem meets_or_doomed (hb : s₀.Begun dma nPorts) {tr : List (ResetLabel W)}
    (h : exec (step dma oc) s₀ tr = some s) :
    Meets (step dma oc) (Within DisconnectsSeen) s₀ tr ∨ ¬ DisconnectEnds s.log ∨ Doomed s.log s.state := by
  refine (exec_history (C := fun _ _ => True) (P := fun tr s => s.PortsIdle ∧
    (Meets (step dma oc) (Within DisconnectsSeen) s₀ tr ∨ ¬ DisconnectEnds s.log ∨
      Doomed s.log s.state)) ⟨hb.portsIdle, .inl trivial⟩ ?_ (meets_true s₀ tr) h).2
  rintro tr m a m' hm ⟨hp, ih⟩ - hs
  obtain ⟨⟨l, hlog, hl⟩, hp'⟩ := refines hp hs
  refine ⟨hp', ?_⟩
  rw [hlog]
  rcases ih with hmeets | hbad | hdoomed
  · by_cases hD : DisconnectsSeen m.state (m.readings a)
    · refine .inl (meets_append.mpr ⟨hmeets, fun m₁ hm₁ => ?_⟩)
      rw [hm] at hm₁
      cases hm₁
      exact ⟨hD, fun _ _ => trivial⟩
    · exact .inr (doomed_of_unseen hD hl)
  · exact .inr (.inl (not_disconnectEnds_append hbad l))
  · exact .inr (hdoomed.step hl)

end ResetWorld

section Runs

variable {W : Type} [Wakers W] {dma : Dma} {oc : OverflowChecks} {nPorts : Nat} {s₀ s : ResetWorld W}

/-- **Disconnects and resets.** In every run of the running driver in which ports read disconnected
only in the stages that look at the connection, disconnects end resets. A run that leaves no reset in
progress keeps to this rule in no other case. -/
theorem disconnectEnds_of_seen (hb : s₀.Begun dma nPorts) {tr : List (ResetLabel W)}
    (h : exec (ResetWorld.step dma oc) s₀ tr = some s) :
    (Meets (ResetWorld.step dma oc) (ResetWorld.Within DisconnectsSeen) s₀ tr → DisconnectEnds s.log) ∧
    (s.state.ongoing = none → DisconnectEnds s.log →
      Meets (ResetWorld.step dma oc) (ResetWorld.Within DisconnectsSeen) s₀ tr) := by
  constructor
  · intro hmeets
    have hinv : Ending s.log s.state :=
      ResetWorld.exec_protocol_of_meets hb.ending hb.portsIdle
        (fun _ _ _ _ _ ht hD hs => ht.step hD hs) hmeets h
    exact fun l e hl => hinv.ends.at hl
  · intro hidle hends
    rcases ResetWorld.meets_or_doomed hb h with hmeets | hbad | ⟨-, r, hr, -⟩
    · exact hmeets
    · exact absurd hends hbad
    · rw [hidle] at hr
      cases hr

end Runs

/-- A reset whose port reads disconnected when it is to be enabled. -/
def exampleGone : List (ResetLabel TaskWaker) :=
  .client (.resetDevice 1 (ResetWorld.exampleRequest 0x2000)) ::
    ResetWorld.examplePoll 12 DriverWorld.exampleReadings ++
    [.tick { DriverWorld.exampleReadings with portSc := ⟨0⟩ }]

theorem disconnectEnds_exampleGone : ∃ s,
    exec (ResetWorld.step .identity .on) ResetWorld.example₀ exampleGone = some s ∧
    gone s.log = true ∧ DisconnectEnds s.log := by
  obtain ⟨s, hs, hgone⟩ := exec_witness (ResetWorld.step .identity .on) ResetWorld.example₀
    exampleGone (fun s => gone s.log = true) (by decide +kernel)
  have hmeets : Meets (ResetWorld.step .identity .on) (ResetWorld.Within DisconnectsSeen)
    ResetWorld.example₀ exampleGone := by decide +kernel
  exact ⟨s, hs, hgone, (disconnectEnds_of_seen ResetWorld.example₀_begun hs).1 hmeets⟩

/-- A poll that waits for the transfer to a device that is gone. -/
def exampleWaiting : List (ResetLabel TaskWaker) :=
  .client (.resetDevice 1 (ResetWorld.exampleRequest 0x2000)) ::
    ResetWorld.examplePoll 13 DriverWorld.exampleReadings ++
    [.tick ⟨⟨0⟩, ⟨0⟩, true, TransferToken.zero.withActive true⟩]

def ResetEvent.isPollEnded : ResetEvent → Bool
  | .pollEnded => true
  | _ => false

/-- The reset goes on waiting for a device that is gone. -/
theorem not_disconnectEnds_exampleWaiting : ResetWorld.example₀.Begun .identity 2 ∧ ∃ s,
    exec (ResetWorld.step .identity .on) ResetWorld.example₀ exampleWaiting = some s ∧
    s.state.ongoing.isSome = true ∧ ¬ DisconnectEnds s.log := by
  obtain ⟨s, hs, hongoing, hgone, hwaits, hlast⟩ := exec_witness (ResetWorld.step .identity .on)
    ResetWorld.example₀ exampleWaiting (fun s => s.state.ongoing.isSome = true ∧
      goneInPoll s.log.dropLast = true ∧ waitsOnDevice s.log.dropLast = true ∧
      s.log.getLast?.any ResetEvent.isPollEnded = true) (by decide +kernel)
  refine ⟨ResetWorld.example₀_begun, s, hs, hongoing, fun hends => ?_⟩
  obtain ⟨e, he, hend⟩ := (Option.any_eq_true _ _).mp hlast
  have hlog : s.log.dropLast ++ [e] = s.log := List.dropLast_append_getLast? e he
  have hrule := hends s.log.dropLast e ⟨[], by rw [List.append_nil, hlog]⟩
  cases e with
  | pollEnded =>
    have hfalse := hrule hgone
    rw [hwaits] at hfalse
    cases hfalse
  | _ => cases hend

end EzEhci
