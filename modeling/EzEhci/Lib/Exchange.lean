import EzEhci.Lib.Trace

/-!
# Requests and responses without identities

A caller puts a request into a slot and waits for a value in another slot; the
server takes the request, serves it and puts its response there. Nothing says
which call a response belongs to. `Exchange` numbers the calls and follows the
numbers through both slots; `Matches` says that a call returns the response to
its own request. `Settled` is the invariant of runs in which a call starts only
when the server is done with the earlier ones and no response is left.
-/

namespace EzEhci.Lib

variable {κ ρ : Type*}

/-- What happens between callers and the server. -/
inductive Exchanged (κ ρ : Type*) where
  | called (q : κ)
  | taken
  | answered (v : ρ)
  | returned (v : ρ)

/-- The calls so far, and the number of the call whose request is in the slot, is served, and was
answered last. -/
structure Exchange (κ ρ : Type*) where
  calls : Nat
  request : Option (Nat × κ)
  serving : Option Nat
  answer : Option (Nat × ρ)

/-- A request replaces the one in its slot, a response the one before it. -/
def Exchange.next (x : Exchange κ ρ) : Exchanged κ ρ → Exchange κ ρ
  | .called q => { x with calls := x.calls + 1, request := some (x.calls + 1, q) }
  | .taken => { x with request := none, serving := x.request.map Prod.fst }
  | .answered v => { x with serving := none, answer := x.serving.map (·, v) }
  | .returned _ => x

def exchange (l : List (Exchanged κ ρ)) : Exchange κ ρ := l.foldl Exchange.next ⟨0, none, none, none⟩

/-- The value a call returns answers its own request. -/
def Matches (l : List (Exchanged κ ρ)) : Exchanged κ ρ → Prop
  | .returned v => (exchange l).answer = some ((exchange l).calls, v)
  | _ => True

theorem exchange_snoc (l : List (Exchanged κ ρ)) (e : Exchanged κ ρ) :
    exchange (l ++ [e]) = (exchange l).next e := by
  rw [exchange, List.foldl_append]
  rfl

/-- Every call returned the response to its own request. -/
def AllMatch (l : List (Exchanged κ ρ)) : Prop := ∀ l' e, l' ++ [e] <+: l → Matches l' e

/-- The last event returns the response to another call. -/
def mismatched (l : List (Exchanged κ ρ)) : Bool :=
  match l.getLast? with
  | some (.returned _) =>
    decide ((exchange l.dropLast).answer.map Prod.fst ≠ some (exchange l.dropLast).calls)
  | _ => false

theorem not_allMatch_of_mismatched {l : List (Exchanged κ ρ)} (h : mismatched l = true) : ¬ AllMatch l := by
  intro hall
  unfold mismatched at h
  split at h
  next v hlast =>
    have hl : l.dropLast ++ [.returned v] = l := List.dropLast_append_getLast? _ hlast
    have hm : (exchange l.dropLast).answer = some ((exchange l.dropLast).calls, v) :=
      hall l.dropLast (.returned v) ⟨[], by rw [List.append_nil, hl]⟩
    rw [hm] at h
    exact absurd rfl (of_decide_eq_true h)
  next => cases h

/-- What was exchanged and the slots agree: the server works on the request of the last call, and so
does the response that is left. -/
structure Settled (l : List (Exchanged κ ρ)) (req : Option κ) (busy : Prop) (res : Option ρ) : Prop where
  matched : Each Matches [] l
  request : req = (exchange l).request.map Prod.snd
  latest : ∀ p, (exchange l).request = some p → p.1 = (exchange l).calls
  serving : busy → (exchange l).serving = some (exchange l).calls
  response : ∀ v, res = some v → (exchange l).answer = some ((exchange l).calls, v)

namespace Settled

variable {l : List (Exchanged κ ρ)} {req : Option κ} {busy : Prop} {res : Option ρ}

theorem start : Settled ([] : List (Exchanged κ ρ)) none False none :=
  ⟨trivial, rfl, nofun, nofun, nofun⟩

theorem allMatch (h : Settled l req busy res) : AllMatch l := fun _ _ hl => h.matched.at hl

theorem congr {req' : Option κ} {busy' : Prop} {res' : Option ρ} (h : Settled l req busy res)
    (hreq : req' = req) (hbusy : busy' → busy) (hres : res' = res) : Settled l req' busy' res' :=
  ⟨h.matched, hreq.trans h.request, h.latest, fun hb => h.serving (hbusy hb), hres ▸ h.response⟩

/-- A call starts when nothing of an earlier one is left. -/
theorem called (h : Settled l req busy res) (hbusy : ¬ busy) (hres : res = none) (q : κ) :
    Settled (l ++ [.called q]) (some q) busy res := by
  refine ⟨h.matched.record ⟨trivial, trivial⟩, ?_, ?_, fun hb => absurd hb hbusy, ?_⟩
  · rw [exchange_snoc]
    rfl
  · intro p hp
    rw [exchange_snoc] at hp ⊢
    cases hp
    rfl
  · intro v hv
    rw [hres] at hv
    cases hv

theorem taken (h : Settled l req busy res) {q : κ} (hreq : req = some q) :
    Settled (l ++ [.taken]) none True res := by
  obtain ⟨p, hp, -⟩ := Option.map_eq_some_iff.mp (h.request.symm.trans hreq)
  refine ⟨h.matched.record ⟨trivial, trivial⟩, ?_, ?_, fun _ => ?_, fun v hv => ?_⟩
  · rw [exchange_snoc]
    rfl
  · intro p hp
    rw [exchange_snoc] at hp
    cases hp
  · rw [exchange_snoc]
    show (exchange l).request.map Prod.fst = some (exchange l).calls
    rw [hp, Option.map_some, h.latest p hp]
  · rw [exchange_snoc]
    exact h.response v hv

theorem answered (h : Settled l req busy res) (hbusy : busy) (v : ρ) :
    Settled (l ++ [.answered v]) req False (some v) := by
  refine ⟨h.matched.record ⟨trivial, trivial⟩, ?_, ?_, nofun, ?_⟩
  · rw [exchange_snoc]
    exact h.request
  · rw [exchange_snoc]
    exact h.latest
  · rintro v' ⟨⟩
    rw [exchange_snoc]
    show (exchange l).serving.map (·, v) = some ((exchange l).calls, v)
    rw [h.serving hbusy, Option.map_some]

theorem returned (h : Settled l req busy res) {v : ρ} (hres : res = some v) :
    Settled (l ++ [.returned v]) req busy none := by
  have hex : exchange (l ++ [.returned v]) = exchange l := exchange_snoc l _
  refine ⟨h.matched.record ⟨h.response v hres, trivial⟩, ?_, ?_, ?_, nofun⟩
  · rw [hex]
    exact h.request
  · rw [hex]
    exact h.latest
  · rw [hex]
    exact h.serving

end Settled

end EzEhci.Lib
