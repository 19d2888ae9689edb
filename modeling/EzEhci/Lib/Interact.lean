import Mathlib.Data.List.Basic

/-!
# Programs that ask

A `Prog Q A ε α` asks questions of an environment and goes on with the answers;
it returns a value or fails. An environment is a function `env : σ → Q → σ × A`.
`wp env ok post err p s` says of the program `p` in an environment in state `s`
that every question it asks is allowed by `ok` in the state it is asked in, and
that it ends with `post` or fails with `err`. The rules follow the program:
sequencing, and a `for` loop with an invariant over the items done.
-/

namespace EzEhci.Lib

inductive Prog (Q A ε α : Type) where
  | ret (a : α)
  | fail (e : ε)
  | ask (q : Q) (k : A → Prog Q A ε α)

namespace Prog

variable {Q A ε α β σ : Type}

def bind : Prog Q A ε α → (α → Prog Q A ε β) → Prog Q A ε β
  | ret a, f => f a
  | fail e, _ => fail e
  | ask q k, f => ask q fun a => (k a).bind f

instance : Monad (Prog Q A ε) where
  pure := ret
  bind := bind

def request (q : Q) : Prog Q A ε A := ask q ret

def ofExcept : Except ε α → Prog Q A ε α
  | .ok a => ret a
  | .error e => fail e

/-- `for b in l`, with the variables `x` of the loop. -/
def loop (body : β → α → Prog Q A ε α) : List β → α → Prog Q A ε α
  | [], x => ret x
  | b :: l, x => (body b x).bind (loop body l)

section Wp

variable (env : σ → Q → σ × A) (ok : σ → Q → Prop)

def wp (post : α → σ → Prop) (err : ε → σ → Prop) : Prog Q A ε α → σ → Prop
  | ret a, s => post a s
  | fail e, s => err e s
  | ask q k, s => ok s q ∧ wp post err (k (env s q).2) (env s q).1

variable {env ok} {post : α → σ → Prop} {err : ε → σ → Prop} {s : σ}

@[simp] theorem wp_pure {a : α} : wp env ok post err (pure a : Prog Q A ε α) s ↔ post a s := Iff.rfl

@[simp] theorem wp_ret {a : α} : wp env ok post err (ret a : Prog Q A ε α) s ↔ post a s := Iff.rfl

@[simp] theorem wp_fail {e : ε} : wp env ok post err (fail e : Prog Q A ε α) s ↔ err e s := Iff.rfl

@[simp] theorem wp_request {q : Q} {post : A → σ → Prop} :
    wp env ok post err (request q) s ↔ ok s q ∧ post (env s q).2 (env s q).1 := Iff.rfl

@[simp] theorem wp_ofExcept {r : Except ε α} :
    wp env ok post err (ofExcept r) s ↔ match r with | .ok a => post a s | .error e => err e s := by
  cases r <;> rfl

theorem wp_bind {p : Prog Q A ε α} {f : α → Prog Q A ε β} {post : β → σ → Prop} :
    wp env ok post err (p.bind f) s ↔ wp env ok (fun a s => wp env ok post err (f a) s) err p s := by
  induction p generalizing s with
  | ret a => rfl
  | fail e => rfl
  | ask q k ih => exact and_congr_right fun _ => ih _

@[simp] theorem wp_bind_eq {p : Prog Q A ε α} {f : α → Prog Q A ε β} {post : β → σ → Prop} :
    wp env ok post err (p >>= f) s ↔ wp env ok (fun a s => wp env ok post err (f a) s) err p s :=
  wp_bind

theorem wp_mono {post' : α → σ → Prop} {err' : ε → σ → Prop} {p : Prog Q A ε α}
    (h : wp env ok post err p s) (hpost : ∀ a s, post a s → post' a s)
    (herr : ∀ e s, err e s → err' e s) : wp env ok post' err' p s := by
  induction p generalizing s with
  | ret a => exact hpost a s h
  | fail e => exact herr e s h
  | ask q k ih => exact ⟨h.1, ih _ h.2⟩

theorem wp_ok_mono {ok' : σ → Q → Prop} {p : Prog Q A ε α} (h : wp env ok post err p s)
    (hok : ∀ s q, ok s q → ok' s q) : wp env ok' post err p s := by
  induction p generalizing s with
  | ret a => exact h
  | fail e => exact h
  | ask q k ih => exact ⟨hok s q h.1, ih _ h.2⟩

/-- **Loops.** `I done x s` holds after the items `done`. -/
theorem wp_loop {body : β → α → Prog Q A ε α} {l : List β} (I : List β → α → σ → Prop)
    (hbody : ∀ done b rest x s, l = done ++ b :: rest → I done x s →
      wp env ok (I (done ++ [b])) err (body b x) s)
    {x : α} (h : I [] x s) : wp env ok (I l) err (loop body l x) s := by
  -- the items that are left are a suffix of `l`
  suffices ∀ rest done x s, l = done ++ rest → I done x s → wp env ok (I l) err (loop body rest x) s from
    this l [] x s rfl h
  intro rest
  induction rest with
  | nil =>
    intro done x s hl h
    rw [List.append_nil] at hl
    exact hl ▸ h
  | cons b rest ih =>
    intro done x s hl h
    rw [loop, wp_bind]
    refine wp_mono (hbody done b rest x s hl h) (fun x s h => ?_) fun _ _ h => h
    exact ih (done ++ [b]) x s (by simp [hl]) h

end Wp

end Prog

end EzEhci.Lib
