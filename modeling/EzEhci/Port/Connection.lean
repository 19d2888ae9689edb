import EzEhci.Port.Wakeup

/-!
# Which connections wake a waiter

A waiter that sleeps on a connected port while nothing is on its way missed a
change that the controller did not announce: the port's connect status change
bit was set already. The runner keeps change bits as they are and nobody else
writes PORTSC, so that happens from a port's second change on: in a run of any
length a port announces at most as many changes as it has change bits.
-/

namespace EzEhci

open Lib

namespace PortScReg

def unset (r : PortScReg) : Nat := portChangeBits.countP fun b => !r.change b

theorem unset_le (r : PortScReg) : r.unset ≤ 3 := List.countP_le_length

theorem Evolves.change {r r' : PortScReg} (h : r.Evolves r') {b : PortChangeBit}
    (hb : r.change b = true) : r'.change b = true :=
  h.1 b (by cases b <;> simp [portChangeBits]) hb

theorem Evolves.unset_le {r r' : PortScReg} (h : r.Evolves r') : r'.unset ≤ r.unset := by
  refine List.countP_mono_left fun b _ hb => ?_
  simp only [Bool.not_eq_true'] at hb ⊢
  by_contra hno
  rw [h.change (eq_true_of_ne_false hno)] at hb
  cases hb

theorem Evolves.unset_lt {r r' : PortScReg} (h : r.Evolves r') (ha : r.announces r' = true) :
    r'.unset < r.unset := by
  have hle : ∀ b, (r'.change b).not.toNat ≤ (r.change b).not.toNat := fun b => by
    cases hb : r.change b with
    | false => exact Bool.toNat_le _
    | true => simp [h.change hb]
  have hlt : ∃ b, (r'.change b).not.toNat < (r.change b).not.toNat := by
    obtain ⟨b, -, hb⟩ := List.any_eq_true.mp ha
    simp only [Bool.and_eq_true, Bool.not_eq_true'] at hb
    exact ⟨b, by simp [hb]⟩
  have hsum : ∀ r : PortScReg, r.unset = (r.change .connectStatusChange).not.toNat +
      (r.change .portEnableChange).not.toNat + (r.change .overCurrentChange).not.toNat := fun r => by
    simp only [unset, portChangeBits, List.countP_cons, List.countP_nil]
    cases r.change .connectStatusChange <;> cases r.change .portEnableChange <;>
      cases r.change .overCurrentChange <;> rfl
  have h1 := hle .connectStatusChange
  have h2 := hle .portEnableChange
  have h3 := hle .overCurrentChange
  obtain ⟨b, hb⟩ := hlt
  rw [hsum, hsum]
  cases b <;> omega

end PortScReg

namespace PortWorld

variable {W : Type} [Wakers W] {s s₀ s' : PortWorld W} {oc : OverflowChecks} {tr : List (PortLabel W)}

/-- What a run keeps of a port: change bits stay set, and each announced change set one. -/
structure Sticky (s s' : PortWorld W) (i : Nat) : Prop where
  change : ∀ b, (s.ports i).change b = true → (s'.ports i).change b = true
  announced : s'.announced i + (s'.ports i).unset ≤ s.announced i + (s.ports i).unset

omit [Wakers W] in
theorem Sticky.of_eq {i : Nat} (hp : s'.ports i = s.ports i) (ha : s'.announced i = s.announced i) :
    Sticky s s' i := ⟨fun b hb => hp ▸ hb, by rw [hp, ha]⟩

omit [Wakers W] in
theorem Sticky.of_alike {i : Nat} (hp : (s.ports i).Alike (s'.ports i))
    (ha : s'.announced i = s.announced i) : Sticky s s' i := by
  refine ⟨fun b hb => (hp.change b).trans hb, ?_⟩
  simp only [ha, PortScReg.unset, hp.change]
  exact le_rfl

omit [Wakers W] in
theorem Sticky.trans {i : Nat} (h : Sticky s₀ s i) (h' : Sticky s s' i) : Sticky s₀ s' i :=
  ⟨fun b hb => h'.change b (h.change b hb), h'.announced.trans h.announced⟩

omit [Wakers W] in
theorem sticky_portChanges {j : Nat} {r : PortScReg} (h : (s.ports j).Evolves r) (i : Nat) :
    Sticky s (s.portChanges j r) i := by
  by_cases hij : i = j
  · subst hij
    refine ⟨fun b hb => by simpa [portChanges] using h.change hb, ?_⟩
    simp only [portChanges, Heap.modify_self]
    split
    next hann =>
      have := h.unset_lt hann
      omega
    next => exact Nat.add_le_add_left h.unset_le _
  · exact .of_eq (by simp [portChanges, Heap.modify_of_ne _ _ hij])
      (by simp [portChanges, Heap.modify_of_ne _ _ hij])

/-- **What a step does to the ports**: one of them changes, or nothing that matters does. -/
theorem Stepped.ports {a : PortLabel W} (hs : Stepped oc s a s') :
    (∃ j r, (s.ports j).Evolves r ∧ s' = s.portChanges j r) ∨
      (∀ i, (s.ports i).Alike (s'.ports i)) ∧ s'.silent = s.silent ∧ s'.announced = s.announced := by
  cases hs with
  | port hev => exact .inl ⟨_, _, hev, rfl⟩
  | tick hp ht => exact .inr ⟨alike_ticked ht, rfl, rfl⟩
  | _ => exact .inr ⟨fun _ => ⟨rfl, fun _ => rfl⟩, rfl, rfl⟩

theorem sticky_step {a : PortLabel W} (hs : Stepped oc s a s') (i : Nat) : Sticky s s' i := by
  rcases hs.ports with ⟨j, r, hev, rfl⟩ | ⟨hp, -, ha⟩
  · exact sticky_portChanges hev i
  · exact .of_alike (hp i) (congrFun ha i)

theorem sticky_of_exec (h : exec (step oc) s₀ tr = some s) (i : Nat) : Sticky s₀ s i :=
  exec_invariant (I := fun s => Sticky s₀ s i) (.of_eq rfl rfl)
    (fun _ _ _ hi hs => hi.trans (sticky_step (.of_step hs) i)) h

/-! ## Silent connections -/

/-- The connect status change bit was set when a change was silent, and it stays set. -/
def Marked (s : PortWorld W) (i : Nat) : Prop :=
  s.silent i = true → (s.ports i).change .connectStatusChange = true

theorem Marked.step {i : Nat} (h : s.Marked i) {a : PortLabel W} (hs : Stepped oc s a s') :
    s'.Marked i := by
  have hkeeps (hsilent : s'.silent i = s.silent i) : s'.Marked i := fun hs' =>
    (sticky_step hs i).change _ (h (hsilent ▸ hs'))
  rcases hs.ports with ⟨j, r, hev, rfl⟩ | ⟨-, hsilent, -⟩
  · by_cases hij : i = j
    · subst hij
      by_cases hconn : r.currentConnectStatus = (s.ports i).currentConnectStatus
      · exact hkeeps (by simp [portChanges, hconn])
      · exact fun _ => by simpa [portChanges] using hev.2 hconn
    · exact hkeeps (by simp [portChanges, Heap.modify_of_ne _ _ hij])
  · exact hkeeps (congrFun hsilent i)

theorem Begun.inv (h : s.Begun) : (∀ i, s.Tracked i) ∧ s.Roused ∧ ∀ i, s.Marked i := by
  have hawake : s.Awake := .inr (.inr ⟨h.started.pending, h.poll⟩)
  refine ⟨fun i => ⟨?_, ?_, ?_⟩, ⟨.inl hawake, fun _ => .inl hawake⟩, fun i hi => ?_⟩
  · rw [h.waiters i]
    exact nofun
  · rw [h.waiters i]
    exact nofun
  · rw [h.waiters i]
    exact nofun
  · rw [h.silent i] at hi
    cases hi

theorem inv_of_exec (hb : s₀.Begun) (h : exec (step oc) s₀ tr = some s) :
    (∀ i, s.Tracked i) ∧ s.Roused ∧ ∀ i, s.Marked i := by
  refine exec_invariant (I := fun s : PortWorld W => (∀ i, s.Tracked i) ∧ s.Roused ∧ ∀ i, s.Marked i) hb.inv
    ?_ h
  rintro m a m' ⟨ht, hr, hm⟩ hs
  have hstep := Stepped.of_step hs
  exact ⟨Tracked.step ht hstep, hr.step hstep, fun i => (hm i).step hstep⟩

omit [Wakers W] in
theorem AtRest.flag (h : s.AtRest) (hr : s.Roused) :
    s.driver.runner.irq.newPortChangeDetect = false := by
  obtain ⟨-, -, hpending, hpoll, hwoken⟩ := h
  by_contra hflag
  rcases hr.flag (eq_true_of_ne_false hflag) with (hw | ⟨w, hp⟩ | ⟨hp, -⟩) | ⟨w, pc, hp, -⟩
  · rw [hwoken] at hw
    cases hw
  · rw [hpoll] at hp
    cases hp
  · rw [hpending] at hp
    cases hp
  · rw [hpoll] at hp
    cases hp

/-! ## A run -/

def examplePoll (n : Nat) : List (PortLabel TaskWaker) :=
  .startPoll ⟨0⟩ :: List.replicate n (.tick ⟨0⟩ false .zero)

/-- A client waits on port 0 until it is suspended. -/
def exampleWait : List (PortLabel TaskWaker) :=
  [.waitUntilConnected 0, .pollWaiter 0 ⟨1⟩, .waiterTick 0, .waiterTick 0]

/-- A device is connected: the interrupt, the runner and the waiter follow. -/
def exampleConnect : List (PortLabel TaskWaker) :=
  .port 0 ⟨3⟩ :: .detect :: .irq :: examplePoll 13 ++ [.pollWaiter 0 ⟨1⟩, .waiterTick 0, .waiterTick 0]

/-- The device is removed, and connected again while a client waits. -/
def exampleReconnect : List (PortLabel TaskWaker) := .port 0 ⟨2⟩ :: exampleWait ++ [.port 0 ⟨3⟩]

/-- A driver of a controller with one root port, with nothing connected. -/
def example₀ : PortWorld TaskWaker :=
  ⟨DriverWorld.exampleDriver, fun _ => ⟨0⟩, .zero, false, false, none, fun _ => .none, fun _ => false,
    fun _ => 0⟩

theorem example₀_begun : example₀.Begun :=
  ⟨DriverWorld.started_start .., rfl, fun _ => rfl, fun _ => rfl, fun _ => rfl⟩

instance {W : Type} (s : PortWorld W) : Decidable s.AtRest :=
  decidable_of_iff (s.owed = false ∧ s.usbSts.get .portChangeDetect = false ∧
    s.driver.runner.pending = true ∧ s.poll.isNone = true ∧ s.runnerWoken = false)
    (by simp [AtRest, Option.isNone_iff_eq_none])

end PortWorld

/-- **No announced connection is missed**: after any run, with no change being announced and the runner
asleep, a waiter that sleeps on a connected port is one whose port connected silently, with its connect
status change bit set. -/
theorem silent_of_exec {W : Type} [Wakers W] {s₀ s : PortWorld W} {oc : OverflowChecks}
    {tr : List (PortLabel W)} (hb : s₀.Begun) (h : exec (PortWorld.step oc) s₀ tr = some s)
    (hr : s.AtRest) {i : Nat} (hw : (s.waiters i).Asleep)
    (hc : (s.ports i).currentConnectStatus = true) :
    s.silent i = true ∧ (s.ports i).change .connectStatusChange = true := by
  obtain ⟨htracked, hroused, hmarked⟩ := PortWorld.inv_of_exec hb h
  suffices hs : s.silent i = true from ⟨hs, hmarked i hs⟩
  have hflag := hr.flag hroused
  obtain ⟨howed, hsts, -, hpoll, -⟩ := hr
  cases (htracked i).covered hw.inWait with
  | silent hs => exact hs
  | disconnected hd =>
    rw [hc] at hd
    cases hd
  | signaled hs =>
    -- the waiter's waker is in the signal, so that is not set
    cases hx : s.waiters i with
    | pending w b =>
      rw [hx] at hw
      cases b with
      | true => cases hw
      | false =>
        obtain ⟨w', hwait, -⟩ := (htracked i).asleep w hx
        rw [hwait] at hs
        cases hs
    | none | new | read | wait =>
      rw [hx] at hw
      cases hw
  | coming hcoming =>
    rcases hcoming with (ho | hget | hset) | ⟨w, pc, hp, -⟩
    · rw [howed] at ho
      cases ho
    · rw [hsts] at hget
      cases hget
    · rw [hflag] at hset
      cases hset
    · rw [hpoll] at hp
      cases hp

/-- A client sees the first connection of its port; it sleeps through the second one. -/
theorem silent_of_exec_reconnect :
    ∃ s : PortWorld TaskWaker, exec (PortWorld.step .on) PortWorld.example₀
        (PortWorld.examplePoll 11 ++ PortWorld.exampleWait ++ PortWorld.exampleConnect ++
          PortWorld.exampleReconnect) = some s ∧
      (s.waiters 0).Asleep ∧ (s.ports 0).currentConnectStatus = true ∧ s.silent 0 = true := by
  obtain ⟨s, hs, hr, hw, hc⟩ := exec_witness (PortWorld.step .on) PortWorld.example₀
    (PortWorld.examplePoll 11 ++ PortWorld.exampleWait ++ PortWorld.exampleConnect ++
      PortWorld.exampleReconnect)
    (fun s => s.AtRest ∧ (s.waiters 0).Asleep ∧ (s.ports 0).currentConnectStatus = true)
    (by decide +kernel)
  exact ⟨s, hs, hw, hc, (silent_of_exec PortWorld.example₀_begun hs hr hw hc).1⟩

/-- **A port announces each kind of change once**: no step of the driver clears a change bit, so in a run
of any length a port announces at most as many changes as it has change bits that are not set. -/
theorem announced_le_of_exec {W : Type} [Wakers W] {s₀ s : PortWorld W} {oc : OverflowChecks}
    {tr : List (PortLabel W)} (h : exec (PortWorld.step oc) s₀ tr = some s) (i : Nat) :
    (∀ b, (s₀.ports i).change b = true → (s.ports i).change b = true) ∧
      s.announced i + (s.ports i).unset ≤ s₀.announced i + (s₀.ports i).unset ∧
      s.announced i ≤ s₀.announced i + 3 := by
  obtain ⟨hchange, hannounced⟩ := PortWorld.sticky_of_exec h i
  refine ⟨hchange, hannounced, ?_⟩
  have hunset := (s₀.ports i).unset_le
  omega

/-- Two connections and a removal, of which one is announced. -/
theorem announced_le_of_exec_reconnect :
    ∃ s : PortWorld TaskWaker, exec (PortWorld.step .on) PortWorld.example₀
        (PortWorld.examplePoll 11 ++ PortWorld.exampleWait ++ PortWorld.exampleConnect ++
          PortWorld.exampleReconnect) = some s ∧
      s.announced 0 = 1 ∧ s.announced 0 + (s.ports 0).unset ≤ 3 := by
  obtain ⟨s, hs, ha⟩ := exec_witness (PortWorld.step .on) PortWorld.example₀
    (PortWorld.examplePoll 11 ++ PortWorld.exampleWait ++ PortWorld.exampleConnect ++
      PortWorld.exampleReconnect)
    (fun s => s.announced 0 = 1) (by decide +kernel)
  exact ⟨s, hs, ha, (announced_le_of_exec hs 0).2.1⟩

end EzEhci
