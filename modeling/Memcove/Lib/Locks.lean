import Memcove.Lib.Noninterference
import Memcove.Lib.Sequential
import Mathlib.Data.Nat.Notation

/-!
# Sections under a lock

Threads share a store that is guarded by one lock. What a thread asks of the guarded store it asks
between taking the lock and giving it back; its other calls go to the rest of the stores at any
time. When every section, run alone, does what one call of another machine does, then the threads
run together as they do on that machine: each section counts as one call, made when the lock is
given back.
-/

namespace Programs

variable {C : Type} {A : C → Type} {E α β γ : Type}

/-- A program and what follows it, whether it returns or raises. -/
def Program.follow : Program C A E α → (Except E α → Program C A E β) → Program C A E β
  | .pure a, f => f (.ok a)
  | .raise e, f => f (.error e)
  | .call c k, f => .call c (fun r => (k r).follow f)

/-- Three programs in a row. -/
theorem Program.follow_follow (p : Program C A E α) (f : Except E α → Program C A E β)
    (g : Except E β → Program C A E γ) :
    (p.follow f).follow g = p.follow (fun r => (f r).follow g) := by
  induction p with
  | pure a => rfl
  | raise e => rfl
  | call c k ih => exact congrArg (Program.call c) (funext ih)

/-- A computation without calls and what follows it. -/
theorem Program.lift_follow (x : Except E α) (f : Except E α → Program C A E β) :
    (Program.lift x).follow f = f x := by
  cases x with
  | ok a => rfl
  | error e => rfl

end Programs

namespace Locks

open Programs

/-- What a thread asks for: a call to the stores that need no lock, the lock and its release, both
with the name of the thread, or a request to the guarded store. -/
inductive Request (ι K C : Type) where
  | direct (c : K)
  | acquire (i : ι)
  | release (i : ι)
  | inner (c : C)

/-- The type of the value that a request returns. -/
abbrev Reply {ι K C : Type} (B : K → Type) (A : C → Type) : Request ι K C → Type
  | .direct c => B c
  | .inner c => A c
  | _ => PUnit

/-- The stores, and the lock: who holds it, and how many times over. -/
structure State (ι F G : Type) where
  free : F
  guarded : G
  holder : Option (ι × ℕ) := none

variable {ι K C E F G S α : Type} {B : K → Type} {A : C → Type}

/-- The stores and the lock as one machine. A thread that holds the lock may take it again; one
that waits for it has not been answered yet. -/
def machine (MF : Machine K B E F) (MG : Machine C A E G) :
    Machine (Request ι K C) (Reply B A) E (State ι F G) where
  possible s event :=
    match event with
    | ⟨.direct c, r⟩ => MF.possible s.free ⟨c, r⟩
    | ⟨.inner c, r⟩ => MG.possible s.guarded ⟨c, r⟩
    | ⟨.acquire i, .ok _⟩ => ∀ owner ∈ s.holder, owner.1 = i
    | ⟨.release i, .ok _⟩ => ∃ n, s.holder = some (i, n)
    | ⟨_, .error _⟩ => False
  effect s event :=
    match event with
    | ⟨.direct c, r⟩ => { s with free := MF.effect s.free ⟨c, r⟩ }
    | ⟨.inner c, r⟩ => { s with guarded := MG.effect s.guarded ⟨c, r⟩ }
    | ⟨.acquire i, _⟩ => { s with holder := some (i, (s.holder.elim 0 (·.2)) + 1) }
    | ⟨.release i, _⟩ =>
      { s with holder := s.holder.bind (fun owner =>
          if owner.2 ≤ 1 then none else some (i, owner.2 - 1)) }

/-- The requests to the guarded store. -/
def innerCalls : Embedding C A (Request ι K C) (Reply B A) where
  call := .inner
  answer _ a := a

/-- The end of a section: the lock is given back, and the result stands. -/
def unlock (i : ι) (r : Except E α) : Program (Request ι K C) (Reply B A) E α :=
  .call (.release i) (fun x =>
    match x with
    | .ok _ => Program.lift r
    | .error e => .raise e)

/-- `with lock:` around a section. -/
def locked (i : ι) (p : Program C A E α) : Program (Request ι K C) (Reply B A) E α :=
  .call (.acquire i) (fun x =>
    match x with
    | .ok _ => (p.embed innerCalls).follow (unlock i)
    | .error e => .raise e)

/-- How the calls of a machine are carried out: by sections under the lock, or by a direct call. -/
abbrev Sections (K : Type) (B : K → Type) (C : Type) (A : C → Type) (E : Type) :=
  (c : K) → Option (Program C A E (B c))

/-- One call, carried out. -/
def carryOutCall (i : ι) (sections : Sections K B C A E) (c : K) :
    Program (Request ι K C) (Reply B A) E (B c) :=
  match sections c with
  | some p => locked i p
  | none => .call (.direct c) Program.lift

/-- A program with its calls carried out. -/
def carryOut (i : ι) (sections : Sections K B C A E) :
    Program K B E α → Program (Request ι K C) (Reply B A) E α
  | .pure a => .pure a
  | .raise e => .raise e
  | .call c k => (carryOutCall i sections c).follow (fun r => carryOut i sections (k r))

/-- What a section may rely on and has to keep, when it starts in `g`: the answers of the guarded
store, and that the store is in bounds at each of its requests. -/
def within (MG : Machine C A E G) (Inside : G → G → Prop) (g : G) : Contract C A E where
  guarantee h _ := Inside g (MG.run g h)
  assume h event := MG.possible (MG.run g h) event

/-- The sections do what the calls of the machine `M` do. The stores of `M` are those that need no
lock and the guarded one, joined, when no section is open. -/
structure Atomic (M : Machine K B E S) (MF : Machine K B E F) (MG : Machine C A E G)
    (sections : Sections K B C A E) (join : F → G → S) (Idle : G → Prop)
    (Inside : G → G → Prop) : Prop where
  direct : ∀ {c : K} {r : Except E (B c)} {f : F} (g : G), sections c = none →
    MF.possible f ⟨c, r⟩ → M.possible (join f g) ⟨c, r⟩ ∧
      M.effect (join f g) ⟨c, r⟩ = join (MF.effect f ⟨c, r⟩) g
  guarded : ∀ {c : K} {p : Program C A E (B c)} {g : G}, sections c = some p → Idle g →
    Sat (within MG Inside g) (fun h r => Idle (MG.run g h) ∧ ∀ f, M.possible (join f g) ⟨c, r⟩ ∧
      M.effect (join f g) ⟨c, r⟩ = join f (MG.run g h)) [] p

section

variable {M : Machine K B E S} {MF : Machine K B E F} {MG : Machine C A E G}
  {sections : Sections K B C A E} {join : F → G → S} {Idle : G → Prop} {Inside : G → G → Prop}

variable (M MG sections join Idle Inside) in
/-- How the threads on the stores with the lock stand to those on the machine `M`: no section is
open, or one is, and its call is the next one of its thread. -/
inductive Matches : State ι F G → (ι → Program (Request ι K C) (Reply B A) E Unit) →
    S → (ι → Program K B E Unit) → Prop
  | idle {f g fine threads} : Idle g → (∀ i, fine i = carryOut i sections (threads i)) →
      Matches ⟨f, g, none⟩ fine (join f g) threads
  | busy {f g h j c k p fine threads} : Idle g → threads j = .call c k →
      Sat (within MG Inside g) (fun h r => Idle (MG.run g h) ∧ ∀ f, M.possible (join f g) ⟨c, r⟩ ∧
        M.effect (join f g) ⟨c, r⟩ = join f (MG.run g h)) h p →
      (∀ i, i ≠ j → fine i = carryOut i sections (threads i)) →
      fine j = (p.embed innerCalls).follow
        (fun r => (unlock j r).follow (fun r => carryOut j sections (k r))) →
      Matches ⟨f, MG.run g h, some (j, 1)⟩ fine (join f g) threads

/-- A call that needs no lock. -/
theorem carryOut_direct {i : ι} {c : K} {k : Except E (B c) → Program K B E α}
    (hc : sections c = none) : carryOut i sections (.call c k) =
      .call (.direct c) (fun r => carryOut i sections (k r)) := by
  rw [carryOut, carryOutCall, hc]
  exact congrArg (Program.call _) (funext fun r => Program.lift_follow r _)

/-- The end of a section and what follows it. -/
theorem unlock_follow (i : ι) (r : Except E α)
    (f : Except E α → Program (Request ι K C) (Reply B A) E β) :
    (unlock i r).follow f = .call (.release i) (fun x =>
      match x with
      | .ok _ => f r
      | .error e => f (.error e)) := by
  refine congrArg (Program.call _) (funext fun x => ?_)
  cases x with
  | ok _ => exact Program.lift_follow r f
  | error e => rfl

/-- A section and what follows it. -/
theorem carryOut_locked {i : ι} {c : K} {k : Except E (B c) → Program K B E α}
    {p : Program C A E (B c)} (hc : sections c = some p) : carryOut i sections (.call c k) =
      .call (.acquire i) (fun x =>
        match x with
        | .ok _ => (p.embed innerCalls).follow
          (fun r => (unlock i r).follow (fun r => carryOut i sections (k r)))
        | .error e => carryOut i sections (k (.error e))) := by
  rw [carryOut, carryOutCall, hc]
  refine congrArg (Program.call _) (funext fun x => ?_)
  cases x with
  | ok _ => exact Program.follow_follow _ _ _
  | error e => rfl

variable [DecidableEq ι] {s : State ι F G} {σ : S} {i : ι} {d : Request ι K C}
  {fine : ι → Program (Request ι K C) (Reply B A) E Unit} {threads : ι → Program K B E Unit}
  {k : Except E (Reply B A d) → Program (Request ι K C) (Reply B A) E Unit}
  {r : Except E (Reply B A d)}

/-- What is left of a thread when a thread that stands where it stood on `M` has gone on. -/
theorem carryOut_update {p : Program K B E Unit} {j : ι}
    (hj : j ≠ i → fine j = carryOut j sections (threads j)) :
    Function.update fine i (carryOut i sections p) j =
      carryOut j sections (Function.update threads i p j) := by
  by_cases h : j = i
  · subst h
    rw [Function.update_self, Function.update_self]
  · rw [Function.update_of_ne h, Function.update_of_ne h, hj h]

/-- One request of a thread is nothing to the machine `M`, or the next call of that thread. -/
theorem Matches.step (hatomic : Atomic M MF MG sections join Idle Inside)
    (hmatches : Matches M MG sections join Idle Inside s fine σ threads)
    (hcall : fine i = .call d k) (hpossible : (machine MF MG).possible s ⟨d, r⟩) :
    Matches M MG sections join Idle Inside ((machine MF MG).effect s ⟨d, r⟩)
        (Function.update fine i (k r)) σ threads ∨
      ∃ c k' r', threads i = .call c k' ∧ M.possible σ ⟨c, r'⟩ ∧
        Matches M MG sections join Idle Inside ((machine MF MG).effect s ⟨d, r⟩)
          (Function.update fine i (k r)) (M.effect σ ⟨c, r'⟩)
          (Function.update threads i (k' r')) := by
  cases hmatches with
  | @idle f g _ _ hidle hfine =>
    rw [hfine i] at hcall
    cases hthread : threads i with
    | pure a =>
      rw [hthread] at hcall
      cases hcall
    | raise e =>
      rw [hthread] at hcall
      cases hcall
    | call c k' =>
      rw [hthread] at hcall
      cases hsection : sections c with
      | none =>
        rw [carryOut_direct hsection] at hcall
        cases hcall
        obtain ⟨hdirect, heffect⟩ := hatomic.direct g hsection hpossible
        refine Or.inr ⟨c, k', r, rfl, hdirect, ?_⟩
        rw [heffect]
        exact .idle hidle (fun j => carryOut_update (fun _ => hfine j))
      | some p =>
        rw [carryOut_locked hsection] at hcall
        cases hcall
        left
        cases r with
        | error e => exact hpossible.elim
        | ok _ =>
          refine .busy (h := []) (p := p) hidle hthread (hatomic.guarded hsection hidle) ?_ ?_
          · intro j hj
            rw [Function.update_of_ne hj, hfine j]
          · rw [Function.update_self]
  | @busy f g h j c k' rest _ _ hidle hthread hsat hothers hholder =>
    by_cases hij : i = j
    · subst hij
      have hend {x : Except E (B c)} (hx : Idle (MG.run g h) ∧ ∀ f, M.possible (join f g) ⟨c, x⟩ ∧
            M.effect (join f g) ⟨c, x⟩ = join f (MG.run g h))
          (hcall : (unlock i x).follow (fun r => carryOut i sections (k' r)) = .call d k) :
          ∃ c k' r', threads i = .call c k' ∧ M.possible (join f g) ⟨c, r'⟩ ∧
            Matches M MG sections join Idle Inside
              ((machine MF MG).effect ⟨f, MG.run g h, some (i, 1)⟩ ⟨d, r⟩)
              (Function.update fine i (k r)) (M.effect (join f g) ⟨c, r'⟩)
              (Function.update threads i (k' r')) := by
        rw [unlock_follow] at hcall
        cases hcall
        cases r with
        | error e => exact hpossible.elim
        | ok _ =>
          refine ⟨c, k', x, hthread, (hx.2 f).1, ?_⟩
          rw [(hx.2 f).2]
          exact .idle hx.1 (fun j => carryOut_update (hothers j))
      rw [hholder] at hcall
      cases rest with
      | pure a => exact Or.inr (hend hsat hcall)
      | raise e => exact Or.inr (hend hsat hcall)
      | call c' k'' =>
        cases hcall
        refine Or.inl (.busy (h := ⟨c', r⟩ :: h) (p := k'' r) hidle hthread
          (hsat.2 r hpossible) ?_ ?_)
        · intro j hj
          rw [Function.update_of_ne hj, hothers j hj]
        · rw [Function.update_self]
          cases r <;> rfl
    · rw [hothers i hij] at hcall
      cases hnext : threads i with
      | pure a =>
        rw [hnext] at hcall
        cases hcall
      | raise e =>
        rw [hnext] at hcall
        cases hcall
      | call c' k'' =>
        rw [hnext] at hcall
        cases hsection : sections c' with
        | none =>
          rw [carryOut_direct hsection] at hcall
          cases hcall
          obtain ⟨hdirect, heffect⟩ := hatomic.direct g hsection hpossible
          refine Or.inr ⟨c', k'', r, rfl, hdirect, ?_⟩
          rw [heffect]
          refine .busy hidle ((Function.update_of_ne (Ne.symm hij) _ _).trans hthread) hsat ?_ ?_
          · exact fun l hl => carryOut_update (fun _ => hothers l hl)
          · rw [Function.update_of_ne (Ne.symm hij), hholder]
        | some p =>
          -- another thread holds the lock
          rw [carryOut_locked hsection] at hcall
          cases hcall
          cases r with
          | error e => exact hpossible.elim
          | ok _ => exact absurd (hpossible (j, 1) rfl).symm hij

/-- Threads on stores with a lock run as they do on the machine `M`: there they make the same
calls with the same answers, one for each section that has ended. -/
theorem run_atomic (hatomic : Atomic M MF MG sections join Idle Inside)
    {start : ι → Program K B E Unit} {f : F} {g : G} (hidle : Idle g)
    {log : Log (Request ι K C) (Reply B A) E ι}
    (hrun : Run (machine MF MG) (fun i => carryOut i sections (start i)) ⟨f, g, none⟩ log fine) :
    ∃ (log' : Log K B E ι) (threads : ι → Program K B E Unit),
      Run M start (join f g) log' threads ∧
        Matches M MG sections join Idle Inside ((machine MF MG).after ⟨f, g, none⟩ log) fine
          (M.after (join f g) log') threads := by
  induction hrun with
  | start => exact ⟨[], start, .start, .idle hidle (fun _ => rfl)⟩
  | call _ hcall hpossible ih =>
    obtain ⟨log', threads, hrun', hmatches⟩ := ih
    rcases hmatches.step hatomic hcall hpossible with
      hmatches' | ⟨c, k', r', hthread, hpossible', hmatches'⟩
    · exact ⟨log', threads, hrun', hmatches'⟩
    · exact ⟨_, _, hrun'.call hthread hpossible', hmatches'⟩

/-- A thread that has ended has ended on `M`, in the same way. -/
theorem Matches.ended (hmatches : Matches M MG sections join Idle Inside s fine σ threads)
    {x : Except E Unit} (hx : fine i = Program.lift x) : threads i = Program.lift x := by
  have hcarry (h : fine i = carryOut i sections (threads i)) : threads i = Program.lift x := by
    rw [hx] at h
    cases hthread : threads i with
    | pure a =>
      rw [hthread] at h
      cases x <;> cases h
      rfl
    | raise e =>
      rw [hthread] at h
      cases x <;> cases h
      rfl
    | call c k =>
      rw [hthread] at h
      cases hsection : sections c with
      | none =>
        rw [carryOut_direct hsection] at h
        cases x <;> cases h
      | some p =>
        rw [carryOut_locked hsection] at h
        cases x <;> cases h
  cases hmatches with
  | idle _ hfine => exact hcarry (hfine i)
  | @busy _ _ _ j _ _ rest _ _ _ _ _ hothers hholder =>
    by_cases hij : i = j
    · subst hij
      rw [hx] at hholder
      cases rest <;> cases x <;> cases hholder
    · exact hcarry (hothers i hij)

omit [DecidableEq ι] in
/-- While the lock is free every thread stands where it stands on `M`, and so do the stores. -/
theorem Matches.unlocked (hmatches : Matches M MG sections join Idle Inside s fine σ threads)
    (hfree : s.holder = none) : Idle s.guarded ∧ σ = join s.free s.guarded ∧
      ∀ i, fine i = carryOut i sections (threads i) := by
  cases hmatches with
  | idle hidle hfine => exact ⟨hidle, rfl, hfine⟩
  | busy => cases hfree

omit [DecidableEq ι] in
/-- At every moment the guarded store is in bounds of what it is on `M`, or it is already what the
next call of a thread makes of it there. -/
theorem Matches.guarded (hmatches : Matches M MG sections join Idle Inside s fine σ threads) :
    ∃ g, Idle g ∧ σ = join s.free g ∧ (s.guarded = g ∨ Inside g s.guarded ∨
      ∃ i c k r, threads i = .call c k ∧ M.possible σ ⟨c, r⟩ ∧
        M.effect σ ⟨c, r⟩ = join s.free s.guarded) := by
  cases hmatches with
  | @idle _ g _ _ hidle _ => exact ⟨g, hidle, rfl, Or.inl rfl⟩
  | @busy f g h j c k rest _ _ hidle hthread hsat _ _ =>
    refine ⟨g, hidle, rfl, Or.inr ?_⟩
    cases rest with
    | pure a => exact Or.inr ⟨j, c, k, .ok a, hthread, (hsat.2 f).1, (hsat.2 f).2⟩
    | raise e => exact Or.inr ⟨j, c, k, .error e, hthread, (hsat.2 f).1, (hsat.2 f).2⟩
    | call c' k' => exact Or.inl hsat.1

end

/-- A section that has started in `g`, and has come to `s`, ends in stores and with a result that
satisfy `Q`, in bounds at each of its requests. -/
def EndsWithin (MG : Machine C A E G) (Inside : G → G → Prop) (g s : G) (p : Program C A E α)
    (Q : G → Except E α → Prop) : Prop :=
  ∀ h, MG.run g h = s → Sat (within MG Inside g) (fun h' r => Q (MG.run g h') r) h p

section

variable {MG : Machine C A E G} {Inside : G → G → Prop} {g s : G} {p : Program C A E α}
  {Q R : G → Except E α → Prop}

/-- A section from its start. -/
theorem EndsWithin.sat (hp : EndsWithin MG Inside g g p Q) :
    Sat (within MG Inside g) (fun h r => Q (MG.run g h) r) [] p := hp [] rfl

/-- A weaker postcondition. -/
theorem EndsWithin.mono (hp : EndsWithin MG Inside g s p Q) (himp : ∀ t r, Q t r → R t r) :
    EndsWithin MG Inside g s p R :=
  fun h hs => (hp h hs).mono (fun _ r => himp _ r)

/-- The rule for a program that returns. -/
theorem EndsWithin.pure {a : α} (hq : Q s (.ok a)) : EndsWithin MG Inside g s (.pure a) Q := by
  rintro h rfl
  exact hq

/-- The rule for a program that raises. -/
theorem EndsWithin.raise {e : E} (hq : Q s (.error e)) :
    EndsWithin MG Inside g s (.raise e) Q := by
  rintro h rfl
  exact hq

/-- The rule for one program after the other. -/
theorem EndsWithin.bind {Φ : G → Except E β → Prop} {f : α → Program C A E β}
    (hp : EndsWithin MG Inside g s p Q)
    (hok : ∀ t a, Q t (.ok a) → EndsWithin MG Inside g t (f a) Φ)
    (herror : ∀ t e, Q t (.error e) → Φ t (.error e)) : EndsWithin MG Inside g s (p >>= f) Φ :=
  fun h hs => (hp h hs).bind (fun h' a hq => hok _ a hq h' rfl) (fun _ e => herror _ e)

/-- The rule for `try … except`. -/
theorem EndsWithin.tryCatch {f : E → Program C A E α} (hp : EndsWithin MG Inside g s p Q)
    (hok : ∀ t a, Q t (.ok a) → R t (.ok a))
    (herror : ∀ t e, Q t (.error e) → EndsWithin MG Inside g t (f e) R) :
    EndsWithin MG Inside g s (p.tryCatch f) R :=
  fun h hs => (hp h hs).tryCatch (fun _ a => hok _ a) (fun h' e hq => herror _ e hq h' rfl)

/-- The rule for one request. -/
theorem EndsWithin.perform {c : C} {Φ : G → Except E (A c) → Prop} (hinside : Inside g s)
    (hr : ∀ r, MG.possible s ⟨c, r⟩ → Φ (MG.effect s ⟨c, r⟩) r) :
    EndsWithin MG Inside g s (Program.perform c) Φ := by
  rintro h rfl
  exact Sat.perform hinside hr

end

end Locks
