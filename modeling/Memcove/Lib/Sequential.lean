import Memcove.Lib.Interleaving

/-!
# Programs that run alone

A program that no other one interrupts goes from stores to stores. Its complete runs are given
inductively. A contract that knows the stores makes the program logic of contracts a logic of
complete runs: what a program is shown to establish under it holds of the stores in which the
program ends.
-/

namespace Programs

variable {C : Type} {A : C → Type} {E S α : Type}

/-- The complete runs of a program that runs alone: the stores before it, the program, its result,
and the stores after it. -/
inductive Completes (M : Machine C A E S) : S → Program C A E α → Except E α → S → Prop
  | pure {s a} : Completes M s (.pure a) (.ok a) s
  | raise {s e} : Completes M s (.raise e) (.error e) s
  | call {s c k r result t} : M.possible s ⟨c, r⟩ →
      Completes M (M.effect s ⟨c, r⟩) (k r) result t → Completes M s (.call c k) result t

/-- The stores after the calls of one program, newest first. -/
def Machine.run (M : Machine C A E S) (s : S) (h : List (Event C A E)) : S :=
  h.foldr (fun event t => M.effect t event) s

/-- The contract of a program that runs alone from the stores `s`: every answer is one that the
stores permit after the program's own calls. -/
def alone (M : Machine C A E S) (s : S) : Contract C A E where
  guarantee _ _ := True
  assume h event := M.possible (M.run s h) event

variable {M : Machine C A E S} {s : S} {p : Program C A E α} {Q R : S → Except E α → Prop}

/-- What a program establishes alone holds when a complete run of it ends. -/
theorem Completes.sat {Ψ : List (Event C A E) → Except E α → Prop} {h : List (Event C A E)}
    {r : Except E α} {t : S} (hrun : Completes M (M.run s h) p r t)
    (hp : Sat (alone M s) Ψ h p) : ∃ h', M.run s h' = t ∧ Ψ h' r := by
  induction p generalizing h with
  | pure a =>
    cases hrun
    exact ⟨h, rfl, hp⟩
  | raise e =>
    cases hrun
    exact ⟨h, rfl, hp⟩
  | call c k ih =>
    cases hrun with
    | call hpossible hrest => exact ih _ (h := ⟨c, _⟩ :: h) hrest (hp.2 _ hpossible)

/-- A program that raises ends whatever follows it. -/
theorem Completes.bind_error {β : Type} {e : E} {t : S} {f : α → Program C A E β}
    (hp : Completes M s p (.error e) t) : Completes M s (p >>= f) (.error e) t := by
  change Completes M s (p.bind f) (.error e) t
  induction p generalizing s with
  | pure a => cases hp
  | raise e' =>
    cases hp
    exact .raise
  | call c k ih =>
    cases hp with
    | call hpossible hrest => exact .call hpossible (ih _ hrest)

/-- Alone from the stores `s` the program ends in stores and with a result that satisfy `Q`,
whatever has led to `s`. -/
def EndsIn (M : Machine C A E S) (s : S) (p : Program C A E α) (Q : S → Except E α → Prop) :
    Prop :=
  ∀ s₀ h, M.run s₀ h = s → Sat (alone M s₀) (fun h' r => Q (M.run s₀ h') r) h p

/-- A complete run ends as was shown. -/
theorem EndsIn.completes {r : Except E α} {t : S} (hp : EndsIn M s p Q)
    (hrun : Completes M s p r t) : Q t r := by
  obtain ⟨h, rfl, hq⟩ := Completes.sat (h := []) hrun (hp s [] rfl)
  exact hq

/-- A weaker postcondition. -/
theorem EndsIn.mono (hp : EndsIn M s p Q) (himp : ∀ t r, Q t r → R t r) : EndsIn M s p R :=
  fun s₀ h hs => (hp s₀ h hs).mono (fun _ r => himp _ r)

/-- Two postconditions. -/
theorem EndsIn.and (hp : EndsIn M s p Q) (hp' : EndsIn M s p R) :
    EndsIn M s p (fun t r => Q t r ∧ R t r) :=
  fun s₀ h hs => (hp s₀ h hs).and (hp' s₀ h hs)

/-- The rule for a program that returns. -/
theorem EndsIn.pure {a : α} (hq : Q s (.ok a)) : EndsIn M s (.pure a) Q := by
  rintro s₀ h rfl
  exact hq

/-- The rule for a program that raises. -/
theorem EndsIn.raise {e : E} (hq : Q s (.error e)) : EndsIn M s (.raise e) Q := by
  rintro s₀ h rfl
  exact hq

/-- The rule for one program after the other. -/
theorem EndsIn.bind {β : Type} {Φ : S → Except E β → Prop} {f : α → Program C A E β}
    (hp : EndsIn M s p Q) (hok : ∀ t a, Q t (.ok a) → EndsIn M t (f a) Φ)
    (herror : ∀ t e, Q t (.error e) → Φ t (.error e)) : EndsIn M s (p >>= f) Φ :=
  fun s₀ h hs => (hp s₀ h hs).bind (fun h' a hq => hok _ a hq s₀ h' rfl)
    (fun _ e => herror _ e)

/-- The rule for `try … except`. -/
theorem EndsIn.tryCatch {g : E → Program C A E α} (hp : EndsIn M s p Q)
    (hok : ∀ t a, Q t (.ok a) → R t (.ok a))
    (herror : ∀ t e, Q t (.error e) → EndsIn M t (g e) R) : EndsIn M s (p.tryCatch g) R :=
  fun s₀ h hs => (hp s₀ h hs).tryCatch (fun _ a => hok _ a)
    (fun h' e hq => herror _ e hq s₀ h' rfl)

/-- The rule for one call. -/
theorem EndsIn.perform {c : C} {Φ : S → Except E (A c) → Prop}
    (hr : ∀ r, M.possible s ⟨c, r⟩ → Φ (M.effect s ⟨c, r⟩) r) :
    EndsIn M s (Program.perform c) Φ := by
  rintro s₀ h rfl
  exact Sat.perform trivial hr

/-- The rule for one call and what follows it. -/
theorem EndsIn.perform_bind {c : C} {f : A c → Program C A E α}
    (hok : ∀ a, M.possible s ⟨c, .ok a⟩ → EndsIn M (M.effect s ⟨c, .ok a⟩) (f a) Q)
    (herror : ∀ e, M.possible s ⟨c, .error e⟩ → Q (M.effect s ⟨c, .error e⟩) (.error e)) :
    EndsIn M s (Program.perform c >>= f) Q := by
  rintro s₀ h rfl
  exact Sat.perform_bind trivial (fun a ha => hok a ha s₀ _ rfl) herror

/-- The rule for a computation without calls and what follows it. -/
theorem EndsIn.lift_bind {β : Type} {x : Except E β} {f : β → Program C A E α}
    (hok : ∀ b, x = .ok b → EndsIn M s (f b) Q) (herror : ∀ e, x = .error e → Q s (.error e)) :
    EndsIn M s (Program.lift x >>= f) Q := by
  rintro s₀ h rfl
  exact Sat.lift_bind (fun b hb => hok b hb s₀ h rfl) herror

/-- The rule for a loop that raises nothing: an invariant of the stores and of the elements still
to come. -/
theorem EndsIn.each {ι : Type} {f : ι → Program C A E PUnit} {I : List ι → S → Prop} {xs : List ι}
    (hstep : ∀ x xs t, I (x :: xs) t → EndsIn M t (f x) (fun u r => r = .ok ⟨⟩ ∧ I xs u))
    (hinit : I xs s) : EndsIn M s (Program.each f xs) (fun u r => r = .ok ⟨⟩ ∧ I [] u) := by
  rintro s₀ h rfl
  refine Sat.each (I := fun xs h => I xs (M.run s₀ h)) (fun x xs h hi => ?_)
    (fun _ hi => ⟨rfl, hi⟩) hinit
  refine (hstep x xs _ hi s₀ h rfl).mono (fun h' r hr => ?_)
  obtain ⟨rfl, hi⟩ := hr
  exact hi

/-- A program of calls without an effect leaves the stores as they are. -/
theorem Only.ends {K : C → Prop} (hp : Only K p)
    (hK : ∀ c, K c → ∀ t r, M.effect t ⟨c, r⟩ = t) : EndsIn M s p (fun t _ => t = s) := by
  rintro s₀ h rfl
  exact hp.sat (I := fun h' => M.run s₀ h' = M.run s₀ h) (fun _ _ _ _ => trivial)
    (fun _ c r hi hc => (hK c hc _ r).trans hi) rfl

/-- A program of calls that keep a property of the stores ends with it. -/
theorem Only.keeps {K : C → Prop} {I : S → Prop} (hp : Only K p)
    (hK : ∀ c, K c → ∀ t r, I t → I (M.effect t ⟨c, r⟩)) (hs : I s) :
    EndsIn M s p (fun t _ => I t) := by
  rintro s₀ h rfl
  exact hp.sat (I := fun h' => I (M.run s₀ h')) (fun _ _ _ _ => trivial)
    (fun _ c r hi hc => hK c hc _ r hi) hs

/-- What every complete run ends with. -/
theorem EndsIn.of_completes (hp : ∀ r t, Completes M s p r t → Q t r) : EndsIn M s p Q := by
  induction p generalizing s with
  | pure a => exact .pure (hp _ _ .pure)
  | raise e => exact .raise (hp _ _ .raise)
  | call c k ih =>
    rintro s₀ h rfl
    exact ⟨trivial, fun r hr => ih r (fun r' t hrun => hp r' t (.call hr hrun)) s₀ _ rfl⟩

/-- A machine with the same effects that answers the program's calls in no other way. -/
theorem Completes.of_only {M' : Machine C A E S} {K : C → Prop} (heffect : M'.effect = M.effect)
    (hpossible : ∀ c, K c → ∀ t r, M'.possible t ⟨c, r⟩ → M.possible t ⟨c, r⟩) (hp : Only K p)
    {r : Except E α} {t : S} (hrun : Completes M' s p r t) : Completes M s p r t := by
  induction hrun with
  | pure => exact .pure
  | raise => exact .raise
  | call hr _ ih => exact .call (hpossible _ hp.1 _ _ hr) (heffect ▸ ih (hp.2 _))

/-- A run of a program that starts in the stores `s` makes the call `c` in the stores `t`. -/
inductive Sends (M : Machine C A E S) : S → Program C A E α → S → C → Prop
  | now {s c k} : Sends M s (.call c k) s c
  | later {s c k r t c'} : M.possible s ⟨c, r⟩ → Sends M (M.effect s ⟨c, r⟩) (k r) t c' →
      Sends M s (.call c k) t c'

/-- A computation without calls makes none. -/
theorem not_sends_lift {x : Except E α} {t : S} {c : C} : ¬ Sends M s (Program.lift x) t c := by
  intro h
  cases x with
  | ok a => cases h
  | error e => cases h

/-- One call. -/
theorem sends_perform {c c' : C} {t : S} :
    Sends M s (Program.perform c) t c' ↔ t = s ∧ c' = c := by
  constructor
  · intro h
    cases h with
    | now => exact ⟨rfl, rfl⟩
    | later _ hrest => exact (not_sends_lift hrest).elim
  · rintro ⟨rfl, rfl⟩
    exact .now

/-- The calls of one program after the other. -/
theorem sends_bind {β : Type} {f : α → Program C A E β} {t : S} {c : C} :
    Sends M s (p >>= f) t c ↔ Sends M s p t c ∨
      ∃ u a, Completes M s p (.ok a) u ∧ Sends M u (f a) t c := by
  change Sends M s (p.bind f) t c ↔ _
  induction p generalizing s with
  | pure a =>
    constructor
    · exact fun h => Or.inr ⟨s, a, .pure, h⟩
    · rintro (h | ⟨u, a', hrun, h⟩)
      · cases h
      · cases hrun
        exact h
  | raise e =>
    constructor
    · intro h
      cases h
    · rintro (h | ⟨u, a, hrun, _⟩)
      · cases h
      · cases hrun
  | call c' k ih =>
    constructor
    · intro h
      cases h with
      | now => exact Or.inl .now
      | later hpossible hrest =>
        rcases (ih _).mp hrest with h | ⟨u, a, hrun, h⟩
        · exact Or.inl (.later hpossible h)
        · exact Or.inr ⟨u, a, .call hpossible hrun, h⟩
    · rintro (h | ⟨u, a, hrun, h⟩)
      · cases h with
        | now => exact .now
        | later hpossible hrest => exact .later hpossible ((ih _).mpr (Or.inl hrest))
      · cases hrun with
        | call hpossible hrest => exact .later hpossible ((ih _).mpr (Or.inr ⟨u, a, hrest, h⟩))

/-- Run a program alone, with the answers of a function. -/
def Program.execute (M : Machine C A E S) (answer : S → (c : C) → Except E (A c)) :
    S → Program C A E α → Except E α × S
  | s, .pure a => (.ok a, s)
  | s, .raise e => (.error e, s)
  | s, .call c k => execute M answer (M.effect s ⟨c, answer s c⟩) (k (answer s c))

section

variable {answer : S → (c : C) → Except E (A c)}

/-- The execution of what follows a program that returns. -/
theorem Program.execute_bind_ok {β : Type} {f : α → Program C A E β} {a : α} {t : S}
    (hp : p.execute M answer s = (.ok a, t)) :
    (p >>= f).execute M answer s = (f a).execute M answer t := by
  change (p.bind f).execute M answer s = _
  induction p generalizing s with
  | pure a' =>
    cases hp
    rfl
  | raise e => cases hp
  | call c k ih => exact ih _ hp

/-- A program that raises ends the execution. -/
theorem Program.execute_bind_error {β : Type} {f : α → Program C A E β} {e : E} {t : S}
    (hp : p.execute M answer s = (.error e, t)) :
    (p >>= f).execute M answer s = (.error e, t) := by
  change (p.bind f).execute M answer s = _
  induction p generalizing s with
  | pure a => cases hp
  | raise e' =>
    cases hp
    rfl
  | call c k ih => exact ih _ hp

/-- `try … except` around a program that returns. -/
theorem Program.execute_tryCatch_ok {g : E → Program C A E α} {a : α} {t : S}
    (hp : p.execute M answer s = (.ok a, t)) :
    (p.tryCatch g).execute M answer s = (.ok a, t) := by
  induction p generalizing s with
  | pure a' => exact hp
  | raise e => cases hp
  | call c k ih => exact ih _ hp

/-- The handler of `try … except` goes on where the program has raised. -/
theorem Program.execute_tryCatch_error {g : E → Program C A E α} {e : E} {t : S}
    (hp : p.execute M answer s = (.error e, t)) :
    (p.tryCatch g).execute M answer s = (g e).execute M answer t := by
  induction p generalizing s with
  | pure a => cases hp
  | raise e' =>
    cases hp
    rfl
  | call c k ih => exact ih _ hp

/-- The execution of one call. -/
theorem Program.execute_perform (c : C) :
    (Program.perform c).execute M answer s = (answer s c, M.effect s ⟨c, answer s c⟩) := by
  have hlift (x : Except E (A c)) (t : S) : (Program.lift x).execute M answer t = (x, t) := by
    cases x with
    | ok a => rfl
    | error e => rfl
  exact hlift _ _

end

/-- What is executed is a complete run, when the answers used are possible. -/
theorem Program.execute_completes {answer : S → (c : C) → Except E (A c)}
    (hanswer : ∀ t c, M.possible t ⟨c, answer t c⟩) :
    Completes M s p (p.execute M answer s).1 (p.execute M answer s).2 := by
  induction p generalizing s with
  | pure a => exact .pure
  | raise e => exact .raise
  | call c k ih => exact .call (hanswer s c) (ih _)

end Programs
