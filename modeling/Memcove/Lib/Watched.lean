import Memcove.Lib.Sequential

/-!
# Programs that are watched

A program runs alone, but others look at the stores between its calls. What holds at every such
moment, also when the program is given up in the middle, follows from one rule for each way to
build a program.
-/

namespace Programs

variable {C : Type} {A : C → Type} {E S α : Type}

/-- The contract of a program that runs alone from the stores `s` and is watched: the stores
satisfy `P` whenever the program makes a call. -/
def watched (M : Machine C A E S) (P : S → Prop) (s : S) : Contract C A E where
  guarantee h _ := P (M.run s h)
  assume h event := M.possible (M.run s h) event

/-- From the stores `s` the program makes all its calls in stores that satisfy `P`, and ends in
stores and with a result that satisfy `Q`. -/
def Throughout (M : Machine C A E S) (P : S → Prop) (s : S) (p : Program C A E α)
    (Q : S → Except E α → Prop) : Prop :=
  ∀ s₀ h, M.run s₀ h = s → Sat (watched M P s₀) (fun h' r => Q (M.run s₀ h') r) h p

variable {M : Machine C A E S} {s : S} {p : Program C A E α} {P : S → Prop}
  {Q : S → Except E α → Prop}

/-- The rule for a program that returns. -/
theorem Throughout.pure {a : α} (hq : Q s (.ok a)) : Throughout M P s (.pure a) Q := by
  rintro s₀ h rfl
  exact hq

/-- The rule for a program that raises. -/
theorem Throughout.raise {e : E} (hq : Q s (.error e)) : Throughout M P s (.raise e) Q := by
  rintro s₀ h rfl
  exact hq

/-- The rule for one program after the other. -/
theorem Throughout.bind {β : Type} {Φ : S → Except E β → Prop} {f : α → Program C A E β}
    (hp : Throughout M P s p Q) (hok : ∀ t a, Q t (.ok a) → Throughout M P t (f a) Φ)
    (herror : ∀ t e, Q t (.error e) → Φ t (.error e)) : Throughout M P s (p >>= f) Φ :=
  fun s₀ h hs => (hp s₀ h hs).bind (fun h' a hq => hok _ a hq s₀ h' rfl)
    (fun _ e => herror _ e)

/-- The rule for one call. -/
theorem Throughout.perform {c : C} {Φ : S → Except E (A c) → Prop} (hs : P s)
    (hr : ∀ r, M.possible s ⟨c, r⟩ → Φ (M.effect s ⟨c, r⟩) r) :
    Throughout M P s (Program.perform c) Φ := by
  rintro s₀ h rfl
  exact Sat.perform hs hr

/-- The rule for one call and what follows it. -/
theorem Throughout.perform_bind {c : C} {f : A c → Program C A E α} (hs : P s)
    (hok : ∀ a, M.possible s ⟨c, .ok a⟩ → Throughout M P (M.effect s ⟨c, .ok a⟩) (f a) Q)
    (herror : ∀ e, M.possible s ⟨c, .error e⟩ → Q (M.effect s ⟨c, .error e⟩) (.error e)) :
    Throughout M P s (Program.perform c >>= f) Q := by
  rintro s₀ h rfl
  exact Sat.perform_bind hs (fun a ha => hok a ha s₀ _ rfl) herror

/-- The rule for a computation without calls and what follows it. -/
theorem Throughout.lift_bind {β : Type} {x : Except E β} {f : β → Program C A E α}
    (hok : ∀ b, x = .ok b → Throughout M P s (f b) Q)
    (herror : ∀ e, x = .error e → Q s (.error e)) :
    Throughout M P s (Program.lift x >>= f) Q := by
  rintro s₀ h rfl
  exact Sat.lift_bind (fun b hb => hok b hb s₀ h rfl) herror

/-- The log of the only program of a run is its history. -/
theorem history_only (log : Log C A E Unit) : history () log = log.map (·.2) := by
  rw [history, List.filter_eq_self.mpr]
  simp

/-- The stores after the log of the only program. -/
theorem Machine.run_history (M : Machine C A E S) (s : S) (log : Log C A E Unit) :
    M.run s (history () log) = M.after s log := by
  rw [history_only, Machine.run, List.foldr_map]
  rfl

/-- At every moment of a run the stores satisfy `P`; where the program has ended they also satisfy
what it was shown to establish. -/
theorem Throughout.at_every_moment {p : Program C A E Unit} {Q : S → Except E Unit → Prop}
    (hp : Throughout M P s p Q) (hend : ∀ t r, Q t r → P t) {log : Log C A E Unit}
    {threads : Unit → Program C A E Unit} (hrun : Run M (fun _ => p) s log threads) :
    P (M.after s log) ∧ (∀ e, threads () = .raise e → Q (M.after s log) (.error e)) ∧
      (∀ a, threads () = .pure a → Q (M.after s log) (.ok a)) := by
  have hassume : Along (fun older entry => Along (fun older entry =>
      (watched M P s).guarantee (history entry.1 older) entry.2.call) older →
        (watched M P s).assume (history entry.1 older) entry.2) log :=
    hrun.possible.imp (fun older entry hpossible _ => by
      change M.possible (M.run s (history () older)) entry.2
      rw [M.run_history]
      exact hpossible.1)
  have hsat := (hrun.sat (K := fun _ => watched M P s)
    (Ψ := fun _ h r => Q (M.run s h) r) (fun _ => hp s [] rfl) hassume).1 ()
  rw [← M.run_history]
  cases hthread : threads () with
  | pure a =>
    rw [hthread] at hsat
    refine ⟨hend _ _ hsat, ?_, ?_⟩
    · rintro _ ⟨⟩
    · rintro _ ⟨⟩
      exact hsat
  | raise e =>
    rw [hthread] at hsat
    refine ⟨hend _ _ hsat, ?_, ?_⟩
    · rintro _ ⟨⟩
      exact hsat
    · rintro _ ⟨⟩
  | call c k =>
    rw [hthread] at hsat
    refine ⟨hsat.1, ?_, ?_⟩ <;> rintro _ ⟨⟩

/-- A program that has ended. -/
def Program.ended : Except E α → Program C A E α
  | .ok a => .pure a
  | .error e => .raise e

/-- A complete run is a run. -/
theorem Completes.run_from {start : Unit → Program C A E Unit} {s₀ t : S}
    {p : Program C A E Unit} {r : Except E Unit} {log : Log C A E Unit}
    {threads : Unit → Program C A E Unit} (hrun : Run M start s₀ log threads)
    (hthread : threads () = p) (hp : Completes M (M.after s₀ log) p r t) :
    ∃ log' threads', Run M start s₀ log' threads' ∧ threads' () = .ended r ∧
      M.after s₀ log' = t := by
  induction p generalizing log threads with
  | pure a =>
    cases hp
    exact ⟨log, threads, hrun, hthread, rfl⟩
  | raise e =>
    cases hp
    exact ⟨log, threads, hrun, hthread, rfl⟩
  | call c k ih =>
    cases hp with
    | call hpossible hrest =>
      exact ih _ (hrun.call hthread hpossible) (Function.update_self _ _ _) hrest

/-- A complete run of the only program is a run. -/
theorem Completes.run {p : Program C A E Unit} {r : Except E Unit} {t : S}
    (hp : Completes M s p r t) : ∃ log threads, Run M (fun _ : Unit => p) s log threads ∧
      threads () = .ended r ∧ M.after s log = t := hp.run_from .start rfl

end Programs
