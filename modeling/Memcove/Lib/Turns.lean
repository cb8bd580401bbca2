import Memcove.Lib.Sequential

/-!
# Programs that take turns

Some programs of a run share a part of the stores that the other programs leave alone. When no two
of them overlap, each starts from the part that the one before it has left, and what it does to the
part follows from its own calls as if it ran alone on a machine for the part. The programs that
begin while an earlier one has stopped for good may follow it as well.
-/

namespace Programs

variable {C : Type} {A : C → Type} {E S V ι : Type}

section

variable [DecidableEq ι] (shares : ι → Prop) [DecidablePred shares]

/-- The sharing programs that have made calls, the last one to begin first. -/
def turns : Log C A E ι → List ι
  | [] => []
  | (i, _) :: older => if shares i ∧ i ∉ turns older then i :: turns older else turns older

/-- A sharing program goes on only as long as no other one has begun after it. -/
def TakeTurns (log : Log C A E ι) : Prop :=
  Along (fun older entry => shares entry.1 → entry.1 ∈ turns shares older →
    (turns shares older).head? = some entry.1) log

instance instDecidableTakeTurns (log : Log C A E ι) : Decidable (TakeTurns shares log) :=
  inferInstanceAs (Decidable (Along _ log))

end

section

variable [DecidableEq ι] {shares : ι → Prop} [DecidablePred shares] {i : ι} {event : Event C A E}
  {log : Log C A E ι}

/-- A call of another program. -/
theorem turns_cons_of_not (hi : ¬ shares i) :
    turns shares ((i, event) :: log) = turns shares log := if_neg (fun h => hi h.1)

/-- The first call of a sharing program. -/
theorem turns_cons_new (hi : shares i) (hnew : i ∉ turns shares log) :
    turns shares ((i, event) :: log) = i :: turns shares log := if_pos ⟨hi, hnew⟩

/-- A later call of a sharing program. -/
theorem turns_cons_old (hold : i ∈ turns shares log) :
    turns shares ((i, event) :: log) = turns shares log := if_neg (fun h => h.2 hold)

/-- Every program has one turn. -/
theorem nodup_turns : (turns shares log).Nodup := by
  induction log with
  | nil => exact List.nodup_nil
  | cons entry log ih =>
    rw [turns]
    split
    · rename_i hi
      exact List.nodup_cons.mpr ⟨hi.2, ih⟩
    · exact ih

/-- The sharing programs have turns when they have made calls. -/
theorem mem_turns : i ∈ turns shares log ↔ shares i ∧ history i log ≠ [] := by
  induction log with
  | nil => simp [turns, history]
  | cons entry log ih =>
    obtain ⟨j, event⟩ := entry
    by_cases hj : j = i
    · subst hj
      rw [history_cons_self]
      by_cases hshares : shares j
      · by_cases hold : j ∈ turns shares log
        · simp [turns_cons_old hold, hold, hshares]
        · simp [turns_cons_new hshares hold, hshares]
      · simp [turns_cons_of_not hshares, ih, hshares]
    · rw [history_cons_of_ne hj, ← ih, turns]
      split
      · simp [Ne.symm hj]
      · rfl

end

/-- Programs act one after the other, the last one given first: from the part of the stores before
them to the one after them. -/
inductive InTurn (act : ι → V → V → Prop) (v₀ : V) : List ι → V → Prop
  | nil : InTurn act v₀ [] v₀
  | cons {i order v v'} : InTurn act v₀ order v → act i v v' → InTurn act v₀ (i :: order) v'

/-- Programs that act in more ways. -/
theorem InTurn.mono {act act' : ι → V → V → Prop} {v₀ v : V} {order : List ι}
    (h : InTurn act v₀ order v) (himp : ∀ i ∈ order, ∀ v v', act i v v' → act' i v v') :
    InTurn act' v₀ order v := by
  induction h with
  | nil => exact .nil
  | cons _ hact ih =>
    exact .cons (ih (fun i hi => himp i (List.mem_cons_of_mem _ hi)))
      (himp _ List.mem_cons_self _ _ hact)

/-- The view of the stores after a log is kept by the machine `N` for the sharing programs: their
calls are answered and have effects as on `N`, and the calls of the others leave it alone. -/
def Tracks (N : Machine C A E V) (shares : ι → Prop) (view : Log C A E ι → V)
    (log : Log C A E ι) : Prop :=
  Along (fun older entry => (shares entry.1 → N.possible (view older) entry.2 ∧
    view (entry :: older) = N.effect (view older) entry.2) ∧
    (¬ shares entry.1 → view (entry :: older) = view older)) log

section

variable [DecidableEq ι] {M : Machine C A E S} {start threads : ι → Program C A E Unit} {s : S}
  {log : Log C A E ι}

/-- A program that has made no call is where it started. -/
theorem Run.untouched (hrun : Run M start s log threads) {i : ι} (hi : history i log = []) :
    threads i = start i := by
  induction hrun with
  | start => rfl
  | @call log threads j c k r _ _ _ ih =>
    by_cases hj : j = i
    · subst hj
      rw [history_cons_self] at hi
      cases hi
    · rw [history_cons_of_ne hj] at hi
      rw [Function.update_of_ne (Ne.symm hj)]
      exact ih hi

/-- What a program has done in its turn so far: it has taken the part of the stores to what its
calls make of it, and what is left of it satisfies what it was shown to establish alone. -/
def Turn (N : Machine C A E V) (Ψ : ι → V → List (Event C A E) → Except E Unit → Prop)
    (log : Log C A E ι) (threads : ι → Program C A E Unit) (i : ι) (v v' : V) : Prop :=
  v' = N.run v (history i log) ∧ Sat (alone N v) (Ψ i v) (history i log) (threads i)

variable {N : Machine C A E V} {Ψ : ι → V → List (Event C A E) → Except E Unit → Prop} {i : ι}
  {c : C} {k : Except E (A c) → Program C A E Unit} {r : Except E (A c)}

/-- A call of another program is no part of a turn. -/
theorem Turn.other {j : ι} (hj : i ≠ j) {v v' : V} (h : Turn N Ψ log threads j v v') :
    Turn N Ψ ((i, ⟨c, r⟩) :: log) (Function.update threads i (k r)) j v v' := by
  rw [Turn, history_cons_of_ne hj, Function.update_of_ne (Ne.symm hj)]
  exact h

/-- One more call in a turn. -/
theorem Turn.call {v u : V} (hcall : threads i = .call c k) (hpossible : N.possible u ⟨c, r⟩)
    (h : Turn N Ψ log threads i v u) :
    Turn N Ψ ((i, ⟨c, r⟩) :: log) (Function.update threads i (k r)) i v
      (N.effect u ⟨c, r⟩) := by
  obtain ⟨rfl, hsat⟩ := h
  rw [hcall] at hsat
  rw [Turn, history_cons_self, Function.update_self]
  exact ⟨rfl, hsat.2 r hpossible⟩

/-- Sharing programs that take turns act on their part of the stores one after the other, each as
if it were alone. -/
theorem Run.inTurn {shares : ι → Prop} [DecidablePred shares] {view : Log C A E ι → V}
    (hsat : ∀ i, shares i → ∀ v, Sat (alone N v) (Ψ i v) [] (start i))
    (hrun : Run M start s log threads) (htracks : Tracks N shares view log)
    (hturns : TakeTurns shares log) :
    InTurn (Turn N Ψ log threads) (view []) (turns shares log) (view log) := by
  induction hrun with
  | start => exact .nil
  | @call log threads i c k r hrun hcall _ ih =>
    obtain ⟨⟨hown, hother⟩, htracks⟩ := htracks
    obtain ⟨hnext, hturns⟩ := hturns
    have hbefore := ih htracks hturns
    have hsame (order : List ι) (hi : i ∉ order) (v : V)
        (h : InTurn (Turn N Ψ log threads) (view []) order v) :
        InTurn (Turn N Ψ ((i, ⟨c, r⟩) :: log) (Function.update threads i (k r))) (view [])
          order v :=
      h.mono (fun j hj _ _ hact => hact.other (by rintro rfl; exact hi hj))
    by_cases hi : shares i
    · obtain ⟨hpossible, hview⟩ := hown hi
      rw [hview]
      by_cases hold : i ∈ turns shares log
      · rw [turns_cons_old hold]
        have hhead := hnext hi hold
        have hnodup : (turns shares log).Nodup := nodup_turns
        cases hturn : turns shares log with
        | nil =>
          rw [hturn] at hold
          cases hold
        | cons j order =>
          rw [hturn] at hhead hbefore hnodup
          cases hhead
          cases hbefore with
          | cons hrest hact =>
            exact .cons (hsame _ (List.nodup_cons.mp hnodup).1 _ hrest)
              (hact.call hcall hpossible)
      · rw [turns_cons_new hi hold]
        have hhistory : history i log = [] := by
          by_contra h
          exact hold (mem_turns.mpr ⟨hi, h⟩)
        have hbegun : Turn N Ψ log threads i (view log) (view log) := by
          rw [Turn, hhistory, hrun.untouched hhistory]
          exact ⟨rfl, hsat i hi _⟩
        exact .cons (hsame _ hold _ hbefore) (hbegun.call hcall hpossible)
    · rw [turns_cons_of_not hi, hother hi]
      exact hsame _ (fun hmem => hi (mem_turns.mp hmem).1) _ hbefore

end

end Programs
