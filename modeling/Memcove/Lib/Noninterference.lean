import Memcove.Lib.Interleaving

/-!
# Runs without the others

When some of the programs of a run leave a view of the stores alone, and the others get their
answers and make their changes within that view, then the others run as they would on their own.
A run is purged by dropping the entries of the first programs from its log. The two conditions on
the calls are the unwinding conditions; what they give for a whole run is `Run.purge`. A program
may also be carried over to a machine with more calls, and its contract with it.
-/

namespace Programs

variable {C : Type} {A : C → Type} {E S ι α : Type}

/-- Two stores that look the same stay so under calls of the two kinds: a foreign call changes
nothing that is looked at, and an own call gets its answers, and does what it does, in both. -/
structure Unwinding (M : Machine C A E S) (Same : S → S → Prop) (Own Foreign : C → Prop) :
    Prop where
  foreign : ∀ {s t : S} {event : Event C A E}, Same s t → M.possible s event →
    Foreign event.call → Same (M.effect s event) t
  own : ∀ {s t : S} {event : Event C A E}, Same s t → M.possible s event → Own event.call →
    M.possible t event ∧ Same (M.effect s event) (M.effect t event)

/-- The programs that are kept; the others have nothing to do. -/
def purged (keep : ι → Prop) [DecidablePred keep] (threads : ι → Program C A E Unit) :
    ι → Program C A E Unit :=
  fun i => if keep i then threads i else .pure ()

/-- The entries of the programs that are kept. -/
def Log.purged (keep : ι → Prop) [DecidablePred keep] (log : Log C A E ι) : Log C A E ι :=
  log.filter (fun entry => decide (keep entry.1))

section

variable {keep : ι → Prop} [DecidablePred keep]

/-- A program that is kept. -/
theorem purged_of_keep {threads : ι → Program C A E Unit} {i : ι} (hi : keep i) :
    purged keep threads i = threads i := if_pos hi

/-- An entry of a program that is kept. -/
theorem Log.purged_cons_of_keep {i : ι} (hi : keep i) (event : Event C A E)
    (log : Log C A E ι) : Log.purged keep ((i, event) :: log) = (i, event) :: log.purged keep := by
  simp [Log.purged, hi]

/-- An entry of another program. -/
theorem Log.purged_cons_of_not {i : ι} (hi : ¬ keep i) (event : Event C A E)
    (log : Log C A E ι) : Log.purged keep ((i, event) :: log) = log.purged keep := by
  simp [Log.purged, hi]

variable [DecidableEq ι] {M : Machine C A E S} {Same : S → S → Prop} {Own Foreign : C → Prop}
  {start threads : ι → Program C A E Unit} {s t : S} {log : Log C A E ι}

/-- A step of a program that is kept. -/
theorem purged_update_of_keep {i : ι} (hi : keep i) (p : Program C A E Unit) :
    purged keep (Function.update threads i p) = Function.update (purged keep threads) i p := by
  funext j
  by_cases hj : j = i
  · subst hj
    simp [purged, hi]
  · simp [purged, hj]

/-- A step of another program. -/
theorem purged_update_of_not {i : ι} (hi : ¬ keep i) (p : Program C A E Unit) :
    purged keep (Function.update threads i p) = purged keep threads := by
  funext j
  by_cases hj : j = i
  · subst hj
    simp [purged, hi]
  · simp [purged, hj]

/-- A purged run is a run: of the programs that are kept, from stores that look the same, to stores
that look the same, with the same calls and answers, and with the same left to do. -/
theorem Run.purge (hU : Unwinding M Same Own Foreign) (hrun : Run M start s log threads)
    (hsame : Same s t)
    (hown : ∀ entry ∈ log, keep entry.1 → Own entry.2.call)
    (hforeign : ∀ entry ∈ log, ¬ keep entry.1 → Foreign entry.2.call) :
    Run M (purged keep start) t (log.purged keep) (purged keep threads) ∧
      Same (M.after s log) (M.after t (log.purged keep)) := by
  induction hrun with
  | start => exact ⟨.start, hsame⟩
  | @call log threads i c k r hrun hcall hpossible ih =>
    obtain ⟨hrun', hsame'⟩ := ih (fun entry hentry => hown entry (List.mem_cons_of_mem _ hentry))
      (fun entry hentry => hforeign entry (List.mem_cons_of_mem _ hentry))
    by_cases hi : keep i
    · obtain ⟨hpossible', hnext⟩ := hU.own hsame' hpossible (hown _ List.mem_cons_self hi)
      rw [Log.purged_cons_of_keep hi, purged_update_of_keep hi]
      exact ⟨hrun'.call ((purged_of_keep hi).trans hcall) hpossible', hnext⟩
    · rw [Log.purged_cons_of_not hi, purged_update_of_not hi]
      exact ⟨hrun', hU.foreign hsame' hpossible (hforeign _ List.mem_cons_self hi)⟩

end

/-- Every call of the program satisfies `G`, as long as the answers satisfy `T`. -/
inductive Calls (G : C → Prop) (T : Event C A E → Prop) : Program C A E α → Prop
  | pure (a : α) : Calls G T (.pure a)
  | raise (e : E) : Calls G T (.raise e)
  | call {c : C} {k : Except E (A c) → Program C A E α} : G c → (∀ r, T ⟨c, r⟩ → Calls G T (k r)) →
      Calls G T (.call c k)

/-- The contract of such programs, which does not look at the history. -/
def steady (G : C → Prop) (T : Event C A E → Prop) : Contract C A E where
  guarantee _ c := G c
  assume _ event := T event

section

variable {β : Type} {G : C → Prop} {T : Event C A E → Prop} {p : Program C A E α}

/-- Such programs keep the contract. -/
theorem Calls.sat (hp : Calls G T p) (h : List (Event C A E)) :
    Sat (steady G T) (fun _ _ => True) h p := by
  induction hp generalizing h with
  | pure a => trivial
  | raise e => trivial
  | call hc _ ih => exact ⟨hc, fun r hr => ih r hr _⟩

/-- A program of calls of a kind, whatever the answers are. -/
theorem Only.calls (hp : Only G p) : Calls G T p := by
  induction p with
  | pure a => exact .pure a
  | raise e => exact .raise e
  | call c k ih => exact .call hp.1 (fun r _ => ih r (hp.2 r))

/-- A program that keeps a contract which does not look at the history. -/
theorem Calls.of_sat {K : Contract C A E} {Ψ : List (Event C A E) → Except E α → Prop}
    {h : List (Event C A E)} (hG : ∀ h c, K.guarantee h c → G c)
    (hT : ∀ h event, T event → K.assume h event) (hp : Sat K Ψ h p) : Calls G T p := by
  induction p generalizing h with
  | pure a => exact .pure a
  | raise e => exact .raise e
  | call c k ih => exact .call (hG h c hp.1) (fun r hr => ih r (hp.2 r (hT h _ hr)))

/-- The first one of two programs. -/
theorem Calls.left {f : α → Program C A E β} (hp : Calls G T (p >>= f)) : Calls G T p := by
  change Calls G T (p.bind f) at hp
  induction p with
  | pure a => exact .pure a
  | raise e => exact .raise e
  | call c k ih =>
    cases hp with
    | call hc hk => exact .call hc (fun r hr => ih r (hk r hr))

/-- One program after the other. -/
theorem Calls.bind {f : α → Program C A E β} (hp : Calls G T p) (hf : ∀ a, Calls G T (f a)) :
    Calls G T (p >>= f) := by
  change Calls G T (p.bind f)
  induction hp with
  | pure a => exact hf a
  | raise e => exact .raise e
  | call hc _ ih => exact .call hc ih

/-- One call, and what follows an answer that may be relied on. -/
theorem Calls.perform_bind {c : C} {f : A c → Program C A E α} (hc : G c)
    (hf : ∀ a, T ⟨c, .ok a⟩ → Calls G T (f a)) : Calls G T (Program.perform c >>= f) := by
  refine .call hc (fun r hr => ?_)
  cases r with
  | ok a => exact hf a hr
  | error e => exact .raise e

/-- A computation without calls, and what follows its result. -/
theorem Calls.lift_bind {x : Except E β} {f : β → Program C A E α}
    (hf : ∀ b, x = .ok b → Calls G T (f b)) : Calls G T (Program.lift x >>= f) := by
  cases x with
  | ok b => exact hf b rfl
  | error e => exact .raise e

/-- `try … except`. -/
theorem Calls.tryCatch {g : E → Program C A E α} (hp : Calls G T p) (hg : ∀ e, Calls G T (g e)) :
    Calls G T (p.tryCatch g) := by
  induction hp with
  | pure a => exact .pure a
  | raise e => exact hg e
  | call hc _ ih => exact .call hc ih

/-- Calls of a wider kind. -/
theorem Calls.mono {G' : C → Prop} (hp : Calls G T p) (hG : ∀ c, G c → G' c) : Calls G' T p := by
  induction hp with
  | pure a => exact .pure a
  | raise e => exact .raise e
  | call hc _ ih => exact .call (hG _ hc) ih

/-- Along every run whose answers may be relied on, each program makes calls of its kind. -/
theorem Run.calls [DecidableEq ι] {M : Machine C A E S} {start threads : ι → Program C A E Unit}
    {s : S} {log : Log C A E ι} {G : ι → C → Prop} (hstart : ∀ i, Calls (G i) T (start i))
    (hT : ∀ t event, M.possible t event → T event) (hrun : Run M start s log threads) :
    ∀ entry ∈ log, G entry.1 entry.2.call := by
  have hkept := (hrun.sat (K := fun i => steady (G i) T) (Ψ := fun _ _ _ => True)
    (fun i => (hstart i).sat [])
    (hrun.possible.imp (fun older entry hentry _ => hT _ _ hentry.1))).2
  exact along_iff_forall.mp hkept

end

/-- How the calls of one machine appear among those of another one. -/
structure Embedding (C : Type) (A : C → Type) (C' : Type) (A' : C' → Type) where
  call : C → C'
  answer : ∀ c, A' (call c) → A c

section

variable {C' : Type} {A' : C' → Type}

/-- The program with its calls carried over. -/
def Program.embed (φ : Embedding C A C' A') : Program C A E α → Program C' A' E α
  | .pure a => .pure a
  | .raise e => .raise e
  | .call c k => .call (φ.call c) (fun r => (k (r.map (φ.answer c))).embed φ)

/-- An embedded program makes the calls that correspond to its own. -/
theorem Calls.embed {φ : Embedding C A C' A'} {G : C → Prop} {T : Event C A E → Prop}
    {G' : C' → Prop} {T' : Event C' A' E → Prop} {p : Program C A E α} (hp : Calls G T p)
    (hcall : ∀ c, G c → G' (φ.call c))
    (hanswer : ∀ c r, T' ⟨φ.call c, r⟩ → T ⟨c, r.map (φ.answer c)⟩) :
    Calls G' T' (p.embed φ) := by
  induction hp with
  | pure a => exact .pure a
  | raise e => exact .raise e
  | call hc _ ih => exact .call (hcall _ hc) (fun r hr => ih _ (hanswer _ r hr))

end

end Programs
