import Memcove.Drift.Outcomes

/-!
# The service, one operation after the other

A transition system whose steps are complete runs of the operations, from empty stores. Its states
keep the operations that were completed so far, so that one can say which write of an object was
the last.
-/

namespace Memcove

open Programs Runs

/-- A completed operation. -/
structure Taken where
  before : Stores
  op : Operation
  faults : Faults
  result : Except PyError Unit
  after : Stores

/-- The stores, and the operations that were completed so far, newest first. -/
structure Trace where
  stores : Stores := {}
  taken : List Taken := []

variable [Python]

/-- The newest completed write of an object. -/
def Trace.lastWrite (w : Trace) (k : Key) : Option Taken :=
  w.taken.find? (fun t => decide (t.op.object = some k) && t.result.isOk)

/-- A completed write of the object is its newest one. -/
theorem Trace.lastWrite_self {u : Stores} {t : Taken} {taken : List Taken} {k : Key}
    (hobject : t.op.object = some k) (hok : t.result.isOk = true) :
    (⟨u, t :: taken⟩ : Trace).lastWrite k = some t := by
  simp [Trace.lastWrite, hobject, hok]

/-- Any other operation is no write of the object. -/
theorem Trace.lastWrite_of_not {u : Stores} {t : Taken} {w : Trace} {k : Key}
    (h : t.op.object = some k → t.result.isOk = false) :
    (⟨u, t :: w.taken⟩ : Trace).lastWrite k = w.lastWrite k := by
  unfold Trace.lastWrite
  rw [List.find?_cons_of_neg]
  simpa using h

variable [Engines] [Sqlglot] [Backend]

/-- The service, one operation after the other, from empty stores. -/
def service (settings : Settings) : System Trace (Operation × Faults) where
  init w := w = {}
  step w action w' := ∃ r u,
    Completes (serial action.2) w.stores (action.1.program settings) r u ∧
      w' = ⟨u, ⟨w.stores, action.1, action.2, r, u⟩ :: w.taken⟩

/-- A step of a producer or of a drop is one of its outcomes. -/
theorem outcome_of_step {settings : Settings} {w w' : Trace} {op : Operation} {faults : Faults}
    (hop : op.Changes) (h : (service settings).step w (op, faults) w') :
    ∃ r u, Outcome settings faults w.stores u op r ∧
      w' = ⟨u, ⟨w.stores, op, faults, r, u⟩ :: w.taken⟩ := by
  obtain ⟨r, u, hrun, hw'⟩ := h
  exact ⟨r, u, operation_outcome hop hrun, hw'⟩

/-- The rule for runs of producers and drops: what every outcome keeps holds along the run, where
one may use that objects are anchored and that tables are listed. -/
theorem reach_outcomes {settings : Settings} {P : Trace → Operation × Faults → Prop}
    {I : Trace → Prop} (hP : ∀ w action, P w action → action.1.Changes) (hinit : I {})
    (hstep : ∀ w op faults r u, (∀ k, Anchored w.stores k) → Listed w.stores.lakehouse → I w →
      P w (op, faults) → Outcome settings faults w.stores u op r →
        I ⟨u, ⟨w.stores, op, faults, r, u⟩ :: w.taken⟩)
    {w : Trace} (h : (service settings).Reach P w) :
    (∀ k, Anchored w.stores k) ∧ Listed w.stores.lakehouse ∧ I w := by
  refine h.invariant (I := fun w => (∀ k, Anchored w.stores k) ∧ Listed w.stores.lakehouse ∧ I w)
    (fun w hempty => ?_) (fun w action w' hw hpermitted htaken => ?_)
  · cases hempty
    refine ⟨fun k => ⟨fun hparents => ?_, fun hrow => (nomatch hrow)⟩,
      fun k hsome => (nomatch hsome), hinit⟩
    exact (hparents (Registry.getParents_eq_nil.mpr rfl)).elim
  · obtain ⟨r, u, houtcome, rfl⟩ := outcome_of_step (hP w action hpermitted) htaken
    obtain ⟨hanchored, hlisted, hi⟩ := hw
    exact ⟨fun k => houtcome.anchored (hanchored k), houtcome.listed hlisted,
      hstep w action.1 action.2 r u hanchored hlisted hi hpermitted houtcome⟩

/-- The trace after one more operation, with the answers of the stores. -/
def Trace.next (settings : Settings) (w : Trace) (op : Operation) (faults : Faults) : Trace :=
  let run := (op.program settings).execute (serial faults) (serialAnswer faults) w.stores
  ⟨run.2, ⟨w.stores, op, faults, run.1, run.2⟩ :: w.taken⟩

/-- What is executed is a step of the service. -/
theorem Trace.reach_next {settings : Settings} {P : Trace → Operation × Faults → Prop} {w : Trace}
    (hdown : Backend.isConnectionDown (externalError "registry unreachable") = true)
    (h : (service settings).Reach P w) {op : Operation} {faults : Faults} (hP : P w (op, faults)) :
    (service settings).Reach P (w.next settings op faults) :=
  .step h hP ⟨_, _, Program.execute_completes (serialAnswer_possible (fun _ => hdown)), rfl⟩

end Memcove
