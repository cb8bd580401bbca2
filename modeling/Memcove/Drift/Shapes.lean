import Memcove.Drift.Service

/-!
# Shapes of objects

The columns of an object over runs of producers. An ingest and an upload compare names and folded
types with the stored columns, a derive compares names alone; what either of them lets through is
to have the columns that are stored already.
-/

namespace Memcove

open Programs Runs

/-- The same names with the same types, in any order. -/
def SameShape (old new : Columns) : Prop := ∀ column, column ∈ old ↔ column ∈ new

/-- Every shape is the same as itself. -/
theorem SameShape.refl (columns : Columns) : SameShape columns columns := fun _ => Iff.rfl

/-- Shapes that are the same as a third one. -/
theorem SameShape.trans {a b c : Columns} (hab : SameShape a b) (hbc : SameShape b c) :
    SameShape a c := fun column => (hab column).trans (hbc column)

section

variable [Python] [Sqlglot] [Engines]

/-- An accepted write leaves the shape of the object as it was, and a write of columns of another
shape is rejected as a schema mismatch and changes nothing. -/
structure PreservesShape (settings : Settings) (t : Taken) (k : Key) (old : LakeTable) : Prop where
  accepted : t.result.isOk = true →
    ∃ new, t.after.lakehouse.table k = some new ∧ SameShape old.columns new.columns
  rejected : ¬ t.op.Refusable t.faults →
    ¬ SameShape old.columns (t.op.incoming settings t.before.lakehouse) →
      t.after = t.before ∧ ∃ e, t.result = .error e ∧ e.cls = .schemaMismatchError

/-- A replace or an append preserves the shape of its object, if that exists. -/
def Taken.KeepsShape (settings : Settings) (t : Taken) : Prop :=
  ∀ k old, t.op.object = some k → t.op.Rewrites settings →
    t.before.lakehouse.table k = some old → PreservesShape settings t k old

/-- What an existing object accepts has its shape. -/
def AgreesInShape (settings : Settings) (L : Lakehouse) (op : Operation) : Prop :=
  ∀ k old, op.object = some k → L.table k = some old → op.Accepted settings L k →
    SameShape old.columns (op.incoming settings L)

/-- The newest operation before which the object did not exist. -/
def Trace.creation (w : Trace) (k : Key) : Option Taken :=
  w.taken.find? (fun t => (t.before.lakehouse.table k).isNone)

variable {settings : Settings} {faults : Faults} {s u : Stores} {op : Operation}
  {r : Except PyError Unit} {k : Key} {old : LakeTable}

/-- An existing object keeps its columns, or has those that were brought. -/
theorem Operation.columnsAfter_of_some {L : Lakehouse} (hlisted : Listed L)
    (hold : L.table k = some old) : op.columnsAfter settings L k = old.columns ∨
      op.columnsAfter settings L k = op.incoming settings L := by
  cases op with
  | derive =>
    refine Or.inr ?_
    have hmem := hlisted k (Option.isSome_iff_exists.mpr ⟨old, hold⟩)
    rw [Operation.columnsAfter, Lakehouse.addNamespace_of_mem hmem]
  | _ =>
    refine Or.inl ?_
    simp [Operation.columnsAfter, hold]

/-- A write of the object whose accepted columns have its shape leaves it with its shape. -/
theorem sameShape_of_wrote {L L' : Lakehouse} (hlisted : Listed L) (hold : L.table k = some old)
    (hwrote : Wrote (L.addNamespace k.1) L' k (op.columnsAfter settings L k))
    (hincoming : SameShape old.columns (op.incoming settings L)) :
    ∃ new, L'.table k = some new ∧ SameShape old.columns new.columns := by
  obtain ⟨new, hnew, hcolumns⟩ := hwrote.table
  refine ⟨new, hnew, ?_⟩
  rw [hcolumns]
  have hcases : op.columnsAfter settings L k = old.columns ∨
      op.columnsAfter settings L k = op.incoming settings L :=
    Operation.columnsAfter_of_some hlisted hold
  rcases hcases with h | h
  · rw [h]
    exact SameShape.refl _
  · rw [h]
    exact hincoming

/-- An operation whose accepted columns agree in shape keeps it. -/
theorem Outcome.keepsShape (h : Outcome settings faults s u op r) (hlisted : Listed s.lakehouse)
    (hagrees : AgreesInShape settings s.lakehouse op) :
    Taken.KeepsShape settings ⟨s, op, faults, r, u⟩ := by
  intro k old hobject hrewrites hold
  have hsome : (s.lakehouse.table k).isSome = true := Option.isSome_iff_exists.mpr ⟨old, hold⟩
  cases h with
  | idle hnone => exact nomatch hobject.symm.trans hnone
  | rejected hobject' hunwritten _ hmismatch =>
    cases hobject.symm.trans hobject'
    exact ⟨(fun hok => nomatch hok), fun hserves _ => ⟨hunwritten.eq hlisted hsome, _, rfl,
      hmismatch hserves hsome hrewrites⟩⟩
  | abandoned hobject' hnone =>
    cases hobject.symm.trans hobject'
    exact nomatch hold.symm.trans hnone
  | wrote hobject' haccepted _ _ hwrote =>
    cases hobject.symm.trans hobject'
    have hincoming := hagrees k old hobject hold haccepted
    exact ⟨fun _ => sameShape_of_wrote hlisted hold hwrote hincoming,
      fun _ hdiffers => (hdiffers hincoming).elim⟩
  | dropped hdrop =>
    subst hdrop
    exact hrewrites.elim

/-- Only such an operation does, unless it is refused. -/
theorem Outcome.agreesInShape (h : Outcome settings faults s u op r)
    (hserves : ¬ op.Refusable faults) (hkeeps : Taken.KeepsShape settings ⟨s, op, faults, r, u⟩) :
    AgreesInShape settings s.lakehouse op := by
  intro k old hobject hold haccepted
  have hpreserves := hkeeps k old hobject (haccepted.rewrites hold) hold
  by_contra hdiffers
  obtain ⟨_, e, herror, _⟩ := hpreserves.rejected hserves hdiffers
  cases h with
  | idle hnone => exact nomatch hobject.symm.trans hnone
  | rejected hobject' _ hrejected =>
    cases hobject.symm.trans hobject'
    exact hrejected hserves haccepted
  | abandoned hobject' hnone =>
    cases hobject.symm.trans hobject'
    exact nomatch hold.symm.trans hnone
  | wrote _ _ _ _ _ _ hok =>
    change r = .error e at herror
    rw [herror] at hok
    cases hok
  | dropped hdrop =>
    subst hdrop
    exact haccepted.elim

/-- An object that exists before and after such an operation has its shape. -/
theorem Outcome.sameShape {new : LakeTable} (h : Outcome settings faults s u op r)
    (hlisted : Listed s.lakehouse) (hagrees : AgreesInShape settings s.lakehouse op)
    (hold : s.lakehouse.table k = some old) (hnew : u.lakehouse.table k = some new) :
    SameShape old.columns new.columns := by
  have hsame (huntouched : Untouched s u k) : SameShape old.columns new.columns := by
    have htable := hold.symm.trans (huntouched.table.symm.trans hnew)
    cases htable
    exact SameShape.refl _
  by_cases hobject : op.object = some k
  · cases h with
    | idle hnone => exact nomatch hobject.symm.trans hnone
    | rejected _ hunwritten => exact hsame (hunwritten.untouched k)
    | abandoned hobject' hnone =>
      cases hobject.symm.trans hobject'
      exact nomatch hold.symm.trans hnone
    | wrote hobject' haccepted _ _ hwrote =>
      cases hobject.symm.trans hobject'
      obtain ⟨new', hnew', hshape⟩ :=
        sameShape_of_wrote hlisted hold hwrote (hagrees k old hobject hold haccepted)
      cases hnew.symm.trans hnew'
      exact hshape
    | dropped _ hobject' hnone =>
      cases hobject.symm.trans hobject'
      exact nomatch hnew.symm.trans hnone
  · exact hsame (h.untouched hobject)

variable [Backend]

/-- A producer or a drop whose accepted columns agree in shape. -/
def Agreeing (settings : Settings) (w : Trace) (action : Operation × Faults) : Prop :=
  action.1.Changes ∧ AgreesInShape settings w.stores.lakehouse action.1

/-- Every object has the shape with which it was created. -/
def AsCreated (w : Trace) : Prop :=
  ∀ k t old new, w.creation k = some t → t.after.lakehouse.table k = some old →
    w.stores.lakehouse.table k = some new → SameShape old.columns new.columns

omit [Backend] in
/-- One more such operation leaves every object as it was created. -/
theorem Outcome.asCreated {w : Trace} (h : Outcome settings faults w.stores u op r)
    (hlisted : Listed w.stores.lakehouse) (hagrees : AgreesInShape settings w.stores.lakehouse op)
    (hcreated : AsCreated w) : AsCreated ⟨u, ⟨w.stores, op, faults, r, u⟩ :: w.taken⟩ := by
  intro k t old new ht hold hnew
  cases hbefore : w.stores.lakehouse.table k with
  | none =>
    have hnow : Trace.creation ⟨u, ⟨w.stores, op, faults, r, u⟩ :: w.taken⟩ k =
        some ⟨w.stores, op, faults, r, u⟩ := by
      simp [Trace.creation, hbefore]
    cases hnow.symm.trans ht
    cases hold.symm.trans hnew
    exact SameShape.refl _
  | some mid =>
    have hearlier : Trace.creation ⟨u, ⟨w.stores, op, faults, r, u⟩ :: w.taken⟩ k =
        w.creation k := by
      simp [Trace.creation, hbefore]
    rw [hearlier] at ht
    exact (hcreated k t old mid ht hold hbefore).trans (h.sameShape hlisted hagrees hbefore hnew)

/-- In every run whose accepted columns agree in shape, every operation keeps the shape of its
object, every object has the shape with which it was created, and a further operation that is not
refused keeps the shape exactly when its accepted columns agree. -/
theorem shapes_preserved {w : Trace} (h : (service settings).Reach (Agreeing settings) w) :
    (∀ t ∈ w.taken, t.KeepsShape settings) ∧ AsCreated w ∧
      ∀ op faults w', op.Changes → ¬ op.Refusable faults →
        (service settings).step w (op, faults) w' →
          ((∀ t ∈ w'.taken, t.KeepsShape settings) ↔
            AgreesInShape settings w.stores.lakehouse op) := by
  have hcons {w : Trace} {t : Taken} (ht : t.KeepsShape settings)
      (hkept : ∀ t ∈ w.taken, t.KeepsShape settings) :
      ∀ t' ∈ t :: w.taken, t'.KeepsShape settings :=
    List.forall_mem_cons.mpr ⟨ht, hkept⟩
  obtain ⟨_, hlisted, hkept, hcreated⟩ := reach_outcomes
    (I := fun w => (∀ t ∈ w.taken, t.KeepsShape settings) ∧ AsCreated w)
    (fun _ _ hpermitted => hpermitted.1)
    ⟨fun _ ht => (List.not_mem_nil ht).elim, fun _ _ _ _ ht => (nomatch ht)⟩
    (fun w op faults r u _ hlisted hw hpermitted houtcome =>
      ⟨hcons (houtcome.keepsShape hlisted hpermitted.2) hw.1,
        houtcome.asCreated hlisted hpermitted.2 hw.2⟩) h
  refine ⟨hkept, hcreated, fun op faults w' hop hserves hstep => ?_⟩
  obtain ⟨r, u, houtcome, rfl⟩ := outcome_of_step hop hstep
  exact ⟨fun hall => houtcome.agreesInShape hserves (hall _ List.mem_cons_self),
    fun hagrees => hcons (houtcome.keepsShape hlisted hagrees) hkept⟩

end

section

attribute [local instance] asciiPython eventsSqlglot textEngines externalBackend

/-- An ingest of `d` with one column of integers. -/
def ingestNumbers : Operation :=
  .ingest "t_acme" "d" (.ok ⟨⟨[("v", .integer 64 true)], [[.int 1]], by
    intro row hrow
    rw [List.mem_singleton.mp hrow]
    exact .cons trivial .nil⟩, .inline, none, inline_ingested⟩) "create" none "lakehouse"

/-- The objects `events`, with a column of texts, and `d`, with a column of integers; then `d` is
replaced by a derive from `events`. -/
def retyped : Trace :=
  ((Trace.next {} {} (ingestEvents ["a"] "create" []) {}).next {} ingestNumbers {}).next {}
    (.derive "t_acme" "d" "SELECT * FROM events" "replace" none "lakehouse") {}

/-- The derive is accepted, and the column changes its type. -/
theorem retyped_not_kept : ∃ w,
    (service {}).Reach (fun _ action => action.1.Changes ∧ action.2 = {}) w ∧
      ¬ ∀ t ∈ w.taken, t.KeepsShape {} := by
  refine ⟨retyped, ?_, fun h => ?_⟩
  · refine Trace.reach_next rfl (Trace.reach_next rfl (Trace.reach_next rfl (.init rfl) ?_) ?_) ?_
    · exact ⟨trivial, rfl⟩
    · exact ⟨trivial, rfl⟩
    · exact ⟨trivial, rfl⟩
  · have hrewrites : (Operation.derive "t_acme" "d" "SELECT * FROM events" "replace" none
        "lakehouse").Rewrites {} :=
      ⟨rfl, ⟨.node .select (readStar ⟨"events", "t_acme", "iceberg"⟩), ["events"], []⟩, by rfl⟩
    have hpreserves := h _ List.mem_cons_self ("t_acme", "d")
      ⟨1, [("v", .integer 64 true)], [[.int 1]]⟩ (by rfl) hrewrites (by rfl)
    obtain ⟨new, hnew, hshape⟩ := hpreserves.accepted rfl
    have hretyped : retyped.stores.lakehouse.table ("t_acme", "d") =
        some ⟨1, [("v", .string true)], []⟩ := by rfl
    cases hretyped.symm.trans hnew
    have hmem := (hshape ("v", .integer 64 true)).mp List.mem_cons_self
    simp at hmem

/-- The object `events`, with rows appended. -/
def eventsAppended : Trace :=
  (Trace.next {} {} (ingestEvents ["a"] "create" []) {}).next {} (ingestEvents ["b"] "append" []) {}

/-- Rows of the same columns keep the shape. -/
theorem eventsAppended_kept : (∀ t ∈ eventsAppended.taken, t.KeepsShape {}) ∧
    AsCreated eventsAppended ∧ ∀ op faults w', op.Changes → ¬ op.Refusable faults →
      (service {}).step eventsAppended (op, faults) w' →
        ((∀ t ∈ w'.taken, t.KeepsShape {}) ↔
          AgreesInShape {} eventsAppended.stores.lakehouse op) := by
  have hcreated : (service {}).Reach (Agreeing {})
      (Trace.next {} {} (ingestEvents ["a"] "create" []) {}) :=
    Trace.reach_next rfl (.init rfl) ⟨trivial, fun _ _ _ hold => nomatch hold⟩
  refine shapes_preserved (Trace.reach_next rfl hcreated ⟨trivial, fun k old hobject hold _ => ?_⟩)
  have hevents : (ingestEvents ["b"] "append" []).object = some ("t_acme", "events") := by rfl
  cases hevents.symm.trans hobject
  have htable : (Trace.next {} {} (ingestEvents ["a"] "create" []) {}).stores.lakehouse.table
      ("t_acme", "events") = some ⟨0, [("v", .string true)], [[.str "a"]]⟩ := by rfl
  cases htable.symm.trans hold
  exact SameShape.refl _

end

end Memcove
