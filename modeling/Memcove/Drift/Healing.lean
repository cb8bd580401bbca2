import Memcove.Drift.Recovery
import Memcove.Drift.Service

/-!
# Drift after an outage of the registry

Runs in which the registry may be unreachable whenever metadata is recorded, followed by a sweep
and by descriptions of all objects. Repairs look for missing rows only, so what they restore is
honest as long as no row survives that tells of content which has been replaced since.
-/

namespace Memcove

open Programs Runs

section

variable [Python] [Sqlglot]

/-- The row has the source and the query of the newest write of the object. -/
def FromLastWrite (settings : Settings) (w : Trace) (k : Key) (row : ObjectRow) : Prop :=
  ∃ t m, w.lastWrite k = some t ∧ t.op.metadata settings = some m ∧
    row.source = m.row.source ∧ row.producingSql = m.row.producingSql

/-- Every row is that of the newest write, or marked as reconciled. -/
def Honest (settings : Settings) (w : Trace) : Prop :=
  ∀ k row, w.stores.registry.row k = some row →
    FromLastWrite settings w k row ∨ row.source = .reconciled

variable [Engines]

/-- Where the record of an accepted write is lost, the object has no row, a reconciled one, or one
with the source and the query of the write. -/
def HonestRecord (settings : Settings) (w : Trace) (action : Operation × Faults) : Prop :=
  action.2.registryDown = true → ∀ k row m, action.1.object = some k →
    action.1.Accepted settings w.stores.lakehouse k → w.stores.registry.row k = some row →
      action.1.metadata settings = some m →
        row.source = .reconciled ∨
          row.source = m.row.source ∧ row.producingSql = m.row.producingSql

variable {settings : Settings} {faults : Faults} {u : Stores} {w : Trace} {op : Operation}
  {r : Except PyError Unit}

/-- Rows stay honest over an operation that records honestly. -/
theorem Outcome.honest (h : Outcome settings faults w.stores u op r) (hhonest : Honest settings w)
    (hrecord : HonestRecord settings w (op, faults)) :
    Honest settings ⟨u, ⟨w.stores, op, faults, r, u⟩ :: w.taken⟩ := by
  intro k row hrow
  have hsame (hrow : w.stores.registry.row k = some row)
      (hnot : op.object = some k → r.isOk = false) :
      FromLastWrite settings ⟨u, ⟨w.stores, op, faults, r, u⟩ :: w.taken⟩ k row ∨
        row.source = .reconciled := by
    refine (hhonest k row hrow).imp_left (fun hlast => ?_)
    obtain ⟨t, m, ht, hm, htold⟩ := hlast
    exact ⟨t, m, (Trace.lastWrite_of_not hnot).trans ht, hm, htold⟩
  by_cases hobject : op.object = some k
  · cases h with
    | idle hnone => exact nomatch hobject.symm.trans hnone
    | rejected _ hunwritten =>
      exact hsame ((hunwritten.untouched k).row.symm.trans hrow) (fun _ => rfl)
    | abandoned _ _ hregistry =>
      rw [hregistry] at hrow
      exact hsame hrow (fun _ => rfl)
    | @wrote _ m _ hobject' haccepted hm hkey _ hregistry hok =>
      cases hobject.symm.trans hobject'
      have hlast : Trace.lastWrite ⟨u, ⟨w.stores, op, faults, r, u⟩ :: w.taken⟩ k =
          some ⟨w.stores, op, faults, r, u⟩ := Trace.lastWrite_self hobject hok
      rw [hregistry, Stores.record] at hrow
      split at hrow
      · rename_i hdown
        rcases hrecord hdown k row m hobject haccepted hrow hm with hreconciled | htold
        · exact Or.inr hreconciled
        · exact Or.inl ⟨_, m, hlast, hm, htold⟩
      · have hself : (w.stores.registry.recordObject m.row m.tags
            (m.references.map (existingParents u.lakehouse k.1))).row m.row.key = some m.row :=
          Registry.row_recordObject_self
        rw [hkey] at hself
        cases hself.symm.trans hrow
        exact Or.inl ⟨_, m, hlast, hm, rfl, rfl⟩
    | dropped _ hobject' _ _ _ hregistry =>
      cases hobject.symm.trans hobject'
      rw [hregistry, Registry.row_deleteObject_self] at hrow
      cases hrow
  · exact hsame ((h.untouched hobject).row.symm.trans hrow) (fun h => (hobject h).elim)

/-- Only then do they, unless the operation is refused. -/
theorem Outcome.honestRecord (h : Outcome settings faults w.stores u op r)
    (hserves : ¬ op.Refusable faults) (hrows : RowsHaveTables w.stores)
    (hhonest : Honest settings ⟨u, ⟨w.stores, op, faults, r, u⟩ :: w.taken⟩) :
    HonestRecord settings w (op, faults) := by
  intro hdown k row m hobject haccepted hrow hm
  cases h with
  | idle hnone => exact nomatch hobject.symm.trans hnone
  | rejected hobject' _ hrejected =>
    cases hobject.symm.trans hobject'
    exact (hrejected hserves haccepted).elim
  | abandoned hobject' hnone =>
    cases hobject.symm.trans hobject'
    have hsome := hrows k (Option.isSome_iff_exists.mpr ⟨row, hrow⟩)
    rw [hnone] at hsome
    cases hsome
  | wrote hobject' _ _ _ _ hregistry hok =>
    cases hobject.symm.trans hobject'
    have hlast : Trace.lastWrite ⟨u, ⟨w.stores, op, faults, r, u⟩ :: w.taken⟩ k =
        some ⟨w.stores, op, faults, r, u⟩ := Trace.lastWrite_self hobject hok
    have hkept : u.registry.row k = some row := by
      rw [hregistry, Stores.record, if_pos hdown]
      exact hrow
    rcases hhonest k row hkept with ⟨t, m', ht, hm', htold⟩ | hreconciled
    · cases hlast.symm.trans ht
      cases hm.symm.trans hm'
      exact Or.inr htold
    · exact Or.inl hreconciled
  | dropped hdrop =>
    subst hdrop
    exact haccepted.elim

variable [Backend]

/-- The stores after descriptions of the given objects, one after the other. -/
def Described (settings : Settings) : List Key → Stores → Stores → Prop
  | [], s, u => u = s
  | k :: keys, s, u => ∃ r t,
    Completes (serial {}) s (describeObject settings k.1 k.2) r t ∧ Described settings keys t u

/-- After a complete sweep and descriptions of all tables, every table has a row, which is that of
the newest write or marked as reconciled. -/
def Heals (settings : Settings) (w : Trace) : Prop :=
  ∀ r u keys v, Completes (serial {}) w.stores (reconcile settings) r u →
    (∀ k, (u.lakehouse.table k).isSome = true → k ∈ keys) → Described settings keys u v →
      ∀ k, (v.lakehouse.table k).isSome = true →
        ∃ row, v.registry.row k = some row ∧
          (FromLastWrite settings w k row ∨ row.source = .reconciled)

omit [Sqlglot] in
/-- Objects can be described. -/
theorem exists_described (settings : Settings) (keys : List Key) (s : Stores) :
    ∃ u, Described settings keys s u := by
  induction keys generalizing s with
  | nil => exact ⟨s, rfl⟩
  | cons k keys ih =>
    obtain ⟨u, hu⟩ := ih ((describeObject settings k.1 k.2).execute (serial {}) (serialAnswer {})
      s).2
    exact ⟨u, _, _, Program.execute_completes (serialAnswer_possible (fun h => nomatch h)), hu⟩

omit [Sqlglot] in
/-- Where the tables are those with rows, descriptions change nothing. -/
theorem Described.eq {keys : List Key} {s u : Stores} (h : Described settings keys s u)
    (hs : RowsHaveTables s)
    (hrows : ∀ k, (s.lakehouse.table k).isSome = true → (s.registry.row k).isSome = true) :
    u = s := by
  induction keys with
  | nil => exact h
  | cons k keys ih =>
    obtain ⟨r, t, hrun, hrest⟩ := h
    have ht : t = s := (describe_ends hs hrows k.2).completes hrun
    rw [ht] at hrest
    exact ih hrest

/-- What recovers honestly is what is honest before. -/
theorem heals_iff_honest (hrows : RowsHaveTables w.stores) (hlisted : Listed w.stores.lakehouse) :
    Heals settings w ↔ Honest settings w := by
  constructor
  · intro hheals k row hrow
    have hrun : Completes (serial {}) w.stores (reconcile settings) _ _ :=
      Program.execute_completes (serialAnswer_possible (fun h => nomatch h))
    obtain ⟨_, hrepaired, htables⟩ := (reconcile_ends hrows hlisted).completes hrun
    generalize Prod.snd _ = u at hrun hrepaired htables
    obtain ⟨v, hv⟩ := exists_described settings (u.lakehouse.tables.map Prod.fst) u
    have hkeys (k : Key) (hsome : (u.lakehouse.table k).isSome = true) :
        k ∈ u.lakehouse.tables.map Prod.fst := by
      rw [Lakehouse.table, Option.isSome_map, KeyedTables.lookup_isSome_iff] at hsome
      obtain ⟨entry, hentry, rfl⟩ := hsome
      exact List.mem_map_of_mem hentry
    have hsame := hv.eq (hrepaired.rowsHaveTables hrows) htables
    subst hsame
    have htable : (v.lakehouse.table k).isSome = true := by
      rw [hrepaired.lakehouse]
      exact hrows k (Option.isSome_iff_exists.mpr ⟨row, hrow⟩)
    obtain ⟨row', hrow', htold⟩ := hheals _ _ _ _ hrun hkeys hv k htable
    cases (hrepaired.kept k row hrow).symm.trans hrow'
    exact htold
  · intro hhonest r u keys v hrun _ hv k htable
    obtain ⟨_, hrepaired, htables⟩ := (reconcile_ends hrows hlisted).completes hrun
    have hsame := hv.eq (hrepaired.rowsHaveTables hrows) htables
    subst hsame
    obtain ⟨row, hrow⟩ := Option.isSome_iff_exists.mp (htables k htable)
    refine ⟨row, hrow, ?_⟩
    rcases hrepaired.added k row hrow with hrow | ⟨hreconciled, _⟩
    · exact hhonest k row hrow
    · exact Or.inr hreconciled

/-- A producer or a drop that records honestly. -/
def Recording (settings : Settings) (w : Trace) (action : Operation × Faults) : Prop :=
  action.1.Changes ∧ HonestRecord settings w action

/-- Every run whose lost records are honest heals honestly, and with a further operation that is
not refused it still does exactly when that one records honestly. -/
theorem outage_heals (h : (service settings).Reach (Recording settings) w) :
    Heals settings w ∧ ∀ op faults w', op.Changes → ¬ op.Refusable faults →
      (service settings).step w (op, faults) w' →
        (Heals settings w' ↔ HonestRecord settings w (op, faults)) := by
  obtain ⟨hanchored, hlisted, hhonest⟩ := reach_outcomes (I := Honest settings)
    (fun _ _ hpermitted => hpermitted.1) (fun _ _ hrow => nomatch hrow)
    (fun w op faults r u _ _ hw hpermitted houtcome => houtcome.honest hw hpermitted.2) h
  have hrows : RowsHaveTables w.stores := fun k => (hanchored k).table_of_row
  refine ⟨(heals_iff_honest hrows hlisted).mpr hhonest, fun op faults w' hop hserves hstep => ?_⟩
  obtain ⟨r, u, houtcome, rfl⟩ := outcome_of_step hop hstep
  have hrows' : RowsHaveTables u := fun k => (houtcome.anchored (hanchored k)).table_of_row
  rw [heals_iff_honest hrows' (houtcome.listed hlisted)]
  exact ⟨houtcome.honestRecord hserves hrows, houtcome.honest hhonest⟩

end

/-- The operation is an ingest or a derive in create or replace mode. -/
def Operation.CreatesOrReplaces : Operation → Prop
  | ingest _ _ _ mode _ _ | derive _ _ _ mode _ _ => mode = "create" ∨ mode = "replace"
  | _ => False

section

attribute [local instance] asciiPython eventsSqlglot textEngines externalBackend

/-- The object `d` is ingested, and then replaced by a derive from `events` while the registry is
unreachable. -/
def lostReplace : Trace :=
  ((Trace.next {} {} (ingestEvents ["a"] "create" []) {}).next {}
    (.ingest "t_acme" "d" (textSource ["b"] .inline none inline_ingested) "create" none
      "lakehouse") {}).next {}
    (.derive "t_acme" "d" "SELECT * FROM events" "replace" none "lakehouse")
      { registryDown := true }

/-- The row of the replaced content survives every repair. -/
theorem lostReplace_not_healed : ∃ w,
    (service {}).Reach (fun _ action => action.1.CreatesOrReplaces ∧ action.2.trinoRefuses = false)
      w ∧ ¬ Heals {} w := by
  have hreach : (service {}).Reach (fun _ action => action.1.CreatesOrReplaces ∧
      action.2.trinoRefuses = false) lostReplace := by
    refine Trace.reach_next rfl (Trace.reach_next rfl (Trace.reach_next rfl (.init rfl) ?_) ?_) ?_
    · exact ⟨Or.inl rfl, rfl⟩
    · exact ⟨Or.inl rfl, rfl⟩
    · exact ⟨Or.inr rfl, rfl⟩
  have hchanges (action : Operation × Faults) (h : action.1.CreatesOrReplaces ∧
      action.2.trinoRefuses = false) : action.1.Changes := by
    obtain ⟨op, faults⟩ := action
    cases op with
    | ingest | derive => trivial
    | _ => exact h.1.elim
  obtain ⟨hanchored, hlisted, _⟩ := reach_outcomes (I := fun _ => True)
    (fun _ => hchanges) trivial (fun _ _ _ _ _ _ _ _ _ _ => trivial) hreach
  refine ⟨lostReplace, hreach, fun hheals => ?_⟩
  have hrow : lostReplace.stores.registry.row ("t_acme", "d") =
      some (ingestRow {} "t_acme" "d" .inline none) := by rfl
  have hhonest := (heals_iff_honest (fun k => (hanchored k).table_of_row) hlisted).mp hheals
  rcases hhonest _ _ hrow with ⟨t, m, ht, hm, hsource, _⟩ | hreconciled
  · have hlast : (lostReplace.lastWrite ("t_acme", "d")).bind (fun t => t.op.metadata {}) =
        some ⟨deriveRow {} "t_acme" "d"
          (generate (.node .select (readStar ⟨"events", "t_acme", "iceberg"⟩))), [],
            some ["events"]⟩ := by rfl
    rw [ht] at hlast
    cases hm.symm.trans hlast
    cases hsource
  · cases hreconciled

/-- The object `events` is created while the registry is unreachable. -/
def lostCreate : Trace :=
  Trace.next {} {} (ingestEvents ["a"] "create" []) { registryDown := true }

/-- A lost record of a new object heals. -/
theorem lostCreate_heals : Heals {} lostCreate ∧ ∀ op faults w', op.Changes →
    ¬ op.Refusable faults → (service {}).step lostCreate (op, faults) w' →
      (Heals {} w' ↔ HonestRecord {} lostCreate (op, faults)) :=
  outage_heals (Trace.reach_next rfl (.init rfl) ⟨trivial, fun _ _ _ _ _ _ hrow => nomatch hrow⟩)

end

end Memcove
