import Memcove.Drift.Service

/-!
# Rows and lineage

What the registry tells about an object, over runs of operations without failures. Row and lineage
of a derive are set together, but an ingest or an upload sets the row alone: on an object that was
derived before, it leaves the old parents beside its own row.
-/

namespace Memcove

open Programs KeyedTables Runs

section

variable [Python] [Sqlglot]

/-- These are the query and the parents of a derive of the object. -/
def DerivedBy (settings : Settings) (k : Key) (producingSql : Option (List Token))
    (parents : List String) (t : Taken) : Prop :=
  ∃ tenant newLabel sql mode tags target guarded,
    t.op = .derive tenant newLabel sql mode tags target ∧
      validateSelect (deriveParams settings tenant) sql = .ok guarded ∧
      producingSql = some guarded.sql ∧
      ∀ l, l ∈ parents ↔ l ≠ k.2 ∧ l ∈ guarded.referencedLabels ∧
        (t.after.lakehouse.table (k.1, l)).isSome = true

/-- A derived object has the query and the parents of the derive that wrote it last, any other
object has neither. -/
def Provenance (settings : Settings) (w : Trace) (k : Key) (source : SourceKind)
    (producingSql : Option (List Token)) (parents : List String) : Prop :=
  if source = .derived then
    ∃ t, w.lastWrite k = some t ∧ DerivedBy settings k producingSql parents t
  else producingSql = none ∧ parents = []

/-- The registry has the provenance of the object. -/
def Consistent (settings : Settings) (w : Trace) (k : Key) : Prop :=
  ∀ row, w.stores.registry.row k = some row → Provenance settings w k row.source row.producingSql
    (w.stores.registry.getParents k)

/-- What is told of an object that is left alone remains so. -/
theorem Consistent.untouched {settings : Settings} {w : Trace} {u : Stores} {t : Taken} {k : Key}
    (h : Consistent settings w k)
    (hsame : Untouched w.stores u k) (hlast : t.op.object = some k → t.result.isOk = false) :
    Consistent settings ⟨u, t :: w.taken⟩ k := by
  intro row hrow
  rw [hsame.row] at hrow
  change Provenance settings _ k row.source row.producingSql (u.registry.getParents k)
  rw [hsame.parents, Provenance, Trace.lastWrite_of_not hlast]
  exact h row hrow

/-- What consistency says of an object whose row and last write are known. -/
theorem consistent_iff_of_row {settings : Settings} {w : Trace} {k : Key} {row : ObjectRow}
    {t : Taken} (hrow : w.stores.registry.row k = some row) (hlast : w.lastWrite k = some t) :
    Consistent settings w k ↔ if row.source = .derived then
      DerivedBy settings k row.producingSql (w.stores.registry.getParents k) t
    else row.producingSql = none ∧ w.stores.registry.getParents k = [] := by
  have hprovenance : Consistent settings w k ↔ Provenance settings w k row.source
      row.producingSql (w.stores.registry.getParents k) := by
    refine ⟨fun h => h row hrow, fun h row' hrow' => ?_⟩
    cases hrow.symm.trans hrow'
    exact h
  rw [hprovenance, Provenance]
  split
  · refine ⟨fun h => ?_, fun h => ⟨t, hlast, h⟩⟩
    obtain ⟨t', ht', hby⟩ := h
    cases hlast.symm.trans ht'
    exact hby
  · exact Iff.rfl

/-- The operation records no parents. -/
def Operation.Parentless : Operation → Prop
  | derive .. => False
  | _ => True

/-- What the metadata of a write says about its provenance. -/
theorem Operation.metadata_cases {settings : Settings} {op : Operation} {w : Metadata}
    (hw : op.metadata settings = some w) :
    (∃ tenant newLabel sql mode tags target guarded,
      op = .derive tenant newLabel sql mode tags target ∧
        validateSelect (deriveParams settings tenant) sql = .ok guarded ∧
        w.row.source = .derived ∧ w.row.producingSql = some guarded.sql ∧
        w.references = some guarded.referencedLabels) ∨
    (op.Parentless ∧ w.row.source ≠ .derived ∧ w.row.producingSql = none ∧
      w.references = none) := by
  cases op with
  | ingest tenant label source mode tags target =>
    obtain ⟨name, resolved, hlabel, hsource⟩ := metadata_ingest_ok hw
    rw [metadata_ingest hlabel hsource] at hw
    cases hw
    refine Or.inr ⟨trivial, fun hderived => ?_, rfl, rfl⟩
    have hkind := resolved.ingested
    change resolved.kind = .derived at hderived
    rw [hderived] at hkind
    revert hkind
    decide
  | derive tenant newLabel sql mode tags target =>
    obtain ⟨name, guarded, hlabel, hguarded⟩ := metadata_derive_ok hw
    rw [metadata_derive hlabel hguarded] at hw
    cases hw
    exact Or.inl ⟨_, _, _, _, _, _, guarded, rfl, hguarded, rfl, rfl, rfl⟩
  | put schema target chunks =>
    cases target with
    | error e => cases hw
    | ok ticket =>
      cases hw
      exact Or.inr ⟨trivial, by simp [streamRow], rfl, rfl⟩
  | _ => cases hw

variable [Engines] [Backend]

/-- Where an ingest or an upload is accepted, the object has no parents. -/
def NoStaleParents (settings : Settings) (w : Trace) (op : Operation) : Prop :=
  ∀ k, op.object = some k → op.Parentless → op.Accepted settings w.stores.lakehouse k →
    w.stores.registry.getParents k = []

/-- A producer or a drop without failures, of the kind that keeps row and lineage consistent. -/
def Undisturbed (settings : Settings) (w : Trace) (action : Operation × Faults) : Prop :=
  (action.1.Changes ∧ action.2.registryDown = false) ∧ NoStaleParents settings w action.1

variable {settings : Settings} {faults : Faults} {s u : Stores} {op : Operation}
  {r : Except PyError Unit} {k : Key}

omit [Engines] [Backend] [Python] [Sqlglot] in
/-- Only a derive can be refused. -/
theorem Operation.Parentless.not_refusable (h : op.Parentless) : ¬ op.Refusable faults := by
  cases op with
  | derive => exact h.elim
  | _ => exact id

omit [Engines] [Backend] in
/-- After a write with its record, what is told of the object is consistent, unless the write
records no parents and there were some. -/
theorem consistent_of_record {before : Stores} {taken : List Taken} {m : Metadata}
    (hobject : op.object = some k) (hm : op.metadata settings = some m) (hkey : m.row.key = k)
    (hregistry : u.registry = s.registry.recordObject m.row m.tags
      (m.references.map (existingParents u.lakehouse k.1))) (hok : r.isOk = true) :
    Consistent settings ⟨u, ⟨before, op, faults, r, u⟩ :: taken⟩ k ↔
      (op.Parentless → s.registry.getParents k = []) := by
  have hrow : u.registry.row k = some m.row := by
    rw [hregistry, ← hkey]
    exact Registry.row_recordObject_self
  have hlast : (⟨u, ⟨before, op, faults, r, u⟩ :: taken⟩ : Trace).lastWrite k =
      some ⟨before, op, faults, r, u⟩ := Trace.lastWrite_self hobject hok
  rw [consistent_iff_of_row hrow hlast]
  rcases Operation.metadata_cases hm with
    ⟨tenant, newLabel, sql, mode, tags, target, guarded, rfl, hguarded, hsource, hsql,
      hreferences⟩ |
    ⟨hparentless, hsource, hsql, hreferences⟩
  · rw [if_pos hsource]
    refine iff_of_true ?_ (fun hno => hno.elim)
    refine ⟨tenant, newLabel, sql, mode, tags, target, guarded, rfl, hguarded, hsql, fun l => ?_⟩
    rw [Registry.mem_getParents, hregistry, hreferences, ← hkey, Option.map_some,
      Registry.lineage_recordObject_self, List.mem_filter, Registry.mem_fromKeys, existingParents,
      List.mem_filter, bne_iff_ne, hkey]
    exact and_comm
  · rw [if_neg hsource]
    have hparents : u.registry.getParents k = s.registry.getParents k := by
      rw [hregistry, hreferences]
      rfl
    rw [hparents]
    exact ⟨fun h _ => h.2, fun h => ⟨hsql, h hparentless⟩⟩

omit [Backend] in
/-- After one more operation without failures everything that is told is consistent exactly when
the operation met no stale parents. -/
theorem Outcome.consistent_iff {w : Trace} (h : Outcome settings faults w.stores u op r)
    (hup : faults.registryDown = false) (hanchored : ∀ k, Anchored w.stores k)
    (hconsistent : ∀ k, Consistent settings w k) :
    (∀ k, Consistent settings ⟨u, ⟨w.stores, op, faults, r, u⟩ :: w.taken⟩ k) ↔
      NoStaleParents settings w op := by
  have hrecord (row : ObjectRow) (tags : List String) (parents : Option (List String)) :
      (w.stores.record faults row tags parents).registry =
        w.stores.registry.recordObject row tags parents := by
    simp [Stores.record, hup]
  constructor
  · intro hall k hobject hparentless haccepted
    cases h with
    | idle hnone => cases hobject.symm.trans hnone
    | rejected hobject' _ hrejected =>
      cases hobject.symm.trans hobject'
      exact (hrejected hparentless.not_refusable haccepted).elim
    | abandoned hobject' hnone =>
      cases hobject.symm.trans hobject'
      exact (hanchored k).parents_of_none hnone
    | wrote hobject' _ hm hkey _ hregistry hok =>
      cases hobject.symm.trans hobject'
      rw [hrecord] at hregistry
      exact (consistent_of_record hobject hm hkey hregistry hok).mp (hall k) hparentless
    | dropped hdrop =>
      subst hdrop
      exact haccepted.elim
  · intro hno k
    by_cases hobject : op.object = some k
    · cases h with
      | idle hnone => cases hobject.symm.trans hnone
      | rejected _ hunwritten =>
        exact (hconsistent k).untouched (hunwritten.untouched k) (fun _ => rfl)
      | abandoned hobject' hnone hregistry _ =>
        cases hobject.symm.trans hobject'
        intro row hrow
        rw [hregistry] at hrow
        have hsome := (hanchored k).table_of_row (Option.isSome_iff_exists.mpr ⟨row, hrow⟩)
        rw [hnone] at hsome
        cases hsome
      | wrote hobject' haccepted hm hkey _ hregistry hok =>
        cases hobject.symm.trans hobject'
        rw [hrecord] at hregistry
        exact (consistent_of_record hobject hm hkey hregistry hok).mpr
          (fun hparentless => hno k hobject hparentless haccepted)
      | dropped _ hobject' _ _ _ hregistry =>
        cases hobject.symm.trans hobject'
        intro row hrow
        rw [hregistry, Registry.row_deleteObject_self] at hrow
        cases hrow
    · exact (hconsistent k).untouched (h.untouched hobject) (fun h => (hobject h).elim)

/-- What `describe_object` reports of an object is its provenance. -/
def DescribedConsistently (settings : Settings) (w : Trace) : Prop :=
  ∀ tenant label object u,
    Completes (serial {}) w.stores (describeObject settings tenant label) (.ok object) u →
      Provenance settings w (object.tenant, object.label) object.source object.producingSql
        object.parents

omit [Sqlglot] in
/-- What is reported is what the registry has, or that nothing is known. -/
theorem describeObject_reports (hanchored : ∀ k, Anchored s k) (tenant label : String) :
    EndsIn (serial {}) s (describeObject settings tenant label) (fun _ r => ∀ object,
      r = .ok object → ∃ k row, Reports s.registry k row object ∧
        (s.registry.row k = some row ∨ s.registry.getParents k = [] ∧ row.source ≠ .derived ∧
          row.producingSql = none)) := by
  cases hlabel : validateLabel label with
  | error e =>
    refine EndsIn.lift_bind (fun name hname => ?_) (fun _ _ => ?_)
    · cases hlabel.symm.trans hname
    · rintro _ ⟨⟩
  | ok name =>
    cases hrow : s.registry.row (tenant, name) with
    | some row =>
      have ht := (hanchored (tenant, name)).table_of_row (Option.isSome_iff_exists.mpr ⟨row, hrow⟩)
      refine (describeObject_ends settings hlabel hrow ht).mono (fun u r hu object hr => ?_)
      obtain ⟨_, object', rfl, hreports⟩ := hu
      cases hr
      exact ⟨_, row, hreports, Or.inl hrow⟩
    | none =>
      have hparents : s.registry.getParents (tenant, name) = [] := by
        by_contra hne
        have hsome := (hanchored (tenant, name)).row_of_parents hne
        rw [hrow] at hsome
        cases hsome
      refine EndsIn.lift_bind (fun name' hname => ?_) (fun _ _ => ?_)
      · cases hlabel.symm.trans hname
        refine ends_idle_bind trivial ⟨_, rfl⟩ (fun _ => id) (fun found hfound _ => ?_)
        obtain rfl : found = none := hfound.trans (Registry.getObject_eq_none.mpr hrow)
        refine (readRepair_ends settings tenant name).bind (fun u reg hu => ?_) (fun u e hu => ?_)
        · split at hu
          · rename_i ht
            obtain ⟨rfl, tags, hreg⟩ := hu
            cases hreg
            have hdescribe : EndsIn (serial {})
                ⟨s.lakehouse, s.registry.recordObject (reconciledRow settings tenant name) [] none⟩
                (describeRow settings tenant name (some (reconciledRow settings tenant name, tags)))
                _ := describeRow_ends settings ht
            refine hdescribe.mono (fun v r hv object hr => ?_)
            obtain ⟨_, object', rfl, hreports⟩ := hv
            cases hr
            exact ⟨_, _, ⟨hreports.key, hreports.source, hreports.producingSql, hreports.parents⟩,
              Or.inr ⟨hparents, by simp [reconciledRow], rfl⟩⟩
          · obtain ⟨rfl, hreg⟩ := hu
            cases hreg
            refine .raise ?_
            rintro _ ⟨⟩
        · rintro _ ⟨⟩
      · rintro _ ⟨⟩

/-- Where the registry has the provenance of every object, descriptions report it. -/
theorem describedConsistently {w : Trace} (hanchored : ∀ k, Anchored w.stores k)
    (hconsistent : ∀ k, Consistent settings w k) : DescribedConsistently settings w := by
  intro tenant label object u hrun
  obtain ⟨k, row, hreports, hrow⟩ :=
    (describeObject_reports hanchored tenant label).completes hrun object rfl
  rw [hreports.key, hreports.source, hreports.producingSql, hreports.parents]
  rcases hrow with hrow | ⟨hparents, hsource, hsql⟩
  · exact hconsistent k row hrow
  · rw [Provenance, if_neg hsource]
    exact ⟨hsql, hparents⟩

/-- In every run without failures whose ingests and uploads meet no stale parents, every object is
told consistently, also by `describe_object`; and a further operation keeps it so exactly when it
meets none either. -/
theorem provenance_consistent {w : Trace}
    (h : (service settings).Reach (Undisturbed settings) w) :
    (∀ k, Consistent settings w k) ∧ DescribedConsistently settings w ∧
      ∀ op faults w', op.Changes → faults.registryDown = false →
        (service settings).step w (op, faults) w' →
          ((∀ k, Consistent settings w' k) ↔ NoStaleParents settings w op) := by
  obtain ⟨hanchored, _, hconsistent⟩ := reach_outcomes (I := fun w => ∀ k, Consistent settings w k)
    (fun _ _ hpermitted => hpermitted.1.1) (fun _ _ hrow => nomatch hrow)
    (fun w op faults r u hanchored _ hw hpermitted houtcome =>
      (houtcome.consistent_iff hpermitted.1.2 hanchored hw).mpr hpermitted.2) h
  refine ⟨hconsistent, describedConsistently hanchored hconsistent,
    fun op faults w' hop hup hstep => ?_⟩
  obtain ⟨r, u, houtcome, rfl⟩ := outcome_of_step hop hstep
  exact houtcome.consistent_iff hup hanchored hconsistent

end

section

attribute [local instance] asciiPython eventsSqlglot textEngines externalBackend

/-- The object `d` is derived from `events`. -/
def derivedEvents : Trace :=
  (Trace.next {} {} (ingestEvents ["a"] "create" []) {}).next {}
    (.derive "t_acme" "d" "SELECT * FROM events" "create" none "lakehouse") {}

/-- The object is then replaced by an ingest. -/
def replacedDerive : Trace :=
  derivedEvents.next {} (.ingest "t_acme" "d" (textSource ["b"] .inline none inline_ingested)
    "replace" none "lakehouse") {}

/-- The steps up to the derive meet no parents. -/
theorem derivedEvents_reach : (service {}).Reach (Undisturbed {}) derivedEvents := by
  have hingest : (service {}).Reach (Undisturbed {})
      (Trace.next {} {} (ingestEvents ["a"] "create" []) {}) :=
    Trace.reach_next rfl (.init rfl) ⟨⟨trivial, rfl⟩, fun _ _ _ _ =>
      Registry.getParents_eq_nil.mpr rfl⟩
  exact Trace.reach_next rfl hingest ⟨⟨trivial, rfl⟩, fun _ _ hparentless _ => hparentless.elim⟩

/-- The replaced object keeps the parent of the derive. -/
theorem replacedDerive_inconsistent : ∃ w,
    (service {}).Reach (fun _ action => action.1.Changes ∧ action.2 = {}) w ∧
      ¬ ∀ k, Consistent {} w k := by
  refine ⟨replacedDerive, ?_, fun h => ?_⟩
  · refine Trace.reach_next rfl (Trace.reach_next rfl (Trace.reach_next rfl (.init rfl) ?_) ?_) ?_
    · exact ⟨trivial, rfl⟩
    · exact ⟨trivial, rfl⟩
    · exact ⟨trivial, rfl⟩
  · have hrow : replacedDerive.stores.registry.row ("t_acme", "d") =
        some (ingestRow {} "t_acme" "d" .inline none) := by rfl
    have htold := h ("t_acme", "d") _ hrow
    rw [Provenance, if_neg (by decide)] at htold
    revert htold
    decide +kernel

/-- Up to the derive everything is told consistently. -/
theorem derivedEvents_consistent : (∀ k, Consistent {} derivedEvents k) ∧
    DescribedConsistently {} derivedEvents ∧
      ∀ op faults w', op.Changes → faults.registryDown = false →
        (service {}).step derivedEvents (op, faults) w' →
          ((∀ k, Consistent {} w' k) ↔ NoStaleParents {} derivedEvents op) :=
  provenance_consistent derivedEvents_reach

end

end Memcove
