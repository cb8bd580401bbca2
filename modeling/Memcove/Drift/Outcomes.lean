import Memcove.Drift.Writes

/-!
# What an operation did

A complete run of a producer or of a drop, from any stores, is one of a few outcomes, each of which
says all that the run did to the two stores.
-/

namespace Memcove

open Programs KeyedTables

/-- The row, the parents and the table of an object are as they were. -/
structure Untouched (s u : Stores) (k : Key) : Prop where
  row : u.registry.row k = s.registry.row k
  parents : u.registry.getParents k = s.registry.getParents k
  table : u.lakehouse.table k = s.lakehouse.table k

/-- Where nothing was written, no object was touched. -/
theorem Unwritten.untouched {s u : Stores} {k : Key} (h : Unwritten s u k) (k' : Key) :
    Untouched s u k' := by
  rcases h with rfl | rfl
  · exact ⟨rfl, rfl, rfl⟩
  · exact ⟨rfl, rfl, Lakehouse.table_addNamespace _ _ _⟩

/-- A write of one table leaves the others alone. -/
theorem Wrote.table_of_ne {L L' : Lakehouse} {k k' : Key} {columns : Columns}
    (h : Wrote (L.addNamespace k.1) L' k columns) (hk : k' ≠ k) : L'.table k' = L.table k' :=
  (h.others k' hk).trans (Lakehouse.table_addNamespace _ _ _)

/-- A record leaves the rows and the parents of other objects alone. -/
theorem record_of_ne {faults : Faults} {s : Stores} {row : ObjectRow} {tags : List String}
    {parents : Option (List String)} {k : Key} (hk : k ≠ row.key) :
    (s.record faults row tags parents).registry.row k = s.registry.row k ∧
      (s.record faults row tags parents).registry.getParents k = s.registry.getParents k := by
  unfold Stores.record
  split
  · exact ⟨rfl, rfl⟩
  · refine ⟨Registry.row_recordObject_of_ne hk, ?_⟩
    rw [Registry.getParents, Registry.lineage_recordObject_of_ne hk, Registry.getParents]

/-- An object with parents has a row, and one with a row has a table. -/
structure Anchored (s : Stores) (k : Key) : Prop where
  row_of_parents : s.registry.getParents k ≠ [] → (s.registry.row k).isSome = true
  table_of_row : (s.registry.row k).isSome = true → (s.lakehouse.table k).isSome = true

/-- An object without a table has no parents. -/
theorem Anchored.parents_of_none {s : Stores} {k : Key} (h : Anchored s k)
    (hnone : s.lakehouse.table k = none) : s.registry.getParents k = [] := by
  by_contra hparents
  have hsome := h.table_of_row (h.row_of_parents hparents)
  rw [hnone] at hsome
  cases hsome

/-- An object that is left alone stays anchored. -/
theorem Anchored.untouched {s u : Stores} {k : Key} (h : Anchored s k) (hsame : Untouched s u k) :
    Anchored u k where
  row_of_parents hparents := by
    rw [hsame.row]
    exact h.row_of_parents (hsame.parents ▸ hparents)
  table_of_row hrow := by
    rw [hsame.table]
    exact h.table_of_row (hsame.row ▸ hrow)

/-- Where the table exists, not even the namespace is created by a write that is given up. -/
theorem Unwritten.eq {s u : Stores} {k : Key} (h : Unwritten s u k) (hlisted : Listed s.lakehouse)
    (hsome : (s.lakehouse.table k).isSome = true) : u = s := by
  rcases h with rfl | rfl
  · rfl
  · rw [Lakehouse.addNamespace_of_mem (hlisted k hsome)]

/-- A write keeps every table in a namespace. -/
theorem Wrote.listed {L L' : Lakehouse} {k : Key} {columns : Columns}
    (h : Wrote (L.addNamespace k.1) L' k columns) (hlisted : Listed L) : Listed L' := by
  intro k' hsome
  rw [h.namespaces, Lakehouse.mem_addNamespace]
  by_cases hk : k' = k
  · exact Or.inl (congrArg Prod.fst hk)
  · rw [h.table_of_ne hk] at hsome
    exact Or.inr (hlisted k' hsome)

variable [Python] [Engines] [Sqlglot]

/-- The columns that an operation brings, with the types in which they are stored. -/
def Operation.incoming (settings : Settings) (L : Lakehouse) : Operation → Columns
  | ingest _ _ source _ _ _ =>
    source.toOption.elim [] (fun resolved => Engines.readBack resolved.table.schema)
  | derive tenant _ sql _ _ _ =>
    (validateSelect (deriveParams settings tenant) sql).toOption.elim []
      (fun guarded => (Engines.select L guarded.sql).1)
  | put schema _ _ => Engines.readBack schema
  | _ => []

/-- The columns that a derive brings are those of its query. -/
theorem Operation.incoming_derive {settings : Settings} {L : Lakehouse}
    {tenant newLabel sql mode target : String} {tags : Option (List String)}
    {guarded : GuardedQuery}
    (hguarded : validateSelect (deriveParams settings tenant) sql = .ok guarded) :
    (derive tenant newLabel sql mode tags target).incoming settings L =
      (Engines.select L guarded.sql).1 := by
  rw [Operation.incoming, hguarded]
  rfl

/-- The columns of the object after an operation wrote it. -/
def Operation.columnsAfter (settings : Settings) (L : Lakehouse) (k : Key) : Operation → Columns
  | derive tenant newLabel sql mode tags target =>
    (derive tenant newLabel sql mode tags target).incoming settings (L.addNamespace k.1)
  | op => ((L.table k).map LakeTable.columns).getD (op.incoming settings L)

/-- The lakehouse accepts the write of the operation to the object. -/
def Operation.Accepted (settings : Settings) (L : Lakehouse) (k : Key) : Operation → Prop
  | ingest _ _ source mode _ _ =>
    ∃ resolved, source = .ok resolved ∧ AcceptsRows L k (.str mode) resolved.table.schema
  | derive tenant _ sql mode _ _ => (mode = "create" ∨ mode = "replace") ∧
    ∃ guarded, validateSelect (deriveParams settings tenant) sql = .ok guarded ∧
      AcceptsSelect L k mode guarded.sql
  | put schema target _ => ∃ mode, target = .ok (k.1, k.2, mode) ∧ AcceptsRows L k mode schema
  | _ => False

/-- The operation is a well-formed replace or append. -/
def Operation.Rewrites (settings : Settings) : Operation → Prop
  | ingest _ _ source mode _ _ =>
    (∃ resolved, source = .ok resolved) ∧ (mode = "replace" ∨ mode = "append")
  | derive tenant _ sql mode _ _ => mode = "replace" ∧
    ∃ guarded, validateSelect (deriveParams settings tenant) sql = .ok guarded
  | put _ target _ => ∃ tenant name mode, target = .ok (tenant, name, mode) ∧
    (mode.isStr "replace" = true ∨ mode.isStr "append" = true)
  | _ => False

/-- Trino may refuse the operation. -/
def Operation.Refusable (faults : Faults) : Operation → Prop
  | derive .. => faults.trinoRefuses = true
  | _ => False

/-- The operations that write or drop lakehouse objects. -/
def Operation.Changes : Operation → Prop
  | ingest .. | derive .. | put .. | drop .. => True
  | describe .. | sweep => False

/-- What a complete run of an operation did. -/
inductive Outcome (settings : Settings) (faults : Faults) (s u : Stores) (op : Operation) :
    Except PyError Unit → Prop
  /-- The operation is about no lakehouse object. -/
  | idle {r} : op.object = none → u = s → Outcome settings faults s u op r
  /-- The write was rejected. -/
  | rejected {k e} : op.object = some k → Unwritten s u k →
      (¬ op.Refusable faults → ¬ op.Accepted settings s.lakehouse k) →
      (¬ op.Refusable faults → (s.lakehouse.table k).isSome = true → op.Rewrites settings →
        e.cls = .schemaMismatchError) → Outcome settings faults s u op (.error e)
  /-- An upload was given up after its first part had created the table. -/
  | abandoned {k e} : op.object = some k → s.lakehouse.table k = none →
      u.registry = s.registry →
      Wrote (s.lakehouse.addNamespace k.1) u.lakehouse k (op.incoming settings s.lakehouse) →
      Outcome settings faults s u op (.error e)
  /-- The object was written, and its metadata recorded unless the registry was unreachable. -/
  | wrote {k w r} : op.object = some k → op.Accepted settings s.lakehouse k →
      op.metadata settings = some w → w.row.key = k →
      Wrote (s.lakehouse.addNamespace k.1) u.lakehouse k
        (op.columnsAfter settings s.lakehouse k) →
      u.registry = (s.record faults w.row w.tags
        (w.references.map (existingParents u.lakehouse k.1))).registry →
      r.isOk = true → Outcome settings faults s u op r
  /-- The object was dropped. -/
  | dropped {k tenant label r} : op = .drop tenant label → op.object = some k →
      u.lakehouse.table k = none → (∀ k', k' ≠ k → u.lakehouse.table k' = s.lakehouse.table k') →
      u.lakehouse.namespaces = s.lakehouse.namespaces →
      u.registry = s.registry.deleteObject k → Outcome settings faults s u op r

variable {settings : Settings} {faults : Faults} {s : Stores}

/-- An operation touches no object but its own. -/
theorem Outcome.untouched {u : Stores} {op : Operation} {r : Except PyError Unit}
    (h : Outcome settings faults s u op r) {k : Key} (hk : op.object ≠ some k) :
    Untouched s u k := by
  have hne {k' : Key} (hobject : op.object = some k') : k ≠ k' := fun h => hk (h ▸ hobject)
  cases h with
  | idle _ hsame =>
    rw [hsame]
    exact ⟨rfl, rfl, rfl⟩
  | rejected _ hunwritten _ _ => exact hunwritten.untouched k
  | abandoned hobject _ hregistry hwrote =>
    exact ⟨by rw [hregistry], by rw [hregistry], hwrote.table_of_ne (hne hobject)⟩
  | wrote hobject _ _ hkey hwrote hregistry _ =>
    obtain ⟨hrow, hparents⟩ := record_of_ne (hkey ▸ hne hobject)
    exact ⟨by rw [hregistry, hrow], by rw [hregistry, hparents], hwrote.table_of_ne (hne hobject)⟩
  | dropped _ hobject _ hothers _ hregistry =>
    refine ⟨?_, ?_, hothers k (hne hobject)⟩
    · rw [hregistry, Registry.row_deleteObject_of_ne (hne hobject)]
    · rw [hregistry, Registry.getParents, Registry.lineage_deleteObject_of_ne (hne hobject),
        Registry.getParents]

/-- Every operation keeps objects anchored. -/
theorem Outcome.anchored {u : Stores} {op : Operation}
    {r : Except PyError Unit} (h : Outcome settings faults s u op r) {k : Key}
    (hs : Anchored s k) : Anchored u k := by
  by_cases hk : op.object = some k
  · cases h with
    | idle hobject => exact nomatch hk.symm.trans hobject
    | rejected _ hunwritten => exact hs.untouched (hunwritten.untouched k)
    | abandoned hobject hnone hregistry hwrote =>
      cases hk.symm.trans hobject
      obtain ⟨t, ht, _⟩ := hwrote.table
      refine ⟨fun hparents => ?_, fun _ => Option.isSome_iff_exists.mpr ⟨t, ht⟩⟩
      rw [hregistry] at hparents
      exact (hparents (hs.parents_of_none hnone)).elim
    | wrote hobject _ _ hkey hwrote hregistry =>
      cases hk.symm.trans hobject
      obtain ⟨t, ht, _⟩ := hwrote.table
      refine ⟨fun hparents => ?_, fun _ => Option.isSome_iff_exists.mpr ⟨t, ht⟩⟩
      rw [hregistry, Stores.record] at hparents ⊢
      split
      · rename_i hdown
        rw [if_pos hdown] at hparents
        exact hs.row_of_parents hparents
      · rw [← hkey]
        exact Option.isSome_iff_exists.mpr ⟨_, Registry.row_recordObject_self⟩
    | dropped _ hobject hnone _ _ hregistry =>
      cases hk.symm.trans hobject
      refine ⟨fun hparents => ?_, fun hrow => ?_⟩
      · rw [hregistry, ne_eq, Registry.getParents_eq_nil, Registry.lineage_deleteObject_self]
          at hparents
        exact (hparents rfl).elim
      · rw [hregistry, Registry.row_deleteObject_self] at hrow
        cases hrow
  · exact hs.untouched (h.untouched hk)

/-- Every operation keeps the tables in namespaces. -/
theorem Outcome.listed {u : Stores} {op : Operation} {r : Except PyError Unit}
    (h : Outcome settings faults s u op r) (hlisted : Listed s.lakehouse) : Listed u.lakehouse := by
  cases h with
  | idle _ hsame =>
    rw [hsame]
    exact hlisted
  | rejected _ hunwritten =>
    rcases hunwritten with rfl | rfl
    · exact hlisted
    · intro k hsome
      rw [Lakehouse.table_addNamespace] at hsome
      exact Lakehouse.mem_addNamespace.mpr (Or.inr (hlisted k hsome))
  | abandoned _ _ _ hwrote => exact hwrote.listed hlisted
  | wrote _ _ _ _ hwrote => exact hwrote.listed hlisted
  | @dropped k _ _ _ _ _ hnone hothers hnamespaces =>
    intro k' hsome
    rw [hnamespaces]
    by_cases hk : k' = k
    · subst hk
      rw [hnone] at hsome
      cases hsome
    · rw [hothers k' hk] at hsome
      exact hlisted k' hsome

/-- What an existing object accepts is a replace or an append. -/
theorem Operation.Accepted.rewrites {op : Operation} {L : Lakehouse} {k : Key} {t : LakeTable}
    (h : op.Accepted settings L k) (ht : L.table k = some t) : op.Rewrites settings := by
  cases op with
  | ingest tenant label source mode tags target =>
    obtain ⟨resolved, hsource, haccepts⟩ := h
    simp only [AcceptsRows, ht] at haccepts
    exact ⟨⟨resolved, hsource⟩, by simpa [Json.isStr] using haccepts.1⟩
  | derive tenant newLabel sql mode tags target =>
    obtain ⟨_, guarded, hguarded, haccepts⟩ := h
    simp only [AcceptsSelect, ht] at haccepts
    exact ⟨haccepts.1, guarded, hguarded⟩
  | put schema target chunks =>
    obtain ⟨mode, htarget, haccepts⟩ := h
    simp only [AcceptsRows, ht] at haccepts
    exact ⟨_, _, mode, htarget, haccepts.1⟩
  | _ => exact h.elim

variable [Backend]

/-- The lakehouse path of `ingest_object`. -/
theorem ingestToLakehouse_ends {tenant label name mode target : String}
    {tags : Option (List String)} {resolved : ResolvedSource}
    (hlabel : validateLabel label = .ok name)
    (hobject : (Operation.ingest tenant label (.ok resolved) mode tags target).object =
      some (tenant, name)) :
    EndsIn (serial faults) s
      (ingestToLakehouse settings tenant name resolved.table resolved.kind resolved.ref mode
        (tags.getD []))
      (fun u r => Outcome settings faults s u
        (.ingest tenant label (.ok resolved) mode tags target) (r.map (fun _ => ()))) := by
  refine (writeArrow_ends (k := (tenant, name)) resolved.table (.str mode)).bind
    (fun u n hu => ?_) (fun u e hu => ?_)
  · obtain ⟨haccepts, hregistry, hwrote⟩ := hu
    obtain ⟨t, ht, _⟩ := hwrote.table
    refine (recordAndDescribe_ends settings
      (ingestRow settings tenant name resolved.kind resolved.ref)
      (validateLabel_label (validateLabel_ok hlabel)) ?_).mono (fun v r hv => ?_)
    · exact Option.isSome_iff_exists.mpr ⟨t, ht⟩
    · obtain ⟨rfl, object, rfl⟩ := hv
      refine .wrote (w := ⟨ingestRow settings tenant name resolved.kind resolved.ref,
        tags.getD [], none⟩) hobject ⟨resolved, rfl, haccepts⟩ ?_ rfl ?_ ?_ rfl
      · exact Operation.metadata_ingest hlabel rfl
      · rw [Stores.lakehouse_record]
        exact hwrote
      · simp only [Stores.record, Option.map_none]
        split
        · exact hregistry
        · rw [hregistry]
  · obtain ⟨hrejects, rfl, hmismatch⟩ := hu
    refine .rejected hobject (Or.inr rfl) (fun _ haccepted => ?_) (fun _ hsome hrewrites => ?_)
    · obtain ⟨resolved', hresolved, haccepts⟩ := haccepted
      cases hresolved
      exact hrejects haccepts
    · apply hmismatch hsome
      simpa [Json.isStr] using hrewrites.2

/-- What `ingest_object` did. -/
theorem ingest_outcome (tenant label : String) (source : PyM ResolvedSource) (mode : String)
    (tags : Option (List String)) (target : String) :
    EndsIn (serial faults) s (ingestObject settings tenant label source mode tags target)
      (fun u r => Outcome settings faults s u (.ingest tenant label source mode tags target)
        (r.map (fun _ => ()))) := by
  refine EndsIn.lift_bind (fun name hlabel => ?_) (fun e hlabel => ?_)
  · split
    · rename_i htarget
      exact .raise (.idle (if_neg htarget.1) rfl)
    · rename_i htarget
      refine EndsIn.lift_bind (fun resolved hsource => ?_) (fun e hsource => ?_)
      · subst hsource
        split
        · rename_i hscratch
          refine (ends_idle (ingestToScratch_idle _ _ _ _ _ _)).mono (fun u r hu => ?_)
          exact .idle (by simp [Operation.object, hscratch]) hu
        · rename_i hscratch
          have htarget : target = "lakehouse" := by
            by_contra hne
            exact htarget ⟨hne, hscratch⟩
          refine ingestToLakehouse_ends hlabel ?_
          simp [Operation.object, htarget, hlabel, Except.toOption]
      · subst hsource
        by_cases htarget : target = "lakehouse"
        · refine .rejected (k := (tenant, name)) ?_ (Or.inl rfl) ?_ ?_
          · simp [Operation.object, htarget, hlabel, Except.toOption]
          · rintro _ ⟨resolved, hresolved, _⟩
            cases hresolved
          · rintro _ _ ⟨⟨resolved, hresolved⟩, _⟩
            cases hresolved
        · exact .idle (if_neg htarget) rfl
  · exact .idle (by simp [Operation.object, hlabel, Except.toOption]) rfl

/-- The lakehouse path of `derive_object`. -/
theorem deriveOperation_ends {tenant newLabel sql mode target name : String}
    {tags : Option (List String)} {guarded : GuardedQuery}
    (hlabel : validateLabel newLabel = .ok name) (hmode : mode = "create" ∨ mode = "replace")
    (hguarded : validateSelect (deriveParams settings tenant) sql = .ok guarded)
    (hobject : (Operation.derive tenant newLabel sql mode tags target).object =
      some (tenant, name)) :
    EndsIn (serial faults) s
      (deriveToLakehouse settings tenant name guarded mode (tags.getD []))
      (fun u r => Outcome settings faults s u
        (.derive tenant newLabel sql mode tags target) (r.map (fun _ => ()))) := by
  refine (deriveToLakehouse_ends (k := (tenant, name)) settings hmode
    (validateLabel_label (validateLabel_ok hlabel)) guarded (tags.getD [])).mono (fun u r hu => ?_)
  cases r with
  | ok object =>
    obtain ⟨haccepts, hwrote, hregistry⟩ := hu
    refine .wrote (w := ⟨deriveRow settings tenant name guarded.sql, tags.getD [],
      some guarded.referencedLabels⟩) hobject ⟨hmode, guarded, hguarded, haccepts⟩ ?_ rfl ?_
      hregistry rfl
    · exact Operation.metadata_derive hlabel hguarded
    · rw [Operation.columnsAfter, Operation.incoming_derive hguarded]
      exact hwrote
  | error e =>
    have hserves (h : ¬ faults.trinoRefuses = true) : faults.trinoRefuses = false := by
      simpa using h
    refine .rejected hobject hu.unwritten (fun hnot haccepted => ?_)
      (fun hnot hsome hrewrites => hu.mismatch (hserves hnot) hsome hrewrites.1)
    obtain ⟨_, guarded', hguarded', haccepts⟩ := haccepted
    cases hguarded.symm.trans hguarded'
    exact hu.reason (hserves hnot) haccepts

omit [Engines] [Sqlglot] [Backend] in
/-- A derivation into the lakehouse is about the object that it names. -/
theorem object_derive {tenant newLabel name sql mode target : String} {tags : Option (List String)}
    (hlabel : validateLabel newLabel = .ok name) :
    (Operation.derive tenant newLabel sql mode tags target).object =
      if target = "lakehouse" then some (tenant, name) else none := by
  simp [Operation.object, hlabel, Except.toOption]

omit [Backend] in
/-- A derivation that stops before its writes because of the mode or the statement. -/
theorem derive_rejected {tenant newLabel name sql mode target : String}
    {tags : Option (List String)} {e : PyError} (hlabel : validateLabel newLabel = .ok name)
    (hnot : ¬ ((mode = "create" ∨ mode = "replace") ∧
      ∃ guarded, validateSelect (deriveParams settings tenant) sql = .ok guarded)) :
    Outcome settings faults s s (.derive tenant newLabel sql mode tags target) (.error e) := by
  by_cases htarget : target = "lakehouse"
  · have hobject : (Operation.derive tenant newLabel sql mode tags target).object =
        some (tenant, name) := (object_derive hlabel).trans (if_pos htarget)
    refine .rejected hobject (Or.inl rfl) (fun _ haccepted => hnot ?_)
      (fun _ _ hrewrites => (hnot ⟨Or.inr hrewrites.1, hrewrites.2⟩).elim)
    obtain ⟨hmode, guarded, hguarded, _⟩ := haccepted
    exact ⟨hmode, guarded, hguarded⟩
  · exact .idle ((object_derive hlabel).trans (if_neg htarget)) rfl

/-- What `derive_object` did. -/
theorem derive_outcome (tenant newLabel sql mode : String) (tags : Option (List String))
    (target : String) :
    EndsIn (serial faults) s (deriveObject settings tenant newLabel sql mode tags target)
      (fun u r => Outcome settings faults s u (.derive tenant newLabel sql mode tags target)
        (r.map (fun _ => ()))) := by
  refine EndsIn.lift_bind (fun name hlabel => ?_) (fun e hlabel => ?_)
  · have hidle (htarget : target ≠ "lakehouse") :
        (Operation.derive tenant newLabel sql mode tags target).object = none :=
      (object_derive hlabel).trans (if_neg htarget)
    split
    · rename_i hmode
      refine .raise ?_
      change Outcome _ _ _ _ _ (.error _)
      apply derive_rejected hlabel
      rintro ⟨rfl | rfl, _⟩
      · exact hmode.1 rfl
      · exact hmode.2 rfl
    · rename_i hmode
      split
      · rename_i htarget
        exact .raise (.idle (hidle htarget.1) rfl)
      · rename_i htarget
        generalize hresult : validateSelect (deriveParams settings tenant) sql = result
        refine EndsIn.lift_bind (fun guarded hguarded => ?_) (fun e he => ?_)
        · subst hguarded
          split
          · rename_i hscratch
            refine (ends_idle (deriveToScratch_idle _ _ _ _ _)).mono (fun u r hu => ?_)
            exact .idle (hidle (by simp [hscratch])) hu
          · rename_i hscratch
            have htarget : target = "lakehouse" := by
              by_contra hne
              exact htarget ⟨hne, hscratch⟩
            have hmode : mode = "create" ∨ mode = "replace" := by
              by_contra hnot
              exact hmode (not_or.mp hnot)
            exact deriveOperation_ends hlabel hmode hresult
              ((object_derive hlabel).trans (if_pos htarget))
        · subst he
          change Outcome _ _ _ _ _ (.error _)
          apply derive_rejected hlabel
          rintro ⟨_, guarded, hguarded⟩
          cases hresult.symm.trans hguarded
  · exact .idle (by simp [Operation.object, hlabel, Except.toOption]) rfl

/-- What an upload did. -/
theorem put_outcome {schema : Columns} (target : PyM (String × String × Json))
    (chunks : List (Option (Batch schema))) :
    EndsIn (serial faults) s (doPut settings target chunks)
      (fun u r => Outcome settings faults s u (.put schema target chunks) r) := by
  refine EndsIn.lift_bind (fun ticket hticket => ?_) (fun e he => ?_)
  · obtain ⟨tenant, name, mode⟩ := ticket
    subst hticket
    refine (putData_ends (k := (tenant, name)) settings mode chunks).bind (fun u state hu => ?_)
      (fun u e hu => ?_)
    · rcases hu with ⟨haccepts, hregistry, hwrote⟩ | ⟨hok, _⟩
      · refine (recordObjectGuarded_ends (streamRow settings tenant name) [] none).bind
          (fun v ok hv => ?_) (fun _ _ hv => nomatch hv.2)
        obtain ⟨rfl, _⟩ := hv
        refine .pure (.wrote (k := (tenant, name)) (w := ⟨streamRow settings tenant name, [], none⟩)
          rfl ⟨mode, rfl, haccepts⟩ rfl rfl ?_ ?_ rfl)
        · rw [Stores.lakehouse_record]
          exact hwrote
        · simp only [Stores.record, Option.map_none]
          split
          · exact hregistry
          · rw [hregistry]
      · cases hok
    · rcases hu with ⟨hrejects, rfl, hmismatch⟩ | ⟨_, hnone, hregistry, hwrote⟩
      · refine .rejected (k := (tenant, name)) rfl (Or.inr rfl) (fun _ haccepted => ?_)
          (fun _ hsome hrewrites => ?_)
        · obtain ⟨mode', htarget, haccepts⟩ := haccepted
          cases htarget
          exact hrejects haccepts
        · obtain ⟨_, _, mode', htarget, hmode⟩ := hrewrites
          cases htarget
          exact hmismatch hsome hmode
      · exact .abandoned rfl hnone hregistry hwrote
  · subst he
    exact .idle rfl rfl

omit [Python] [Sqlglot] in
/-- `catalog.drop_table`. -/
theorem dropTable_ends (k : Key) : EndsIn (serial faults) s (dropTable k.1 k.2) (fun u r =>
    if (s.lakehouse.table k).isSome then
      r = .ok ⟨⟩ ∧ u = ⟨lakehouseAfter s.lakehouse (.dropTable k), s.registry⟩
    else r = .error (objectNotFound k.2) ∧ u = s) := by
  refine ends_tableExists_bind ?_
  split
  · rename_i hsome
    refine (ends_call (c := .dropTable k) ⟨⟨⟩, hsome⟩ (fun _ => id)).mono (fun u r hu => ?_)
    obtain ⟨⟨_, rfl, _⟩, hu⟩ := hu
    exact ⟨rfl, hu⟩
  · exact .raise ⟨rfl, rfl⟩

omit [Python] [Sqlglot] [Backend] in
/-- A dropped table is gone. -/
theorem table_dropTable_self (L : Lakehouse) (k : Key) :
    (lakehouseAfter L (.dropTable k)).table k = none := by
  simp only [lakehouseAfter, Lakehouse.table]
  rw [lookup_remove_self]
  rfl

omit [Sqlglot] in
/-- `drop_object` on a label that passes validation. -/
theorem dropObject_ends {tenant label name : String} (hlabel : validateLabel label = .ok name) :
    EndsIn (serial faults) s (dropObject tenant label) (fun u r =>
      if (s.lakehouse.table (tenant, name)).isSome then
        r = .ok name ∧ u = ⟨lakehouseAfter s.lakehouse (.dropTable (tenant, name)),
          s.registry.deleteObject (tenant, name)⟩
      else r = .error (objectNotFound name) ∧ u = s) := by
  refine EndsIn.lift_bind (fun name' hname => ?_) (fun e he => ?_)
  · rw [hlabel] at hname
    cases hname
    refine (dropTable_ends (tenant, name)).bind (fun u _ hu => ?_) (fun u e hu => ?_)
    · split at hu
      · rename_i hsome
        obtain ⟨_, rfl⟩ := hu
        refine ends_call_bind ⟨⟨⟩, trivial⟩ (fun _ => id) (fun _ _ _ => .pure ?_)
        rw [if_pos hsome]
        exact ⟨rfl, rfl⟩
      · cases hu.1
    · split at hu
      · cases hu.1
      · rename_i hnone
        obtain ⟨herror, rfl⟩ := hu
        cases herror
        rw [if_neg hnone]
        exact ⟨rfl, rfl⟩
  · rw [hlabel] at he
    cases he

/-- What `drop_object` did. -/
theorem drop_outcome (tenant label : String) :
    EndsIn (serial faults) s (dropObject tenant label)
      (fun u r => Outcome settings faults s u (.drop tenant label) (r.map (fun _ => ()))) := by
  cases hlabel : validateLabel label with
  | ok name =>
    have hobject : (Operation.drop tenant label).object = some (tenant, name) := by
      simp [Operation.object, hlabel, Except.toOption]
    refine (dropObject_ends hlabel).mono (fun u r hu => ?_)
    split at hu
    · obtain ⟨rfl, rfl⟩ := hu
      refine .dropped (k := (tenant, name)) rfl hobject (table_dropTable_self _ _)
        (fun k' hk => ?_) rfl rfl
      exact table_lakehouseAfter (c := .dropTable (tenant, name)) (fun h => hk (by
        cases h
        rfl))
    · obtain ⟨rfl, rfl⟩ := hu
      exact .rejected hobject (Or.inl rfl) (fun _ haccepted => haccepted.elim)
        (fun _ _ hrewrites => hrewrites.elim)
  | error e =>
    refine EndsIn.lift_bind (fun name hname => ?_) (fun _ _ => ?_)
    · rw [hlabel] at hname
      cases hname
    · exact .idle (by simp [Operation.object, hlabel, Except.toOption]) rfl

/-- A complete run of a producer or of a drop has one of the outcomes. -/
theorem operation_outcome {op : Operation} (hop : op.Changes) {r : Except PyError Unit} {u : Stores}
    (hrun : Completes (serial faults) s (op.program settings) r u) :
    Outcome settings faults s u op r := by
  have hdone {α : Type} {p : Tool α} (hp : EndsIn (serial faults) s p
      (fun u r => Outcome settings faults s u op (r.map (fun _ => ())))) :
      EndsIn (serial faults) s (do let _ ← p) (fun u r => Outcome settings faults s u op r) :=
    hp.bind (fun _ _ h => .pure h) (fun _ _ h => h)
  cases op with
  | ingest tenant label source mode tags target =>
    exact (hdone (ingest_outcome tenant label source mode tags target)).completes hrun
  | derive tenant newLabel sql mode tags target =>
    exact (hdone (derive_outcome tenant newLabel sql mode tags target)).completes hrun
  | put schema target chunks => exact (put_outcome target chunks).completes hrun
  | drop tenant label => exact (hdone (drop_outcome tenant label)).completes hrun
  | describe tenant label => exact hop.elim
  | sweep => exact hop.elim

end Memcove
