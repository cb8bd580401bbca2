import Memcove.Drift.Serial

/-!
# What the writes of a tool did

The three ways in which data reaches a table of the lakehouse: `write_arrow`, an upload of several
chunks, and `CREATE TABLE AS` of a derive. A complete run of each either writes the table of its
object and nothing else, or changes no table. Which of the two happens is decided by the arguments
and by the table before the run.
-/

namespace Memcove

open Programs KeyedTables

/-- The table of a key was written and now has the given columns; nothing else was changed. -/
structure Wrote (L L' : Lakehouse) (k : Key) (columns : Columns) : Prop where
  table : ∃ t, L'.table k = some t ∧ t.columns = columns
  others : ∀ k', k' ≠ k → L'.table k' = L.table k'
  namespaces : L'.namespaces = L.namespaces

/-- One write after the other. -/
theorem Wrote.trans {L L' L'' : Lakehouse} {k : Key} {columns columns' : Columns}
    (h : Wrote L L' k columns) (h' : Wrote L' L'' k columns') : Wrote L L'' k columns' where
  table := h'.table
  others k' hk := (h'.others k' hk).trans (h.others k' hk)
  namespaces := h'.namespaces.trans h.namespaces

section

variable [Engines]

/-- A call that changes the table of a key writes it, when the table exists afterwards. -/
theorem wrote_of_changes {L : Lakehouse} {c : Call} {k : Key} {t : LakeTable}
    (hc : c.changes = some k) (ht : (lakehouseAfter L c).table k = some t) :
    Wrote L (lakehouseAfter L c) k t.columns where
  table := ⟨t, ht, rfl⟩
  others k' hk := table_lakehouseAfter (fun h => hk (by
    rw [hc] at h
    cases h
    rfl))
  namespaces := namespaces_lakehouseAfter hc

variable [Python]

/-- Rows with the given columns are accepted for the object. -/
def AcceptsRows (L : Lakehouse) (k : Key) (mode : Json) (schema : Columns) : Prop :=
  match L.table k with
  | none => mode.isStr "create" = true ∨ mode.isStr "replace" = true ∨ mode.isStr "append" = true
  | some t => (mode.isStr "replace" = true ∨ mode.isStr "append" = true) ∧
    Compatible t.columns schema

/-- The columns of the object after rows were written: those it had, or those of the rows. -/
def columnsAfter (L : Lakehouse) (k : Key) (schema : Columns) : Columns :=
  ((L.table k).map LakeTable.columns).getD (Engines.readBack schema)

/-- What `write_arrow` did. A rejected write has at most created the namespace, and a replace or an
append of an existing object is rejected as a schema mismatch only. -/
def RowsWritten (s u : Stores) (k : Key) (mode : Json) (schema : Columns) {α : Type} :
    Except PyError α → Prop
  | .ok _ => AcceptsRows s.lakehouse k mode schema ∧ u.registry = s.registry ∧
    Wrote (s.lakehouse.addNamespace k.1) u.lakehouse k (columnsAfter s.lakehouse k schema)
  | .error e => ¬ AcceptsRows s.lakehouse k mode schema ∧
    u = ⟨s.lakehouse.addNamespace k.1, s.registry⟩ ∧
    ((s.lakehouse.table k).isSome = true →
      mode.isStr "replace" = true ∨ mode.isStr "append" = true → e.cls = .schemaMismatchError)

variable [Backend] {faults : Faults} {s : Stores} {k : Key}

omit [Python] in
/-- A commit through the handle of the table goes through. -/
theorem commit_ends {t : LakeTable} {rows : Rows} {c : Call}
    (hc : c = .overwrite (handleOf k t) rows ∨ c = .append (handleOf k t) rows)
    (ht : s.lakehouse.table k = some t) :
    EndsIn (serial faults) s (call c) (fun u r => r.isOk = true ∧ u.registry = s.registry ∧
      Wrote s.lakehouse u.lakehouse k t.columns) := by
  have haccepts : s.lakehouse.accepts (handleOf k t) := ⟨t, ht, rfl⟩
  have hset (rows : Rows) : (s.lakehouse.setTable k { t with rows := rows }).table k =
      some { t with rows := rows } := Lakehouse.table_setTable_self _ _ _
  have htable : ∃ rows, (lakehouseAfter s.lakehouse c).table k = some { t with rows := rows } := by
    rcases hc with rfl | rfl
    · refine ⟨rows, ?_⟩
      simp only [lakehouseAfter, handleOf, ht]
      exact hset rows
    · refine ⟨t.rows ++ rows, ?_⟩
      simp only [lakehouseAfter, handleOf, ht]
      exact hset (t.rows ++ rows)
  obtain ⟨rows', htable⟩ := htable
  have hchanges : c.changes = some k := by
    rcases hc with rfl | rfl <;> rfl
  have hwrote : Wrote s.lakehouse (lakehouseAfter s.lakehouse c) k t.columns :=
    wrote_of_changes (t := { t with rows := rows' }) hchanges htable
  have hcall : EndsIn (serial faults) s (call c) (fun u r =>
      (∃ a, r = .ok a ∧ Returns s c a ∧ Truthful s c a) ∧
        u = ⟨lakehouseAfter s.lakehouse c, registryAfter s.registry c⟩) := by
    rcases hc with rfl | rfl
    · exact ends_call ⟨⟨⟩, haccepts⟩ (fun _ => id)
    · exact ends_call ⟨⟨⟩, haccepts⟩ (fun _ => id)
  refine hcall.mono (fun u r hu => ?_)
  obtain ⟨⟨a, rfl, _⟩, rfl⟩ := hu
  refine ⟨rfl, ?_, hwrote⟩
  rcases hc with rfl | rfl <;> rfl

omit [Python] in
/-- A new table is created and filled. -/
theorem createAndAppend_ends {table : ArrowTable} (hnone : s.lakehouse.table k = none) :
    EndsIn (serial faults) s (createAndAppend k table) (fun u r => r.isOk = true ∧
      u.registry = s.registry ∧
      Wrote s.lakehouse u.lakehouse k (Engines.readBack table.schema)) := by
  refine ends_call_bind ⟨_, hnone, rfl⟩ (fun _ => id) (fun handle hhandle _ => ?_)
  obtain ⟨_, rfl⟩ := hhandle
  have htable : (lakehouseAfter s.lakehouse (.createTable k table.schema)).table k =
      some ⟨s.lakehouse.nextUuid, Engines.readBack table.schema, []⟩ :=
    Lakehouse.table_setTable_self _ _ _
  refine (commit_ends (s := ⟨_, _⟩) (Or.inr rfl) htable).mono (fun u r hu => ?_)
  obtain ⟨hok, hregistry, hwrote⟩ := hu
  exact ⟨hok, hregistry, (wrote_of_changes rfl htable).trans hwrote⟩

/-- Creating the table of an object without one, in any of the three modes. -/
theorem create_ends {mode : Json} {table : ArrowTable} (hnone : s.lakehouse.table k = none)
    (hmode : mode.isStr "create" = true ∨ mode.isStr "replace" = true ∨
      mode.isStr "append" = true) :
    EndsIn (serial faults) ⟨s.lakehouse.addNamespace k.1, s.registry⟩ (createAndAppend k table)
      (fun u r => RowsWritten s u k mode table.schema r) := by
  have hnone' : (s.lakehouse.addNamespace k.1).table k = none :=
    (Lakehouse.table_addNamespace _ _ _).trans hnone
  refine (createAndAppend_ends hnone').mono (fun u r hu => ?_)
  obtain ⟨hok, hregistry, hwrote⟩ := hu
  cases r with
  | error e => cases hok
  | ok a =>
    refine ⟨?_, hregistry, ?_⟩
    · simp only [AcceptsRows, hnone]
      exact hmode
    · simp only [columnsAfter, hnone]
      exact hwrote

/-- Writing to an existing table, in one of the two modes that do: the comparison of the schemas
decides. -/
theorem rewrite_ends {mode : Json} {table : ArrowTable} {t : LakeTable} (op : String)
    {p : TableHandle → Tool PUnit} (ht : s.lakehouse.table k = some t)
    (hmode : mode.isStr "replace" = true ∨ mode.isStr "append" = true)
    (hcommit : EndsIn (serial faults) ⟨s.lakehouse.addNamespace k.1, s.registry⟩
      (p (handleOf k t)) (fun u r => r.isOk = true ∧ u.registry = s.registry ∧
        Wrote (s.lakehouse.addNamespace k.1) u.lakehouse k t.columns)) :
    EndsIn (serial faults) ⟨s.lakehouse.addNamespace k.1, s.registry⟩ (do
      let iceberg ← call (.loadTable k)
      Program.lift (assertSchemaCompatible iceberg.columns table.schema op k.2)
      p iceberg) (fun u r => RowsWritten s u k mode table.schema r) := by
  have ht' : (s.lakehouse.addNamespace k.1).table k = some t :=
    (Lakehouse.table_addNamespace _ _ _).trans ht
  refine ends_loadTable_bind ht' (EndsIn.lift_bind (fun _ hok => ?_) (fun e he => ?_))
  · have hfits : Compatible t.columns table.schema := by
      by_contra hnot
      obtain ⟨message, herror⟩ := assertSchemaCompatible_error op k.2 hnot
      exact nomatch hok.symm.trans herror
    refine hcommit.mono (fun u r hu => ?_)
    obtain ⟨hr, hregistry, hwrote⟩ := hu
    cases r with
    | error e => cases hr
    | ok a =>
      refine ⟨?_, hregistry, ?_⟩
      · simp only [AcceptsRows, ht]
        exact ⟨hmode, hfits⟩
      · simp only [columnsAfter, ht]
        exact hwrote
  · have hmisfit : ¬ Compatible t.columns table.schema := fun hfits =>
      nomatch he.symm.trans (assertSchemaCompatible_ok op k.2 hfits)
    refine ⟨?_, rfl, fun _ _ => ?_⟩
    · simp only [AcceptsRows, ht]
      exact fun haccepts => hmisfit haccepts.2
    · obtain ⟨message, herror⟩ := assertSchemaCompatible_error op k.2 hmisfit
      cases he.symm.trans herror
      rfl

/-- The three modes of `write_arrow`. -/
theorem commitArrow_ends (table : ArrowTable) (mode : Json) :
    EndsIn (serial faults) ⟨s.lakehouse.addNamespace k.1, s.registry⟩
      (commitArrow k.1 k.2 table mode (s.lakehouse.table k).isSome)
      (fun u r => RowsWritten s u k mode table.schema r) := by
  unfold commitArrow
  cases htable : s.lakehouse.table k with
  | none =>
    simp only [Option.isSome_none, Bool.false_eq_true, if_false]
    split
    · exact create_ends htable (Or.inl ‹_›)
    · split
      · exact create_ends htable (Or.inr (Or.inl ‹_›))
      · split
        · exact create_ends htable (Or.inr (Or.inr ‹_›))
        · refine .raise ⟨?_, rfl, ?_⟩
          · simp [AcceptsRows, *]
          · simp [htable]
  | some t =>
    have htable' : (s.lakehouse.addNamespace k.1).table k = some t :=
      (Lakehouse.table_addNamespace _ _ _).trans htable
    simp only [Option.isSome_some, if_true]
    split
    · rename_i hcreate
      refine .raise ⟨?_, rfl, fun _ hmode => ?_⟩
      · simp [AcceptsRows, htable, Json.isStr_iff.mp hcreate, Json.isStr]
      · simp [Json.isStr_iff.mp hcreate, Json.isStr] at hmode
    · split
      · exact rewrite_ends "replace" htable (Or.inl ‹_›)
          (p := fun iceberg => call (.overwrite iceberg table.rows))
          (commit_ends (s := ⟨_, _⟩) (Or.inl rfl) htable')
      · split
        · exact rewrite_ends "append" htable (Or.inr ‹_›)
            (p := fun iceberg => call (.append iceberg table.rows))
            (commit_ends (s := ⟨_, _⟩) (Or.inr rfl) htable')
        · refine .raise ⟨?_, rfl, fun _ hmode => ?_⟩
          · simp [AcceptsRows, *]
          · simp [*] at hmode

/-- `write_arrow` either writes the table or changes nothing. -/
theorem writeArrow_ends (table : ArrowTable) (mode : Json) :
    EndsIn (serial faults) s (writeArrow k.1 k.2 table mode)
      (fun u r => RowsWritten s u k mode table.schema r) := by
  refine ends_call_bind ⟨⟨⟩, trivial⟩ (fun _ => id) (fun _ _ _ => ?_)
  refine ends_tableExists_bind ?_
  simp only [lakehouseAfter, registryAfter, Lakehouse.table_addNamespace]
  exact (commitArrow_ends table mode).bind (fun _ _ hu => .pure hu) (fun _ _ hu => hu)

/-- An upload is one write, or it is given up after a part of it has created the table. -/
def UploadWritten (s u : Stores) (k : Key) (mode : Json) (schema : Columns) {α : Type}
    (r : Except PyError α) : Prop :=
  RowsWritten s u k mode schema r ∨
    r.isOk = false ∧ s.lakehouse.table k = none ∧ u.registry = s.registry ∧
      Wrote (s.lakehouse.addNamespace k.1) u.lakehouse k (Engines.readBack schema)

omit [Backend] in
/-- An append to an object that this upload has written before: it is one more write, or the upload
had created the object. -/
theorem uploadWritten_of_append {u v : Stores} {mode : Json} {schema : Columns} {r : PyM ℕ}
    (hwritten : RowsWritten s u k mode schema (.ok PUnit.unit : PyM PUnit))
    (happended : RowsWritten u v k (.str "append") schema r) :
    match (motive := PyM ℕ → Prop) r with
    | .ok _ => RowsWritten s v k mode schema (.ok PUnit.unit : PyM PUnit)
    | .error e => UploadWritten s v k mode schema (.error e : PyM PUnit) := by
  obtain ⟨haccepts, hregistry, hwrote⟩ := hwritten
  obtain ⟨t, ht, hcolumns⟩ := hwrote.table
  have hlisted : u.lakehouse.addNamespace k.1 = u.lakehouse := by
    apply Lakehouse.addNamespace_of_mem
    rw [hwrote.namespaces]
    exact Lakehouse.mem_addNamespace.mpr (Or.inl rfl)
  cases r with
  | ok n =>
    obtain ⟨_, hregistry', hwrote'⟩ := happended
    have hsame : columnsAfter u.lakehouse k schema = columnsAfter s.lakehouse k schema := by
      rw [← hcolumns, columnsAfter, ht]
      rfl
    rw [hlisted, hsame] at hwrote'
    exact ⟨haccepts, hregistry'.trans hregistry, hwrote.trans hwrote'⟩
  | error e =>
    obtain ⟨hrejected, hv, _⟩ := happended
    have hmisfit : ¬ Compatible (columnsAfter s.lakehouse k schema) schema := by
      intro hfits
      apply hrejected
      simp only [AcceptsRows, ht]
      exact ⟨Or.inr rfl, hcolumns ▸ hfits⟩
    cases hs : s.lakehouse.table k with
    | some t₀ =>
      simp only [AcceptsRows, columnsAfter, hs] at haccepts hmisfit
      exact (hmisfit haccepts.2).elim
    | none =>
      simp only [columnsAfter, hs] at hwrote
      refine Or.inr ⟨rfl, hs, ?_, ?_⟩
      · rw [hv]
        exact hregistry
      · rw [hv, hlisted]
        exact hwrote

/-- The data part of an upload. -/
theorem putData_ends (settings : Settings) {schema : Columns} (mode : Json)
    (chunks : List (Option (Batch schema))) :
    EndsIn (serial faults) s (putData settings k.1 k.2 mode chunks)
      (fun u r => UploadWritten s u k mode schema r) := by
  intro s₀ h hs
  -- before the first commit the stores are those of the start, after it the object is written
  have hwrite : KeptByCommits (alone (serial faults) s₀)
      (fun commits _ h => if commits = 0 then (serial faults).run s₀ h = s
        else RowsWritten s ((serial faults).run s₀ h) k mode schema (.ok ⟨⟩ : PyM PUnit))
      (fun h e => UploadWritten s ((serial faults).run s₀ h) k mode schema (.error e : PyM PUnit))
      schema k.1 k.2 mode := by
    intro commits rows batches h hcommits
    by_cases hzero : commits = 0
    · subst hzero
      refine (writeArrow_ends (fromBatches batches) mode s₀ h hcommits).mono (fun h' r hr => ?_)
      cases r with
      | ok n => exact hr
      | error e => exact Or.inl hr
    · simp only [hzero, if_false] at hcommits ⊢
      refine (writeArrow_ends (k := k) (fromBatches batches) (.str "append") s₀ h rfl).mono
        (fun h' r hr => ?_)
      have happended := uploadWritten_of_append hcommits hr
      cases r with
      | ok n => exact happended
      | error e => exact happended
  refine (putData_rule hwrite chunks (by simpa using hs)).mono (fun h' r hr => ?_)
  cases r with
  | ok state =>
    obtain ⟨commits, hne, hwritten⟩ := hr
    rw [if_neg hne] at hwritten
    exact Or.inl hwritten
  | error e => exact hr

/-- Two lists of columns have the same names. -/
def SameNames (old new : Columns) : Prop := ∀ name, name ∈ old.map (·.1) ↔ name ∈ new.map (·.1)

omit [Python] [Backend] in
/-- The result of a query is accepted for the object. -/
def AcceptsSelect (L : Lakehouse) (k : Key) (mode : String) (sql : List Token) : Prop :=
  match L.table k with
  | none => True
  | some t => mode = "replace" ∧ SameNames t.columns (Engines.select L sql).1

/-- Nothing was written; the namespace may have been created. -/
def Unwritten (s u : Stores) (k : Key) : Prop :=
  u = s ∨ u = ⟨s.lakehouse.addNamespace k.1, s.registry⟩

/-- A derive was rejected: its query was refused, or the object does not accept its result. Unless
the query was refused, a replace of an existing object is rejected as a schema mismatch only. -/
structure DeriveRejected (faults : Faults) (s u : Stores) (k : Key) (mode : String)
    (sql : List Token) (e : PyError) : Prop where
  unwritten : Unwritten s u k
  reason : faults.trinoRefuses = false → ¬ AcceptsSelect s.lakehouse k mode sql
  mismatch : faults.trinoRefuses = false → (s.lakehouse.table k).isSome = true →
    mode = "replace" → e.cls = .schemaMismatchError

omit [Python] [Backend] in
/-- A query that was refused. -/
theorem DeriveRejected.refused {u : Stores} {mode : String} {sql : List Token} {e : PyError}
    (hunwritten : Unwritten s u k) (hrefuses : faults.trinoRefuses = true) :
    DeriveRejected faults s u k mode sql e where
  unwritten := hunwritten
  reason hnot := nomatch hrefuses.symm.trans hnot
  mismatch hnot := nomatch hrefuses.symm.trans hnot

/-- The parents that a derive finds. -/
def existingParents (L : Lakehouse) (tenant : String) (labels : List String) : List String :=
  labels.filter (fun label => (L.table (tenant, label)).isSome)

/-- What the lakehouse path of a derive did. -/
def Derived [Sqlglot] (settings : Settings) (faults : Faults) (s u : Stores) (k : Key)
    (mode : String) (guarded : GuardedQuery) (tags : List String) {α : Type} :
    Except PyError α → Prop
  | .ok _ => AcceptsSelect s.lakehouse k mode guarded.sql ∧
    Wrote (s.lakehouse.addNamespace k.1) u.lakehouse k
      (Engines.select (s.lakehouse.addNamespace k.1) guarded.sql).1 ∧
    u.registry = (s.record faults (deriveRow settings k.1 k.2 guarded.sql) tags
      (some (existingParents u.lakehouse k.1 guarded.referencedLabels))).registry
  | .error e => DeriveRejected faults s u k mode guarded.sql e

omit [Python] in
/-- The parents of a derive. -/
theorem selectParents_ends (tenant : String) (labels : List String) :
    EndsIn (serial faults) s (Program.select (fun label => tableExists tenant label) labels)
      (fun u r => u = s ∧ r = .ok (existingParents s.lakehouse tenant labels)) := by
  induction labels with
  | nil => exact .pure ⟨rfl, rfl⟩
  | cons label labels ih =>
    refine ends_tableExists_bind ?_
    refine ih.bind (fun u parents hu => ?_) (fun _ _ hu => nomatch hu.2)
    obtain ⟨rfl, hparents⟩ := hu
    cases hparents
    refine .pure ⟨rfl, ?_⟩
    simp only [existingParents, List.filter_cons]

omit [Engines] [Python] [Backend] in
/-- The comparison of the column names of a derive. -/
theorem sameNames_iff {old new : Columns} : ((old.map (·.1)).all (new.map (·.1)).contains &&
    (new.map (·.1)).all (old.map (·.1)).contains) = true ↔ SameNames old new := by
  simp only [Bool.and_eq_true, List.all_eq_true, List.contains_iff_mem]
  exact ⟨fun h name => ⟨h.1 name, h.2 name⟩, fun h => ⟨fun name => (h name).mp,
    fun name => (h name).mpr⟩⟩

/-- The checks of a derive. -/
theorem checkDerive_ends {mode : String} (hmode : mode = "create" ∨ mode = "replace")
    (sql : List Token) :
    EndsIn (serial faults) s (checkDerive k.1 k.2 sql mode (s.lakehouse.table k).isSome)
      (fun u r => match r with
        | .ok _ => u = s ∧ AcceptsSelect s.lakehouse k mode sql
        | .error e => DeriveRejected faults s u k mode sql e) := by
  unfold checkDerive
  cases htable : s.lakehouse.table k with
  | none =>
    simp only [Option.isSome_none, Bool.false_eq_true, and_false, if_false]
    refine .pure ⟨rfl, ?_⟩
    simp [AcceptsSelect, htable]
  | some t =>
    simp only [Option.isSome_some, and_true]
    rcases hmode with rfl | rfl
    · rw [if_pos rfl]
      refine .raise ⟨Or.inl rfl, fun _ => ?_, fun _ _ hreplace => absurd hreplace (by decide)⟩
      simp [AcceptsSelect, htable]
    · rw [if_neg (by decide), if_pos rfl]
      refine (loadSchema_ends htable).bind (fun u existing hu => ?_) (fun _ _ hu => nomatch hu.2)
      obtain ⟨rfl, hexisting⟩ := hu
      cases hexisting
      refine EndsIn.perform_bind (fun new hnew => ?_) (fun e he => ?_)
      · obtain rfl : new = (Engines.select u.lakehouse sql).1.map (·.1) := hnew.2.1
        have hnames : (t.columns.map (fun column =>
            (⟨column.1, Engines.typeText column.2⟩ : ColumnSchema))).map (·.name) =
              t.columns.map (·.1) := by
          rw [List.map_map]
          rfl
        change EndsIn (serial faults) u _ _
        dsimp only
        rw [hnames]
        split
        · rename_i hsame
          refine .pure ⟨rfl, ?_⟩
          simp only [AcceptsSelect, htable]
          exact ⟨trivial, sameNames_iff.mp hsame⟩
        · rename_i hdiffer
          refine .raise ⟨Or.inl rfl, fun _ haccepts => ?_, fun _ _ _ => rfl⟩
          simp only [AcceptsSelect, htable] at haccepts
          exact hdiffer (sameNames_iff.mpr haccepts.2)
      · rcases he with hrefuses | hno
        · exact .refused (Or.inl rfl) hrefuses
        · exact (hno [] trivial).elim

variable [Sqlglot]

/-- The lakehouse path of `derive_object`. -/
theorem deriveToLakehouse_ends (settings : Settings) {mode : String}
    (hmode : mode = "create" ∨ mode = "replace") (hlabel : validateLabel k.2 = .ok k.2)
    (guarded : GuardedQuery) (tags : List String) :
    EndsIn (serial faults) s (deriveToLakehouse settings k.1 k.2 guarded mode tags)
      (fun u r => Derived settings faults s u k mode guarded tags r) := by
  refine ends_tableExists_bind ?_
  refine (checkDerive_ends hmode guarded.sql).bind (fun u _ hu => ?_) (fun _ _ hu => hu)
  obtain ⟨rfl, haccepts⟩ := hu
  refine ends_call_bind ⟨⟨⟩, trivial⟩ (fun _ => id) (fun _ _ _ => ?_)
  refine EndsIn.perform_bind (fun _ hcreated => ?_) (fun e he => ?_)
  · have htable := (u.lakehouse.addNamespace k.1).table_createTableAs_self k guarded.sql
    have hwrote := wrote_of_changes (c := .createTableAs (mode == "replace") k guarded.sql) rfl
      htable
    refine (selectParents_ends k.1 guarded.referencedLabels).bind (fun v parents hv => ?_)
      (fun _ _ hv => nomatch hv.2)
    obtain ⟨rfl, hparents⟩ := hv
    cases hparents
    refine (recordAndDescribe_ends settings (deriveRow settings k.1 k.2 guarded.sql) hlabel
      ?_).mono (fun w r hw => ?_)
    · exact Option.isSome_iff_exists.mpr ⟨_, htable⟩
    · obtain ⟨rfl, object, rfl⟩ := hw
      refine ⟨haccepts, ?_, ?_⟩
      · unfold Stores.record
        split <;> exact hwrote
      · unfold Stores.record
        split <;> rfl
  · rcases he with hrefuses | hno
    · exact .refused (Or.inr rfl) hrefuses
    · refine (hno ⟨⟩ ?_).elim
      change (mode == "replace") = true ∨ (u.lakehouse.addNamespace k.1).table k = none
      rw [Lakehouse.table_addNamespace]
      cases htable : u.lakehouse.table k with
      | none => exact Or.inr rfl
      | some t =>
        simp only [AcceptsSelect, htable] at haccepts
        exact Or.inl (beq_iff_eq.mpr haccepts.1)

end

end Memcove
