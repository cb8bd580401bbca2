import Memcove.Core.Iceberg
import Memcove.Drift.Atomicity
import Memcove.Drift.Writes
import Memcove.Flight.Commits

/-!
# What an upload leaves in the table

A complete run of `do_put` while no call fails, for every stream of chunks: the rows of the table
are those before the upload, if the mode is append, and then those of the stream. The exception is
an upload of several commits that creates a table which does not accept its own schema.
-/

namespace Memcove

open Programs KeyedTables

section

variable [Python] [Engines] [Backend]

section

variable {faults : Faults} {s : Stores} {k : Key} {table : ArrowTable} {mode : String}

omit [Python] in
/-- The commit of `create_table` and the first append. -/
theorem createAndAppend_complete (hnone : s.lakehouse.table k = none) :
    EndsIn (serial faults) s (createAndAppend k table) (fun u r => ∀ a, r = .ok a →
      u.lakehouse.table k =
        some ⟨s.lakehouse.nextUuid, Engines.readBack table.schema, table.rows⟩) := by
  refine ends_call_bind ⟨_, hnone, rfl⟩ (fun _ => id) (fun handle hhandle _ => ?_)
  obtain ⟨_, rfl⟩ := hhandle
  have htable : (lakehouseAfter s.lakehouse (.createTable k table.schema)).table k =
      some ⟨s.lakehouse.nextUuid, Engines.readBack table.schema, []⟩ :=
    Lakehouse.table_setTable_self _ _ _
  refine EndsIn.perform (fun r _ => ?_)
  rintro a rfl
  simp only [serial, storesAfter, lakehouseAfter] at htable ⊢
  rw [htable]
  exact Lakehouse.table_setTable_self _ _ _

omit [Python] in
/-- The commit of a write to an existing table. -/
theorem commit_complete {u : Stores} {t : LakeTable} {c : Call}
    (ht : s.lakehouse.table k = some t) (hu : u.lakehouse.table k = some t)
    (hc : (mode = "replace" ∧ c = .overwrite (handleOf k t) table.rows) ∨
      (mode = "append" ∧ c = .append (handleOf k t) table.rows)) :
    EndsIn (serial faults) u (call c) (fun v r => ∀ a, r = .ok a →
      v.lakehouse.table k = some (completeTable s.lakehouse k table mode)) := by
  refine EndsIn.perform (fun r _ => ?_)
  rintro a rfl
  rcases hc with ⟨rfl, rfl⟩ | ⟨rfl, rfl⟩
  · simp only [serial, storesAfter, lakehouseAfter, handleOf, hu, completeTable, ht]
    exact Lakehouse.table_setTable_self _ _ _
  · simp only [serial, storesAfter, lakehouseAfter, handleOf, hu, completeTable, ht]
    exact Lakehouse.table_setTable_self _ _ _

/-- Loading an existing table, comparing the schemas, and the commit. -/
theorem rewrite_complete {u : Stores} {t : LakeTable} (op : String) {p : TableHandle → Tool PUnit}
    (hu : u.lakehouse.table k = some t) {Q : Stores → Prop}
    (hcommit : EndsIn (serial faults) u (p (handleOf k t)) (fun v r => ∀ a, r = .ok a → Q v)) :
    EndsIn (serial faults) u (do
      let iceberg ← call (.loadTable k)
      Program.lift (assertSchemaCompatible iceberg.columns table.schema op k.2)
      p iceberg) (fun v r => ∀ a, r = .ok a → Q v) := by
  refine ends_loadTable_bind hu (EndsIn.lift_bind (fun _ _ => hcommit) (fun _ _ => ?_))
  rintro _ ⟨⟩

/-- A write that goes through leaves the complete table. -/
theorem writeArrow_complete (hmode : mode = "create" ∨ mode = "replace" ∨ mode = "append") :
    EndsIn (serial faults) s (writeArrow k.1 k.2 table (.str mode)) (fun u r => ∀ n, r = .ok n →
      u.lakehouse.table k = some (completeTable s.lakehouse k table mode)) := by
  refine ends_call_bind ⟨⟨⟩, trivial⟩ (fun _ => id) (fun _ _ _ => ?_)
  refine ends_tableExists_bind ?_
  have hadded : (s.lakehouse.addNamespace k.1).table k = s.lakehouse.table k :=
    Lakehouse.table_addNamespace _ _ _
  have hcommit : EndsIn (serial faults) ⟨s.lakehouse.addNamespace k.1, s.registry⟩
      (commitArrow k.1 k.2 table (.str mode) ((s.lakehouse.addNamespace k.1).table k).isSome)
      (fun u r => ∀ a, r = .ok a →
        u.lakehouse.table k = some (completeTable s.lakehouse k table mode)) := by
    rw [hadded]
    cases ht : s.lakehouse.table k with
    | none =>
      have hcomplete : completeTable s.lakehouse k table mode =
          ⟨(s.lakehouse.addNamespace k.1).nextUuid, Engines.readBack table.schema,
            table.rows⟩ := by
        simp only [completeTable, ht, Lakehouse.nextUuid_addNamespace]
      rw [Option.isSome_none, commitArrow_absent hmode, hcomplete]
      exact createAndAppend_complete (hadded.trans ht)
    | some t =>
      have hu := hadded.trans ht
      rcases hmode with rfl | rfl | rfl
      · refine .raise ?_
        rintro _ ⟨⟩
      · exact rewrite_complete "replace" (p := fun iceberg => call (.overwrite iceberg table.rows))
          hu (commit_complete ht hu (Or.inl ⟨rfl, rfl⟩))
      · exact rewrite_complete "append" (p := fun iceberg => call (.append iceberg table.rows))
          hu (commit_complete ht hu (Or.inr ⟨rfl, rfl⟩))
  exact hcommit.bind (fun u a hu => .pure (fun _ _ => hu a rfl)) (fun _ _ _ => by rintro _ ⟨⟩)

end

/-- The rows that an upload in the given mode keeps. -/
def keptRows (L : Lakehouse) (k : Key) (mode : String) : Rows :=
  if mode = "append" then ((L.table k).map LakeTable.rows).getD [] else []

/-- The table has the columns of the object, and the given rows after those that are kept. -/
def Holds (L L' : Lakehouse) (k : Key) (mode : String) (schema : Columns) (rows : Rows) : Prop :=
  ∃ t, L'.table k = some t ∧ t.columns = columnsAfter L k schema ∧
    t.rows = keptRows L k mode ++ rows

omit [Python] [Backend] in
/-- What a complete write leaves. -/
theorem completeTable_holds {L L' : Lakehouse} {k : Key} {table : ArrowTable} {mode : String}
    (h : L'.table k = some (completeTable L k table mode)) :
    Holds L L' k mode table.schema table.rows := by
  refine ⟨_, h, ?_, ?_⟩
  · cases ht : L.table k <;> simp [completeTable, columnsAfter, ht]
  · by_cases happend : mode = "append"
    · cases ht : L.table k <;> simp [completeTable, keptRows, ht, happend]
    · cases ht : L.table k <;> simp [completeTable, keptRows, ht, happend]

omit [Python] [Backend] in
/-- What one more append leaves. -/
theorem Holds.append {L L' L'' : Lakehouse} {k : Key} {mode : String} {schema : Columns}
    {rows : Rows} {table : ArrowTable} (h : Holds L L' k mode schema rows)
    (htable : L''.table k = some (completeTable L' k table "append")) :
    Holds L L'' k mode schema (rows ++ table.rows) := by
  obtain ⟨t, ht, hcolumns, hrows⟩ := h
  refine ⟨_, htable, ?_, ?_⟩
  · simpa [completeTable, ht] using hcolumns
  · simp [completeTable, ht, hrows]

variable {settings : Settings} {s : Stores} {k : Key} {mode : String} {schema : Columns}

/-- The table was created by this upload, and does not accept the schema of the stream a second
time. -/
structure Refused (s : Stores) (k : Key) (schema : Columns) (e : PyError) : Prop where
  mismatch : e.cls = .schemaMismatchError
  created : s.lakehouse.table k = none
  incompatible : ¬ Compatible (Engines.readBack schema) schema

/-- An append to a table that holds a part of the upload. -/
theorem append_holds {faults : Faults} {u : Stores} {rows : Rows} (table : ArrowTable)
    (haccepts : AcceptsRows s.lakehouse k (.str mode) table.schema)
    (hu : Holds s.lakehouse u.lakehouse k mode table.schema rows) :
    EndsIn (serial faults) u (writeArrow k.1 k.2 table (.str "append")) (fun v r => match r with
      | .ok _ => Holds s.lakehouse v.lakehouse k mode table.schema (rows ++ table.rows)
      | .error e => Refused s k table.schema e) := by
  refine ((writeArrow_ends table (.str "append")).and
    (writeArrow_complete (Or.inr (Or.inr rfl)))).mono (fun v r hv => ?_)
  cases r with
  | ok n => exact hu.append (hv.2 n rfl)
  | error e =>
    obtain ⟨⟨hrejects, _, hmismatch⟩, _⟩ := hv
    obtain ⟨t, ht, hcolumns, _⟩ := hu
    have hmisfit : ¬ Compatible (columnsAfter s.lakehouse k table.schema) table.schema := by
      intro hfits
      apply hrejects
      simp only [AcceptsRows, ht]
      exact ⟨Or.inr rfl, hcolumns ▸ hfits⟩
    have hcls := hmismatch (Option.isSome_iff_exists.mpr ⟨t, ht⟩) (Or.inr rfl)
    cases hs : s.lakehouse.table k with
    | none =>
      simp only [columnsAfter, hs] at hmisfit
      exact ⟨hcls, hs, hmisfit⟩
    | some t₀ =>
      simp only [AcceptsRows, columnsAfter, hs] at haccepts hmisfit
      exact (hmisfit haccepts.2).elim

/-- The data part of an upload. -/
theorem putData_holds {faults : Faults} (settings : Settings)
    (hmode : mode = "create" ∨ mode = "replace" ∨ mode = "append")
    (haccepts : AcceptsRows s.lakehouse k (.str mode) schema)
    (chunks : List (Option (Batch schema))) :
    EndsIn (serial faults) s (putData settings k.1 k.2 (.str mode) chunks) (fun u r => match r with
      | .ok _ => Holds s.lakehouse u.lakehouse k mode schema (uploadRows chunks)
      | .error e => Refused s k schema e) := by
  intro s₀ h hs
  -- before the first commit nothing is changed, after it the committed rows are in the table
  have hwrite : KeptByCommits (alone (serial faults) s₀)
      (fun commits rows h => if commits = 0 then (serial faults).run s₀ h = s ∧ rows = []
        else Holds s.lakehouse ((serial faults).run s₀ h).lakehouse k mode schema rows)
      (fun _ e => Refused s k schema e) schema k.1 k.2 (.str mode) := by
    intro commits rows batches h hcommits
    by_cases hzero : commits = 0
    · subst hzero
      obtain ⟨hstart, rfl⟩ : (serial faults).run s₀ h = s ∧ rows = [] := hcommits
      refine (((writeArrow_ends (fromBatches batches) (.str mode)).and
        (writeArrow_complete hmode)) s₀ h hstart).mono (fun h' r hr => ?_)
      cases r with
      | ok n => exact completeTable_holds (hr.2 n rfl)
      | error e => exact (hr.1.1 haccepts).elim
    · simp only [hzero, if_false] at hcommits ⊢
      refine (append_holds (fromBatches batches) haccepts hcommits s₀ h rfl).mono
        (fun h' r hr => ?_)
      cases r with
      | ok n => exact hr
      | error e => exact hr
  refine (putData_rule hwrite chunks ?_).mono (fun h' r hr => ?_)
  · exact ⟨hs, rfl⟩
  · cases r with
    | ok state =>
      obtain ⟨commits, hne, hholds⟩ := hr
      rw [if_neg hne] at hholds
      exact hholds
    | error e => exact hr

/-- A whole upload while no call fails. -/
theorem doPut_holds (settings : Settings)
    (hmode : mode = "create" ∨ mode = "replace" ∨ mode = "append")
    (haccepts : AcceptsRows s.lakehouse k (.str mode) schema)
    (chunks : List (Option (Batch schema))) :
    EndsIn (serial {}) s (doPut settings (.ok (k.1, k.2, .str mode)) chunks)
      (fun u r => match r with
      | .ok _ => Holds s.lakehouse u.lakehouse k mode schema (uploadRows chunks)
      | .error e => Refused s k schema e) := by
  refine (putData_holds settings hmode haccepts chunks).bind (fun u state hu => ?_)
    (fun _ _ hu => hu)
  refine (recordObjectGuarded_ends (streamRow settings k.1 k.2) [] none).bind (fun v ok hv => ?_)
    (fun _ _ hv => nomatch hv.2)
  obtain ⟨rfl, _⟩ := hv
  refine .pure ?_
  rw [Stores.lakehouse_record]
  exact hu

/-- What is asked of an upload while no call fails. It ends, returns, and leaves in the table the
rows of the stream in arrival order, after the rows before it when the mode is append. It is a list
of writes that depends on the chunks alone, a single one below the threshold. A reader that fails
below the threshold leaves no call behind. -/
structure KeepsRows (settings : Settings) (s : Stores) (k : Key) (mode : String)
    (chunks : List (Option (Batch schema))) : Prop where
  completes : ∃ r u,
    Completes (serial {}) s (doPut settings (.ok (k.1, k.2, .str mode)) chunks) r u
  returns : ∀ r u, Completes (serial {}) s (doPut settings (.ok (k.1, k.2, .str mode)) chunks) r u →
    r = .ok ⟨⟩ ∧ Holds s.lakehouse u.lakehouse k mode schema (uploadRows chunks)
  writes : ∃ writes, UploadPlan schema settings.doputSingleCommitMaxRows (.str mode)
      (uploadRows chunks) writes ∧
    doPut settings (.ok (k.1, k.2, .str mode)) chunks = (do
      writeAll k.1 k.2 writes
      let _ ← recordObjectGuarded (streamRow settings k.1 k.2) [] none
      return ⟨⟩)
  interrupted : ∀ e, ((uploadRows chunks).length : Int) < settings.doputSingleCommitMaxRows →
    doPutInterrupted settings (.ok (k.1, k.2, .str mode)) chunks e = .raise e

/-- A single write that the state before it accepts goes through. -/
theorem singleWrite_ends {table : ArrowTable}
    (haccepts : AcceptsRows s.lakehouse k (.str mode) table.schema) :
    EndsIn (serial {}) s (do
      writeAll k.1 k.2 [(table, .str mode)]
      let _ ← recordObjectGuarded (streamRow settings k.1 k.2) [] none
      return ⟨⟩) (fun _ (r : PyM PUnit) => r = .ok ⟨⟩) := by
  simp only [writeAll_cons, bind_assoc]
  refine (writeArrow_ends table (.str mode)).bind (fun u n _ => ?_)
    (fun _ _ hu => (hu.1 haccepts).elim)
  change EndsIn (serial {}) u (recordObjectGuarded (streamRow settings k.1 k.2) [] none >>= _) _
  exact (recordObjectGuarded_ends _ _ _).bind (fun _ _ _ => .pure rfl)
    (fun _ _ hv => nomatch hv.2)

/-- Two writes onto an absent table whose read-back schema is another one: the second is refused. -/
theorem secondWrite_raises {α : Type} {table later : ArrowTable}
    {rest : List (ArrowTable × Json)} {p : Tool α} (hnone : s.lakehouse.table k = none)
    (hmisfit : ¬ Compatible (Engines.readBack table.schema) later.schema) :
    EndsIn (serial {}) s (do
      writeAll k.1 k.2 ((table, .str mode) :: (later, .str "append") :: rest)
      p) (fun _ r => r.isOk = false) := by
  simp only [writeAll_cons, bind_assoc]
  refine (writeArrow_ends table (.str mode)).bind (fun u n hu => ?_) (fun _ _ _ => rfl)
  obtain ⟨_, _, hwrote⟩ := hu
  obtain ⟨t, ht, hcolumns⟩ := hwrote.table
  have hcolumns : t.columns = Engines.readBack table.schema := by
    rw [hcolumns, columnsAfter, hnone]
    rfl
  refine (writeArrow_ends later (.str "append")).bind (fun v n hv => ?_) (fun _ _ _ => rfl)
  have haccepts := hv.1
  simp only [AcceptsRows, ht, hcolumns] at haccepts
  exact (hmisfit haccepts.2).elim

/-- When rows arrive after the threshold was reached, an upload onto an absent table whose
read-back schema is another one is given up. -/
theorem doPut_raises {chunks : List (Option (Batch schema))}
    (hnone : s.lakehouse.table k = none)
    (hmisfit : ¬ Compatible (Engines.readBack schema) schema)
    (hlarge : ¬ FitsOneCommit settings.doputSingleCommitMaxRows 0 chunks) :
    EndsIn (serial {}) s (doPut settings (.ok (k.1, k.2, .str mode)) chunks)
      (fun _ r => r.isOk = false) := by
  rw [doPut_eq]
  have hplan := uploadWrites_plan settings.doputSingleCommitMaxRows (.str mode) chunks
  rw [← uploadWrites_single_iff (.str mode)] at hlarge
  match hwrites : uploadWrites settings.doputSingleCommitMaxRows (.str mode) chunks with
  | [] => exact (hplan.nonempty hwrites).elim
  | [(table, mode')] =>
    obtain rfl : mode' = .str mode := (hwrites ▸ hplan.modes).1
    exact (hlarge ⟨table, hwrites⟩).elim
  | (table, mode') :: (later, mode'') :: rest =>
    have hmodes := hplan.modes
    have hschema := hplan.schema
    rw [hwrites] at hmodes hschema
    obtain ⟨rfl, hlater⟩ : mode' = .str mode ∧ _ := hmodes
    obtain rfl : mode'' = .str "append" := hlater _ (List.mem_cons_self ..)
    have htable : table.schema = schema := hschema _ (List.mem_cons_self ..)
    have hnext : later.schema = schema :=
      hschema _ (List.mem_cons_of_mem _ (List.mem_cons_self ..))
    exact secondWrite_raises hnone (by rwa [htable, hnext])

/-- An upload keeps its rows exactly when no row arrives after the threshold was reached, or the
table existed, or the schema that is read back from it accepts that of the stream. Otherwise the
guard of `write_arrow` refuses the second write of the upload itself. -/
theorem doPut_keepsRows_iff (settings : Settings)
    (hmode : mode = "create" ∨ mode = "replace" ∨ mode = "append")
    (haccepts : AcceptsRows s.lakehouse k (.str mode) schema)
    (chunks : List (Option (Batch schema))) :
    KeepsRows settings s k mode chunks ↔
      FitsOneCommit settings.doputSingleCommitMaxRows 0 chunks ∨
      (s.lakehouse.table k).isSome = true ∨ Compatible (Engines.readBack schema) schema := by
  have hcompletes : ∃ r u,
      Completes (serial {}) s (doPut settings (.ok (k.1, k.2, .str mode)) chunks) r u :=
    ⟨_, _, Program.execute_completes (serialAnswer_possible (by rintro ⟨⟩))⟩
  constructor
  · intro h
    by_contra hnot
    simp only [not_or, Bool.not_eq_true, Option.isSome_eq_false_iff, Option.isNone_iff_eq_none]
      at hnot
    obtain ⟨hlarge, hnone, hmisfit⟩ := hnot
    obtain ⟨r, u, hrun⟩ := hcompletes
    have hraises := (doPut_raises hnone hmisfit hlarge).completes hrun
    rw [(h.returns r u hrun).1] at hraises
    cases hraises
  · intro hfits
    refine ⟨hcompletes, fun r u hrun => ?_, ⟨_, uploadWrites_plan _ _ chunks, doPut_eq chunks⟩,
      fun e hbelow => doPutInterrupted_below chunks e hbelow⟩
    have hr := (doPut_holds settings hmode haccepts chunks).completes hrun
    cases r with
    | ok _ => exact ⟨rfl, hr⟩
    | error e =>
      rcases hfits with hsmall | hexists | hcompatible
      · -- the only write is made in a state that accepts it
        obtain ⟨table, hwrites⟩ := (uploadWrites_single_iff (.str mode)).mpr hsmall
        have hschema : table.schema = schema :=
          (uploadWrites_plan _ _ chunks).schema (table, .str mode) (by rw [hwrites]; simp)
        subst hschema
        rw [doPut_eq, hwrites] at hrun
        exact nomatch (singleWrite_ends haccepts).completes hrun
      · rw [hr.created] at hexists
        cases hexists
      · exact (hr.incompatible hcompatible).elim

end

section

attribute [local instance] asciiPython textEngines externalBackend

/-- A batch with one text row. -/
def textBatch (v : String) : Batch [("v", .string true)] :=
  ⟨[[.str v]], fun row hrow => by
    rw [List.mem_singleton.mp hrow]
    exact .cons trivial .nil⟩

/-- A stream of two batches, with empty chunks around them. -/
def twoBatches : List (Option (Batch [("v", .string true)])) :=
  [none, some (textBatch "a"), none, some (textBatch "b"), none]

/-- With a threshold of one the two batches are committed one after the other. -/
theorem twoBatches_uploaded :
    KeepsRows { doputSingleCommitMaxRows := 1 } {} ("t_acme", "events") "create" twoBatches :=
  (doPut_keepsRows_iff (s := {}) (k := ("t_acme", "events")) { doputSingleCommitMaxRows := 1 }
    (Or.inl rfl) (Or.inl rfl) twoBatches).mpr (Or.inr (Or.inr ⟨by decide, by decide⟩))

end

section

/-- Engines that read a schema back as PyIceberg does: the child of a list is called `element`. -/
@[reducible] def icebergEngines : Engines where
  readBack columns :=
    ((ArrowType.storeFields columns).map (IcebergType.readBackFields ⟨true, true, true⟩)).getD
      columns
  typeText _ := "string"
  select _ _ := ([], [])

attribute [local instance] asciiPython icebergEngines externalBackend

/-- A batch with one row, in a column of lists as `pa.list_(pa.int64())` is. -/
def listBatch : Batch [("xs", .list false "item" (.integer 64 true))] :=
  ⟨[[.null]], fun row hrow => by
    rw [List.mem_singleton.mp hrow]
    exact .cons trivial .nil⟩

/-- Two batches with a list column are not uploaded at a threshold of one. -/
theorem twoLists_refused :
    AcceptsRows ({} : Stores).lakehouse ("t_acme", "events") (.str "create")
        [("xs", .list false "item" (.integer 64 true))] ∧
      ¬ KeepsRows { doputSingleCommitMaxRows := 1 } {} ("t_acme", "events") "create"
        [some listBatch, some listBatch] := by
  refine ⟨Or.inl rfl, fun h => ?_⟩
  have hlarge : ¬ FitsOneCommit 1 0 [some listBatch, some listBatch] := fun hfits =>
    nomatch hfits [some listBatch] [some listBatch] rfl (by decide) (by decide)
  have hmisfit : ¬ Compatible
      (Engines.readBack [("xs", .list false "item" (.integer 64 true))])
      [("xs", .list false "item" (.integer 64 true))] := by
    unfold Compatible
    decide +kernel
  obtain ⟨r, u, hrun⟩ := h.completes
  have hraises := (doPut_raises rfl hmisfit hlarge).completes hrun
  rw [(h.returns r u hrun).1] at hraises
  cases hraises

end

end Memcove
