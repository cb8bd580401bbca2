import Memcove.Flight.Commits
import Memcove.Server.Objects

/-!
# What the operations do to an object

An ingest or an upload puts rows into the object, a derive the result of its query, a drop removes
it, and the description of an object tells its columns and the number of its rows. An operation
that raises has done nothing, or a part of this that is left behind.
-/

namespace Memcove

open Programs

section

variable [Python] [Engines]

/-- Rows were put into the object: into a new one, in place of its rows, or after them. -/
def Placed (schema : Columns) (rows : Rows) (mode : Json) (before after : Option Dataset) : Prop :=
  match before with
  | none => (mode.isStr "create" = true ∨ mode.isStr "replace" = true ∨
      mode.isStr "append" = true) ∧ after = some ⟨Engines.readBack schema, rows⟩
  | some d => Compatible d.columns schema ∧
    (mode.isStr "replace" = true ∧ after = some ⟨d.columns, rows⟩ ∨
      mode.isStr "append" = true ∧ after = some ⟨d.columns, d.rows ++ rows⟩)

/-- What remains of rows that were to be put into the object: nothing, a new object without rows,
or a part of the rows. -/
def Interrupted (schema : Columns) (part : Rows → Prop) (mode : Json)
    (before after : Option Dataset) : Prop :=
  after = before ∨ (before = none ∧ after = some ⟨Engines.readBack schema, []⟩) ∨
    ∃ done, part done ∧ Placed schema done mode before after

/-- Rows that are put after the first ones. -/
theorem Placed.append {schema : Columns} {done rows : Rows} {mode : Json}
    {before d after : Option Dataset} (h : Placed schema done mode before d)
    (h' : Placed schema rows (.str "append") d after) :
    Placed schema (done ++ rows) mode before after := by
  have hreplace : (Json.str "append").isStr "replace" = false := by decide
  cases before with
  | none =>
    obtain ⟨hmode, rfl⟩ := h
    obtain ⟨_, ⟨hno, _⟩ | ⟨_, rfl⟩⟩ := h'
    · simp [hreplace] at hno
    · exact ⟨hmode, rfl⟩
  | some d₀ =>
    obtain ⟨hcompatible, ⟨hmode, rfl⟩ | ⟨hmode, rfl⟩⟩ := h
    · obtain ⟨_, ⟨hno, _⟩ | ⟨_, rfl⟩⟩ := h'
      · simp [hreplace] at hno
      · exact ⟨hcompatible, Or.inl ⟨hmode, rfl⟩⟩
    · obtain ⟨_, ⟨hno, _⟩ | ⟨_, rfl⟩⟩ := h'
      · simp [hreplace] at hno
      · exact ⟨hcompatible, Or.inr ⟨hmode, by rw [List.append_assoc]⟩⟩

/-- After rows were put into it the object exists. -/
theorem Placed.exists {schema : Columns} {rows : Rows} {mode : Json}
    {before after : Option Dataset} (h : Placed schema rows mode before after) :
    ∃ d, after = some d := by
  cases before with
  | none => exact ⟨_, h.2⟩
  | some d =>
    rcases h.2 with ⟨_, rfl⟩ | ⟨_, rfl⟩
    · exact ⟨_, rfl⟩
    · exact ⟨_, rfl⟩

end

section

variable [Engines]

/-- The columns of an object, as the tools print them. -/
def Dataset.schema (d : Dataset) : List ColumnSchema :=
  d.columns.map (fun column => ⟨column.1, Engines.typeText column.2⟩)

/-- The description tells the columns of the object, and the number of its rows unless it could not
be counted. -/
def Describes (object : MemoryObject) (state : Option Dataset) : Prop :=
  ∃ d, state = some d ∧ object.schema = d.schema ∧
    (object.rowCount = none ∨ object.rowCount = some (d.rows.length : Int))

end

/-- A commit that replaces what the object holds. -/
def Commits {α : Type} (d : Dataset) (o o' : ObjectState) (r : Except PyError α) : Prop :=
  match r with
  | .ok _ => o' = { o with dataset := some d }
  | .error _ => o' = o

/-- The object of a site with the table. -/
theorem dataset_of_table {σ : Site} {k : Key} {t : LakeTable}
    (h : σ.stores.lakehouse.table k = some t) : σ.dataset k = some t.dataset := by
  rw [Site.dataset, Lakehouse.dataset, h]
  rfl

section

variable [Sqlglot] [Federation] [Engines] {settings : Settings} {k : Key} {moment : ℕ → Site}
  {o : ObjectState} {α : Type} {Q : ObjectState → Except PyError α → Prop}

/-- A call that changes no table leaves the object alone. -/
theorem effect_of_stable {c : Call} (hc : Stable c) (r : Except PyError (Answer c)) :
    (objectMachine settings k moment).effect o ⟨c, r⟩ = o := by
  cases r with
  | ok a => exact if_neg (by rw [hc]; simp)
  | error e => rfl

/-- The rule for a call that changes no table, and what follows it. -/
theorem ends_stable_bind {c : Call} (hc : Stable c) {f : Answer c → Tool α}
    (hok : ∀ a, (objectMachine settings k moment).possible o ⟨c, .ok a⟩ →
      EndsIn (objectMachine settings k moment) o (f a) Q) (herror : ∀ e, Q o (.error e)) :
    EndsIn (objectMachine settings k moment) o (call c >>= f) Q := by
  refine EndsIn.perform_bind (fun a ha => ?_) (fun e _ => herror e)
  rw [effect_of_stable hc]
  exact hok a ha

/-- The rule for a call that changes the object. -/
theorem ends_change {c : Call} (hc : c.changes = some k) :
    EndsIn (objectMachine settings k moment) o (call c) (fun o' r => match r with
      | .ok a => (objectMachine settings k moment).possible o ⟨c, .ok a⟩ ∧
        o' = o.after settings moment c
      | .error _ => o' = o) := by
  refine EndsIn.perform (fun r hr => ?_)
  cases r with
  | ok a => exact ⟨hr, if_pos hc⟩
  | error e => rfl

/-- A program that changes no table leaves the object alone. -/
theorem ends_stable {p : Tool α} (hp : Only Stable p) :
    EndsIn (objectMachine settings k moment) o p (fun o' _ => o' = o) :=
  hp.ends (fun _ hc _ r => effect_of_stable hc r)

/-- Whether the object exists. -/
theorem ends_exists_bind {f : Bool → Tool α} (herror : ∀ e, Q o (.error e))
    (hf : EndsIn (objectMachine settings k moment) o (f o.dataset.isSome) Q) :
    EndsIn (objectMachine settings k moment) o (tableExists k.1 k.2 >>= f) Q := by
  refine ends_stable_bind (c := .tableExists k) rfl (fun exists_ h => ?_) herror
  obtain ⟨σ, n, hdataset, _, hreturns, _⟩ := h
  obtain rfl : exists_ = o.dataset.isSome := by
    rw [← hdataset, Site.dataset, Lakehouse.dataset, Option.isSome_map]
    exact hreturns
  exact hf

/-- The handle of the object. -/
theorem ends_load_bind {f : TableHandle → Tool α} (herror : ∀ e, Q o (.error e))
    (hf : ∀ handle d, handle.key = k → o.dataset = some d → handle.columns = d.columns →
      EndsIn (objectMachine settings k moment) o (f handle) Q) :
    EndsIn (objectMachine settings k moment) o (call (.loadTable k) >>= f) Q := by
  refine ends_stable_bind (c := .loadTable k) rfl (fun handle h => ?_) herror
  obtain ⟨σ, n, hdataset, _, ⟨t, ht, rfl⟩, _⟩ := h
  exact hf _ _ rfl (hdataset.symm.trans (dataset_of_table ht)) rfl

/-- Committing through a handle of the object. -/
theorem ends_commit {handle : TableHandle} (hkey : handle.key = k) {d : Dataset}
    (hd : o.dataset = some d) {c : Call} {d' : Dataset} {rows : Rows}
    (hc : c = .overwrite handle rows ∧ d' = ⟨d.columns, rows⟩ ∨
      c = .append handle rows ∧ d' = ⟨d.columns, d.rows ++ rows⟩) :
    EndsIn (objectMachine settings k moment) o (call c) (Commits d' o) := by
  have hchanges : c.changes = some k := by
    rcases hc with ⟨rfl, _⟩ | ⟨rfl, _⟩
    · exact congrArg some hkey
    · exact congrArg some hkey
  refine (ends_change hchanges).mono (fun o' r hr => ?_)
  cases r with
  | error e => exact hr
  | ok a =>
    refine hr.2.trans ?_
    rcases hc with ⟨rfl, rfl⟩ | ⟨rfl, rfl⟩
    · rw [ObjectState.after, hd]
      rfl
    · rw [ObjectState.after, hd]
      rfl

end

section

variable [Python] [Sqlglot] [Federation] [Engines] {settings : Settings} {k : Key}
  {moment : ℕ → Site} {o : ObjectState}

/-- What a write of rows does: it stores them, or it leaves a part of them behind. -/
def Writes {α : Type} (schema : Columns) (rows : Rows) (part : Rows → Prop) (mode : Json)
    (o o' : ObjectState) (r : Except PyError α) : Prop :=
  o'.derived = o.derived ∧
    match r with
    | .ok _ => Placed schema rows mode o.dataset o'.dataset
    | .error _ => Interrupted schema part mode o.dataset o'.dataset

omit [Sqlglot] [Federation] in
/-- A write that has done nothing. -/
theorem Writes.nothing {α : Type} {schema : Columns} {rows : Rows} {part : Rows → Prop}
    {mode : Json} (e : PyError) : Writes schema rows part mode o o (.error e : Except PyError α) :=
  ⟨rfl, Or.inl rfl⟩

/-- Creating the object. -/
theorem createAndAppend_acts {table : ArrowTable} {mode : Json} (hnone : o.dataset = none)
    (hmode : mode.isStr "create" = true ∨ mode.isStr "replace" = true ∨
      mode.isStr "append" = true) :
    EndsIn (objectMachine settings k moment) o (createAndAppend k table)
      (Writes table.schema table.rows (fun _ => False) mode o) := by
  have hcreate : EndsIn (objectMachine settings k moment) o
      (call (.createTable k table.schema)) _ := ends_change rfl
  refine hcreate.bind (fun o' handle ho' => ?_) (fun o' e ho' => ?_)
  · obtain ⟨⟨σ, n, _, _, ⟨_, hhandle⟩, _⟩, rfl⟩ := ho'
    have hkey : handle.key = k := by rw [hhandle]
    have hcreated : (o.after settings moment (.createTable k table.schema)).dataset =
        some ⟨Engines.readBack table.schema, []⟩ := rfl
    refine (ends_commit hkey hcreated (Or.inr ⟨rfl, rfl⟩)).mono (fun o' r hr => ?_)
    cases r with
    | error e =>
      obtain rfl := hr
      exact ⟨rfl, Or.inr (Or.inl ⟨hnone, rfl⟩)⟩
    | ok a =>
      obtain rfl := hr
      refine ⟨rfl, ?_⟩
      simp only [Placed, hnone]
      exact ⟨hmode, rfl⟩
  · obtain rfl := ho'
    exact .nothing e

/-- Rewriting the object, when the columns agree. -/
theorem rewrite_acts {table : ArrowTable} {mode : Json} (op : String) {d d' : Dataset}
    (hd : o.dataset = some d) {p : TableHandle → Tool PUnit}
    (hstored : Compatible d.columns table.schema →
      Placed table.schema table.rows mode (some d) (some d'))
    (hp : ∀ handle, handle.key = k →
      EndsIn (objectMachine settings k moment) o (p handle) (Commits d' o)) :
    EndsIn (objectMachine settings k moment) o (do
      let iceberg ← call (.loadTable k)
      Program.lift (assertSchemaCompatible iceberg.columns table.schema op k.2)
      p iceberg) (Writes table.schema table.rows (fun _ => False) mode o) := by
  refine ends_load_bind (fun e => .nothing e) (fun handle d₀ hkey hd₀ hcolumns => ?_)
  obtain rfl : d = d₀ := Option.some.inj (hd.symm.trans hd₀)
  refine EndsIn.lift_bind (fun _ hok => (hp handle hkey).mono (fun o' r hr => ?_))
    (fun e _ => .nothing e)
  cases r with
  | error e =>
    obtain rfl := hr
    exact .nothing e
  | ok a =>
    obtain rfl := hr
    refine ⟨rfl, ?_⟩
    rw [hd]
    refine hstored ?_
    by_contra hnot
    rw [hcolumns] at hok
    obtain ⟨message, herror⟩ := assertSchemaCompatible_error op k.2 hnot
    cases hok.symm.trans herror

/-- The three modes of `write_arrow`. -/
theorem commitArrow_acts (table : ArrowTable) (mode : Json) :
    EndsIn (objectMachine settings k moment) o
      (commitArrow k.1 k.2 table mode o.dataset.isSome)
      (Writes table.schema table.rows (fun _ => False) mode o) := by
  unfold commitArrow
  cases hd : o.dataset with
  | none =>
    simp only [Option.isSome_none, Bool.false_eq_true, if_false]
    split
    · exact createAndAppend_acts hd (Or.inl ‹_›)
    · split
      · exact createAndAppend_acts hd (Or.inr (Or.inl ‹_›))
      · split
        · exact createAndAppend_acts hd (Or.inr (Or.inr ‹_›))
        · exact .raise (.nothing _)
  | some d =>
    simp only [Option.isSome_some, if_true]
    split
    · exact .raise (.nothing _)
    · split
      · exact rewrite_acts "replace" hd (fun h => ⟨h, Or.inl ⟨‹_›, rfl⟩⟩)
          (fun handle hkey => ends_commit hkey hd (Or.inl ⟨rfl, rfl⟩))
      · split
        · exact rewrite_acts "append" hd (fun h => ⟨h, Or.inr ⟨‹_›, rfl⟩⟩)
            (fun handle hkey => ends_commit hkey hd (Or.inr ⟨rfl, rfl⟩))
        · exact .raise (.nothing _)

/-- `write_arrow` stores the rows of its table. -/
theorem writeArrow_acts (table : ArrowTable) (mode : Json) :
    EndsIn (objectMachine settings k moment) o (writeArrow k.1 k.2 table mode)
      (Writes table.schema table.rows (fun _ => False) mode o) := by
  refine ends_stable_bind (c := .createNamespace k.1) rfl (fun _ _ => ?_) (fun e => .nothing e)
  refine ends_exists_bind (fun e => .nothing e) ?_
  exact (commitArrow_acts table mode).bind (fun _ _ hr => .pure hr) (fun _ _ hr => hr)

/-- The writes of an upload after the first ones. -/
theorem writeAll_acts {schema : Columns} {mode : Json} {done : Rows}
    {writes : List (ArrowTable × Json)} (hschema : ∀ write ∈ writes, write.1.schema = schema)
    (hmodes : ∀ write ∈ writes, write.2 = .str "append") {before : ObjectState}
    (hderived : o.derived = before.derived)
    (hdone : Placed schema done mode before.dataset o.dataset) :
    EndsIn (objectMachine settings k moment) o (writeAll k.1 k.2 writes)
      (Writes schema (done ++ (writes.map (fun write => write.1.rows)).flatten)
        (· <+: done ++ (writes.map (fun write => write.1.rows)).flatten) mode before) := by
  induction writes generalizing o done with
  | nil =>
    rw [List.map_nil, List.flatten_nil, List.append_nil]
    exact .pure ⟨hderived, hdone⟩
  | cons write writes ih =>
    obtain ⟨table, mode'⟩ := write
    obtain rfl : table.schema = schema := hschema _ List.mem_cons_self
    obtain rfl : mode' = .str "append" := hmodes _ List.mem_cons_self
    rw [writeAll_cons, List.map_cons, List.flatten_cons, ← List.append_assoc]
    refine (writeArrow_acts table (.str "append")).bind (fun o' _ ho' => ?_) (fun o' e ho' => ?_)
    · exact ih (fun write hwrite => hschema write (List.mem_cons_of_mem _ hwrite))
        (fun write hwrite => hmodes write (List.mem_cons_of_mem _ hwrite))
        (ho'.1.trans hderived) (hdone.append ho'.2)
    · refine ⟨ho'.1.trans hderived, Or.inr (Or.inr ⟨done, ?_, ?_⟩)⟩
      · rw [List.append_assoc]
        exact List.prefix_append _ _
      · rcases ho'.2 with hsame | ⟨hnone, _⟩ | ⟨_, hfalse, _⟩
        · rw [hsame]
          exact hdone
        · obtain ⟨d, hd⟩ := hdone.exists
          cases hd.symm.trans hnone
        · exact hfalse.elim

/-- The writes of an upload store the rows of its chunks. -/
theorem uploadWrites_acts {schema : Columns} {threshold : Int} {mode : Json} {all : Rows}
    {writes : List (ArrowTable × Json)} (hplan : UploadPlan schema threshold mode all writes) :
    EndsIn (objectMachine settings k moment) o (writeAll k.1 k.2 writes)
      (Writes schema all (· <+: all) mode o) := by
  obtain ⟨hrows, hschema, hmodes, hne, _⟩ := hplan
  cases writes with
  | nil => exact (hne rfl).elim
  | cons write writes =>
    obtain ⟨table, mode'⟩ := write
    obtain rfl : table.schema = schema := hschema _ List.mem_cons_self
    obtain ⟨rfl, happend⟩ := hmodes
    rw [List.map_cons, List.flatten_cons] at hrows
    rw [writeAll_cons]
    refine (writeArrow_acts table mode').bind (fun o' _ ho' => ?_) (fun o' e ho' => ?_)
    · rw [← hrows]
      exact writeAll_acts (fun write hwrite => hschema write (List.mem_cons_of_mem _ hwrite))
        happend ho'.1 ho'.2
    · refine ⟨ho'.1, ?_⟩
      rcases ho'.2 with hsame | hcreated | ⟨_, hfalse, _⟩
      · exact Or.inl hsame
      · exact Or.inr (Or.inl hcreated)
      · exact hfalse.elim

end

end Memcove
