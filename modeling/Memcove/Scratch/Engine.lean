import Memcove.Core.Calls
import Memcove.Lib.Sequential

/-!
# Trino behind the scratchpad

The catalogs, schemas and tables of a Trino server, as far as the statements of the scratchpad see
and change them. The tables of the lakehouse are among them, since a `SELECT` may read all of them.
Catalogs can be created while the server runs; a statement on a catalog that does not exist fails.
-/

namespace Memcove

open KeyedTables Programs

/-- A table in Trino: catalog, schema and name. -/
abbrev TableIdent := String × String × String

/-- The result of a `SELECT`, or a table: the columns with their Trino types, and the rows. -/
structure QueryResult where
  columns : List (String × String)
  rows : Rows

/-- The state of a Trino server. -/
structure TrinoState where
  catalogs : List String := []
  schemas : List (String × String) := []
  tables : List (TableIdent × QueryResult) := []

namespace TrinoState

variable {s : TrinoState} {ident ident' : TableIdent}

/-- The table with an identifier. -/
def table (s : TrinoState) (ident : TableIdent) : Option QueryResult :=
  (lookup Prod.fst s.tables ident).map (·.2)

/-- `CREATE CATALOG IF NOT EXISTS`. -/
def addCatalog (s : TrinoState) (catalog : String) : TrinoState :=
  if catalog ∈ s.catalogs then s else { s with catalogs := catalog :: s.catalogs }

/-- `CREATE SCHEMA IF NOT EXISTS`. -/
def addSchema (s : TrinoState) (schema : String × String) : TrinoState :=
  if schema ∈ s.schemas then s else { s with schemas := schema :: s.schemas }

/-- `DROP TABLE IF EXISTS`. -/
def dropTable (s : TrinoState) (ident : TableIdent) : TrinoState :=
  { s with tables := remove Prod.fst s.tables ident }

/-- The names of the tables of a schema, in `information_schema.tables`; with a label only that
one. -/
def tableNames (s : TrinoState) (catalog schema : String) (label : Option String) : List String :=
  (s.tables.filter (fun t => t.1.1 == catalog && t.1.2.1 == schema &&
    label.all (fun l => t.1.2.2 == l))).map (fun t => t.1.2.2)

/-- A new table. -/
def addTable (s : TrinoState) (ident : TableIdent) (result : QueryResult) : TrinoState :=
  { s with tables := s.tables ++ [(ident, result)] }

/-- The catalogs after one was added. -/
@[simp] theorem mem_addCatalog {catalog catalog' : String} :
    catalog ∈ (s.addCatalog catalog').catalogs ↔ catalog = catalog' ∨ catalog ∈ s.catalogs := by
  unfold addCatalog
  split
  · rename_i hmem
    refine (or_iff_right_of_imp ?_).symm
    rintro rfl
    exact hmem
  · exact List.mem_cons

/-- An added schema exists. -/
@[simp] theorem mem_addSchema_self {schema : String × String} :
    schema ∈ (s.addSchema schema).schemas := by
  unfold addSchema
  split
  · assumption
  · exact List.mem_cons_self

/-- Schemas are no catalogs. -/
@[simp] theorem catalogs_addSchema {schema : String × String} :
    (s.addSchema schema).catalogs = s.catalogs := by
  unfold addSchema
  split <;> rfl

/-- Catalogs are no tables. -/
@[simp] theorem table_addCatalog {catalog : String} :
    (s.addCatalog catalog).table ident = s.table ident := by
  unfold addCatalog
  split <;> rfl

/-- Schemas are no tables. -/
@[simp] theorem table_addSchema {schema : String × String} :
    (s.addSchema schema).table ident = s.table ident := by
  unfold addSchema
  split <;> rfl

/-- A dropped table is gone. -/
@[simp] theorem table_dropTable_self : (s.dropTable ident).table ident = none := by
  rw [table, dropTable, lookup_remove_self, Option.map_none]

/-- The other tables stay. -/
theorem table_dropTable_of_ne (h : ident ≠ ident') :
    (s.dropTable ident').table ident = s.table ident := by
  rw [table, dropTable, lookup_remove_of_ne h, table]

/-- Dropping a table that is not there changes no table. -/
theorem table_dropTable_of_none (h : s.table ident' = none) :
    (s.dropTable ident').table ident = s.table ident := by
  by_cases hident : ident = ident'
  · rw [hident, table_dropTable_self, h]
  · exact table_dropTable_of_ne hident

/-- A new table is found. -/
theorem table_addTable_self {result : QueryResult} (h : s.table ident = none) :
    (s.addTable ident result).table ident = some result := by
  rw [table, Option.map_eq_none_iff] at h
  have hnone : s.tables.find? (fun t => decide (t.1 = ident)) = none := h
  simp [table, addTable, lookup, List.find?_append, hnone]

/-- The other tables stay. -/
theorem table_addTable_of_ne {result : QueryResult} (h : ident ≠ ident') :
    (s.addTable ident' result).table ident = s.table ident := by
  simp [table, addTable, lookup, List.find?_append, Ne.symm h]

/-- A table that is listed exists, and conversely. -/
theorem isEmpty_tableNames {catalog schema label : String} :
    (!(s.tableNames catalog schema (some label)).isEmpty) =
      (s.table (catalog, schema, label)).isSome := by
  rw [Bool.eq_iff_iff, table, Option.isSome_map, lookup_isSome_iff]
  simp [tableNames, Prod.ext_iff]

end TrinoState

/-- How Trino reads a `SELECT`: the tables that its text names, and its result, which depends on
these tables alone. Not every result can be stored in a new table: its columns may have no name, or
the same one, or a type that the catalog of the table does not have. -/
class Federated where
  reads : SelectText → List TableIdent
  evaluate : TrinoState → SelectText → Except PyError QueryResult
  stores : TableIdent → SelectText → QueryResult → Except PyError Unit
  evaluate_missing : ∀ {s : TrinoState} {select : SelectText} {ident : TableIdent},
    ident ∈ reads select → s.table ident = none → ∃ e, evaluate s select = .error e
  evaluate_congr : ∀ {s t : TrinoState} {select : SelectText},
    (∀ ident ∈ reads select, s.table ident = t.table ident) →
      (evaluate s select).toOption = (evaluate t select).toOption

variable [Federated]

/-- The new table of a `CREATE TABLE AS`: the result of its `SELECT`, if it can be stored. -/
def Federated.ctas (s : TrinoState) (ident : TableIdent) (select : SelectText) :
    Except PyError QueryResult := do
  let result ← evaluate s select
  stores ident select result
  return result

/-- The `CREATE TABLE AS` goes through when its `SELECT` has a result that can be stored. -/
theorem Federated.ctas_eq_ok_iff {s : TrinoState} {ident : TableIdent} {select : SelectText}
    {result : QueryResult} : ctas s ident select = .ok result ↔
      evaluate s select = .ok result ∧ stores ident select result = .ok () := by
  unfold ctas
  constructor
  · intro h
    obtain ⟨result', hresult, h⟩ := bind_eq_ok h
    obtain ⟨_, hstores, h⟩ := bind_eq_ok h
    cases h
    exact ⟨hresult, hstores⟩
  · rintro ⟨hresult, hstores⟩
    rw [hresult]
    change (stores ident select result >>= fun _ => pure result) = _
    rw [hstores]
    rfl

/-- The catalogs that must exist for a statement. -/
def ScratchStatement.catalogs : ScratchStatement → List String
  | .createCatalog _ _ => []
  | .createSchema catalog _ | .dropTable catalog _ _ | .tableNames catalog _ _
  | .describe catalog _ _ | .count catalog _ _ => [catalog]
  | .createTableAs catalog _ _ select => catalog :: (Federated.reads select).map (·.1)

namespace TrinoState

/-- The answer to a statement on a catalog. -/
def onCatalog {α : Type} (s : TrinoState) (catalog : String) (a : Except PyError α) :
    Except PyError α :=
  if catalog ∈ s.catalogs then a
  else .error (externalError s!"Catalog '{catalog}' does not exist")

/-- The answer to a statement on a table. -/
def onTable {α : Type} (s : TrinoState) (ident : TableIdent) (f : QueryResult → α) :
    Except PyError α :=
  match s.table ident with
  | some t => .ok (f t)
  | none => .error (externalError s!"Table '{ident.2.2}' does not exist")

/-- What Trino answers to a statement. -/
def respond (s : TrinoState) : (statement : ScratchStatement) →
    Except PyError (ScratchAnswer statement)
  | .createCatalog _ _ => .ok ⟨⟩
  | .createSchema catalog _ => s.onCatalog catalog (.ok ⟨⟩)
  | .dropTable catalog _ _ => s.onCatalog catalog (.ok ⟨⟩)
  | .createTableAs catalog schema label select =>
    s.onCatalog catalog
      (if (catalog, schema) ∉ s.schemas then
        .error (externalError s!"Schema '{schema}' does not exist")
      else if (s.table (catalog, schema, label)).isSome then
        .error (externalError s!"Table '{label}' already exists")
      else (Federated.ctas s (catalog, schema, label) select).map (fun _ => ⟨⟩))
  | .tableNames catalog schema label =>
    s.onCatalog catalog (.ok (s.tableNames catalog schema label))
  | .describe catalog schema label =>
    s.onCatalog catalog (s.onTable (catalog, schema, label) QueryResult.columns)
  | .count catalog schema label =>
    s.onCatalog catalog
      (s.onTable (catalog, schema, label) (fun t => some (t.rows.length : Int)))

/-- The state after a statement that went through. -/
def after (s : TrinoState) : ScratchStatement → TrinoState
  | .createCatalog catalog _ => s.addCatalog catalog
  | .createSchema catalog schema => s.addSchema (catalog, schema)
  | .dropTable catalog schema label => s.dropTable (catalog, schema, label)
  | .createTableAs catalog schema label select =>
    match Federated.ctas s (catalog, schema, label) select with
    | .ok result => s.addTable (catalog, schema, label) result
    | .error _ => s
  | .tableNames _ _ _ | .describe _ _ _ | .count _ _ _ => s

end TrinoState

/-- Trino as a machine for the statements of the scratchpad. With failures any statement may fail,
and then changes nothing; without, only those that cannot go through. -/
def trino (failures : Bool) : Machine Call Answer PyError TrinoState where
  possible s event :=
    match event with
    | ⟨.scratch statement, r⟩ => r = s.respond statement ∨ (failures = true ∧ r.isOk = false)
    | ⟨_, r⟩ => r.isOk = false
  effect s event :=
    match event with
    | ⟨.scratch statement, .ok _⟩ => s.after statement
    | _ => s

/-- The answers of a server that does not fail. -/
def trinoAnswer (s : TrinoState) : (c : Call) → Except PyError (Answer c)
  | .scratch statement => s.respond statement
  | _ => .error (externalError "not a statement of the scratchpad")

/-- These answers are possible. -/
theorem trinoAnswer_possible (failures : Bool) (s : TrinoState) (c : Call) :
    (trino failures).possible s ⟨c, trinoAnswer s c⟩ := by
  cases c with
  | scratch statement => exact Or.inl rfl
  | _ => rfl

section

variable {failures : Bool} {s : TrinoState} {α : Type}

omit [Federated] in
/-- An answer that stands behind a check of the catalog. -/
theorem TrinoState.onCatalog_ok {catalog : String} {x : Except PyError α} {a : α}
    (h : s.onCatalog catalog x = .ok a) : catalog ∈ s.catalogs ∧ x = .ok a := by
  unfold TrinoState.onCatalog at h
  split at h
  · rename_i hcatalog
    exact ⟨hcatalog, h⟩
  · cases h

omit [Federated] in
/-- The answer on a catalog that exists. -/
theorem TrinoState.onCatalog_of_mem {catalog : String} {x : Except PyError α}
    (h : catalog ∈ s.catalogs) : s.onCatalog catalog x = x := if_pos h

omit [Federated] in
/-- The answer on a table that exists. -/
theorem TrinoState.onTable_of_some {ident : TableIdent} {f : QueryResult → α} {t : QueryResult}
    (h : s.table ident = some t) : s.onTable ident f = .ok (f t) := by
  simp only [TrinoState.onTable, h]

/-- The rule for a statement and what follows it. -/
theorem ends_statement_bind {statement : ScratchStatement} {f : ScratchAnswer statement → Tool α}
    {Q : TrinoState → Except PyError α → Prop}
    (hok : ∀ a, s.respond statement = .ok a →
      EndsIn (trino failures) (s.after statement) (f a) Q)
    (herror : ∀ e, (failures = false → s.respond statement = .error e) → Q s (.error e)) :
    EndsIn (trino failures) s (call (.scratch statement) >>= f) Q := by
  refine EndsIn.perform_bind (fun a ha => ?_) (fun e he => ?_)
  · rcases ha with ha | ⟨_, ha⟩
    · exact hok a ha.symm
    · cases ha
  · rcases he with he | ⟨hfailures, _⟩
    · exact herror e (fun _ => he.symm)
    · exact herror e (fun h => by rw [h] at hfailures; cases hfailures)

/-- The rule for a statement. -/
theorem ends_statement {statement : ScratchStatement}
    {Q : TrinoState → Except PyError (ScratchAnswer statement) → Prop}
    (hok : ∀ a, s.respond statement = .ok a → Q (s.after statement) (.ok a))
    (herror : ∀ e, (failures = false → s.respond statement = .error e) → Q s (.error e)) :
    EndsIn (trino failures) s (call (.scratch statement)) Q := by
  refine EndsIn.perform (fun r hr => ?_)
  cases r with
  | ok a =>
    rcases hr with hr | ⟨_, hr⟩
    · exact hok a hr.symm
    · cases hr
  | error e =>
    rcases hr with hr | ⟨hfailures, _⟩
    · exact herror e (fun _ => hr.symm)
    · exact herror e (fun h => by rw [h] at hfailures; cases hfailures)

omit [Federated] in
/-- A computation with a value. -/
theorem toOption_eq_some {x : PyM α} {a : α} : x.toOption = some a ↔ x = .ok a := by
  cases x with
  | ok b => simp [Except.toOption]
  | error e => simp [Except.toOption]

omit [Federated] in
/-- A computation without one. -/
theorem toOption_eq_none {x : PyM α} : x.toOption = none ↔ x.isOk = false := by
  cases x <;> simp [Except.toOption, Except.isOk, Except.toBool]

/-- A `SELECT` that succeeds reads only tables that exist. -/
theorem reads_exist {select : SelectText} {result : QueryResult}
    (h : Federated.evaluate s select = .ok result) {ident : TableIdent}
    (hread : ident ∈ Federated.reads select) : s.table ident ≠ none := by
  intro hnone
  obtain ⟨e, he⟩ := Federated.evaluate_missing hread hnone
  rw [he] at h
  cases h

/-- The result of a `SELECT` is the same over the same tables. -/
theorem evaluate_tables {s t : TrinoState} (select : SelectText)
    (h : ∀ ident, s.table ident = t.table ident) :
    (Federated.evaluate s select).toOption = (Federated.evaluate t select).toOption :=
  Federated.evaluate_congr (fun ident _ => h ident)

/-- A `SELECT` with the same result is stored alike. -/
theorem ctas_congr {s t : TrinoState} {select : SelectText}
    (h : (Federated.evaluate s select).toOption = (Federated.evaluate t select).toOption)
    (ident : TableIdent) :
    (Federated.ctas s ident select).toOption = (Federated.ctas t ident select).toOption := by
  refine Option.ext (fun result => ?_)
  rw [toOption_eq_some, toOption_eq_some, Federated.ctas_eq_ok_iff, Federated.ctas_eq_ok_iff,
    ← toOption_eq_some, h, toOption_eq_some]

end

end Memcove
