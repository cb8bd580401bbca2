import Memcove.Core.Registry
import Memcove.Core.Shape
import Memcove.Lib.Interleaving

/-!
# The stores and the calls to them

Every call by which the tools leave their process: to the Iceberg catalog through PyIceberg, to
Trino, and to the registry, where one call is one transaction. This file says what the three
stores hold, what a call may answer, and what an answered call does. Any call may raise, and then
changes nothing; listings of the catalog and the answers of scratchpad statements are not
constrained, nor are the numbers of rows that Trino counts.
-/

namespace Memcove

open KeyedTables Programs

/-- Rows of cells, in the order of the columns. -/
abbrev Rows := List (List Cell)

/-- The columns of a table: names and types. -/
abbrev Columns := List (String × ArrowType)

/-- An Iceberg table: its identity, its columns as `Schema.as_arrow` reads them back, its rows. -/
structure LakeTable where
  uuid : ℕ
  columns : Columns
  rows : Rows

/-- The state of the Iceberg catalog. -/
structure Lakehouse where
  namespaces : List String := []
  tables : List (Key × LakeTable) := []
  nextUuid : ℕ := 0

/-- The catalog and the registry. -/
structure Stores where
  lakehouse : Lakehouse := {}
  registry : Registry := {}

/-- The parts of PyIceberg and Trino that the stores rely on. -/
class Engines where
  /-- The columns of a table that was created with an Arrow schema, as they are read back. -/
  readBack : Columns → Columns
  /-- The Iceberg type of a column, as text. -/
  typeText : ArrowType → String
  /-- The columns and rows of a `SELECT`. -/
  select : Lakehouse → List Token → Columns × Rows

/-- Whether the registry backend classifies an exception as an unreachable registry. -/
class Backend where
  isConnectionDown : PyError → Bool

/-- A loaded `pyiceberg.table.Table`: the identity of the table and its columns. -/
structure TableHandle where
  key : Key
  uuid : ℕ
  columns : Columns

/-- The text of a `SELECT`: one that was built for inline data, or a guarded query. -/
inductive SelectText where
  | inline (sql : String)
  | query (sql : List Token)

/-- The statements that the scratchpad module sends to Trino. -/
inductive ScratchStatement where
  | createCatalog (catalog url : String)
  | createSchema (catalog schema : String)
  | dropTable (catalog schema label : String)
  | createTableAs (catalog schema label : String) (select : SelectText)
  | tableNames (catalog schema : String) (label : Option String)
  | describe (catalog schema label : String)
  | count (catalog schema label : String)

/-- The type of the value that a scratchpad statement returns. -/
abbrev ScratchAnswer : ScratchStatement → Type
  | .tableNames _ _ _ => List String
  | .describe _ _ _ => List (String × String)
  | .count _ _ _ => Option Int
  | _ => PUnit

/-- A call that leaves the process. -/
inductive Call where
  | createNamespace (ns : String)
  | tableExists (k : Key)
  | createTable (k : Key) (schema : Columns)
  | loadTable (k : Key)
  | overwrite (handle : TableHandle) (rows : Rows)
  | append (handle : TableHandle) (rows : Rows)
  | dropTable (k : Key)
  | listTables (ns : String)
  | listNamespaces
  | ensureSchema (ns : String)
  | probeColumns (tenant : String) (sql : List Token)
  | createTableAs (replace : Bool) (k : Key) (sql : List Token)
  | countRows (k : Key)
  | scratch (statement : ScratchStatement)
  | openRegistry
  | recordObject (row : ObjectRow) (tags : List String) (parents : Option (List String))
  | deleteObject (k : Key)
  | getObject (k : Key)
  | labelsForTenant (tenant : String)
  | getParents (k : Key)
  | tombstonesForTenant (tenant : String)
  | bumpTombstone (k : Key)
  | clearTombstone (k : Key)

/-- The type of the value that a call returns. -/
abbrev Answer : Call → Type
  | .tableExists _ => Bool
  | .createTable _ _ | .loadTable _ => TableHandle
  | .listTables _ => List String
  | .listNamespaces => List (List String)
  | .probeColumns _ _ => List String
  | .countRows _ => Option Int
  | .scratch statement => ScratchAnswer statement
  | .getObject _ => Option (ObjectRow × List String)
  | .labelsForTenant _ => List String
  | .getParents _ => List String
  | .tombstonesForTenant _ => List (String × Int)
  | _ => PUnit

/-- A tool: a program over these calls. -/
abbrev Tool (α : Type) := Program Call Answer PyError α

/-- One call. -/
def call (c : Call) : Tool (Answer c) := Program.perform c

/-- A call with its answer. -/
abbrev CallEvent := Event Call Answer PyError

/-- The table of a key. -/
def Lakehouse.table (L : Lakehouse) (k : Key) : Option LakeTable :=
  (lookup Prod.fst L.tables k).map (·.2)

/-- The catalog with the table of a key set. -/
def Lakehouse.setTable (L : Lakehouse) (k : Key) (t : LakeTable) : Lakehouse :=
  { L with tables := upsert Prod.fst L.tables (k, t) (fun _ => (k, t)) }

/-- The catalog with a namespace. -/
def Lakehouse.addNamespace (L : Lakehouse) (ns : String) : Lakehouse :=
  if ns ∈ L.namespaces then L else { L with namespaces := L.namespaces ++ [ns] }

/-- A table that was set is found. -/
@[simp] theorem Lakehouse.table_setTable_self (L : Lakehouse) (k : Key) (t : LakeTable) :
    (L.setTable k t).table k = some t := by
  have hupsert : lookup Prod.fst (upsert Prod.fst L.tables (k, t) (fun _ => (k, t))) k =
      some (((lookup Prod.fst L.tables k).map (fun _ => (k, t))).getD (k, t)) :=
    lookup_upsert_self (fun _ _ => rfl)
  simp only [Lakehouse.table, Lakehouse.setTable]
  rw [hupsert]
  cases lookup Prod.fst L.tables k <;> rfl

/-- Setting a table leaves the others alone. -/
theorem Lakehouse.table_setTable_of_ne (L : Lakehouse) {k k' : Key} (hk : k ≠ k')
    (t : LakeTable) : (L.setTable k' t).table k = L.table k := by
  have hupsert : lookup Prod.fst (upsert Prod.fst L.tables (k', t) (fun _ => (k', t))) k =
      lookup Prod.fst L.tables k := lookup_upsert_of_ne hk (fun _ _ => rfl)
  simp only [Lakehouse.table, Lakehouse.setTable]
  rw [hupsert]

/-- Namespaces are no part of a table. -/
@[simp] theorem Lakehouse.table_addNamespace (L : Lakehouse) (ns : String) (k : Key) :
    (L.addNamespace ns).table k = L.table k := by
  unfold Lakehouse.addNamespace
  split <;> rfl

/-- Namespaces take no identity of a table. -/
@[simp] theorem Lakehouse.nextUuid_addNamespace (L : Lakehouse) (ns : String) :
    (L.addNamespace ns).nextUuid = L.nextUuid := by
  unfold Lakehouse.addNamespace
  split <;> rfl

/-- A namespace that exists is not added again. -/
theorem Lakehouse.addNamespace_of_mem {L : Lakehouse} {ns : String} (h : ns ∈ L.namespaces) :
    L.addNamespace ns = L := if_pos h

/-- A namespace that was added exists. -/
theorem Lakehouse.mem_addNamespace {L : Lakehouse} {ns ns' : String} :
    ns' ∈ (L.addNamespace ns).namespaces ↔ ns' = ns ∨ ns' ∈ L.namespaces := by
  unfold Lakehouse.addNamespace
  split
  · rename_i hmem
    constructor
    · exact Or.inr
    · rintro (rfl | h)
      · exact hmem
      · exact h
  · simp [or_comm]

/-- A table that exists after setting one of another key existed before, and conversely. -/
theorem Lakehouse.isSome_setTable (L : Lakehouse) (k k' : Key) (t : LakeTable) :
    ((L.setTable k' t).table k).isSome = (decide (k = k') || (L.table k).isSome) := by
  by_cases hk : k = k'
  · subst hk
    simp
  · simp [L.table_setTable_of_ne hk, hk]

variable [Engines]

/-- A `CREATE [OR REPLACE] TABLE … AS` that goes through. A replaced table keeps its identity. -/
def Lakehouse.createTableAs (L : Lakehouse) (k : Key) (sql : List Token) : Lakehouse :=
  let result := Engines.select L sql
  match L.table k with
  | some t => L.setTable k { t with columns := result.1, rows := result.2 }
  | none => { L.setTable k ⟨L.nextUuid, result.1, result.2⟩ with nextUuid := L.nextUuid + 1 }

/-- The table of a `CREATE [OR REPLACE] TABLE … AS`. -/
theorem Lakehouse.table_createTableAs_self (L : Lakehouse) (k : Key) (sql : List Token) :
    (L.createTableAs k sql).table k = some ⟨((L.table k).map LakeTable.uuid).getD L.nextUuid,
      (Engines.select L sql).1, (Engines.select L sql).2⟩ := by
  cases htable : L.table k with
  | none =>
    simp only [Lakehouse.createTableAs, htable]
    exact Lakehouse.table_setTable_self _ _ _
  | some t =>
    simp only [Lakehouse.createTableAs, htable]
    exact Lakehouse.table_setTable_self _ _ _

/-- The handle that PyIceberg returns for a table. -/
def handleOf (k : Key) (t : LakeTable) : TableHandle := ⟨k, t.uuid, t.columns⟩

/-- A commit through a handle goes through only while the table is the one that was loaded. -/
def Lakehouse.accepts (L : Lakehouse) (handle : TableHandle) : Prop :=
  ∃ t, L.table handle.key = some t ∧ t.uuid = handle.uuid

/-- The values that a call may return in a state of the stores. -/
def Returns (s : Stores) : (c : Call) → Answer c → Prop
  | .tableExists k, exists_ => exists_ = (s.lakehouse.table k).isSome
  | .createTable k schema, handle =>
    s.lakehouse.table k = none ∧ handle = ⟨k, s.lakehouse.nextUuid, Engines.readBack schema⟩
  | .loadTable k, handle => ∃ t, s.lakehouse.table k = some t ∧ handle = handleOf k t
  | .overwrite handle _, _ => s.lakehouse.accepts handle
  | .append handle _, _ => s.lakehouse.accepts handle
  | .dropTable k, _ => (s.lakehouse.table k).isSome = true
  | .createTableAs replace k _, _ => replace = true ∨ s.lakehouse.table k = none
  | .getObject k, found => found = s.registry.getObject k
  | .labelsForTenant tenant, labels => labels.Perm (s.registry.labelsForTenant tenant)
  | .getParents k, parents => parents = s.registry.getParents k
  | .tombstonesForTenant tenant, counts => counts.Perm (s.registry.tombstonesForTenant tenant)
  | _, _ => True

/-- The catalog after a call that returned. -/
def lakehouseAfter (L : Lakehouse) : Call → Lakehouse
  | .createNamespace ns => L.addNamespace ns
  | .ensureSchema ns => L.addNamespace ns
  | .createTable k schema =>
    { L.setTable k ⟨L.nextUuid, Engines.readBack schema, []⟩ with nextUuid := L.nextUuid + 1 }
  | .overwrite handle rows =>
    match L.table handle.key with
    | some t => L.setTable handle.key { t with rows := rows }
    | none => L
  | .append handle rows =>
    match L.table handle.key with
    | some t => L.setTable handle.key { t with rows := t.rows ++ rows }
    | none => L
  | .dropTable k => { L with tables := remove Prod.fst L.tables k }
  | .createTableAs _ k sql => L.createTableAs k sql
  | _ => L

/-- The registry after a call that returned. -/
def registryAfter (R : Registry) : Call → Registry
  | .recordObject row tags parents => R.recordObject row tags parents
  | .deleteObject k => R.deleteObject k
  | .bumpTombstone k => R.bumpTombstone k
  | .clearTombstone k => R.clearTombstone k
  | _ => R

/-- The stores after an answered call. -/
def storesAfter (s : Stores) (event : CallEvent) : Stores :=
  match event.answer with
  | .ok _ => ⟨lakehouseAfter s.lakehouse event.call, registryAfter s.registry event.call⟩
  | .error _ => s

/-- The catalog, Trino and the registry as one machine. -/
def machine : Machine Call Answer PyError Stores where
  possible s event :=
    match event with
    | ⟨c, .ok a⟩ => Returns s c a
    | ⟨_, .error _⟩ => True
  effect := storesAfter

/-- An error of PyIceberg or Trino. -/
def externalError (message : String) : PyError := ⟨.external, message⟩

/-- The answer of an empty scratchpad. -/
def scratchAnswer : (statement : ScratchStatement) → ScratchAnswer statement
  | .tableNames _ _ _ => []
  | .describe _ _ _ => []
  | .count _ _ _ => none
  | .createCatalog _ _ | .createSchema _ _ | .dropTable _ _ _ | .createTableAs _ _ _ _ => ⟨⟩

/-- The answer of stores that are reachable and list truthfully, with an empty scratchpad. -/
def answerOf (s : Stores) : (c : Call) → Except PyError (Answer c)
  | .tableExists k => .ok (s.lakehouse.table k).isSome
  | .createTable k schema =>
    match s.lakehouse.table k with
    | none => .ok ⟨k, s.lakehouse.nextUuid, Engines.readBack schema⟩
    | some _ => .error (externalError "table already exists")
  | .loadTable k =>
    match s.lakehouse.table k with
    | some t => .ok (handleOf k t)
    | none => .error (externalError "table does not exist")
  | .overwrite handle _ | .append handle _ =>
    if (s.lakehouse.table handle.key).any (fun t => t.uuid == handle.uuid) then .ok ⟨⟩
    else .error (externalError "commit failed")
  | .dropTable k =>
    if (s.lakehouse.table k).isSome then .ok ⟨⟩
    else .error (externalError "table does not exist")
  | .listTables ns => .ok ((s.lakehouse.tables.filter (fun t => t.1.1 == ns)).map (fun t => t.1.2))
  | .listNamespaces => .ok (s.lakehouse.namespaces.map (fun ns => [ns]))
  | .probeColumns _ sql => .ok ((Engines.select s.lakehouse sql).1.map (·.1))
  | .createTableAs replace k _ =>
    if replace || (s.lakehouse.table k).isNone then .ok ⟨⟩
    else .error (externalError "table already exists")
  | .countRows k => .ok ((s.lakehouse.table k).map (fun t => (t.rows.length : Int)))
  | .scratch statement => .ok (scratchAnswer statement)
  | .getObject k => .ok (s.registry.getObject k)
  | .labelsForTenant tenant => .ok (s.registry.labelsForTenant tenant)
  | .getParents k => .ok (s.registry.getParents k)
  | .tombstonesForTenant tenant => .ok (s.registry.tombstonesForTenant tenant)
  | .createNamespace _ | .ensureSchema _ | .openRegistry | .recordObject _ _ _ | .deleteObject _
  | .bumpTombstone _ | .clearTombstone _ => .ok ⟨⟩

/-- These answers are possible. -/
theorem answerOf_possible (s : Stores) (c : Call) : machine.possible s ⟨c, answerOf s c⟩ := by
  cases c with
  | createTable k schema =>
    cases htable : s.lakehouse.table k <;> simp [machine, answerOf, Returns, htable]
  | loadTable k =>
    cases htable : s.lakehouse.table k <;> simp [machine, answerOf, Returns, htable]
  | overwrite handle rows | append handle rows =>
    by_cases huuid : (s.lakehouse.table handle.key).any (fun t => t.uuid == handle.uuid) = true
    · obtain ⟨t, ht, heq⟩ := (Option.any_eq_true _ _).mp huuid
      simp only [machine, answerOf, huuid, if_true, Returns]
      exact ⟨t, ht, by simpa using heq⟩
    · simp [machine, answerOf, huuid]
  | dropTable k =>
    by_cases htable : (s.lakehouse.table k).isSome = true
    · simp [machine, answerOf, Returns, htable]
    · simp [machine, answerOf, htable]
  | createTableAs replace k sql =>
    by_cases hnew : (replace || (s.lakehouse.table k).isNone) = true
    · simp only [machine, answerOf, if_pos hnew, Returns]
      simpa using hnew
    · simp [machine, answerOf, hnew]
  | labelsForTenant tenant => exact List.Perm.refl _
  | tombstonesForTenant tenant => exact List.Perm.refl _
  | tableExists | getObject | getParents => rfl
  | createNamespace | listTables | listNamespaces | ensureSchema | probeColumns | countRows
  | scratch | openRegistry | recordObject | deleteObject | bumpTombstone | clearTombstone => trivial

/-- The table that a call changes. -/
def Call.changes : Call → Option Key
  | .createTable k _ | .createTableAs _ k _ | .dropTable k => some k
  | .overwrite handle _ | .append handle _ => some handle.key
  | _ => none

/-- A call leaves the other tables alone. -/
theorem table_lakehouseAfter {L : Lakehouse} {c : Call} {k : Key} (hc : c.changes ≠ some k) :
    (lakehouseAfter L c).table k = L.table k := by
  have hne {k' : Key} (hk' : c.changes = some k') : k ≠ k' := by
    rintro rfl
    exact hc hk'
  cases c with
  | createNamespace ns | ensureSchema ns => exact L.table_addNamespace ns k
  | createTable k' schema => exact L.table_setTable_of_ne (hne rfl) _
  | overwrite handle rows | append handle rows =>
    simp only [lakehouseAfter]
    split
    · exact L.table_setTable_of_ne (hne rfl) _
    · rfl
  | dropTable k' =>
    simp only [lakehouseAfter, Lakehouse.table]
    rw [lookup_remove_of_ne (hne rfl)]
  | createTableAs replace k' sql =>
    simp only [lakehouseAfter, Lakehouse.createTableAs]
    split
    · exact L.table_setTable_of_ne (hne rfl) _
    · exact L.table_setTable_of_ne (hne rfl) _
  | _ => rfl

/-- A call that changes a table changes no namespace. -/
theorem namespaces_lakehouseAfter {L : Lakehouse} {c : Call} {k : Key} (hc : c.changes = some k) :
    (lakehouseAfter L c).namespaces = L.namespaces := by
  cases c with
  | overwrite handle rows | append handle rows | createTableAs replace k' sql =>
    simp only [lakehouseAfter, Lakehouse.createTableAs]
    split <;> rfl
  | createTable | dropTable => rfl
  | _ => cases hc

/-- The key whose data a call commits. -/
def Call.commits : Call → Option Key
  | .overwrite handle _ | .append handle _ => some handle.key
  | .createTableAs _ k _ => some k
  | _ => none

/-- Every call but a drop of the same table keeps a table. -/
theorem isSome_lakehouseAfter {L : Lakehouse} {c : Call} {k : Key}
    (htable : (L.table k).isSome = true) (hdrop : c ≠ .dropTable k) :
    ((lakehouseAfter L c).table k).isSome = true := by
  cases c with
  | createNamespace ns | ensureSchema ns => simpa [lakehouseAfter] using htable
  | createTable k' schema =>
    have hset := L.isSome_setTable k k' ⟨L.nextUuid, Engines.readBack schema, []⟩
    rw [htable, Bool.or_true] at hset
    exact hset
  | overwrite handle rows | append handle rows =>
    simp only [lakehouseAfter]
    split
    · rw [Lakehouse.isSome_setTable, htable, Bool.or_true]
    · exact htable
  | dropTable k' =>
    have hk : k ≠ k' := fun h => hdrop (by rw [h])
    simp only [lakehouseAfter, Lakehouse.table] at htable ⊢
    rwa [lookup_remove_of_ne hk]
  | createTableAs replace k' sql =>
    simp only [lakehouseAfter, Lakehouse.createTableAs]
    split
    · rw [Lakehouse.isSome_setTable, htable, Bool.or_true]
    · have hset := L.isSome_setTable k k' ⟨L.nextUuid, (Engines.select L sql).1,
        (Engines.select L sql).2⟩
      rw [htable, Bool.or_true] at hset
      exact hset
  | _ => exact htable

/-- A table whose data was committed exists. -/
theorem isSome_of_commits {s : Stores} {c : Call} {a : Answer c} {k : Key}
    (hreturns : Returns s c a) (hcommits : c.commits = some k) :
    ((lakehouseAfter s.lakehouse c).table k).isSome = true := by
  cases c <;> simp only [Call.commits, reduceCtorEq, Option.some.injEq] at hcommits
  case overwrite handle rows | append handle rows =>
    subst hcommits
    obtain ⟨t, ht, _⟩ := hreturns
    simp [lakehouseAfter, ht]
  case createTableAs replace k' sql =>
    subst hcommits
    simp only [lakehouseAfter, Lakehouse.createTableAs]
    split
    · simp
    · have hset := s.lakehouse.isSome_setTable k' k' ⟨s.lakehouse.nextUuid,
        (Engines.select s.lakehouse sql).1, (Engines.select s.lakehouse sql).2⟩
      rw [decide_eq_true rfl, Bool.true_or] at hset
      exact hset

end Memcove
