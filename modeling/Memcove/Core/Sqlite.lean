import Memcove.Core.Calls
import Memcove.Core.Statements
import Memcove.Lib.SharedConnection

/-!
# The registry on SQLite, statement by statement

The SQLite backend shares one connection between all threads of the process, under a lock. Every
function of `core/registry.py` is a session on it, of several statements. However the statements of
the threads are interleaved, and whichever of them fail, the threads run as if every function were
one call to the registry's tables.
-/

namespace Memcove

open KeyedTables Programs Transactions

/-- The statements of `core/registry.py`. -/
inductive SqliteStatement where
  | write (statement : RegistryStatement)
  | deleteObject (k : Key)
  | upsertTombstone (k : Key)
  | deleteTombstone (k : Key)
  | selectObject (k : Key)
  | selectTags (k : Key)
  | selectObjects (tenant : String) (tags : List String)
  | selectTagRows (tenant : String)
  | selectLabels (tenant : String)
  | selectParents (k : Key)
  | selectTombstones (tenant : String)

/-- The type of the rows that a statement returns. -/
abbrev SqliteRows : SqliteStatement → Type
  | .selectObject _ => Option ObjectRow
  | .selectObjects _ _ => List ObjectRow
  | .selectTagRows _ => List (String × String)
  | .selectTombstones _ => List (String × Int)
  | .selectTags _ | .selectLabels _ | .selectParents _ => List String
  | _ => PUnit

namespace SqliteStatement

/-- A `SELECT`. -/
def reads : SqliteStatement → Bool
  | .write _ | .deleteObject _ | .upsertTombstone _ | .deleteTombstone _ => false
  | _ => true

/-- What a statement makes of the tables. -/
def step (R : Registry) : SqliteStatement → PyM Registry
  | .write statement => sqliteDatabase.step R statement
  | .deleteObject k => .ok { R with objects := remove ObjectRow.key R.objects k }
  | .upsertTombstone k => .ok (R.bumpTombstone k)
  | .deleteTombstone k => .ok (R.clearTombstone k)
  | _ => .ok R

/-- The rows that a statement may return: without an `ORDER BY`, in any order. -/
def Selects (R : Registry) : (statement : SqliteStatement) → SqliteRows statement → Prop
  | .selectObject k, row => row = R.row k
  | .selectTags k, tags => tags = R.tagsFor k
  | .selectObjects tenant tags, rows => rows.Perm (R.selectObjects tenant tags)
  | .selectTagRows tenant, rows =>
    rows.Perm ((R.tags.filter (fun t => t.1.1 == tenant)).map (fun t => (t.1.2, t.2)))
  | .selectLabels tenant, labels => labels.Perm (R.labelsForTenant tenant)
  | .selectParents k, parents => parents = R.getParents k
  | .selectTombstones tenant, counts => counts.Perm (R.tombstonesForTenant tenant)
  | _, _ => True

end SqliteStatement

/-- SQLite with the tables of the registry, and the errors after which it has rolled back. -/
def sqlite (undone : PyError → Bool) :
    SharedConnection.Database SqliteStatement SqliteRows Registry PyError where
  step := SqliteStatement.step
  reads := SqliteStatement.reads
  selects := SqliteStatement.Selects
  undone := undone
  step_of_reads {R statement} h := by cases statement <;> first | rfl | cases h

/-- A program on the shared connection. -/
abbrev SqliteM (α : Type) := SharedConnection.Session SqliteRows PyError α

namespace Sqlite

open SharedConnection (connection)

/-- `b.execute`, `b.query_all` and `b.query_one`. -/
def execute (statement : SqliteStatement) : SqliteM (SqliteRows statement) :=
  SharedConnection.execute statement

/-- `_replace_tags`. -/
def replaceTags (k : Key) (tags : List String) : SqliteM PUnit := do
  let _ ← execute (.write (.deleteTags k))
  Program.each (fun tag => execute (.write (.insertTag k tag))) (Registry.fromKeys tags)

/-- `_upsert_object`. -/
def upsertObject (row : ObjectRow) (tags : List String) : SqliteM PUnit := do
  let _ ← execute (.write (.upsertObject row))
  replaceTags row.key tags

/-- `_set_lineage`. -/
def setLineage (child : Key) (parents : List String) : SqliteM PUnit := do
  let _ ← execute (.write (.deleteLineage child))
  Program.each (fun parent =>
    if parent == child.2 then .pure ⟨⟩ else execute (.write (.insertLineage child parent)))
    (Registry.fromKeys parents)

/-- The transaction of `record_object` and of `record_object_guarded`. -/
def recordObject (row : ObjectRow) (tags : List String) (parents : Option (List String)) :
    SqliteM PUnit :=
  connection do
    upsertObject row tags
    match parents with
    | some parents => setLineage row.key parents
    | none => return ⟨⟩

/-- `delete_object`. -/
def deleteObject (k : Key) : SqliteM PUnit :=
  connection do
    let _ ← execute (.deleteObject k)
    let _ ← execute (.write (.deleteTags k))
    execute (.write (.deleteLineage k))

/-- `get_object`. -/
def getObject (k : Key) : SqliteM (Option (ObjectRow × List String)) :=
  connection do
    match ← execute (.selectObject k) with
    | some row =>
      let tags ← execute (.selectTags k)
      return some (row, tags)
    | none => return none

/-- `list_objects`. -/
def listObjects (tenant : String) (tags : List String) :
    SqliteM (List (ObjectRow × List String)) :=
  connection do
    let rows ← execute (.selectObjects tenant tags)
    let byLabel ← execute (.selectTagRows tenant)
    return rows.map (fun row => (row, Registry.sorted (valuesOf byLabel row.label)))

/-- `labels_for_tenant`. -/
def labelsForTenant (tenant : String) : SqliteM (List String) :=
  connection (execute (.selectLabels tenant))

/-- `get_parents`. -/
def getParents (k : Key) : SqliteM (List String) := connection (execute (.selectParents k))

/-- `tombstones_for_tenant`. -/
def tombstonesForTenant (tenant : String) : SqliteM (List (String × Int)) :=
  connection (execute (.selectTombstones tenant))

/-- `bump_tombstone`. -/
def bumpTombstone (k : Key) : SqliteM PUnit := connection (execute (.upsertTombstone k))

/-- `clear_tombstone`. -/
def clearTombstone (k : Key) : SqliteM PUnit := connection (execute (.deleteTombstone k))

end Sqlite

/-- A call of a tool, or the listing of the registry. -/
inductive StoreCall where
  | tool (c : Call)
  | listObjects (tenant : String) (tags : List String)

/-- The type of the value that a call returns. -/
abbrev StoreAnswer : StoreCall → Type
  | .tool c => Answer c
  | .listObjects _ _ => List (ObjectRow × List String)

/-- The stores with the listing of the registry. -/
def storeMachine [Engines] : Machine StoreCall StoreAnswer PyError Stores where
  possible s event :=
    match event with
    | ⟨.tool c, r⟩ => machine.possible s ⟨c, r⟩
    | ⟨.listObjects tenant tags, .ok rows⟩ => rows.Perm (s.registry.listObjects tenant tags)
    | ⟨.listObjects _ _, .error _⟩ => True
  effect s event :=
    match event with
    | ⟨.tool c, r⟩ => machine.effect s ⟨c, r⟩
    | ⟨.listObjects _ _, _⟩ => s

/-- The calls that need no registry, on the catalog alone. -/
def lakehouseMachine [Engines] : Machine StoreCall StoreAnswer PyError Lakehouse where
  possible L event := storeMachine.possible ⟨L, {}⟩ event
  effect L event := (storeMachine.effect ⟨L, {}⟩ event).lakehouse

/-- The calls that are sessions with the registry. -/
def sqliteSections : Locks.Sections StoreCall StoreAnswer (SharedConnection.Request SqliteStatement)
    (SharedConnection.Reply SqliteRows) PyError
  | .tool (.recordObject row tags parents) => some (Sqlite.recordObject row tags parents)
  | .tool (.deleteObject k) => some (Sqlite.deleteObject k)
  | .tool (.getObject k) => some (Sqlite.getObject k)
  | .tool (.labelsForTenant tenant) => some (Sqlite.labelsForTenant tenant)
  | .tool (.getParents k) => some (Sqlite.getParents k)
  | .tool (.tombstonesForTenant tenant) => some (Sqlite.tombstonesForTenant tenant)
  | .tool (.bumpTombstone k) => some (Sqlite.bumpTombstone k)
  | .tool (.clearTombstone k) => some (Sqlite.clearTombstone k)
  | .listObjects tenant tags => some (Sqlite.listObjects tenant tags)
  | .tool _ => none

namespace Sqlite

open SharedConnection (connection)
open SharedConnection.Database (Body Idle Uncommitted)

variable {undone : PyError → Bool} {R : Registry}

/-- The rule for one statement. -/
theorem body_execute (statement : SqliteStatement) : (sqlite undone).Body R (execute statement)
    (fun R' rows => statement.step R = .ok R' ∧ statement.Selects R rows) :=
  Body.execute statement

/-- A body that makes of the tables what a list of statements makes of them. -/
def Performs (undone : PyError → Bool) (R : Registry) (p : SqliteM PUnit)
    (statements : List RegistryStatement) : Prop :=
  (sqlite undone).Body R p (fun R' _ => statements.foldlM sqliteDatabase.step R = .ok R')

/-- One statement and what follows it. -/
theorem Performs.cons {statement : RegistryStatement} {p : SqliteM PUnit}
    {statements : List RegistryStatement} (hp : ∀ R, Performs undone R p statements) :
    Performs undone R (do let _ ← execute (.write statement); p) (statement :: statements) := by
  refine (body_execute (.write statement)).bind (fun R' _ hR' => ?_)
  refine (hp R').mono (fun R'' _ h => ?_)
  rw [List.foldlM_cons, show sqliteDatabase.step R statement = .ok R' from hR'.1]
  exact h

/-- One part after the other. -/
theorem Performs.append {p q : SqliteM PUnit} {l l' : List RegistryStatement}
    (hp : Performs undone R p l) (hq : ∀ R, Performs undone R q l') :
    Performs undone R (do let _ ← p; q) (l ++ l') := by
  refine hp.bind (fun R' _ hR' => (hq R').mono (fun R'' _ h => ?_))
  rw [List.foldlM_append, hR']
  exact h

/-- A loop over statements. -/
theorem Performs.each (f : String → RegistryStatement) (l : List String) :
    Performs undone R (Program.each (fun x => execute (.write (f x))) l) (l.map f) := by
  refine (Body.each (fun x => .write (f x)) (fun x R => ?_) l).mono (fun R' _ h => ?_)
  · exact (body_execute (.write (f x))).mono (fun _ _ h => h.1)
  · rw [List.foldlM_map] at h ⊢
    exact h

/-- `_replace_tags`. -/
theorem replaceTags_performs (k : Key) (tags : List String) : Performs undone R (replaceTags k tags)
    (.deleteTags k :: (Registry.fromKeys tags).map (.insertTag k)) :=
  .cons (fun _ => .each _ _)

/-- `_upsert_object`. -/
theorem upsertObject_performs (row : ObjectRow) (tags : List String) :
    Performs undone R (upsertObject row tags) (objectStatements row tags) :=
  .cons (fun _ => replaceTags_performs _ _)

/-- `_set_lineage`. -/
theorem setLineage_performs (child : Key) (parents : List String) :
    Performs undone R (setLineage child parents) (lineageStatements child parents) := by
  have hskip (l : List String) : Program.each (fun parent =>
      if parent == child.2 then (.pure ⟨⟩ : SqliteM PUnit)
      else execute (.write (.insertLineage child parent))) l =
        Program.each (fun parent => execute (.write (.insertLineage child parent)))
          (l.filter (fun parent => parent != child.2)) := by
    induction l with
    | nil => rfl
    | cons parent l ih =>
      rw [Program.each, ih, List.filter_cons]
      cases hself : parent == child.2 with
      | true =>
        rw [bne, hself]
        rfl
      | false =>
        rw [bne, hself]
        rfl
  refine .cons (fun _ => ?_)
  rw [hskip]
  exact .each _ _

/-- The body of a guarded write. -/
theorem record_performs (row : ObjectRow) (tags : List String) (parents : Option (List String)) :
    Performs undone R (do
        upsertObject row tags
        match parents with
        | some parents => setLineage row.key parents
        | none => return ⟨⟩) (writeStatements row tags parents) := by
  cases parents with
  | none =>
    refine (upsertObject_performs row tags).bind (fun R' _ h => .pure h)
  | some parents => exact (upsertObject_performs row tags).append (fun _ => setLineage_performs _ _)

/-- SQLite raises on no call of the registry. -/
theorem sqliteDatabase_apply (R : Registry) (c : RegistryCall) :
    sqliteDatabase.apply R c = .ok (c.apply R) := by
  let all : Vocabulary := ⟨Set.univ, Set.univ, Set.univ, Set.univ, Set.univ⟩
  have hall (k : Key) : all.HasKey k := ⟨trivial, trivial⟩
  refine (sqliteDatabase_distinguishes all).apply ⟨fun _ _ => hall _, fun _ _ => ⟨hall _, trivial⟩,
    fun _ _ => ⟨hall _, trivial⟩, fun _ _ => hall _⟩ ?_
  cases c with
  | recordObject row tags => exact ⟨hall _, trivial, fun _ _ => trivial⟩
  | recordObjectGuarded row tags parents =>
    exact ⟨hall _, trivial, fun _ _ => trivial, fun _ _ _ _ => trivial⟩
  | setLineage child parents => exact ⟨hall _, fun _ _ => trivial⟩
  | deleteObject k | bumpTombstone k | clearTombstone k => exact hall k

/-- The body of a guarded write records the object. -/
theorem record_body (row : ObjectRow) (tags : List String) (parents : Option (List String)) :
    (sqlite undone).Body R (do
        upsertObject row tags
        match parents with
        | some parents => setLineage row.key parents
        | none => return ⟨⟩) (fun R' _ => R' = R.recordObject row tags parents) := by
  refine (record_performs row tags parents).mono (fun R' _ h => ?_)
  have happly := Database.writeStatements_iff.mp h
  rw [sqliteDatabase_apply] at happly
  exact (Except.ok.inj happly).symm

/-- The body of a deletion. -/
theorem delete_body (k : Key) : (sqlite undone).Body R (do
      let _ ← execute (.deleteObject k)
      let _ ← execute (.write (.deleteTags k))
      execute (.write (.deleteLineage k))) (fun R' _ => R' = R.deleteObject k) := by
  refine (body_execute _).bind (fun R₁ _ h₁ => (body_execute _).bind (fun R₂ _ h₂ => ?_))
  refine (body_execute _).mono (fun R' _ h => ?_)
  cases h₁.1
  cases h₂.1
  cases h.1
  rfl

/-- The body that reads an object. -/
theorem getObject_body (k : Key) : (sqlite undone).Body R (do
      match ← execute (.selectObject k) with
      | some row =>
        let tags ← execute (.selectTags k)
        return some (row, tags)
      | none => return none) (fun R' found => R' = R ∧ found = R.getObject k) := by
  refine (body_execute _).bind (fun R₁ found h₁ => ?_)
  obtain ⟨hR₁, hfound⟩ := h₁
  cases hR₁
  cases found with
  | none => exact .pure ⟨rfl, by rw [Registry.getObject, ← show none = R.row k from hfound]; rfl⟩
  | some row =>
    refine (body_execute _).bind (fun R₂ tags h₂ => ?_)
    obtain ⟨hR₂, htags⟩ := h₂
    cases hR₂
    cases htags
    exact .pure ⟨rfl, by rw [Registry.getObject, ← show some row = R.row k from hfound]; rfl⟩

/-- Sorting the same texts. -/
theorem sorted_congr {texts texts' : List String} (h : texts.Perm texts') :
    Registry.sorted texts = Registry.sorted texts' := by
  have hsame : (Registry.sorted texts).Perm (Registry.sorted texts') :=
    (List.mergeSort_perm _ _).trans (h.trans (List.mergeSort_perm _ _).symm)
  exact hsame.eq_of_pairwise' (List.pairwise_mergeSort' (· ≤ ·) _)
    (List.pairwise_mergeSort' (· ≤ ·) _)

/-- The body that lists the objects. -/
theorem listObjects_body (tenant : String) (tags : List String) : (sqlite undone).Body R (do
      let rows ← execute (.selectObjects tenant tags)
      let byLabel ← execute (.selectTagRows tenant)
      return rows.map (fun row => (row, Registry.sorted (valuesOf byLabel row.label))))
    (fun R' rows => R' = R ∧ rows.Perm (R.listObjects tenant tags)) := by
  refine (body_execute _).bind (fun R₁ rows h₁ => (body_execute _).bind (fun R₂ byLabel h₂ => ?_))
  obtain ⟨hR₁, hrows⟩ := h₁
  cases hR₁
  obtain ⟨hR₂, hbyLabel⟩ := h₂
  cases hR₂
  refine .pure ⟨rfl, ?_⟩
  have hvalues (label : String) : Registry.sorted (valuesOf byLabel label) =
      Registry.sorted (valuesOf ((R.tags.filter (fun t => t.1.1 == tenant)).map
        (fun t => (t.1.2, t.2))) label) :=
    sorted_congr ((hbyLabel.filter _).map _)
  simp only [hvalues]
  exact hrows.map _

end Sqlite

section

open SharedConnection.Database (Body Idle Uncommitted connection_endsWithin)

variable [Engines] {undone : PyError → Bool}

/-- The stores when no transaction is open. -/
def joinStores (L : Lakehouse) (g : Store Registry) : Stores := ⟨L, g.committed⟩

/-- A call that needs no registry does not look at it. -/
theorem returns_of_direct {c : Call} {a : Answer c} {L : Lakehouse} {R R' : Registry}
    (hc : sqliteSections (.tool c) = none) (ha : Returns ⟨L, R⟩ c a) : Returns ⟨L, R'⟩ c a := by
  cases c with
  | getObject | labelsForTenant | getParents | tombstonesForTenant => cases hc
  | _ => exact ha

omit [Engines] in
/-- A call that needs no registry leaves it alone. -/
theorem registryAfter_of_direct {c : Call} (R : Registry) (hc : sqliteSections (.tool c) = none) :
    registryAfter R c = R := by
  cases c with
  | recordObject | deleteObject | bumpTombstone | clearTombstone => cases hc
  | _ => rfl

/-- A session does what its call does. -/
theorem session_sat {c : StoreCall} {p : SqliteM (StoreAnswer c)} {g : Store Registry}
    {Q : Registry → StoreAnswer c → Prop} (hg : Idle g)
    (hp : (sqlite undone).Body g.committed p Q) (hq : ∀ R' a, Q R' a → ∀ L,
      storeMachine.possible ⟨L, g.committed⟩ ⟨c, .ok a⟩ ∧
        storeMachine.effect ⟨L, g.committed⟩ ⟨c, .ok a⟩ = ⟨L, R'⟩) :
    Sat (Locks.within (sqlite undone).machine Uncommitted g) (fun h r =>
      Idle ((sqlite undone).machine.run g h) ∧ ∀ L, storeMachine.possible (joinStores L g) ⟨c, r⟩ ∧
        storeMachine.effect (joinStores L g) ⟨c, r⟩ =
          joinStores L ((sqlite undone).machine.run g h)) []
      (SharedConnection.connection p) := by
  have hstart : g = ⟨g.committed, none⟩ := by rw [← show g.working = none from hg]
  have hsession := connection_endsWithin hp
  rw [← hstart] at hsession
  refine hsession.sat.mono (fun h r hr => ⟨hr.1, fun L => ?_⟩)
  cases r with
  | ok a => exact hq _ a hr.2 L
  | error e =>
    have hcommitted : ((sqlite undone).machine.run g h).committed = g.committed := hr.2
    rw [joinStores, joinStores, hcommitted]
    cases c <;> exact ⟨trivial, rfl⟩

/-- Every function of the registry is as good as one call. -/
theorem sqlite_atomic : Locks.Atomic storeMachine lakehouseMachine (sqlite undone).machine
    sqliteSections joinStores Idle Uncommitted where
  direct {c r L} g hc hpossible := by
    cases c with
    | listObjects tenant tags => cases hc
    | tool c =>
      cases r with
      | error e => exact ⟨trivial, rfl⟩
      | ok a =>
        exact ⟨returns_of_direct hc hpossible,
          congrArg (Stores.mk _) (registryAfter_of_direct g.committed hc)⟩
  guarded {c p g} hc hg := by
    cases c with
    | listObjects tenant tags =>
      cases hc
      exact session_sat hg (Sqlite.listObjects_body tenant tags)
        (fun _ _ h L => ⟨h.2, congrArg (Stores.mk L) h.1.symm⟩)
    | tool c =>
      cases c with
      | recordObject row tags parents =>
        cases hc
        exact session_sat hg (Sqlite.record_body row tags parents)
          (fun _ _ h L => ⟨trivial, congrArg (Stores.mk L) h.symm⟩)
      | deleteObject k =>
        cases hc
        exact session_sat hg (Sqlite.delete_body k)
          (fun _ _ h L => ⟨trivial, congrArg (Stores.mk L) h.symm⟩)
      | getObject k =>
        cases hc
        exact session_sat hg (Sqlite.getObject_body k)
          (fun _ _ h L => ⟨h.2, congrArg (Stores.mk L) h.1.symm⟩)
      | labelsForTenant tenant =>
        cases hc
        exact session_sat hg (Sqlite.body_execute _)
          (fun _ _ h L => ⟨h.2, congrArg (Stores.mk L) (Except.ok.inj h.1)⟩)
      | getParents k =>
        cases hc
        exact session_sat hg (Sqlite.body_execute _)
          (fun _ _ h L => ⟨h.2, congrArg (Stores.mk L) (Except.ok.inj h.1)⟩)
      | tombstonesForTenant tenant =>
        cases hc
        exact session_sat hg (Sqlite.body_execute _)
          (fun _ _ h L => ⟨h.2, congrArg (Stores.mk L) (Except.ok.inj h.1)⟩)
      | bumpTombstone k =>
        cases hc
        exact session_sat hg (Sqlite.body_execute _)
          (fun _ _ h L => ⟨trivial, congrArg (Stores.mk L) (Except.ok.inj h.1)⟩)
      | clearTombstone k =>
        cases hc
        exact session_sat hg (Sqlite.body_execute _)
          (fun _ _ h L => ⟨trivial, congrArg (Stores.mk L) (Except.ok.inj h.1)⟩)
      | _ => cases hc

variable {ι : Type} [DecidableEq ι]

/-- Threads that share the connection run as if every function of the registry were one call to
its tables: there they get the same answers and end with the same results. While no thread holds
the lock, the catalog and the tables are those after these calls, and no transaction is open. At
any other moment, so also when the process dies, what is committed is what whole calls have made:
these, or these and the one whose thread holds the lock. -/
theorem sqlite_serializes {start : ι → Program StoreCall StoreAnswer PyError Unit} {s : Stores}
    {log : Log (Locks.Request ι StoreCall (SharedConnection.Request SqliteStatement))
      (Locks.Reply StoreAnswer (SharedConnection.Reply SqliteRows)) PyError ι}
    {threads : ι → Program _ _ PyError Unit}
    (hrun : Run (Locks.machine lakehouseMachine (sqlite undone).machine)
      (fun i => Locks.carryOut i sqliteSections (start i))
      ⟨s.lakehouse, ⟨s.registry, none⟩, none⟩ log threads) :
    let t := (Locks.machine lakehouseMachine (sqlite undone).machine).after
      ⟨s.lakehouse, ⟨s.registry, none⟩, none⟩ log
    ∃ log' threads', Run storeMachine start s log' threads' ∧
      (∀ i r, threads i = Program.lift r → threads' i = Program.lift r) ∧
      (t.holder = none → t.guarded.working = none ∧
        ⟨t.free, t.guarded.committed⟩ = storeMachine.after s log' ∧
          ∀ i, threads i = Locks.carryOut i sqliteSections (threads' i)) ∧
      ∃ log'' threads'', Run storeMachine start s log'' threads'' ∧
        (log'' = log' ∨ ∃ entry, log'' = entry :: log') ∧
          ⟨t.free, t.guarded.committed⟩ = storeMachine.after s log'' := by
  intro t
  obtain ⟨log', threads', hrun', hmatches⟩ :=
    Locks.run_atomic sqlite_atomic (g := ⟨s.registry, none⟩) rfl hrun
  refine ⟨log', threads', hrun', fun i r hr => hmatches.ended hr, fun hfree => ?_, ?_⟩
  · obtain ⟨hidle, hstores, hthreads⟩ := hmatches.unlocked hfree
    exact ⟨hidle, hstores.symm, hthreads⟩
  · obtain ⟨g, hidle, hstores, hguarded⟩ := hmatches.guarded
    have hsame (hcommitted : t.guarded.committed = g.committed) :
        ⟨t.free, t.guarded.committed⟩ = storeMachine.after s log' := by
      rw [hcommitted]
      exact hstores.symm
    rcases hguarded with hguarded | hinside | ⟨i, c, k, r, hthread, hpossible, heffect⟩
    · exact ⟨log', threads', hrun', Or.inl rfl, hsame (congrArg Store.committed hguarded)⟩
    · exact ⟨log', threads', hrun', Or.inl rfl, hsame hinside⟩
    · exact ⟨_, _, hrun'.call hthread hpossible, Or.inr ⟨_, rfl⟩, heffect.symm⟩

end

section

/-- Engines without tables. -/
@[reducible] def noEngines : Engines where
  readBack columns := columns
  typeText _ := "string"
  select _ _ := ([], [])

attribute [local instance] noEngines

/-- Both threads count the same tombstone, the second one after it created a namespace. -/
def twoThreads (first : Bool) : Program StoreCall StoreAnswer PyError Unit :=
  let bump := Program.call (.tool (.bumpTombstone ("t_acme", "events"))) (fun _ => .pure ())
  if first then bump else .call (.tool (.createNamespace "t_acme")) (fun _ => bump)

/-- The machine of both threads. -/
def twoThreadsMachine : Machine (Locks.Request Bool StoreCall
    (SharedConnection.Request SqliteStatement)) (Locks.Reply StoreAnswer
      (SharedConnection.Reply SqliteRows)) PyError (Locks.State Bool Lakehouse (Store Registry)) :=
  Locks.machine lakehouseMachine (sqlite (fun _ => false)).machine

/-- The requests of both threads, newest first. -/
def twoThreadsLog : Log (Locks.Request Bool StoreCall (SharedConnection.Request SqliteStatement))
    (Locks.Reply StoreAnswer (SharedConnection.Reply SqliteRows)) PyError Bool :=
  [(false, ⟨.release false, .ok ⟨⟩⟩), (false, ⟨.inner .commit, .ok ⟨⟩⟩),
    (false, ⟨.inner (.execute (.upsertTombstone ("t_acme", "events"))), .ok ⟨⟩⟩),
    (false, ⟨.acquire false, .ok ⟨⟩⟩),
    (true, ⟨.release true, .ok ⟨⟩⟩), (true, ⟨.inner .commit, .ok ⟨⟩⟩),
    (false, ⟨.direct (.tool (.createNamespace "t_acme")), .ok ⟨⟩⟩),
    (true, ⟨.inner (.execute (.upsertTombstone ("t_acme", "events"))), .ok ⟨⟩⟩),
    (true, ⟨.acquire true, .ok ⟨⟩⟩)]

/-- While the first thread holds the lock the second one cannot acquire it, and creates its
namespace inside the transaction of the first. -/
theorem twoThreads_run : ∃ threads,
    Run twoThreadsMachine (fun i => Locks.carryOut i sqliteSections (twoThreads i))
      ⟨{}, ⟨{}, none⟩, none⟩ twoThreadsLog threads ∧ ∀ i, threads i = .pure () := by
  refine ⟨_, .call (.call (.call (.call (.call (.call (.call (.call (.call .start rfl ?_) rfl ?_)
    rfl ?_) rfl ?_) rfl ?_) rfl ?_) rfl ?_) rfl ?_) rfl ?_, ?_⟩
  · rintro _ ⟨⟩
  · exact ⟨⟨_, rfl⟩, trivial⟩
  · trivial
  · trivial
  · exact ⟨_, rfl⟩
  · rintro _ ⟨⟩
  · exact ⟨⟨_, rfl⟩, trivial⟩
  · trivial
  · exact ⟨_, rfl⟩
  · intro i
    cases i <;> rfl

/-- Without statements and locks the three calls are made one after the other, and both counts are
kept. -/
theorem twoThreads_serialized : ∃ log' threads',
    Run storeMachine twoThreads {} log' threads' ∧ (∀ i, threads' i = .pure ()) ∧
      storeMachine.after {} log' =
        ⟨{ namespaces := ["t_acme"] }, { tombstones := [(("t_acme", "events"), 2)] }⟩ := by
  obtain ⟨threads, hrun, hended⟩ := twoThreads_run
  obtain ⟨log', threads', hrun', hthreads, hstores, _⟩ := sqlite_serializes (s := {}) hrun
  exact ⟨log', threads', hrun', fun i => hthreads i (.ok ()) (hended i), (hstores rfl).2.1.symm⟩

end

end Memcove
