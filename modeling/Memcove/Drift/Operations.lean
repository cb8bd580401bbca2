import Memcove.Tools.Ingest
import Memcove.Tools.Derive
import Memcove.Flight.Upload
import Memcove.Reconciler

/-!
# All operations against the two stores

The operations that touch the catalog and the registry, run concurrently in any number. Producers
commit data first and metadata second; read-repair, the reconciler and `drop_object` look at one
store before they write the other. What each of them is known to have done before it writes is
one contract, which all operations keep.
-/

namespace Memcove

open Programs KeyedTables

/-- The operations of the service on lakehouse objects. -/
inductive Operation where
  | ingest (tenant label : String) (source : PyM ResolvedSource) (mode : String)
      (tags : Option (List String)) (target : String)
  | derive (tenant newLabel sql mode : String) (tags : Option (List String)) (target : String)
  | put (schema : Columns) (target : PyM (String × String × Json))
      (chunks : List (Option (Batch schema)))
  | describe (tenant label : String)
  | drop (tenant label : String)
  | sweep

/-- The program of an operation, whose result is not looked at. -/
def Operation.program [Python] [Engines] [Backend] [Sqlglot] (settings : Settings) :
    Operation → Tool Unit
  | ingest tenant label source mode tags target => do
    let _ ← ingestObject settings tenant label source mode tags target
  | derive tenant newLabel sql mode tags target => do
    let _ ← deriveObject settings tenant newLabel sql mode tags target
  | put _ target chunks => doPut settings target chunks
  | describe tenant label => do
    let _ ← describeObject settings tenant label
  | drop tenant label => do
    let _ ← dropObject tenant label
  | sweep => reconcile settings

/-- The operation is a sweep of the reconciler. -/
def Operation.isSweep : Operation → Bool
  | sweep => true
  | _ => false

/-- The lakehouse object that an operation writes or drops, from its arguments alone. -/
def Operation.object [Python] : Operation → Option Key
  | ingest tenant label _ _ _ target =>
    if target = "lakehouse" then (validateLabel label).toOption.map (fun name => (tenant, name))
    else none
  | derive tenant newLabel _ _ _ target =>
    if target = "lakehouse" then (validateLabel newLabel).toOption.map (fun name => (tenant, name))
    else none
  | put _ target _ => target.toOption.map (fun t => (t.1, t.2.1))
  | drop tenant label => (validateLabel label).toOption.map (fun name => (tenant, name))
  | describe _ _ | sweep => none

/-- The row that a successful call recorded. -/
def recorded : CallEvent → Option ObjectRow
  | ⟨.recordObject row _ _, .ok _⟩ => some row
  | _ => none

/-- The key that a successful call deleted from the registry. -/
def deleted : CallEvent → Option Key
  | ⟨.deleteObject k, .ok _⟩ => some k
  | _ => none

/-- The key whose table a successful call dropped. -/
def dropped : CallEvent → Option Key
  | ⟨.dropTable k, .ok _⟩ => some k
  | _ => none

/-- The key whose data a successful call committed. -/
def committed : CallEvent → Option Key
  | ⟨c, .ok _⟩ => c.commits
  | _ => none

/-- The table that an answered call changed. -/
def changed : CallEvent → Option Key
  | ⟨c, .ok _⟩ => c.changes
  | _ => none

/-- Whether a read of the registry showed a row for the key, when it was such a read. -/
def rowShown (k : Key) : CallEvent → Option Bool
  | ⟨.getObject k', .ok found⟩ => if k' = k then some found.isSome else none
  | ⟨.labelsForTenant tenant, .ok labels⟩ =>
    if tenant = k.1 then some (decide (k.2 ∈ labels)) else none
  | _ => none

/-- The last read of the registry about the key, if there is one, showed a row or not. -/
def lastShown (k : Key) (h : List CallEvent) : Option Bool := h.findSome? (rowShown k)

/-- The last event is a check that the table does not exist, or its drop. -/
def Checked (k : Key) : List CallEvent → Prop
  | ⟨.tableExists k', .ok exists_⟩ :: _ => k' = k ∧ exists_ = false
  | ⟨.dropTable k', .ok _⟩ :: _ => k' = k
  | _ => False

/-- Nothing has been recorded. -/
def Unrecorded (h : List CallEvent) : Prop := ∀ event ∈ h, recorded event = none

/-- Data of the key has been committed. -/
def CommittedTo (k : Key) (h : List CallEvent) : Prop := ∃ event ∈ h, committed event = some k

/-- What all operations do before they write: a repair has read that there is no row, a producer
has committed its data and commits none after its record, a delete comes right after the check or
the drop of the table. Only the reconciler touches tombstones. -/
def discipline (sweeping : Bool) : Contract Call Answer PyError where
  guarantee h c :=
    match c with
    | .recordObject row _ _ =>
      if row.source = .reconciled then lastShown row.key h = some false
      else CommittedTo row.key h
    | .deleteObject k => Checked k h
    | .bumpTombstone _ | .clearTombstone _ => sweeping = true
    | c => c.commits.isSome = true → Unrecorded h
  assume _ event :=
    match event with
    | ⟨.createTable k _, .ok handle⟩ | ⟨.loadTable k, .ok handle⟩ => handle.key = k
    | _ => True

/-- The stores respect the assumption: a handle is one of the table that was asked for. -/
theorem discipline_assume [Engines] {b : Bool} {s : Stores} {event : CallEvent}
    (h : machine.possible s event) (j : List CallEvent) : (discipline b).assume j event := by
  obtain ⟨c, r⟩ := event
  cases r with
  | error e => cases c <;> trivial
  | ok a =>
    cases c with
    | createTable k schema =>
      obtain ⟨_, rfl⟩ := h
      rfl
    | loadTable k =>
      obtain ⟨t, _, rfl⟩ := h
      rfl
    | _ => trivial

/-- A call that writes nothing to the registry. -/
def Plain (c : Call) : Prop :=
  match c with
  | .recordObject _ _ _ | .deleteObject _ | .bumpTombstone _ | .clearTombstone _ => False
  | _ => True

/-- A call that neither writes to the registry nor commits data. -/
def Quiet (c : Call) : Prop :=
  match c with
  | .recordObject _ _ _ | .deleteObject _ | .bumpTombstone _ | .clearTombstone _ => False
  | c => c.commits = none

/-- A call that changes neither store. -/
def Idle (c : Call) : Prop :=
  match c with
  | .createNamespace _ | .ensureSchema _ | .createTable _ _ | .overwrite _ _ | .append _ _
  | .dropTable _ | .createTableAs _ _ _ | .recordObject _ _ _ | .deleteObject _
  | .bumpTombstone _ | .clearTombstone _ => False
  | _ => True

/-- An idle call is quiet. -/
theorem Idle.quiet {c : Call} (hc : Idle c) : Quiet c := by
  cases c <;> first | rfl | exact hc.elim

/-- An idle call changes nothing, whatever it answers. -/
theorem Idle.storesAfter_eq [Engines] {c : Call} (hc : Idle c) (s : Stores)
    (r : Except PyError (Answer c)) : storesAfter s ⟨c, r⟩ = s := by
  cases r with
  | error e => rfl
  | ok a => cases c <;> first | rfl | exact hc.elim

/-- A call that changes no table. -/
def Stable (c : Call) : Prop := c.changes = none

/-- An idle call changes no table. -/
theorem Idle.stable {c : Call} (hc : Idle c) : Stable c := by
  cases c <;> first | rfl | exact hc.elim

/-- A quiet call is plain. -/
theorem Quiet.plain {c : Call} (hc : Quiet c) : Plain c := by
  cases c <;> trivial

/-- The contract permits quiet calls. -/
theorem quiet_guarantee {b : Bool} {h : List CallEvent} {c : Call} (hc : Quiet c) :
    (discipline b).guarantee h c := by
  cases c with
  | recordObject | deleteObject | bumpTombstone | clearTombstone => exact hc.elim
  | _ =>
    intro hsome
    have hnone : Call.commits _ = none := hc
    rw [hnone] at hsome
    cases hsome

/-- A quiet call records nothing. -/
theorem Unrecorded.quiet {h : List CallEvent} {c : Call} {r : Except PyError (Answer c)}
    (hh : Unrecorded h) (hc : Quiet c) : Unrecorded (⟨c, r⟩ :: h) := by
  intro event hevent
  rcases List.mem_cons.mp hevent with rfl | hevent
  · cases c <;> first | rfl | exact hc.elim
  · exact hh event hevent

/-- Further events do not undo a commit of one's own history. -/
theorem CommittedTo.cons {k : Key} {h : List CallEvent} (hh : CommittedTo k h)
    (event : CallEvent) : CommittedTo k (event :: h) := by
  obtain ⟨e, he, hk⟩ := hh
  exact ⟨e, List.mem_cons_of_mem event he, hk⟩

/-- A program of quiet calls keeps the contract. -/
theorem sat_of_quiet {b : Bool} {α : Type} {p : Tool α} {h : List CallEvent} (hp : Only Quiet p) :
    Sat (discipline b) (fun _ _ => True) h p :=
  hp.sat (I := fun _ => True) (fun _ _ _ hc => quiet_guarantee hc) (fun _ _ _ _ _ => trivial)
    trivial

/-- A program of quiet calls records nothing. -/
theorem sat_unrecorded {b : Bool} {α : Type} {p : Tool α} {h : List CallEvent} (hp : Only Quiet p)
    (hh : Unrecorded h) : Sat (discipline b) (fun h _ => Unrecorded h) h p :=
  hp.sat (fun _ _ _ hc => quiet_guarantee hc) (fun _ _ _ hi hc => hi.quiet hc) hh

/-- A program of quiet calls keeps the commits of one's own history. -/
theorem sat_committedTo {b : Bool} {α : Type} {p : Tool α} {h : List CallEvent} {k : Key}
    (hp : Only Quiet p) (hh : CommittedTo k h) :
    Sat (discipline b) (fun h _ => CommittedTo k h) h p :=
  hp.sat (fun _ _ _ hc => quiet_guarantee hc) (fun _ _ _ hi _ => hi.cons _) hh

/-- Counting rows is idle. -/
theorem rowCount_idle (tenant label : String) : Only Idle (rowCount tenant label) :=
  Only.tryCatch (Only.perform trivial) (fun _ => trivial)

section

variable [Engines]

/-- Reading a schema is idle. -/
theorem loadSchema_idle (tenant label : String) : Only Idle (loadSchema tenant label) := by
  refine Only.bind (Only.perform trivial) (fun exists_ => ?_)
  split
  · exact Only.bind (Only.perform trivial) (fun _ => trivial)
  · trivial

/-- The response for a row is idle. -/
theorem describeRow_idle (settings : Settings) (tenant label : String)
    (reg : Option (ObjectRow × List String)) :
    Only Idle (describeRow settings tenant label reg) := by
  cases reg with
  | none => trivial
  | some found =>
    refine Only.bind (loadSchema_idle tenant label) (fun _ => ?_)
    refine Only.bind (Only.perform trivial) (fun _ => ?_)
    exact Only.bind (rowCount_idle tenant label) (fun _ => trivial)

/-- The response for a pending object is idle. -/
theorem pendingObject_idle (row : ObjectRow) (tags parents : List String) :
    Only Idle (pendingObject row tags parents) := by
  refine Only.bind (loadSchema_idle _ _) (fun _ => ?_)
  exact Only.bind (rowCount_idle _ _) (fun _ => trivial)

end

section

variable {Q : Call → Prop}

/-- A guarded record opens the registry and records its row. -/
theorem recordObjectGuarded_only [Backend] {row : ObjectRow} {tags : List String}
    {parents : Option (List String)} (hopen : Q .openRegistry)
    (hrecord : Q (.recordObject row tags parents)) :
    Only Q (recordObjectGuarded row tags parents) := by
  refine Only.bind (Only.perform hopen) (fun _ => Only.tryCatch ?_ (fun e => ?_))
  · exact Only.bind (Only.perform hrecord) (fun _ => trivial)
  · split <;> trivial

/-- A description reads, and records the row of a read-repair. -/
theorem describeObject_only [Python] [Engines] (settings : Settings) (tenant label : String)
    (hidle : ∀ c, Idle c → Q c)
    (hrepair : ∀ label, Q (.recordObject (reconciledRow settings tenant label) [] none)) :
    Only Q (describeObject settings tenant label) := by
  have hcall (c : Call) (hc : Idle c) : Only Q (call c) := Only.perform (hidle c hc)
  refine Only.bind Only.lift (fun label => ?_)
  refine Only.bind (hcall _ trivial) (fun found => ?_)
  refine Only.bind ?_ (fun reg => (describeRow_idle settings tenant label reg).mono hidle)
  cases found with
  | some found => trivial
  | none =>
    refine Only.bind (hcall _ trivial) (fun exists_ => ?_)
    cases exists_ with
    | false => trivial
    | true => exact Only.bind (Only.perform (hrepair label)) (fun _ => hcall _ trivial)

/-- What a producer does after its data: it records its row and describes the object. -/
theorem recordAndDescribe_only [Python] [Engines] [Backend] (settings : Settings)
    (row : ObjectRow) (tags : List String) (parents : Option (List String)) (shown : List String)
    (hidle : ∀ c, Idle c → Q c) (hrecord : Q (.recordObject row tags parents))
    (hrepair : ∀ label, Q (.recordObject (reconciledRow settings row.tenant label) [] none)) :
    Only Q (do
      let ok ← recordObjectGuarded row tags parents
      if ok then describeObject settings row.tenant row.label
      else pendingObject row tags shown) := by
  refine Only.bind (recordObjectGuarded_only (hidle _ trivial) hrecord) (fun ok => ?_)
  cases ok with
  | true => exact describeObject_only settings row.tenant row.label hidle hrepair
  | false => exact (pendingObject_idle row tags shown).mono hidle

/-- The calls of a plan. -/
theorem applyPlan_only {settings : Settings} {tenant : String} {plan : NamespacePlan}
    (hbackfill : ∀ l ∈ plan.backfill, Q (.recordObject (reconciledRow settings tenant l) [] none))
    (hclear : ∀ l, Q (.clearTombstone (tenant, l))) (hbump : ∀ l, Q (.bumpTombstone (tenant, l)))
    (hexists : ∀ l, Q (.tableExists (tenant, l))) (hdelete : ∀ l, Q (.deleteObject (tenant, l))) :
    Only Q (applyPlan settings tenant plan) := by
  refine Only.bind (Only.each fun l hl => Only.perform (hbackfill l hl)) (fun _ => ?_)
  refine Only.bind (Only.each fun l _ => Only.perform (hclear l)) (fun _ => ?_)
  refine Only.bind (Only.each fun l _ => Only.perform (hbump l)) (fun _ => ?_)
  refine Only.each fun l _ => Only.bind (Only.perform (hexists l)) (fun exists_ => ?_)
  split
  · exact Only.perform (hclear l)
  · exact Only.bind (Only.perform (hdelete l)) (fun _ => Only.perform (hclear l))

/-- A sweep of a namespace reads and executes a plan. -/
theorem sweepNamespace_only {settings : Settings} {tenant : String} (hlist : Q (.listTables tenant))
    (hlabels : Q (.labelsForTenant tenant)) (htombstones : Q (.tombstonesForTenant tenant))
    (hplan : ∀ plan, Only Q (applyPlan settings tenant plan)) :
    Only Q (sweepNamespace settings tenant) := by
  have hlive : Only Q (listLabels tenant) :=
    Only.tryCatch (Only.perform hlist) (fun _ => trivial)
  refine Only.bind hlive (fun live => Only.bind (Only.perform hlabels) (fun reg => ?_))
  exact Only.bind (Only.perform htombstones) (fun tombstones => hplan _)

end

/-- A call that changes neither store, or adds the row of a read-repair. -/
def Repairs (c : Call) : Prop :=
  Idle c ∨ ∃ row, row.source = .reconciled ∧ c = .recordObject row [] none

/-- Describing an object changes nothing but for a read-repair. -/
theorem describeObject_repairs [Python] [Engines] (settings : Settings) (tenant label : String) :
    Only Repairs (describeObject settings tenant label) :=
  describeObject_only settings tenant label (fun _ => Or.inl) (fun _ => Or.inr ⟨_, rfl, rfl⟩)

/-- A check that the scratchpad is enabled makes no call. -/
theorem requireEnabled_idle (settings : Settings) : Only Idle (requireEnabled settings) := by
  unfold requireEnabled
  split <;> trivial

/-- Describing a scratch object is idle. -/
theorem describeScratch_idle (settings : Settings) (tenant label : String) :
    Only Idle (describeScratch settings tenant label) := by
  refine Only.bind (requireEnabled_idle settings) (fun _ => ?_)
  refine Only.bind (Only.perform trivial) (fun _ => ?_)
  exact Only.bind (Only.perform trivial) (fun _ => trivial)

/-- Looking for a scratch object is idle. -/
theorem scratchTableExists_idle (settings : Settings) (tenant label : String) :
    Only Idle (scratchTableExists settings tenant label) := by
  refine Only.bind (requireEnabled_idle settings) (fun _ => ?_)
  exact Only.bind (Only.perform trivial) (fun _ => trivial)

section

variable [Python]

/-- Filling the scratchpad is idle. -/
theorem createAsSelect_idle (settings : Settings) (tenant label : String) (select : SelectText)
    (replace : Bool) : Only Idle (createAsSelect settings tenant label select replace) := by
  have hcatalog : Only Idle (ensureCatalog settings tenant) := by
    unfold ensureCatalog
    split
    · exact Only.perform trivial
    · split <;> trivial
  have hensure : Only Idle (ensureScratch settings tenant) :=
    Only.bind (requireEnabled_idle settings)
      (fun _ => Only.bind hcatalog (fun _ => Only.perform trivial))
  refine Only.bind (requireEnabled_idle settings) (fun _ => Only.bind hensure (fun _ => ?_))
  refine Only.bind ?_ (fun _ => Only.perform trivial)
  split
  · exact Only.bind (requireEnabled_idle settings) (fun _ => Only.perform trivial)
  · trivial

/-- Ingesting into the scratchpad is idle. -/
theorem ingestToScratch_idle (settings : Settings) (tenant label : String) (table : ArrowTable)
    (kind : SourceKind) (mode : String) :
    Only Idle (ingestToScratch settings tenant label table kind mode) := by
  unfold ingestToScratch
  split
  · trivial
  · split
    · trivial
    · refine Only.bind ?_ (fun exists_ => ?_)
      · split
        · exact scratchTableExists_idle settings tenant label
        · trivial
      · split
        · trivial
        · refine Only.bind Only.lift (fun _ => ?_)
          exact Only.bind (createAsSelect_idle _ _ _ _ _)
            (fun _ => describeScratch_idle settings tenant label)

/-- Deriving into the scratchpad is idle. -/
theorem deriveToScratch_idle [Sqlglot] (settings : Settings) (tenant newLabel : String)
    (guarded : GuardedQuery) (mode : String) :
    Only Idle (deriveToScratch settings tenant newLabel guarded mode) := by
  refine Only.bind (scratchTableExists_idle settings tenant newLabel) (fun exists_ => ?_)
  split
  · trivial
  · exact Only.bind (createAsSelect_idle _ _ _ _ _)
      (fun _ => describeScratch_idle settings tenant newLabel)

/-- The checks of a derive are idle. -/
theorem checkDerive_idle [Engines] (tenant newLabel : String) (sql : List Token) (mode : String)
    (exists_ : Bool) : Only Idle (checkDerive tenant newLabel sql mode exists_) := by
  unfold checkDerive
  split
  · trivial
  · split
    · refine Only.bind (loadSchema_idle tenant newLabel) (fun _ => ?_)
      refine Only.bind (Only.perform trivial) (fun _ => ?_)
      dsimp only
      split <;> trivial
    · trivial

end

/-- An answered call leaves the other tables alone. -/
theorem table_storesAfter [Engines] (s : Stores) {event : CallEvent} {k : Key}
    (hevent : changed event ≠ some k) :
    (storesAfter s event).lakehouse.table k = s.lakehouse.table k := by
  obtain ⟨c, r⟩ := event
  cases r with
  | error e => rfl
  | ok a => exact table_lakehouseAfter hevent

/-- The row of a key after an answered call. -/
theorem row_storesAfter [Engines] (s : Stores) (event : CallEvent) (k : Key) :
    (storesAfter s event).registry.row k =
      match recorded event with
      | some row => if row.key = k then some row else s.registry.row k
      | none => if deleted event = some k then none else s.registry.row k := by
  obtain ⟨c, r⟩ := event
  cases r with
  | error e => cases c <;> rfl
  | ok a =>
    cases c with
    | recordObject row tags parents =>
      by_cases hk : row.key = k
      · subst hk
        simp [storesAfter, registryAfter, recorded, Registry.row_recordObject_self]
      · simp [storesAfter, registryAfter, recorded, hk,
          Registry.row_recordObject_of_ne (Ne.symm hk)]
    | deleteObject k' =>
      by_cases hk : k' = k
      · subst hk
        simp [storesAfter, registryAfter, recorded, deleted, Registry.row_deleteObject_self]
      · simp [storesAfter, registryAfter, recorded, deleted, hk,
          Registry.row_deleteObject_of_ne (Ne.symm hk)]
    | _ => rfl

/-- The edges to which an event sets the lineage of a key. -/
def lineageSet (k : Key) : CallEvent → Option (List String)
  | ⟨.recordObject row _ (some parents), .ok _⟩ =>
    if row.key = k then some ((Registry.fromKeys parents).filter (fun parent => parent != k.2))
    else none
  | ⟨.deleteObject k', .ok _⟩ => if k' = k then some [] else none
  | _ => none

/-- The lineage of a key after an answered call. -/
theorem lineage_storesAfter [Engines] (s : Stores) (event : CallEvent) (k : Key) :
    valuesOf (storesAfter s event).registry.lineage k =
      (lineageSet k event).getD (valuesOf s.registry.lineage k) := by
  obtain ⟨c, r⟩ := event
  cases r with
  | error e => cases c <;> first | rfl | (cases ‹Option (List String)› <;> rfl)
  | ok a =>
    cases c with
    | recordObject row tags parents =>
      cases parents with
      | none => rfl
      | some parents =>
        by_cases hk : row.key = k
        · subst hk
          simp [storesAfter, registryAfter, lineageSet, Registry.lineage_recordObject_self]
        · simp [storesAfter, registryAfter, lineageSet, hk,
            Registry.lineage_recordObject_of_ne (Ne.symm hk)]
    | deleteObject k' =>
      by_cases hk : k' = k
      · subst hk
        simp [storesAfter, registryAfter, lineageSet, Registry.lineage_deleteObject_self]
      · simp [storesAfter, registryAfter, lineageSet, hk,
          Registry.lineage_deleteObject_of_ne (Ne.symm hk)]
    | _ => rfl

/-- Engines on tables of text columns alone; every `SELECT` reads an empty such table. -/
@[reducible] def textEngines : Engines where
  readBack columns := columns
  typeText _ := "string"
  select _ _ := ([("v", .string true)], [])

/-- A registry backend that reports errors of the database as an unreachable registry. -/
@[reducible] def externalBackend : Backend where
  isConnectionDown exc := exc.cls == .external

/-- A table with one text column. -/
def textTable (rows : List String) : ArrowTable where
  schema := [("v", .string true)]
  rows := rows.map (fun v => [.str v])
  fits := by
    intro row hrow
    obtain ⟨v, _, rfl⟩ := List.mem_map.mp hrow
    exact .cons trivial .nil

/-- An upload with one text column. -/
def textSource (rows : List String) (kind : SourceKind) (ref : Option String)
    (h : kind ∈ [.inline, .s3Parquet, .upload]) : PyM ResolvedSource :=
  .ok ⟨textTable rows, kind, ref, h⟩

/-- An inline ingest of `events` into the lakehouse. -/
def ingestEvents (rows : List String) (mode : String) (tags : List String) : Operation :=
  .ingest "t_acme" "events" (textSource rows .inline none inline_ingested) mode (some tags)
    "lakehouse"

/-- The run that a schedule of successful calls plays from empty stores. -/
def playOps [Python] [Engines] [Backend] [Sqlglot] {ι : Type} [DecidableEq ι] (ops : ι → Operation)
    (schedule : List ι) : Log Call Answer PyError ι × (ι → Tool Unit) :=
  play machine answerOf {} (schedule.map (fun i => (i, none))) []
    (fun i => (ops i).program {})

/-- What is played is a run. -/
theorem playOps_run [Python] [Engines] [Backend] [Sqlglot] {ι : Type} [DecidableEq ι]
    (ops : ι → Operation) (schedule : List ι) :
    Run machine (fun i => (ops i).program {}) {} (playOps ops schedule).1
      (playOps ops schedule).2 :=
  play_run answerOf_possible (fun _ _ _ => trivial) .start

end Memcove
