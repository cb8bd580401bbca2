import Memcove.Lib.Noninterference
import Memcove.Scratch.Engine
import Memcove.Scratch.Injection
import Memcove.Sql.ReadOnly
import Memcove.Tools.ByName
import Memcove.Tools.Sources

/-!
# The whole site

The catalog, the registry and Trino as one machine, with all calls of the service: those of the
tools, the listing of the registry, the queries that are run for a result, the columns of a shared
schema, and the response at the end of a request. Trino sees the tables of the catalog and of the
scratchpad side by side. A call that goes through returns what the stores hold. The identity of a
new table is drawn, never one that was used before.
-/

namespace Memcove

open Programs KeyedTables

/-- What is put around a query before it is run: nothing, the limit of a preview, the limit of an
export, or a limit of zero for its columns alone. -/
inductive Wrapping where
  | whole
  | preview (cap : ℕ)
  | capped (cap : ℕ)
  | columnsOnly

/-- A row of `information_schema.columns`: the table, the column and its type. -/
abbrev ColumnEntry := String × String × String

/-- A table or the columns of one, as `discover_reference_data` lists it. -/
structure ReferenceTable where
  name : String
  columns : List (String × String)
  deriving DecidableEq

/-- One entry of `list_objects`. -/
structure ObjectSummary where
  label : String
  source : SourceKind
  tags : List String

/-- What a request is answered with. A ticket is given by the envelope that is signed. -/
inductive Response where
  | object (object : MemoryObject)
  | preview (result : PreviewResult)
  | view (view : ObjectView)
  | datasets (summaries : List ObjectSummary)
  | reference (schemas : List (String × List ReferenceTable))
  | artifact (ref : ArtifactRef)
  | upload (ticket : UploadTicket)
  | forgotten (label : String)
  | ticket (env : Fields)
  | flightInfo (schema : Columns) (env : Fields)
  | batches (schema : Columns) (batches : List Rows)
  | done
  | failed (exc : PyError)

/-- A call of the service. -/
inductive SiteCall where
  | tool (c : Call)
  | listObjects (tenant : String) (tags : List String)
  | select (runAs : String) (sql : List Token) (wrapping : Wrapping)
  | referenceColumns (schema : String)
  | respond (response : Response)

/-- The type of the value that a call returns. A call of a tool also returns the identity that a
new table gets. -/
abbrev SiteAnswer : SiteCall → Type
  | .tool c => Answer c × ℕ
  | .listObjects _ _ => List (ObjectRow × List String)
  | .select _ _ _ => QueryResult
  | .referenceColumns _ => List ColumnEntry
  | .respond _ => PUnit

/-- A request of the service: a program over these calls. -/
abbrev SiteProgram (α : Type) := Program SiteCall SiteAnswer PyError α

/-- One call. -/
def siteCall (c : SiteCall) : SiteProgram (SiteAnswer c) := Program.perform c

/-- A call with its answer. -/
abbrev SiteEvent := Programs.Event SiteCall SiteAnswer PyError

/-- The calls of the tools among those of the service. -/
def toolCalls : Embedding Call Answer SiteCall SiteAnswer where
  call := .tool
  answer _ a := a.1

/-- A tool as a part of a request. -/
def runTool {α : Type} (p : Tool α) : SiteProgram α := p.embed toolCalls

/-- The catalog, the registry and the scratchpad. -/
structure Site where
  stores : Stores := {}
  scratch : TrinoState := {}

/-- How Trino shows a table of the catalog and stores a result in it, what it returns for a query
and its wrappings, and what a text does to the stores when it is run as a query. A query reads the
tables that its tree names with a schema, and a faithful inline `SELECT` reads none. -/
class Federation [Sqlglot] extends Federated where
  shown : LakeTable → QueryResult
  stored : QueryResult → Columns × Rows
  result : TrinoState → List Token → Wrapping → Except PyError QueryResult
  sideEffect : List Token → Stores → Stores
  reads_generate : ∀ {tree : SqlTree} {ident : TableIdent}, ident ∈ reads (.query (generate tree)) →
    ∃ node ∈ tree.subtrees, ∃ ref, node.label = .table ref ∧ ¬ ref.Unqualified ∧
      ident.1 = ref.catalog ∧ ident.2.1 = ref.db
  reads_inline : ∀ {table : ArrowTable} {text : String}, Faithful table text →
    reads (.inline text) = []
  result_congr : ∀ {s t : TrinoState} {sql : List Token} {wrapping : Wrapping},
    (∀ ident ∈ reads (.query sql), s.table ident = t.table ident) →
      (result s sql wrapping).toOption = (result t sql wrapping).toOption
  sideEffect_query : ∀ {sql : List Token} {s : Stores}, IsQuery sql → sideEffect sql s = s

section

variable [Sqlglot] [Federation] (settings : Settings)

/-- What Trino sees: the tables of the catalog and those of the scratchpad. -/
def Site.trino (σ : Site) : TrinoState where
  catalogs := settings.trinoCatalog :: σ.scratch.catalogs
  schemas := σ.stores.lakehouse.namespaces.map (fun ns => (settings.trinoCatalog, ns)) ++
    σ.scratch.schemas
  tables := σ.stores.lakehouse.tables.map (fun t =>
      ((settings.trinoCatalog, t.1), Federation.shown t.2)) ++ σ.scratch.tables

/-- The rows of `information_schema.columns` about a schema, by the name of the table. -/
def Site.referenceRows (σ : Site) (schema : String) : List ColumnEntry :=
  ((σ.stores.lakehouse.tables.filter (fun t => t.1.1 == schema)).mergeSort
    (fun t u => decide (t.1.2 ≤ u.1.2))).flatMap
      (fun t => (Federation.shown t.2).columns.map (fun column => (t.1.2, column.1, column.2)))

/-- The columns and rows that a query stores in the catalog. -/
def Site.selected (σ : Site) (sql : List Token) : Columns × Rows :=
  match Federated.evaluate (σ.trino settings) (.query sql) with
  | .ok result => Federation.stored result
  | .error _ => ([], [])

/-- The scratchpad after a statement that went through. -/
def Site.scratchAfter (σ : Site) : ScratchStatement → TrinoState
  | .createTableAs catalog schema label select =>
    match Federated.ctas (σ.trino settings) (catalog, schema, label) select with
    | .ok result => σ.scratch.addTable (catalog, schema, label) result
    | .error _ => σ.scratch
  | statement => σ.scratch.after statement

variable [Engines]

/-- PyIceberg as it is, and Trino on what it sees. -/
@[reducible] def Site.engines (σ : Site) : Engines where
  readBack := Engines.readBack
  typeText := Engines.typeText
  select _ sql := σ.selected settings sql

/-- The stores, when a new table would get the identity `n`. -/
def Stores.drawn (s : Stores) (n : ℕ) : Stores :=
  { s with lakehouse := { s.lakehouse with nextUuid := n } }

/-- What a returned value says about the stores beyond its own store: listings are complete,
queries read what Trino sees, counts are right. -/
def Site.Shows (σ : Site) : (c : Call) → Answer c → Prop
  | .listTables ns, labels =>
    labels.Perm ((σ.stores.lakehouse.tables.filter (fun t => t.1.1 == ns)).map (fun t => t.1.2))
  | .listNamespaces, namespaces =>
    namespaces.Perm (σ.stores.lakehouse.namespaces.map (fun ns => [ns]))
  | .probeColumns _ sql, names => ∃ result,
    Federated.evaluate (σ.trino settings) (.query sql) = .ok result ∧
      names = result.columns.map (·.1)
  | .createTableAs _ k sql, _ => ∃ result,
    Federated.ctas (σ.trino settings) (settings.trinoCatalog, k) (.query sql) = .ok result
  | .countRows k, count => ∃ t, σ.stores.lakehouse.table k = some t ∧
    count = some (t.rows.length : Int)
  | .scratch statement, a => (σ.trino settings).respond statement = .ok a
  | _, _ => True

/-- The values that a call may return. -/
def Site.Returns (σ : Site) : (c : SiteCall) → SiteAnswer c → Prop
  | .tool c, (a, n) => σ.stores.lakehouse.nextUuid ≤ n ∧ Memcove.Returns (σ.stores.drawn n) c a ∧
    σ.Shows settings c a
  | .listObjects tenant tags, rows => rows.Perm (σ.stores.registry.listObjects tenant tags)
  | .select _ sql wrapping, result =>
    Federation.result (σ.trino settings) sql wrapping = .ok result
  | .referenceColumns schema, rows => rows = σ.referenceRows schema
  | .respond _, _ => True

/-- The site after a call of a tool that returned. -/
def Site.afterTool (σ : Site) (c : Call) (n : ℕ) : Site where
  stores :=
    { lakehouse := @lakehouseAfter (σ.engines settings) (σ.stores.drawn n).lakehouse c
      registry := registryAfter σ.stores.registry c }
  scratch :=
    match c with
    | .scratch statement => σ.scratchAfter settings statement
    | _ => σ.scratch

/-- The site after an answered call. A call that raised changed nothing. -/
def Site.after (σ : Site) (event : SiteEvent) : Site :=
  match event with
  | ⟨.tool c, .ok (_, n)⟩ => σ.afterTool settings c n
  | ⟨.select _ sql _, .ok _⟩ => { σ with stores := Federation.sideEffect sql σ.stores }
  | _ => σ

/-- The site as a machine. A call fails where it cannot return, and the calls of a given kind may
fail at any time. -/
def site (fragile : SiteCall → Prop) : Machine SiteCall SiteAnswer PyError Site where
  possible σ event :=
    match event with
    | ⟨c, .ok a⟩ => σ.Returns settings c a
    | ⟨c, .error _⟩ => fragile c ∨ ∀ a, ¬ σ.Returns settings c a
  effect := Site.after settings

/-- The answer of a site whose parts can all be reached. -/
def siteAnswer (σ : Site) : (c : SiteCall) → Except PyError (SiteAnswer c)
  | .tool (.probeColumns _ sql) =>
    (Federated.evaluate (σ.trino settings) (.query sql)).map
      (fun result => (result.columns.map (·.1), σ.stores.lakehouse.nextUuid))
  | .tool (.createTableAs replace k sql) => do
    let _ ← Federated.ctas (σ.trino settings) (settings.trinoCatalog, k) (.query sql)
    let a ← answerOf σ.stores (.createTableAs replace k sql)
    return (a, σ.stores.lakehouse.nextUuid)
  | .tool (.countRows k) =>
    match σ.stores.lakehouse.table k with
    | some t => .ok (some (t.rows.length : Int), σ.stores.lakehouse.nextUuid)
    | none => .error (externalError "table does not exist")
  | .tool (.scratch statement) =>
    ((σ.trino settings).respond statement).map (fun a => (a, σ.stores.lakehouse.nextUuid))
  | .tool c => (answerOf σ.stores c).map (fun a => (a, σ.stores.lakehouse.nextUuid))
  | .listObjects tenant tags => .ok (σ.stores.registry.listObjects tenant tags)
  | .select _ sql wrapping => Federation.result (σ.trino settings) sql wrapping
  | .referenceColumns schema => .ok (σ.referenceRows schema)
  | .respond _ => .ok ⟨⟩

variable {settings} {σ : Site}

omit [Sqlglot] [Federation] [Engines] in
/-- A mapped result that is returned. -/
theorem map_eq_ok {α β : Type} {f : α → β} {x : PyM α} {b : β} (h : x.map f = .ok b) :
    ∃ a, x = .ok a ∧ f a = b := by
  cases x with
  | ok a => exact ⟨a, rfl, Except.ok.inj h⟩
  | error e => cases h

/-- What the site answers may be returned. -/
theorem siteAnswer_returns {c : SiteCall} {a : SiteAnswer c}
    (h : siteAnswer settings σ c = .ok a) : σ.Returns settings c a := by
  have hanswer {c : Call} {a : Answer c} (h : answerOf σ.stores c = .ok a) :
      Memcove.Returns (σ.stores.drawn σ.stores.lakehouse.nextUuid) c a := by
    have hpossible := answerOf_possible σ.stores c
    rw [h] at hpossible
    exact hpossible
  have hplain {c : Call} {a : Answer c × ℕ}
      (h : (answerOf σ.stores c).map (fun a => (a, σ.stores.lakehouse.nextUuid)) = .ok a)
      (hshows : σ.Shows settings c a.1) : σ.Returns settings (.tool c) a := by
    obtain ⟨a', ha, h⟩ := map_eq_ok h
    cases h
    exact ⟨le_rfl, hanswer ha, hshows⟩
  cases c with
  | tool c =>
    cases c with
    | probeColumns tenant sql =>
      obtain ⟨result, hresult, h⟩ := map_eq_ok h
      cases h
      exact ⟨le_rfl, trivial, result, hresult, rfl⟩
    | createTableAs replace k sql =>
      obtain ⟨result, hresult, h⟩ := bind_eq_ok h
      obtain ⟨a', ha, h⟩ := bind_eq_ok h
      cases h
      exact ⟨le_rfl, hanswer ha, result, hresult⟩
    | countRows k =>
      simp only [siteAnswer] at h
      split at h
      · rename_i t htable
        cases h
        exact ⟨le_rfl, trivial, t, htable, rfl⟩
      · cases h
    | scratch statement =>
      obtain ⟨a', ha, h⟩ := map_eq_ok h
      cases h
      exact ⟨le_rfl, trivial, ha⟩
    | listTables ns =>
      cases h
      exact ⟨le_rfl, trivial, List.Perm.refl _⟩
    | listNamespaces =>
      cases h
      exact ⟨le_rfl, trivial, List.Perm.refl _⟩
    | _ => exact hplain h trivial
  | listObjects tenant tags =>
    cases h
    exact List.Perm.refl _
  | select runAs sql wrapping => exact h
  | referenceColumns schema =>
    cases h
    rfl
  | respond response => trivial

/-- What a schedule plays on such a site is a run. -/
theorem playSite_run {ι : Type} [DecidableEq ι] {start : ι → SiteProgram Unit}
    (schedule : List (ι × Option PyError)) :
    Run (site settings (fun _ => True)) start σ
      (play (site settings (fun _ => True)) (siteAnswer settings) σ schedule [] start).1
      (play (site settings (fun _ => True)) (siteAnswer settings) σ schedule [] start).2 := by
  refine play_run (fun τ c => ?_) (fun _ _ _ => Or.inl trivial) .start
  cases h : siteAnswer settings τ c with
  | ok a => exact siteAnswer_returns h
  | error e => exact Or.inl trivial

end

end Memcove
