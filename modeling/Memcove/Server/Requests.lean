import Memcove.Server.Site

/-!
# The requests of the service

The tools and resources of `server.py`, the calls of the Flight server and the sweep of a
namespace, each as a program over the calls of the site that ends with its response. A read of the
catalog or a query is a call here, where the modules of the single tools take its result as given.
-/

namespace Memcove

open Json Programs

namespace Service

section

variable [Python]

/-- `trino_client.execute(wrap_preview(…), run_as=tenant)` with the `PreviewResult` that is made
of it. -/
def preview (tenant : String) (sql : List Token) (cap : ℕ) : SiteProgram PreviewResult := do
  let result ← siteCall (.select tenant sql (.preview cap))
  return {
    columns := result.columns.map (·.1)
    rows := result.rows.take cap
    rowCount := min result.rows.length cap
    truncated := decide (cap < result.rows.length) }

/-- `run_query`. -/
def runQuery [Sqlglot] (settings : Settings) (tenant sql : String) (limit : Option ℕ) :
    SiteProgram PreviewResult := do
  let cap := previewCap settings limit
  let guarded ← Program.lift (validateSelect (queryParams settings tenant) sql)
  preview tenant guarded.sql cap

/-- `get_object`. -/
def getObject [Sqlglot] [Engines] (settings : Settings) (tenant label mode : String)
    (limit : Option ℕ) : SiteProgram ObjectView := do
  let label ← Program.lift (validateLabel label)
  if !(← runTool (tableExists tenant label)) then .raise (objectNotFound label)
  else if mode = "schema" then return .schema (← runTool (loadSchema tenant label))
  else if mode = "stats" then
    let rows ← runTool (rowCount tenant label)
    return .stats rows (← runTool (loadSchema tenant label))
  else if mode = "preview" then
    let guarded ← Program.lift (previewQuery settings tenant label)
    return .preview (← preview tenant guarded.sql (previewCap settings limit))
  else .raise ⟨.valueError,
    "unknown mode " ++ Python.repr mode ++ "; expected preview|schema|stats"⟩

/-- `list_objects`, without the time of the last update. -/
def listObjects (tenant : String) (tags : Option (List String)) :
    SiteProgram (List ObjectSummary) := do
  let rows ← siteCall (.listObjects tenant (tags.getD []))
  return rows.map (fun row => ⟨row.1.label, row.1.source, row.2⟩)

/-- `export_artifact` from the guarded query on. -/
def exportGuarded (settings : Settings) (tenant fmt : String) (sql : List Token) :
    SiteProgram ArtifactRef := do
  let result ← siteCall (.select tenant sql (.capped settings.exportRowCap))
  let schema := streamSchema result.columns
  let batches := streamArrowBatches settings.streamBatchRows schema result.rows
  let written := streamFile fmt schema batches
  return { format := fmt, rowCount := written.2, file := written.1 }

/-- `export_artifact`. -/
def exportArtifact [Sqlglot] (settings : Settings) (tenant fmt : String)
    (label sql : Option String) : SiteProgram ArtifactRef := do
  let guarded ← Program.lift (exportQuery settings tenant fmt label sql)
  exportGuarded settings tenant fmt guarded.sql

/-- `do_get` from the guarded query on. -/
def streamResult (settings : Settings) (tenant : String) (sql : List Token) :
    SiteProgram Response := do
  let result ← Program.tryCatch (siteCall (.select tenant sql .whole))
    (fun exc => .raise ⟨.flightError, exc.message⟩)
  let schema := streamSchema result.columns
  return .batches schema (streamArrowBatches settings.streamBatchRows schema result.rows)

end

/-- `tables.setdefault(table_name, []).append(…)`. -/
def appendColumn (tables : List ReferenceTable) (entry : ColumnEntry) : List ReferenceTable :=
  if tables.any (fun t => t.name == entry.1) then
    tables.map (fun t => if t.name = entry.1 then { t with columns := t.columns ++ [entry.2] }
      else t)
  else tables ++ [⟨entry.1, [entry.2]⟩]

/-- The tables of a schema, from the rows about their columns. -/
def groupColumns (rows : List ColumnEntry) : List ReferenceTable := rows.foldl appendColumn []

/-- The rows about the columns of a schema: one that cannot be read is reported empty. -/
def referenceRows (schema : String) : SiteProgram (List ColumnEntry) :=
  Program.tryCatch (siteCall (.referenceColumns schema)) (fun _ => .pure [])

/-- The loop of `discover_reference_data` over the schemas. -/
def discoverSchemas : List String → SiteProgram (List (String × List ReferenceTable))
  | [] => .pure []
  | schema :: schemas => do
    let rows ← referenceRows schema
    let rest ← discoverSchemas schemas
    return (schema, groupColumns rows) :: rest

/-- `discover_reference_data`. -/
def discoverReferenceData (settings : Settings) :
    SiteProgram (List (String × List ReferenceTable)) :=
  discoverSchemas (settings.sharedSchemas.filter (· != ""))

end Service

/-- A tool or a resource of the MCP server with its arguments. The texts of fresh UUIDs, the times
and the nonces are arguments as well. -/
inductive ToolRequest where
  | rememberDataset (name : String) (source : Fields) (mode : String)
      (tags : Option (List String)) (target : String)
  | queryMemory (sql : String) (limit : Option ℕ)
  | deriveDataset (newName sql mode : String) (tags : Option (List String)) (target : String)
  | recallDataset (name mode : String) (limit : Option ℕ)
  | inspectDataset (name : String)
  | listMemory (tags : Option (List String))
  | discoverReferenceData
  | exportDataset (fmt : String) (name sql : Option String)
  | startLargeUpload (name hex : String)
  | forgetDataset (name : String)
  | streamDataset (name sql : Option String) (now : Int) (nonce : String)
  | openIngestStream (name : String) (mode : IngestMode) (now : Int) (nonce : String)
  | datasetResource (uriTenant name : String)
  | catalogResource (uriTenant : String)

/-- A request of the service: of a caller of the MCP server, of a client of the Flight server, or
the reconciler's sweep of a namespace. -/
inductive ServiceRequest [Orjson] where
  | tool (caller : Caller) (request : ToolRequest)
  | doGet (raw : Bytes) (now : Int)
  | getFlightInfo (raw : Bytes) (now : Int) (nonce : String)
  | doPut (raw : Bytes) (now : Int) (schema : Columns) (chunks : List (Option (Batch schema)))
  | sweep (tenant : String)

section

variable [Python] [Sha256] [Sqlglot] [Orjson] [Hmac]

/-- `_authorized_tenant`. -/
def authorizedTenant (settings : Settings) (caller : Caller) (uriTenant : String) :
    PyM String := do
  let tenant ← callerTenant settings caller
  let named ← normalizeTenant settings (some uriTenant)
  if named ≠ tenant then raise .tenancyError "cannot access another tenant's resources"
  else return tenant

variable [ObjectStore] [ArrowIo] [Engines] [Backend] (settings : Settings)

/-- The tools and resources of `server.py`. -/
def ToolRequest.serve (caller : Caller) : ToolRequest → SiteProgram Response
  | rememberDataset name source mode tags target => do
    let tenant ← Program.lift (callerTenant settings caller)
    return .object (← runTool (ingestObject settings tenant name
      (tableFromSource settings source tenant) mode tags target))
  | queryMemory sql limit => do
    let tenant ← Program.lift (callerTenant settings caller)
    return .preview (← Service.runQuery settings tenant sql limit)
  | deriveDataset newName sql mode tags target => do
    let tenant ← Program.lift (callerTenant settings caller)
    return .object (← runTool (deriveObject settings tenant newName sql mode tags target))
  | recallDataset name mode limit => do
    let tenant ← Program.lift (callerTenant settings caller)
    return .view (← Service.getObject settings tenant name mode limit)
  | inspectDataset name => do
    let tenant ← Program.lift (callerTenant settings caller)
    return .object (← runTool (describeObject settings tenant name))
  | listMemory tags => do
    let tenant ← Program.lift (callerTenant settings caller)
    return .datasets (← Service.listObjects tenant tags)
  | discoverReferenceData => do
    let _ ← Program.lift (callerTenant settings caller)
    return .reference (← Service.discoverReferenceData settings)
  | exportDataset fmt name sql => do
    let tenant ← Program.lift (callerTenant settings caller)
    return .artifact (← Service.exportArtifact settings tenant fmt name sql)
  | startLargeUpload name hex => do
    let tenant ← Program.lift (callerTenant settings caller)
    return .upload (← Program.lift (requestUpload settings tenant name hex))
  | forgetDataset name => do
    let tenant ← Program.lift (callerTenant settings caller)
    return .forgotten (← runTool (dropObject tenant name))
  | streamDataset name sql now nonce => do
    let cmd ← Program.lift (Memcove.streamDataset settings caller name sql)
    let _ ← Program.lift (sign settings now nonce cmd)
    return .ticket (envelope settings now nonce cmd)
  | openIngestStream name mode now nonce => do
    let cmd ← Program.lift (Memcove.openIngestStream settings caller name mode)
    let _ ← Program.lift (sign settings now nonce cmd)
    return .ticket (envelope settings now nonce cmd)
  | datasetResource uriTenant name => do
    let tenant ← Program.lift (authorizedTenant settings caller uriTenant)
    return .object (← runTool (describeObject settings tenant name))
  | catalogResource uriTenant => do
    let tenant ← Program.lift (authorizedTenant settings caller uriTenant)
    return .datasets (← Service.listObjects tenant none)

/-- The requests of the service. -/
def ServiceRequest.serve : ServiceRequest → SiteProgram Response
  | tool caller request => request.serve settings caller
  | doGet raw now => do
    let query ← Program.lift (Memcove.doGet settings now raw)
    Service.streamResult settings query.1 query.2
  | getFlightInfo raw now nonce => do
    let cmd ← Program.lift (verify settings now raw)
    let query ← Program.lift (validatedQuery settings cmd)
    let result ← siteCall (.select query.1 query.2 .columnsOnly)
    let _ ← Program.lift (sign settings now nonce cmd)
    return .flightInfo (streamSchema result.columns) (envelope settings now nonce cmd)
  | doPut raw now _ chunks => do
    runTool (Memcove.doPut settings (doPutTarget settings now raw) chunks)
    return .done
  | sweep tenant => do
    runTool (sweepNamespace settings tenant)
    return .done

/-- A request with its response: what it returned or the exception that it ended with. -/
def ServiceRequest.program (request : ServiceRequest) : SiteProgram Unit := do
  let response ← Program.tryCatch (request.serve settings) (fun exc => .pure (.failed exc))
  let _ ← siteCall (.respond response)
  return ()

omit [ObjectStore] [ArrowIo] [Engines] [Backend] in
/-- The tenant that a request acts for, when there is one: of its caller, of its ticket, or of the
namespace that is swept. -/
def ServiceRequest.tenant? : ServiceRequest → Option String
  | tool caller _ => (callerTenant settings caller).toOption
  | doGet raw now => (Memcove.doGet settings now raw).toOption.map (·.1)
  | getFlightInfo raw now _ =>
    (verify settings now raw >>= validatedQuery settings).toOption.map (·.1)
  | doPut raw now _ _ => (doPutTarget settings now raw).toOption.map (·.1)
  | sweep tenant => some tenant

/-- The request is a sweep. -/
def ServiceRequest.isSweep : ServiceRequest → Bool
  | sweep _ => true
  | _ => false

end

end Memcove
