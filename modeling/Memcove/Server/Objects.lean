import Memcove.Drift.Creators
import Memcove.Server.Datasets

/-!
# The objects that requests write

A request writes one object of the lakehouse at most, which its arguments name, and leaves all
others alone.
-/

namespace Memcove

open Json Programs

section

variable [Python] [Sha256] [Sqlglot] [Orjson] [Hmac] [ObjectStore] [ArrowIo]

/-- The operation that a request carries out on the objects of its tenant, if it writes any. -/
def ServiceRequest.operation (settings : Settings) : ServiceRequest → Option Operation
  | tool caller (.rememberDataset name source mode tags target) =>
    (callerTenant settings caller).toOption.map (fun tenant =>
      .ingest tenant name (tableFromSource settings source tenant) mode tags target)
  | tool caller (.deriveDataset newName sql mode tags target) =>
    (callerTenant settings caller).toOption.map (fun tenant =>
      .derive tenant newName sql mode tags target)
  | tool caller (.forgetDataset name) =>
    (callerTenant settings caller).toOption.map (fun tenant => .drop tenant name)
  | doPut raw now schema chunks => some (.put schema (doPutTarget settings now raw) chunks)
  | _ => none

/-- The object that a request writes or drops. -/
def ServiceRequest.object (settings : Settings) (request : ServiceRequest) : Option Key :=
  (request.operation settings).bind Operation.object

end

section

variable {k : Key} {α : Type}

/-- A tool that leaves an object alone, within a request. -/
theorem runTool_leaves {p : Tool α} (hp : Calls (fun c => c.changes ≠ some k) TrueHandle p) :
    Calls (SiteCall.Leaves k) TrueSiteHandle (runTool p) :=
  hp.embed (fun _ hc => hc) (fun _ _ h => h)

/-- A tool that changes no table. -/
theorem runTool_stable {p : Tool α} (hp : Only Stable p) :
    Calls (SiteCall.Leaves k) TrueSiteHandle (runTool p) :=
  runTool_leaves (hp.mono (fun _ hc hk => by cases hc.symm.trans hk)).calls

/-- A call that is none of a tool. -/
theorem siteCall_leaves {c : SiteCall} (hc : c.Leaves k) :
    Calls (SiteCall.Leaves k) TrueSiteHandle (siteCall c) := (Only.perform hc).calls

/-- What a request returns. -/
theorem respond_leaves {p : SiteProgram α} (hp : Calls (SiteCall.Leaves k) TrueSiteHandle p)
    (g : α → Response) : Calls (SiteCall.Leaves k) TrueSiteHandle (do return g (← p)) :=
  Calls.bind hp (fun _ => .pure _)

/-- Looking for a table. -/
theorem tableExists_stable (tenant label : String) : Only Stable (tableExists tenant label) :=
  Only.perform rfl

/-- Listing the objects. -/
theorem listObjects_leaves (tenant : String) (tags : Option (List String)) :
    Calls (SiteCall.Leaves k) TrueSiteHandle (Service.listObjects tenant tags) :=
  Calls.perform_bind trivial (fun _ _ => .pure _)

variable [Python] [Engines]

/-- Describing an object within a request. -/
theorem describe_leaves (settings : Settings) (tenant name : String) :
    Calls (SiteCall.Leaves k) TrueSiteHandle
      (runTool (describeObject settings tenant name)) :=
  runTool_stable (describeObject_stable settings tenant name)

variable [Sqlglot]

/-- Reading an object by its name. -/
theorem getObject_leaves (settings : Settings) (tenant name mode : String) (limit : Option ℕ) :
    Calls (SiteCall.Leaves k) TrueSiteHandle
      (Service.getObject settings tenant name mode limit) := by
  have hschema (label : String) : Calls (SiteCall.Leaves k) TrueSiteHandle
      (runTool (loadSchema tenant label)) :=
    runTool_stable ((loadSchema_idle tenant label).mono (fun _ => Idle.stable))
  refine Calls.lift_bind (fun label _ => ?_)
  refine Calls.bind (runTool_stable (tableExists_stable tenant label)) (fun exists_ => ?_)
  split
  · exact .raise _
  · split
    · exact Calls.bind (hschema label) (fun _ => .pure _)
    · split
      · refine Calls.bind (runTool_stable ?_)
          (fun _ => Calls.bind (hschema label) (fun _ => .pure _))
        exact (rowCount_idle tenant label).mono (fun _ => Idle.stable)
      · split
        · exact Calls.lift_bind (fun _ _ => Calls.bind
            (Calls.bind (siteCall_leaves trivial) (fun _ => .pure _)) (fun _ => .pure _))
        · exact .raise _

omit [Python] [Engines] [Sqlglot] in
/-- Listing the reference data. -/
theorem discoverReferenceData_leaves (settings : Settings) :
    Calls (SiteCall.Leaves k) TrueSiteHandle (Service.discoverReferenceData settings) := by
  have hloop (schemas : List String) :
      Calls (SiteCall.Leaves k) TrueSiteHandle (Service.discoverSchemas schemas) := by
    induction schemas with
    | nil => exact .pure _
    | cons schema schemas ih =>
      refine Calls.bind (Calls.tryCatch (siteCall_leaves trivial) (fun _ => .pure _))
        (fun _ => ?_)
      exact Calls.bind ih (fun _ => .pure _)
  exact hloop _

end

section

variable [Python] [Sha256] [Sqlglot] [Orjson] [Hmac] [ObjectStore] [ArrowIo] [Engines] [Backend]
  {settings : Settings} {k : Key}

omit [Sha256] [Orjson] [Hmac] [ObjectStore] [ArrowIo] in
/-- An operation on another object. -/
theorem operation_leaves (settings : Settings) (op : Operation) (hop : op.object ≠ some k) :
    Calls (fun c => c.changes ≠ some k) TrueHandle (op.program settings) :=
  Calls.of_sat (fun _ _ hc hk => Bool.noConfusion (hc hk).1) (fun _ _ h => h)
    (operation_other settings hop)

omit [Sqlglot] [Orjson] [Hmac] [ObjectStore] [ArrowIo] [Engines] [Backend] in
/-- The object of an operation that a resolved caller asks for. -/
theorem object_of_caller {caller : Caller} {tenant : String}
    (htenant : callerTenant settings caller = .ok tenant) (op : String → Operation) :
    ((callerTenant settings caller).toOption.map op).bind Operation.object =
      (op tenant).object := by
  rw [htenant]
  rfl

/-- A tool leaves the objects alone that it does not name. -/
theorem ToolRequest.serve_leaves {caller : Caller} (request : ToolRequest)
    (hobject : (ServiceRequest.tool caller request).object settings ≠ some k) :
    Calls (SiteCall.Leaves k) TrueSiteHandle (request.serve settings caller) := by
  cases request with
  | rememberDataset name source mode tags target =>
    refine Calls.lift_bind (fun tenant htenant => respond_leaves (runTool_leaves ?_) _)
    exact Calls.left (operation_leaves settings (.ingest tenant name
      (tableFromSource settings source tenant) mode tags target)
      (fun hk => hobject ((object_of_caller htenant _).trans hk)))
  | queryMemory sql limit =>
    refine Calls.lift_bind (fun tenant _ => respond_leaves ?_ _)
    exact Calls.lift_bind (fun _ _ => Calls.bind (siteCall_leaves trivial) (fun _ => .pure _))
  | deriveDataset newName sql mode tags target =>
    refine Calls.lift_bind (fun tenant htenant => respond_leaves (runTool_leaves ?_) _)
    exact Calls.left (operation_leaves settings (.derive tenant newName sql mode tags target)
      (fun hk => hobject ((object_of_caller htenant _).trans hk)))
  | recallDataset name mode limit =>
    exact Calls.lift_bind (fun tenant _ =>
      respond_leaves (getObject_leaves settings tenant name mode limit) _)
  | inspectDataset name =>
    exact Calls.lift_bind (fun tenant _ =>
      respond_leaves (describe_leaves settings tenant name) _)
  | listMemory tags =>
    exact Calls.lift_bind (fun tenant _ => respond_leaves (listObjects_leaves tenant _) _)
  | discoverReferenceData =>
    exact Calls.lift_bind (fun tenant _ =>
      respond_leaves (discoverReferenceData_leaves settings) _)
  | exportDataset fmt name sql =>
    refine Calls.lift_bind (fun tenant _ => respond_leaves ?_ _)
    exact Calls.lift_bind (fun _ _ => Calls.bind (siteCall_leaves trivial) (fun _ => .pure _))
  | startLargeUpload name hex =>
    exact Calls.lift_bind (fun _ _ => Calls.lift_bind (fun _ _ => .pure _))
  | forgetDataset name =>
    refine Calls.lift_bind (fun tenant htenant => respond_leaves (runTool_leaves ?_) _)
    exact Calls.left (operation_leaves settings (.drop tenant name)
      (fun hk => hobject ((object_of_caller htenant _).trans hk)))
  | streamDataset name sql now nonce | openIngestStream name mode now nonce =>
    exact Calls.lift_bind (fun _ _ => Calls.lift_bind (fun _ _ => .pure _))
  | datasetResource uriTenant name =>
    exact Calls.lift_bind (fun tenant _ =>
      respond_leaves (describe_leaves settings tenant name) _)
  | catalogResource uriTenant =>
    exact Calls.lift_bind (fun tenant _ => respond_leaves (listObjects_leaves tenant _) _)

/-- A request leaves the objects alone that it does not write. -/
theorem ServiceRequest.serve_leaves (request : ServiceRequest)
    (hobject : request.object settings ≠ some k) :
    Calls (SiteCall.Leaves k) TrueSiteHandle (request.serve settings) := by
  cases request with
  | tool caller request => exact request.serve_leaves hobject
  | doGet raw now =>
    refine Calls.lift_bind (fun query _ => ?_)
    exact Calls.bind (Calls.tryCatch (siteCall_leaves trivial) (fun _ => .raise _))
      (fun _ => .pure _)
  | getFlightInfo raw now nonce =>
    refine Calls.lift_bind (fun cmd _ => Calls.lift_bind (fun query _ => ?_))
    exact Calls.perform_bind trivial (fun _ _ => Calls.lift_bind (fun _ _ => .pure _))
  | doPut raw now schema chunks =>
    refine Calls.bind (runTool_leaves ?_) (fun _ => .pure _)
    exact operation_leaves settings (.put schema (doPutTarget settings now raw) chunks) hobject
  | sweep tenant =>
    refine Calls.bind (runTool_stable ?_) (fun _ => .pure _)
    refine sweepNamespace_only rfl rfl rfl (fun plan => ?_)
    exact applyPlan_only (fun _ _ => rfl) (fun _ => rfl) (fun _ => rfl) (fun _ => rfl)
      (fun _ => rfl)

/-- So does the request with its response. -/
theorem ServiceRequest.program_leaves (request : ServiceRequest)
    (hobject : request.object settings ≠ some k) :
    Calls (SiteCall.Leaves k) TrueSiteHandle (request.program settings) := by
  refine Calls.bind (Calls.tryCatch (request.serve_leaves hobject) (fun _ => .pure _)) ?_
  exact fun response => Calls.bind (siteCall_leaves trivial) (fun _ => .pure _)

end

end Memcove
