import Memcove.Drift.TenantKeys
import Memcove.Scratch.Replace
import Memcove.Server.Confinement

/-!
# Tenants do not see each other

Requests of any number of tenants run at once, with sweeps of the reconciler between them. What
the requests of one tenant call, are answered and respond with is what they would be if there were
no other tenant: the others' requests can be left out of the run, and their data out of the site.
-/

namespace Memcove

open Json KeyedTables Programs Trees

section

variable [Python] [Sqlglot] [Federation] (settings : Settings) (tenant : String) (plain : Prop)

/-- The call is about the tenant, and when the request is plain it reads what the tenant sees. -/
def SiteCall.Own (c : SiteCall) : Prop :=
  c.About settings tenant ∧ (plain → c.ReadsWithin settings tenant)

/-- A handle that a call of a tool returns is one of the table that was asked for. -/
def TrueSiteHandle : SiteEvent → Prop
  | ⟨.tool c, r⟩ => TrueHandle ⟨c, r.map Prod.fst⟩
  | _ => True

variable {settings tenant plain}

/-- The calls of a tool within a request. -/
theorem runTool_own {α : Type} {p : Tool α}
    (hp : Calls (Call.Own settings tenant plain) TrueHandle p) :
    Calls (SiteCall.Own settings tenant plain) TrueSiteHandle (runTool p) :=
  hp.embed (fun _ hc => hc) (fun _ _ h => h)

omit [Python] in
/-- The stores return such handles. -/
theorem trueSiteHandle [Engines] {fragile : SiteCall → Prop} {σ : Site}
    {event : SiteEvent} (h : (site settings fragile).possible σ event) : TrueSiteHandle event := by
  obtain ⟨c, r⟩ := event
  cases c with
  | tool c =>
    cases r with
    | error e =>
      have hpossible : machine.possible σ.stores ⟨c, .error e⟩ := trivial
      exact discipline_assume hpossible []
    | ok a =>
      obtain ⟨a, n⟩ := a
      have hpossible : machine.possible (σ.stores.drawn n) ⟨c, .ok a⟩ := h.2.1
      exact discipline_assume hpossible []
  | _ => trivial

/-- A preview of a query. -/
theorem preview_own {sql : List Token} (hquery : IsQuery sql)
    (hreads : ReadsWithin settings tenant (.query sql)) (cap : ℕ) :
    Calls (SiteCall.Own settings tenant plain) TrueSiteHandle
      (Service.preview tenant sql cap) :=
  Calls.perform_bind ⟨⟨rfl, hquery⟩, fun _ => hreads⟩ (fun _ _ => .pure _)

/-- What follows the guard, for a statement that only reads. -/
theorem guarded_own {α : Type} (params : GuardParams) {sql : String}
    {f : GuardedQuery → SiteProgram α} (htenant : params.tenantNs = tenant)
    (hns : IsNamespace tenant) (hshared : params.sharedSchemas = settings.sharedSchemas)
    (hscratch : ∀ target, params.scratch = some target → target.schema = tenant)
    (hsql : OnlyReads sql) (hf : ∀ guarded, IsQuery guarded.sql →
      ReadsWithin settings tenant (.query guarded.sql) →
        Calls (SiteCall.Own settings tenant plain) TrueSiteHandle (f guarded)) :
    Calls (SiteCall.Own settings tenant plain) TrueSiteHandle
      (Program.lift (validateSelect params sql) >>= f) := by
  subst htenant
  have hguarded (guarded : GuardedQuery) (h : validateSelect params sql = .ok guarded) :=
    hf guarded (hsql.isQuery h) (validateSelect_reads h hns hshared hscratch)
  generalize validateSelect params sql = result at hguarded
  exact Calls.lift_bind hguarded

/-- Running a query. -/
theorem runQuery_own (hns : IsNamespace tenant) {sql : String} (hsql : OnlyReads sql)
    (limit : Option ℕ) : Calls (SiteCall.Own settings tenant plain) TrueSiteHandle
      (Service.runQuery settings tenant sql limit) :=
  guarded_own (queryParams settings tenant) rfl hns rfl (scratchGuardParams_schema settings tenant)
    hsql (fun _ hquery hreads => preview_own hquery hreads _)

/-- Reading an object by its name. -/
theorem getObject_own [Engines] (hns : IsNamespace tenant) {name : String} (mode : String)
    (limit : Option ℕ)
    (hsql : ∀ label, validateLabel name = .ok label → OnlyReads (readText label)) :
    Calls (SiteCall.Own settings tenant plain) TrueSiteHandle
      (Service.getObject settings tenant name mode limit) := by
  refine Calls.lift_bind (fun label hlabel => ?_)
  refine Calls.bind (runTool_own (Only.calls (only_own rfl trivial))) (fun exists_ => ?_)
  split
  · exact .raise _
  · split
    · exact Calls.bind (runTool_own (loadSchema_own label).calls) (fun _ => .pure _)
    · split
      · refine Calls.bind (runTool_own (rowCount_own label).calls) (fun _ => ?_)
        exact Calls.bind (runTool_own (loadSchema_own label).calls) (fun _ => .pure _)
      · split
        · exact guarded_own (flightParams settings tenant) rfl hns rfl (fun _ h => by cases h)
            (hsql label hlabel) (fun _ hquery hreads =>
              Calls.bind (preview_own hquery hreads _) (fun _ => .pure _))
        · exact .raise _

/-- Listing the objects. -/
theorem listObjects_own (tags : Option (List String)) :
    Calls (SiteCall.Own settings tenant plain) TrueSiteHandle
      (Service.listObjects tenant tags) :=
  Calls.perform_bind ⟨rfl, fun _ => trivial⟩ (fun _ _ => .pure _)

/-- Listing the reference data. -/
theorem discoverReferenceData_own : Calls (SiteCall.Own settings tenant plain) TrueSiteHandle
    (Service.discoverReferenceData settings) := by
  have hloop (schemas : List String) (hschemas : ∀ s ∈ schemas, s ∈ settings.sharedSchemas) :
      Calls (SiteCall.Own settings tenant plain) TrueSiteHandle
        (Service.discoverSchemas schemas) := by
    induction schemas with
    | nil => exact .pure _
    | cons schema schemas ih =>
      have hcall : (SiteCall.referenceColumns schema).Own settings tenant plain :=
        ⟨hschemas schema List.mem_cons_self, fun _ => trivial⟩
      refine Calls.bind (Calls.tryCatch (Only.perform hcall).calls (fun _ => .pure _)) ?_
      intro rows
      exact Calls.bind (ih (fun s hs => hschemas s (List.mem_cons_of_mem _ hs)))
        (fun _ => .pure _)
  exact hloop _ (fun s hs => (List.mem_filter.mp hs).1)

/-- Exporting a guarded query. -/
theorem exportGuarded_own {sql : List Token} (hquery : IsQuery sql)
    (hreads : ReadsWithin settings tenant (.query sql)) (fmt : String) :
    Calls (SiteCall.Own settings tenant plain) TrueSiteHandle
      (Service.exportGuarded settings tenant fmt sql) :=
  Calls.perform_bind ⟨⟨rfl, hquery⟩, fun _ => hreads⟩ (fun _ _ => .pure _)

/-- Streaming the result of a guarded query. -/
theorem streamResult_own {sql : List Token} (hquery : IsQuery sql)
    (hreads : ReadsWithin settings tenant (.query sql)) :
    Calls (SiteCall.Own settings tenant plain) TrueSiteHandle
      (Service.streamResult settings tenant sql) :=
  Calls.bind (Calls.tryCatch (Only.perform ⟨⟨rfl, hquery⟩, fun _ => hreads⟩).calls
    (fun _ => .raise _)) (fun _ => .pure _)

end

section

variable [Python] [Sqlglot] (settings : Settings)

/-- The statement that a tool runs as a query. -/
def ToolRequest.statement : ToolRequest → Option String
  | queryMemory sql _ => some sql
  | recallDataset name _ _ => (validateLabel name).toOption.map readText
  | exportDataset _ name sql =>
    if given name then (validateLabel (name.getD "")).toOption.map readText
    else some (sql.getD "")
  | _ => none

variable [Orjson] [Hmac]

/-- What the request runs as a query only reads. -/
def ServiceRequest.ReadOnly : ServiceRequest → Prop
  | tool _ request => ∀ sql, request.statement = some sql → OnlyReads sql
  | doGet raw now => ∀ query, Memcove.doGet settings now raw = .ok query → IsQuery query.2
  | getFlightInfo raw now _ => ∀ query,
    (verify settings now raw >>= validatedQuery settings) = .ok query → IsQuery query.2
  | _ => True

/-- What the request ingests into the scratchpad is written there as it is. -/
def ServiceRequest.InlineFaithful [Sha256] [ObjectStore] [ArrowIo] : ServiceRequest → Prop
  | tool caller (.rememberDataset _ source _ _ target) => ∀ tenant resolved,
    callerTenant settings caller = .ok tenant →
      tableFromSource settings source tenant = .ok resolved → target = "scratch" →
        Memcove.InlineFaithful resolved.table
  | _ => True

variable {settings}

omit [Orjson] [Hmac] in
/-- What an export guards is its statement. -/
theorem exportQuery_ok {tenant fmt : String} {label sql : Option String} {guarded : GuardedQuery}
    (h : exportQuery settings tenant fmt label sql = .ok guarded) :
    ∃ statement, (ToolRequest.exportDataset fmt label sql).statement = some statement ∧
      validateSelect (exportParams settings tenant) statement = .ok guarded := by
  unfold exportQuery at h
  split at h
  · cases h
  · split at h
    · cases h
    · split at h
      · rename_i hgiven
        obtain ⟨base, hbase, h⟩ := bind_eq_ok h
        refine ⟨readText base, (if_pos hgiven).trans ?_, h⟩
        rw [hbase]
        rfl
      · rename_i hgiven
        exact ⟨_, if_neg hgiven, h⟩

omit [Sqlglot] [Orjson] [Hmac] in
/-- A caller that may read a resource is a resolved caller. -/
theorem authorizedTenant_ok [Sha256] {caller : Caller} {uriTenant tenant : String}
    (h : authorizedTenant settings caller uriTenant = .ok tenant) :
    callerTenant settings caller = .ok tenant := by
  obtain ⟨resolved, hresolved, h⟩ := bind_eq_ok h
  obtain ⟨named, hnamed, h⟩ := bind_eq_ok h
  split at h
  · cases h
  · cases h
    exact hresolved

variable [Federation]

omit [Orjson] [Hmac] in
/-- What a ticket has read is visible to its tenant. -/
theorem validatedQuery_reads {cmd : Fields} {query : String × List Token}
    (h : validatedQuery settings cmd = .ok query) :
    ReadsWithin settings query.1 (.query query.2) := by
  obtain ⟨tenant, sql⟩ := query
  obtain ⟨htenant, hreads⟩ := validatedQuery_ok h
  have hns := tenantKey_iff.mp (tenantKey_of_command htenant)
  cases hreads with
  | dataset _ _ _ hguarded => exact validateSelect_reads hguarded hns rfl (fun _ h => by cases h)
  | query _ _ hguarded => exact validateSelect_reads hguarded hns rfl (fun _ h => by cases h)

variable [Sha256] [ObjectStore] [ArrowIo] [Engines] [Backend]

/-- The calls of a tool of a resolved caller. -/
theorem ToolRequest.serve_calls {caller : Caller} {plain : Prop}
    {G : SiteCall → Prop} (request : ToolRequest)
    (hG : ∀ tenant c, callerTenant settings caller = .ok tenant →
      c.Own settings tenant plain → G c)
    (hsql : ∀ sql, request.statement = some sql → OnlyReads sql)
    (hplain : plain → (ServiceRequest.tool caller request).InlineFaithful settings) :
    Calls G TrueSiteHandle (request.serve settings caller) := by
  have hown {α : Type} {p : SiteProgram α} {tenant : String}
      (htenant : callerTenant settings caller = .ok tenant)
      (hp : Calls (SiteCall.Own settings tenant plain) TrueSiteHandle p) (g : α → Response) :
      Calls G TrueSiteHandle (do return g (← p)) :=
    Calls.bind (hp.mono (fun c => hG tenant c htenant)) (fun _ => .pure _)
  cases request with
  | rememberDataset name source mode tags target =>
    refine Calls.lift_bind (fun tenant htenant => hown htenant (runTool_own ?_) _)
    exact ingestObject_own name _ mode tags target
      (fun h resolved hresolved htarget => hplain h tenant resolved htenant hresolved htarget)
  | queryMemory sql limit =>
    exact Calls.lift_bind (fun tenant htenant =>
      hown htenant (runQuery_own (callerTenant_ok htenant) (hsql sql rfl) limit) _)
  | deriveDataset newName sql mode tags target =>
    exact Calls.lift_bind (fun tenant htenant => hown htenant
      (runTool_own (deriveObject_own (callerTenant_ok htenant) newName sql mode tags target)) _)
  | recallDataset name mode limit =>
    refine Calls.lift_bind (fun tenant htenant => hown htenant ?_ _)
    refine getObject_own (callerTenant_ok htenant) mode limit (fun label hlabel => hsql _ ?_)
    rw [ToolRequest.statement, hlabel]
    rfl
  | inspectDataset name =>
    exact Calls.lift_bind (fun tenant htenant =>
      hown htenant (runTool_own (describeObject_own name).calls) _)
  | listMemory tags =>
    exact Calls.lift_bind (fun tenant htenant => hown htenant (listObjects_own tags) _)
  | discoverReferenceData =>
    exact Calls.lift_bind (fun tenant htenant => hown htenant discoverReferenceData_own _)
  | exportDataset fmt name sql =>
    refine Calls.lift_bind (fun tenant htenant => hown htenant ?_ _)
    have hguarded (guarded : GuardedQuery)
        (h : exportQuery settings tenant fmt name sql = .ok guarded) :
        IsQuery guarded.sql ∧ ReadsWithin settings tenant (.query guarded.sql) := by
      obtain ⟨statement, hstatement, h⟩ := exportQuery_ok h
      exact ⟨(hsql statement hstatement).isQuery h,
        validateSelect_reads h (callerTenant_ok htenant) rfl (fun _ h => by cases h)⟩
    exact Calls.lift_bind (fun guarded h =>
      exportGuarded_own (hguarded guarded h).1 (hguarded guarded h).2 fmt)
  | startLargeUpload name hex =>
    exact Calls.lift_bind (fun _ _ => Calls.lift_bind (fun _ _ => .pure _))
  | forgetDataset name =>
    exact Calls.lift_bind (fun tenant htenant =>
      hown htenant (runTool_own (dropObject_own name).calls) _)
  | streamDataset name sql now nonce | openIngestStream name mode now nonce =>
    exact Calls.lift_bind (fun _ _ => Calls.lift_bind (fun _ _ => .pure _))
  | datasetResource uriTenant name =>
    exact Calls.lift_bind (fun tenant htenant => hown (authorizedTenant_ok htenant)
      (runTool_own (describeObject_own name).calls) _)
  | catalogResource uriTenant =>
    exact Calls.lift_bind (fun tenant htenant =>
      hown (authorizedTenant_ok htenant) (listObjects_own none) _)

omit [Federation] [Sha256] [ObjectStore] [ArrowIo] [Engines] [Backend] in
/-- What `do_get` streams is the validated query of the ticket. -/
theorem doGet_query {now : Int} {raw : Bytes} {query : String × List Token}
    (h : Memcove.doGet settings now raw = .ok query) :
    (verify settings now raw >>= validatedQuery settings) = .ok query := by
  unfold Memcove.doGet at h
  split at h
  · rename_i hquery
    rw [hquery, h]
  · cases h

omit [Orjson] [Hmac] [Sha256] [ObjectStore] [ArrowIo] [Engines] [Backend] in
/-- The calls of a sweep leave the tables and the scratchpad alone. -/
theorem sweepNamespace_bookkeeping (tenant : String) (plain : Prop) :
    Only (fun c => c.Own settings tenant plain ∧ (SiteCall.tool c).Bookkeeping)
      (sweepNamespace settings tenant) := by
  have hcall {c : Call} (hc : c.tenant? = some tenant) (hreads : c.ReadsWithin settings tenant)
      (hbookkeeping : (SiteCall.tool c).Bookkeeping) :
      c.Own settings tenant plain ∧ (SiteCall.tool c).Bookkeeping :=
    ⟨Call.own_of_tenant hc hreads, hbookkeeping⟩
  refine sweepNamespace_only (hcall rfl trivial rfl) (hcall rfl trivial rfl)
    (hcall rfl trivial rfl) (fun _ => applyPlan_only ?_ ?_ ?_ ?_ ?_)
  · exact fun l _ => hcall rfl trivial rfl
  · exact fun l => hcall rfl trivial rfl
  · exact fun l => hcall rfl trivial rfl
  · exact fun l => hcall rfl trivial rfl
  · exact fun l => hcall rfl trivial rfl

/-- The calls of a request are about its tenant; a request without one makes none. -/
theorem ServiceRequest.serve_calls {plain : Prop} {G : SiteCall → Prop} (request : ServiceRequest)
    (hG : ∀ tenant c, request.tenant? settings = some tenant → c.Own settings tenant plain →
      (request.isSweep = true → c.Bookkeeping) → G c)
    (hquery : request.ReadOnly settings) (hplain : plain → request.InlineFaithful settings) :
    Calls G TrueSiteHandle (request.serve settings) := by
  cases request with
  | tool caller request =>
    refine request.serve_calls (fun tenant c htenant hc => hG tenant c ?_ hc ?_) hquery hplain
    · rw [ServiceRequest.tenant?, htenant]
      rfl
    · exact fun h => by cases h
  | doGet raw now =>
    refine Calls.lift_bind (fun query h => ?_)
    have htenant : (ServiceRequest.doGet raw now).tenant? settings = some query.1 := by
      rw [ServiceRequest.tenant?, h]
      rfl
    obtain ⟨cmd, _, hvalidated⟩ := bind_eq_ok (doGet_query h)
    have hcalls : Calls (SiteCall.Own settings query.1 plain) TrueSiteHandle
        (Service.streamResult settings query.1 query.2) :=
      streamResult_own (hquery query h) (validatedQuery_reads hvalidated)
    exact hcalls.mono (fun c hc => hG query.1 c htenant hc (fun h => by cases h))
  | getFlightInfo raw now nonce =>
    refine Calls.lift_bind (fun cmd hcmd => Calls.lift_bind (fun query hvalidated => ?_))
    have hread : (verify settings now raw >>= validatedQuery settings) = .ok query := by
      rw [hcmd]
      exact hvalidated
    have htenant : (ServiceRequest.getFlightInfo raw now nonce).tenant? settings =
        some query.1 := by
      rw [ServiceRequest.tenant?, hread]
      rfl
    refine Calls.perform_bind ?_ (fun _ _ => Calls.lift_bind (fun _ _ => .pure _))
    exact hG query.1 _ htenant ⟨⟨rfl, hquery query hread⟩,
      fun _ => validatedQuery_reads hvalidated⟩ (fun h => by cases h)
  | doPut raw now schema chunks =>
    cases htarget : doPutTarget settings now raw with
    | error e =>
      rw [ServiceRequest.serve, htarget]
      exact .raise e
    | ok target =>
      have htenant : (ServiceRequest.doPut raw now schema chunks).tenant? settings =
          some target.1 := by
        rw [ServiceRequest.tenant?, htarget]
        rfl
      have hput : Calls (Call.Own settings target.1 plain) TrueHandle
          (Memcove.doPut settings (doPutTarget settings now raw) chunks) :=
        doPut_own (fun name mode tenant' h => by rw [htarget] at h; cases h; rfl) chunks
      refine Calls.bind ((runTool_own hput).mono (fun c hc => ?_)) (fun _ => .pure _)
      exact hG target.1 c htenant hc (fun h => by cases h)
  | sweep tenant =>
    refine Calls.bind (Calls.embed (T := TrueHandle)
      (sweepNamespace_bookkeeping tenant plain).calls ?_ (fun _ _ h => h)) (fun _ => .pure _)
    exact fun c hc => hG tenant _ rfl hc.1 (fun _ => hc.2)

/-- The calls of a request with its response. -/
theorem ServiceRequest.program_calls (plain : Prop) {G : SiteCall → Prop}
    (request : ServiceRequest)
    (hG : ∀ tenant c, request.tenant? settings = some tenant → c.Own settings tenant plain →
      (request.isSweep = true → c.Bookkeeping) → G c)
    (hrespond : ∀ response, G (.respond response)) (hquery : request.ReadOnly settings)
    (hplain : plain → request.InlineFaithful settings) :
    Calls G TrueSiteHandle (request.program settings) := by
  refine Calls.bind (Calls.tryCatch (request.serve_calls hG hquery hplain) (fun _ => .pure _)) ?_
  exact fun response => Calls.perform_bind (hrespond response) (fun _ _ => .pure _)

variable (settings) in
/-- The requests of other tenants keep out of the tenant's sight: they act for namespaces that it
does not see, or they are sweeps. -/
def OthersHidden {ι : Type} (requests : ι → ServiceRequest) (tenant : String) : Prop :=
  ∀ i other, (requests i).tenant? settings = some other → other ≠ tenant →
    (requests i).isSweep = true ∨ visible settings tenant other = false

/-- The requests of a tenant run as if it were alone: without the requests of the others, and on
any site that looks the same to the tenant, they make the same calls in the same order, get the
same answers and respond the same, and the sites still look the same to it at the end. -/
theorem tenant_runs_alone {ι : Type} [DecidableEq ι] {fragile : SiteCall → Prop}
    {requests : ι → ServiceRequest} (tenant : String)
    (hothers : OthersHidden settings requests tenant)
    (hqueries : ∀ i, (requests i).ReadOnly settings)
    (hplain : ∀ i, (requests i).tenant? settings = some tenant →
      (requests i).InlineFaithful settings) {σ τ : Site} (hsame : SameView settings tenant σ τ)
    {log : Log SiteCall SiteAnswer PyError ι} {threads : ι → SiteProgram Unit}
    (hrun : Run (site settings fragile) (fun i => (requests i).program settings) σ log threads) :
    let own := fun i => (requests i).tenant? settings = some tenant
    Run (site settings fragile) (purged own (fun i => (requests i).program settings)) τ
        (log.purged own) (purged own threads) ∧
      SameView settings tenant ((site settings fragile).after σ log)
        ((site settings fragile).after τ (log.purged own)) := by
  intro own
  let kind (i : ι) (c : SiteCall) : Prop :=
    (own i → c.About settings tenant ∧ c.ReadsWithin settings tenant) ∧
      (¬ own i → c.Foreign settings tenant)
  have hnobody : tenant ++ "_" ≠ tenant := by
    intro h
    have hlength := congrArg String.length h
    simp at hlength
  have hstart (i : ι) : Calls (kind i) TrueSiteHandle ((requests i).program settings) := by
    refine (requests i).program_calls (own i) ?_ ?_ (hqueries i) (hplain i)
    · intro other c hother hc hsweep
      refine ⟨fun hown => ?_, fun hnot => ?_⟩
      · obtain rfl : tenant = other := Option.some.inj (hown.symm.trans hother)
        exact ⟨hc.1, hc.2 hown⟩
      · have hne : other ≠ tenant := fun h => hnot (hother.trans (congrArg some h))
        refine ⟨other, hne, hc.1, fun hvisible => hsweep ?_⟩
        exact (hothers i other hother hne).resolve_right (by simp [hvisible])
    · exact fun _ => ⟨fun _ => ⟨trivial, trivial⟩,
        fun _ => ⟨tenant ++ "_", hnobody, trivial, fun _ => trivial⟩⟩
  have hcalls := hrun.calls hstart (fun _ _ h => trueSiteHandle h)
  exact hrun.purge (site_unwinding settings tenant fragile) hsame
    (fun entry hentry => (hcalls entry hentry).1) (fun entry hentry => (hcalls entry hentry).2)

end

/-- The SQL library on `SELECT * FROM events`, which prints the table of one tenant alone. -/
@[reducible] def oneTableSqlglot : Sqlglot where
  parse := eventsSqlglot.parse
  frame kind children :=
    match kind with
    | .table ref =>
      if ref = ⟨"events", "t_acme", "iceberg"⟩ then [.text "iceberg.t_acme.events"] else []
    | .select => [.text "SELECT", .text "*", .text "FROM"] ++ children.flatMap (·.2)
    | _ => children.flatMap (·.2)
  frame_verbs kind children v _ h := by
    split at h
    · split at h <;> simp at h
    · simpa using h
    · simpa using h

/-- The table that a piece of text names. -/
def namedTable (token : Token) : Option TableIdent :=
  if token = .text "iceberg.t_acme.events" then some ("iceberg", "t_acme", "events") else none

/-- The tables that a text reads. -/
def namedTables : SelectText → List TableIdent
  | .query sql => sql.filterMap namedTable
  | .inline _ => []

/-- What a wrapping leaves of a result. -/
def Wrapping.apply (wrapping : Wrapping) (result : QueryResult) : QueryResult :=
  match wrapping with
  | .whole => result
  | .preview cap => { result with rows := result.rows.take (cap + 1) }
  | .capped cap => { result with rows := result.rows.take cap }
  | .columnsOnly => { result with rows := [] }

section

attribute [local instance] oneTableSqlglot

/-- The name of the table is printed by its node alone. -/
theorem name_of_generateNode {kind : Kind} {children : List (Kind × List Token)}
    (h : Token.text "iceberg.t_acme.events" ∈ generateNode kind children) :
    kind = .table ⟨"events", "t_acme", "iceberg"⟩ ∨
      ∃ child ∈ children, Token.text "iceberg.t_acme.events" ∈ child.2 := by
  cases kind with
  | table ref =>
    by_cases href : ref = ⟨"events", "t_acme", "iceberg"⟩
    · exact Or.inl (congrArg Kind.table href)
    · simp [generateNode, Sqlglot.frame, href] at h
  | select =>
    right
    simp only [generateNode] at h
    split at h
    · simp [Sqlglot.frame] at h
      grind
    · simp [Sqlglot.frame] at h
      grind
  | into => simp [generateNode] at h; grind
  | _ => simp [generateNode, Sqlglot.frame] at h; grind

/-- The name of the table is printed for trees with its node. -/
theorem name_of_generate {tree : SqlTree}
    (h : Token.text "iceberg.t_acme.events" ∈ generate tree) :
    ∃ node ∈ tree.subtrees, node.label = .table ⟨"events", "t_acme", "iceberg"⟩ := by
  refine RoseTree.fold_induct (f := generateNode)
    (Q := fun t tokens => Token.text "iceberg.t_acme.events" ∈ tokens →
      ∃ node ∈ t.subtrees, node.label = .table ⟨"events", "t_acme", "iceberg"⟩) ?_ tree h
  intro kind children ih hname
  rcases name_of_generateNode hname with rfl | ⟨printed, hprinted, hchild⟩
  · exact ⟨_, RoseTree.self_mem_subtrees _, rfl⟩
  · obtain ⟨child, hmem, rfl⟩ := List.mem_map.mp hprinted
    obtain ⟨node, hnode, hlabel⟩ := ih child hmem hchild
    exact ⟨node, RoseTree.mem_subtrees_of_child hmem hnode, hlabel⟩

/-- Trino on such texts: all rows of the tables that they name. -/
@[reducible] def oneTableFederation : Federation where
  reads := namedTables
  evaluate s select := (readingEngine (namedTables select)).evaluate s select
  stores _ _ := storeNamed
  evaluate_missing {s select ident} := (readingEngine (namedTables select)).evaluate_missing
  evaluate_congr {s t select} := (readingEngine (namedTables select)).evaluate_congr
  shown t := ⟨t.columns.map (fun column => (column.1, "varchar")), t.rows⟩
  stored result := (result.columns.map (fun column => (column.1, .string true)), result.rows)
  result s sql wrapping :=
    ((readingEngine (namedTables (.query sql))).evaluate s (.query sql)).map wrapping.apply
  sideEffect _ s := s
  reads_generate {tree ident} h := by
    obtain ⟨token, htoken, hident⟩ := List.mem_filterMap.mp h
    unfold namedTable at hident
    split at hident
    · rename_i heq
      subst heq
      cases hident
      obtain ⟨node, hnode, hlabel⟩ := name_of_generate htoken
      exact ⟨node, hnode, _, hlabel, fun hbare => absurd hbare.1 (by decide), rfl, rfl⟩
    · cases hident
  reads_inline _ := rfl
  result_congr {s t sql wrapping} h := by
    rw [toOption_map, toOption_map]
    exact congrArg _ ((readingEngine (namedTables (.query sql))).evaluate_congr h)
  sideEffect_query _ := rfl

/-- Decoders of inline payloads that decode nothing. -/
@[reducible] def noArrowIo : ArrowIo where
  fromJsonRecords _ := .ok (textTable [])
  fromArrowIpcB64 _ := .ok (textTable [])
  estimateBytes _ := 0

end

section

attribute [local instance] asciiPython oneTableSqlglot oneTableFederation constantSha256
  emptyStore noArrowIo textEngines externalBackend plainOrjson plainHmac

/-- One tenant queries its `events` while another one forgets its own. -/
def twoTenants (acme : Bool) : ServiceRequest :=
  if acme then .tool acmeCaller (.queryMemory "SELECT * FROM events" none)
  else .tool { headers := [("x-memcove-tenant", "globex")] } (.forgetDataset "events")

/-- Both tenants have `events`. -/
def twoTenantsSite : Site where
  stores :=
    { lakehouse :=
        { namespaces := ["t_acme", "t_globex"]
          tables := [(("t_acme", "events"), ⟨0, [("v", .string true)], [[.str "a"]]⟩),
            (("t_globex", "events"), ⟨1, [("v", .string true)], []⟩)]
          nextUuid := 2 } }

/-- The order of their calls. -/
def twoTenantsSchedule : List (Bool × Option PyError) :=
  [false, true, false, false, true, false].map (fun acme => (acme, none))

/-- The run of both requests in this order. -/
def twoTenantsRun : Log SiteCall SiteAnswer PyError Bool × (Bool → SiteProgram Unit) :=
  play (site {} (fun _ => True)) (siteAnswer {}) twoTenantsSite twoTenantsSchedule []
    (fun i => (twoTenants i).program {})

/-- It is a run. -/
theorem twoTenantsRun_run : Run (site {} (fun _ => True)) (fun i => (twoTenants i).program {})
    twoTenantsSite twoTenantsRun.1 twoTenantsRun.2 := playSite_run _

/-- The query only reads. -/
theorem selectEvents_onlyReads : OnlyReads "SELECT * FROM events" := by
  intro tree hparse node hnode
  obtain rfl : RoseTree.node .select (readStar { name := "events" }) = tree :=
    Except.ok.inj hparse
  revert node
  decide +kernel

/-- Of its six calls two are left without the other tenant. -/
theorem twoTenants_alone :
    let own := fun i => (twoTenants i).tenant? {} = some "t_acme"
    twoTenantsRun.1.length = 6 ∧ (twoTenantsRun.1.purged own).length = 2 ∧
      Run (site {} (fun _ => True)) (purged own (fun i => (twoTenants i).program {}))
        (twoTenantsSite.seenBy {} "t_acme") (twoTenantsRun.1.purged own)
        (purged own twoTenantsRun.2) := by
  have hother : (twoTenants false).tenant? {} = some "t_globex" := by decide +kernel
  have hown : (twoTenants true).tenant? {} = some "t_acme" := by decide +kernel
  refine ⟨by decide +kernel, by decide +kernel, ?_⟩
  refine (tenant_runs_alone "t_acme" (fun i other h hne => ?_) (fun i => ?_)
    (fun i _ => ?_) (sameView_seenBy {} "t_acme" twoTenantsSite) twoTenantsRun_run).1
  · cases i with
    | false =>
      obtain rfl : "t_globex" = other := Option.some.inj (hother.symm.trans h)
      exact Or.inr (by decide +kernel)
    | true => exact absurd (Option.some.inj (hown.symm.trans h)).symm hne
  · cases i with
    | false => exact fun _ h => by cases h
    | true =>
      rintro _ ⟨⟩
      exact selectEvents_onlyReads
  · cases i <;> trivial

end

end Memcove
