import Memcove.Flight.Authority
import Memcove.Tools.Derive
import Memcove.Tools.Query

/-!
# The query front ends

`run_query`, `derive_object`, `export_artifact` and the Flight query path each assemble the guard's
arguments themselves. The first two pass the caller's scratchpad and the other two do not, so they
part ways exactly on the statements that read the scratchpad.
-/

namespace Memcove

open Json Trees

/-- The guard's arguments in `export_artifact`. -/
def exportParams (settings : Settings) (tenant : String) : GuardParams where
  tenantNs := tenant
  catalog := settings.trinoCatalog
  sharedSchemas := settings.sharedSchemas

/-- The tools that run a caller's query. -/
inductive FrontEnd where
  | runQuery | deriveObject | exportArtifact | flight
  deriving DecidableEq

/-- The guard's arguments in a front end. -/
def FrontEnd.params (settings : Settings) (tenant : String) : FrontEnd → GuardParams
  | runQuery => queryParams settings tenant
  | deriveObject => deriveParams settings tenant
  | exportArtifact => exportParams settings tenant
  | flight => flightParams settings tenant

/-- The front end passes the caller's scratchpad to the guard. -/
def FrontEnd.passesScratch : FrontEnd → Bool
  | runQuery | deriveObject => true
  | exportArtifact | flight => false

/-- There are two sets of arguments. -/
theorem FrontEnd.params_eq (settings : Settings) (tenant : String) (f : FrontEnd) :
    f.params settings tenant =
      if f.passesScratch then queryParams settings tenant else exportParams settings tenant := by
  cases f <;> rfl

/-- The keys of the table `_EXT`. -/
def exportFormats : List String := ["parquet", "csv", "json"]

section

variable [Python]

/-- A table node that is read in the scratchpad when there is one. -/
def InScratch (params : GuardParams) (ctes : List String) (ref : TableName) : Prop :=
  ¬ (ref.db = "" ∧ ref.catalog = "" ∧ lower ref.name ∈ ctes) ∧ ref.name ≠ "" ∧
    ∃ target, scratchReference params (lower ref.db) (lower ref.catalog) = some target

/-- A pure read that reads the scratchpad, and whose other table nodes all resolve. -/
structure ReadsScratch (params : GuardParams) (tree : SqlTree) : Prop where
  readOnly : checkReadOnly tree = .ok ()
  scratch : ∃ node ∈ tree.subtrees, ∃ ref, node.label = .table ref ∧
    InScratch params (cteNames tree) ref
  others : ∀ node ∈ tree.subtrees, ∀ ref, node.label = .table ref →
    ¬ InScratch params (cteNames tree) ref →
      ∃ r, resolveTable { params with scratch := none } (cteNames tree) ref = .ok r

/-- A namespace is not the scratch alias. -/
theorem namespace_ne_scratchAlias {tenant : String} (h : IsNamespace tenant) :
    lower tenant = tenant ∧ tenant ≠ scratchAlias := by
  obtain ⟨rest, htext, hrest, _⟩ := h
  constructor
  · refine lower_eq_self (fun c hc => (isNameChar_plain ?_).1)
    rw [htext] at hc
    rcases List.mem_cons.mp hc with rfl | hc
    · decide
    · rcases List.mem_cons.mp hc with rfl | hc
      · decide
      · exact hrest c hc
  · rintro rfl
    have hhead := congrArg List.head? htext
    rw [List.head?_cons] at hhead
    exact absurd hhead (by decide)

/-- A scratch reference is resolved to the scratchpad. -/
theorem resolveTable_inScratch {params : GuardParams} {ctes : List String} {ref : TableName}
    (h : InScratch params ctes ref) : ∃ target, params.scratch = some target ∧
      lower ref.db = scratchAlias ∧ ref.catalog = "" ∧
        resolveTable params ctes ref = .ok (.scratch target) := by
  obtain ⟨hcte, hname, target, htarget⟩ := h
  obtain ⟨hscratch, hcond⟩ := Option.filter_eq_some_iff.mp htarget
  simp only [Bool.and_eq_true, beq_iff_eq] at hcond
  refine ⟨target, hscratch, hcond.1.2, lower_eq_empty_iff.mp hcond.2, ?_⟩
  simp only [resolveTable, lower_eq_empty_iff, if_neg hcte, if_neg hname, htarget]

/-- Any other reference is resolved as without a scratchpad. -/
theorem resolveTable_not_inScratch {params : GuardParams} {ctes : List String} {ref : TableName}
    (h : ¬ InScratch params ctes ref) :
    resolveTable params ctes ref = resolveTable { params with scratch := none } ctes ref := by
  by_cases hcte : ref.db = "" ∧ ref.catalog = "" ∧ lower ref.name ∈ ctes
  · simp only [resolveTable, lower_eq_empty_iff, if_pos hcte]
  · by_cases hname : ref.name = ""
    · simp only [resolveTable, lower_eq_empty_iff, if_neg hcte, if_pos hname]
    · have hnone : scratchReference params (lower ref.db) (lower ref.catalog) = none := by
        rw [Option.eq_none_iff_forall_ne_some]
        exact fun target htarget => h ⟨hcte, hname, target, htarget⟩
      simp only [resolveTable, lower_eq_empty_iff, if_neg hcte, if_neg hname, hnone]
      rfl

/-- Without a scratchpad a scratch reference is rejected, or it leads to a shared schema of that
name. -/
theorem resolveTable_alias {params : GuardParams} {ctes : List String} {ref : TableName}
    {r : Resolution} (hdb : lower ref.db = scratchAlias)
    (hns : lower params.tenantNs ≠ scratchAlias)
    (hr : resolveTable { params with scratch := none } ctes ref = .ok r) :
    r = .lakehouse scratchAlias := by
  have hne : ref.db ≠ "" := by
    intro hempty
    rw [lower_eq_empty_iff.mpr hempty] at hdb
    exact absurd hdb (by decide)
  have hcte : ¬ (ref.db = "" ∧ ref.catalog = "" ∧ lower ref.name ∈ ctes) := fun h => hne h.1
  simp only [resolveTable, lower_eq_empty_iff, if_neg hcte] at hr
  split at hr
  · cases hr
  · simp only [scratchReference, Option.filter_none, resolveLakehouse, hdb] at hr
    split at hr
    · cases hr
    · split at hr
      · cases hr
      · rw [if_neg (by simpa [scratchAlias] using Ne.symm hns)] at hr
        split at hr
        · exact (Except.ok.inj hr).symm
        · cases hr

/-- A pure read is accepted when the tables outside the scratchpad resolve without it. -/
theorem accepts_of_outside {params : GuardParams} {tree : SqlTree}
    (hread : checkReadOnly tree = .ok ())
    (hothers : ∀ node ∈ tree.subtrees, ∀ ref, node.label = .table ref →
      ¬ InScratch params (cteNames tree) ref →
        ∃ r, resolveTable { params with scratch := none } (cteNames tree) ref = .ok r) :
    Accepts params tree := by
  refine ⟨hread, fun node hnode ref href => ?_⟩
  by_cases hscratch : InScratch params (cteNames tree) ref
  · obtain ⟨target, _, _, _, hr⟩ := resolveTable_inScratch hscratch
    exact ⟨_, hr⟩
  · rw [resolveTable_not_inScratch hscratch]
    exact hothers node hnode ref href hscratch

/-- The tables of an accepted statement that does not read the scratchpad resolve alike without
it. -/
theorem resolveTable_of_not_readsScratch {params : GuardParams} {tree : SqlTree}
    (haccepts : Accepts params tree) (hnot : ¬ ReadsScratch params tree) {node : SqlTree}
    (hnode : node ∈ tree.subtrees) {ref : TableName} (href : node.label = .table ref) :
    resolveTable params (cteNames tree) ref =
      resolveTable { params with scratch := none } (cteNames tree) ref := by
  refine resolveTable_not_inScratch (fun hscratch => hnot ⟨haccepts.1,
    ⟨node, hnode, ref, href, hscratch⟩, fun node hnode ref href hno => ?_⟩)
  rw [← resolveTable_not_inScratch hno]
  exact haccepts.2 node hnode ref href

/-- A statement is treated alike with and without the scratchpad exactly when it does not read
it. -/
theorem emittedTree_eq_iff {params : GuardParams} {tree : SqlTree}
    (hns : lower params.tenantNs ≠ scratchAlias)
    (hschema : ∀ target, params.scratch = some target → target.schema ≠ scratchAlias) :
    emittedTree params tree = emittedTree { params with scratch := none } tree ↔
      ¬ ReadsScratch params tree := by
  have hmore (hplain : Accepts { params with scratch := none } tree) : Accepts params tree :=
    accepts_of_outside hplain.1 (fun node hnode ref href _ => hplain.2 node hnode ref href)
  constructor
  · rintro heq ⟨hread, ⟨node, hnode, ref, href, hscratch⟩, hothers⟩
    obtain ⟨target, htarget, hdb, _, hr⟩ := resolveTable_inScratch hscratch
    rw [emittedTree_of_accepts (accepts_of_outside hread hothers)] at heq
    by_cases hplain : Accepts { params with scratch := none } tree
    · rw [emittedTree_of_accepts hplain, Option.some.injEq, RoseTree.map_eq_map_iff] at heq
      obtain ⟨r, hr'⟩ := hplain.2 node hnode ref href
      have hnode' := heq node hnode
      rw [href] at hnode'
      simp only [rewriteKind, hr, hr', resolveTable_alias hdb hns hr', Resolution.qualify,
        Kind.table.injEq, TableName.mk.injEq] at hnode'
      exact hschema target htarget hnode'.2.1
    · rw [emittedTree_of_not_accepts hplain] at heq
      cases heq
  · intro hnot
    by_cases haccepts : Accepts params tree
    · have hplain : Accepts { params with scratch := none } tree := by
        refine ⟨haccepts.1, fun node hnode ref href => ?_⟩
        rw [← resolveTable_of_not_readsScratch haccepts hnot hnode href]
        exact haccepts.2 node hnode ref href
      rw [emittedTree_of_accepts haccepts, emittedTree_of_accepts hplain, Option.some.injEq,
        RoseTree.map_eq_map_iff]
      intro node hnode
      cases hlabel : node.label with
      | table ref =>
        simp only [rewriteKind, resolveTable_of_not_readsScratch haccepts hnot hnode hlabel]
        rfl
      | _ => rfl
    · rw [emittedTree_of_not_accepts haccepts,
        emittedTree_of_not_accepts (fun hplain => haccepts (hmore hplain))]

/-- The command of the caller's tenant reads back as that tenant and the text. -/
theorem queryCommand_reads [Sha256] {settings : Settings} {caller : Caller} {tenant : String}
    (hcaller : callerTenant settings caller = .ok tenant) (sql : String) :
    commandTenant settings (queryCommand tenant sql) = .ok tenant ∧
      requireKey (queryCommand tenant sql) "sql" = .ok (.str sql) :=
  ⟨commandTenant_namespace rfl (callerTenant_ok hcaller), rfl⟩

variable [Sqlglot]

/-- What `validate_select` emits for a text. -/
theorem emitted_validateSelect (params : GuardParams) (sql : String) :
    (validateSelect params sql).toOption.map (·.tree) =
      (parseStatement sql).toOption.bind (emittedTree params) := by
  rw [validateSelect]
  cases parseStatement sql <;> rfl

/-- No statement is the empty text. -/
theorem validateSelect_empty (params : GuardParams) :
    validateSelect params "" = .error ⟨.sqlGuardError, "empty SQL"⟩ := by
  have hempty : strip (rstripChar ';' (strip "")) = "" := by decide
  simp only [validateSelect, parseStatement, hempty, if_true]
  rfl

/-- `export_artifact` up to the guarded query that it exports. -/
def exportQuery (settings : Settings) (tenant fmt : String) (label sql : Option String) :
    PyM GuardedQuery :=
  if fmt ∉ exportFormats then raise .memcoveError
    ("unsupported format " ++ Python.repr fmt ++ "; expected parquet|csv|json")
  else if given label == given sql then raise .memcoveError
    "provide exactly one of 'label' or 'sql'"
  else if given label then do
    let base ← validateLabel (label.getD "")
    validateSelect (exportParams settings tenant) ("SELECT * FROM " ++ base)
  else validateSelect (exportParams settings tenant) (sql.getD "")

variable [Sha256]

/-- The guarded query that `do_get` serves for the ticket that `stream_dataset` minted. -/
def flightQuery (settings : Settings) (caller : Caller) (sql : String) : PyM GuardedQuery := do
  let cmd ← streamDataset settings caller none (some sql)
  let tenant ← commandTenant settings cmd
  let sql ← (← requireKey cmd "sql").expectStr "strip"
  validateSelect (flightParams settings tenant) sql

/-- The guarded query that a front end works on. -/
def FrontEnd.guard (settings : Settings) (caller : Caller) (tenant sql : String) :
    FrontEnd → PyM GuardedQuery
  | runQuery => validateSelect (queryParams settings tenant) sql
  | deriveObject => validateSelect (deriveParams settings tenant) sql
  | exportArtifact => exportQuery settings tenant "parquet" none (some sql)
  | flight => flightQuery settings caller sql

/-- The statement that a front end emits, unless it rejects. -/
def FrontEnd.emitted (settings : Settings) (caller : Caller) (tenant sql : String)
    (frontEnd : FrontEnd) : Option SqlTree :=
  (frontEnd.guard settings caller tenant sql).toOption.map (·.tree)

/-- All front ends reject a text, or all emit it with the same physical tables. -/
def Uniform (settings : Settings) (caller : Caller) (tenant sql : String) : Prop :=
  ∀ f f' : FrontEnd,
    f.emitted settings caller tenant sql = f'.emitted settings caller tenant sql

/-- `stream_dataset` mints a query command for a text that it accepts. -/
theorem streamDataset_query {settings : Settings} {caller : Caller} {tenant sql : String}
    (hcaller : callerTenant settings caller = .ok tenant) (hsql : sql ≠ "") :
    streamDataset settings caller none (some sql) =
      (validateSelect (flightParams settings tenant) sql).map
        (fun _ => queryCommand tenant sql) := by
  have hgiven : given (some sql) = true := by simpa [given] using hsql
  have hnone : given none = false := rfl
  simp only [streamDataset, hgiven, hnone, hcaller, Option.getD_some, Bind.bind, Except.bind]
  generalize validateSelect (flightParams settings tenant) sql = result
  cases result <;> rfl

/-- The Flight path works on what the guard accepts without a scratchpad. -/
theorem flightQuery_toOption {settings : Settings} {caller : Caller} {tenant sql : String}
    (hcaller : callerTenant settings caller = .ok tenant) :
    (flightQuery settings caller sql).toOption =
      (validateSelect (flightParams settings tenant) sql).toOption := by
  by_cases hsql : sql = ""
  · subst hsql
    rw [validateSelect_empty]
    rfl
  · obtain ⟨htenant, hrequire⟩ := queryCommand_reads hcaller sql
    rw [flightQuery, streamDataset_query hcaller hsql]
    cases hguard : validateSelect (flightParams settings tenant) sql with
    | error e => rfl
    | ok guarded =>
      simp only [Except.map, Bind.bind, Except.bind, htenant, hrequire, expectStr, hguard]

/-- `do_get` streams the text of this query, for the caller's tenant. -/
theorem flightQuery_streams {settings : Settings} {caller : Caller} {tenant sql : String}
    (hcaller : callerTenant settings caller = .ok tenant) :
    (streamDataset settings caller none (some sql) >>= validatedQuery settings) =
      (flightQuery settings caller sql).map (fun guarded => (tenant, guarded.sql)) := by
  by_cases hsql : sql = ""
  · subst hsql
    rfl
  · obtain ⟨htenant, hrequire⟩ := queryCommand_reads hcaller sql
    have hop : get (queryCommand tenant sql) "op" = .str "query" := rfl
    rw [flightQuery, streamDataset_query hcaller hsql]
    cases hguard : validateSelect (flightParams settings tenant) sql with
    | error e => rfl
    | ok guarded =>
      simp only [Except.map, Bind.bind, Except.bind, validatedQuery, htenant, hrequire, hop,
        expectStr, hguard]
      rfl

/-- What each front end emits for a text. -/
theorem FrontEnd.emitted_eq {settings : Settings} {caller : Caller} {tenant : String}
    (hcaller : callerTenant settings caller = .ok tenant) (sql : String) (f : FrontEnd) :
    f.emitted settings caller tenant sql =
      (parseStatement sql).toOption.bind (emittedTree (f.params settings tenant)) := by
  rw [← emitted_validateSelect]
  cases f with
  | runQuery | deriveObject => rfl
  | exportArtifact =>
    by_cases hsql : sql = ""
    · subst hsql
      rw [validateSelect_empty]
      rfl
    · have hgiven : given (some sql) = true := by simpa [given] using hsql
      have hnone : given none = false := rfl
      simp only [FrontEnd.emitted, FrontEnd.guard, exportQuery, exportFormats, hgiven, hnone]
      rfl
  | flight =>
    rw [FrontEnd.emitted, FrontEnd.guard, flightQuery_toOption hcaller]
    rfl

/-- The front ends treat a text alike exactly when it is no statement that reads the scratchpad. -/
theorem frontEnds_uniform_iff {settings : Settings} {caller : Caller} {tenant : String}
    (hcaller : callerTenant settings caller = .ok tenant) (sql : String) :
    Uniform settings caller tenant sql ↔ ∀ tree, parseStatement sql = .ok tree →
      ¬ ReadsScratch (queryParams settings tenant) tree := by
  obtain ⟨hlower, hne⟩ := namespace_ne_scratchAlias (callerTenant_ok hcaller)
  have hns : lower (queryParams settings tenant).tenantNs ≠ scratchAlias := by
    change lower tenant ≠ scratchAlias
    rwa [hlower]
  have hschema : ∀ target, (queryParams settings tenant).scratch = some target →
      target.schema ≠ scratchAlias := by
    intro target htarget
    obtain ⟨_, htarget⟩ := Option.ite_none_right_eq_some.mp htarget
    cases htarget
    exact hne
  have huniform : Uniform settings caller tenant sql ↔
      (parseStatement sql).toOption.bind (emittedTree (queryParams settings tenant)) =
        (parseStatement sql).toOption.bind (emittedTree (exportParams settings tenant)) := by
    constructor
    · intro h
      have hpair := h .runQuery .exportArtifact
      rwa [FrontEnd.emitted_eq hcaller, FrontEnd.emitted_eq hcaller] at hpair
    · intro h f f'
      rw [FrontEnd.emitted_eq hcaller, FrontEnd.emitted_eq hcaller, FrontEnd.params_eq,
        FrontEnd.params_eq]
      cases f.passesScratch <;> cases f'.passesScratch
      · rfl
      · exact h.symm
      · exact h
      · rfl
  rw [huniform]
  cases hparse : parseStatement sql with
  | error e =>
    constructor
    · intro _ tree htree
      cases htree
    · intro _
      rfl
  | ok tree =>
    have hiff := @emittedTree_eq_iff _ _ tree hns hschema
    constructor
    · intro h tree' htree'
      cases htree'
      exact hiff.mp h
    · intro h
      exact hiff.mpr (h tree rfl)

end

section

attribute [local instance] asciiPython constantSha256

/-- The SQL library on a read of the scratchpad and a read of the lakehouse. -/
@[reducible] def scratchSqlglot : Sqlglot :=
  plainSqlglot [("SELECT * FROM scratch.adults",
      .node .select (readStar { name := "adults", db := "scratch" })),
    ("SELECT * FROM events", .node .select (readStar { name := "events" }))]

attribute [local instance] scratchSqlglot

/-- A query of the scratchpad can be previewed but not exported. -/
theorem scratchQuery_not_uniform :
    callerTenant { scratchEnabled := true } acmeCaller = .ok "t_acme" ∧
      ¬ Uniform { scratchEnabled := true } acmeCaller "t_acme" "SELECT * FROM scratch.adults" := by
  refine ⟨by decide +kernel, fun h => ?_⟩
  have hpair := congrArg Option.isSome (h .runQuery .exportArtifact)
  exact absurd hpair (by decide +kernel)

/-- A query of the lakehouse is treated alike by all front ends. -/
theorem lakehouseQuery_uniform :
    Uniform { scratchEnabled := true } acmeCaller "t_acme" "SELECT * FROM events" := by
  refine (frontEnds_uniform_iff (by decide +kernel) _).mpr ?_
  rintro tree htree ⟨_, ⟨node, hnode, ref, href, hscratch⟩, _⟩
  cases htree
  have hlabel : node.label ∈ [Kind.select, .other "Star", .other "From",
      .table { name := "events" }] := List.mem_map_of_mem hnode
  obtain rfl : ref = { name := "events" } := by simpa [href] using hlabel
  obtain ⟨_, _, hdb, _⟩ := resolveTable_inScratch hscratch
  exact absurd hdb (by decide +kernel)

end

end Memcove
