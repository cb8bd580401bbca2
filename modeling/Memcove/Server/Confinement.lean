import Memcove.Server.Requests
import Memcove.Server.Unwinding

/-!
# The calls of a request

Every call of a request is about the tenant that the request acts for, and what its statements read
is visible to that tenant: an accepted query reads what the guard let it name, and an inline
`SELECT` that says no more than its table reads nothing.
-/

namespace Memcove

open Json KeyedTables Programs Trees

section

variable [Python]

/-- A qualified reference leads to a schema that the tenant sees. -/
theorem TableName.Qualified.visible {settings : Settings} {params : GuardParams} {ref : TableName}
    (h : ref.Qualified params) (hshared : params.sharedSchemas = settings.sharedSchemas)
    (hscratch : ∀ target, params.scratch = some target → target.schema = params.tenantNs) :
    visible settings params.tenantNs ref.db = true := by
  rcases h with ⟨_, hdb⟩ | ⟨_, _, s, hs, hne, hdb⟩ | ⟨target, htarget, _, hdb⟩
  · rw [hdb]
    exact visible_self
  · exact visible_of_shared (mem_sharedNames.mpr ⟨s, hshared ▸ hs, hne, hdb⟩)
  · rw [hdb, hscratch target htarget]
    exact visible_self

variable [Sqlglot] [Federation]

/-- An accepted text reads tables that the tenant sees. -/
theorem validateSelect_reads {settings : Settings} {params : GuardParams} {sql : String}
    {guarded : GuardedQuery} (h : validateSelect params sql = .ok guarded)
    (hns : IsNamespace params.tenantNs) (hshared : params.sharedSchemas = settings.sharedSchemas)
    (hscratch : ∀ target, params.scratch = some target → target.schema = params.tenantNs) :
    ReadsWithin settings params.tenantNs (.query guarded.sql) := by
  obtain ⟨tree, _, hguard⟩ := validateSelect_ok h
  obtain ⟨_, htree, hresolved⟩ := guardTree_ok hguard
  intro ident hident
  obtain ⟨node, hnode, ref, href, hqualified, _, hdb⟩ := Federation.reads_generate hident
  rw [htree, RoseTree.subtrees_map] at hnode
  obtain ⟨original, horiginal, rfl⟩ := List.mem_map.mp hnode
  rw [RoseTree.label_map] at href
  cases hlabel : original.label with
  | table name =>
    rw [hlabel, rewriteKind_table] at href
    cases href
    obtain ⟨r, hr⟩ := hresolved original horiginal name hlabel
    rcases emittedName_cases hns.ne_empty hr with ⟨⟨hbare, _⟩, hsame⟩ | ⟨_, hplace, _⟩
    · rw [hsame] at hqualified
      exact absurd hbare hqualified
    · rw [hdb]
      exact hplace.visible hshared hscratch
  | _ =>
    rw [hlabel] at href
    cases href

omit [Python] [Federation] in
/-- The statement has no `INTO` and no other statement in it that the guard misses. -/
def OnlyReads (sql : String) : Prop :=
  ∀ tree, parseStatement sql = .ok tree → ∀ node ∈ tree.subtrees, node.label ∉ missed

omit [Federation] in
/-- An accepted text without them is emitted as a query. -/
theorem OnlyReads.isQuery {params : GuardParams} {sql : String} {guarded : GuardedQuery}
    (hsql : OnlyReads sql) (h : validateSelect params sql = .ok guarded) : IsQuery guarded.sql := by
  obtain ⟨tree, hparse, hguard⟩ := validateSelect_ok h
  obtain ⟨⟨_, hforbidden⟩, htree, _⟩ := guardTree_ok hguard
  refine generate_verb_free fun node hnode => ?_
  rw [htree, RoseTree.subtrees_map] at hnode
  obtain ⟨original, horiginal, rfl⟩ := List.mem_map.mp hnode
  rw [RoseTree.label_map, writes_rewrite]
  exact writes_eq_false (hforbidden original horiginal) (hsql tree hparse original horiginal)

end

section

variable [Python] [Sqlglot] [Federation] (settings : Settings) (tenant : String) (plain : Prop)

/-- The call is about the tenant, and when the request is plain it reads what the tenant sees. -/
def Call.Own (c : Call) : Prop :=
  c.About settings tenant ∧ (plain → c.ReadsWithin settings tenant)

/-- A handle is one of the table that was asked for. -/
def TrueHandle (event : CallEvent) : Prop := (discipline false).assume [] event

variable {settings tenant plain}

/-- A call on the objects of the tenant that runs no statement. -/
theorem Call.own_of_tenant {c : Call} (hc : c.tenant? = some tenant)
    (hreads : c.ReadsWithin settings tenant) : c.Own settings tenant plain := by
  refine ⟨?_, fun _ => hreads⟩
  cases c with
  | scratch | openRegistry => cases hc
  | _ => exact hc

/-- Opening the registry is about no tenant. -/
theorem Call.own_openRegistry : Call.openRegistry.Own settings tenant plain :=
  ⟨trivial, fun _ => trivial⟩

/-- A statement in the schema of the tenant's scratchpad. -/
theorem Call.own_scratch {statement : ScratchStatement} (habout : statement.About settings tenant)
    (hreads : plain → statement.ReadsWithin settings tenant) :
    (Call.scratch statement).Own settings tenant plain := ⟨habout, hreads⟩

/-- One call on the objects of the tenant. -/
theorem only_own {c : Call} (hc : c.tenant? = some tenant)
    (hreads : c.ReadsWithin settings tenant) : Only (Call.Own settings tenant plain) (call c) :=
  Only.perform (Call.own_of_tenant hc hreads)

/-- Counting rows. -/
theorem rowCount_own (label : String) :
    Only (Call.Own settings tenant plain) (rowCount tenant label) :=
  Only.tryCatch (only_own rfl trivial) (fun _ => trivial)

section

variable [Engines]

/-- Reading a schema. -/
theorem loadSchema_own (label : String) :
    Only (Call.Own settings tenant plain) (loadSchema tenant label) := by
  refine Only.bind (only_own rfl trivial) (fun exists_ => ?_)
  split
  · exact Only.bind (only_own rfl trivial) (fun _ => trivial)
  · trivial

/-- The response for a row. -/
theorem describeRow_own (label : String) (reg : Option (ObjectRow × List String)) :
    Only (Call.Own settings tenant plain) (describeRow settings tenant label reg) := by
  cases reg with
  | none => trivial
  | some found =>
    refine Only.bind (loadSchema_own label) (fun _ => ?_)
    refine Only.bind (only_own rfl trivial) (fun _ => ?_)
    exact Only.bind (rowCount_own label) (fun _ => trivial)

/-- Describing an object. -/
theorem describeObject_own (name : String) :
    Only (Call.Own settings tenant plain) (describeObject settings tenant name) := by
  refine Only.bind Only.lift (fun label => ?_)
  refine Only.bind (only_own rfl trivial) (fun found => ?_)
  refine Only.bind ?_ (fun reg => describeRow_own label reg)
  cases found with
  | some found => trivial
  | none =>
    refine Only.bind (only_own rfl trivial) (fun exists_ => ?_)
    cases exists_ with
    | false => trivial
    | true => exact Only.bind (only_own rfl trivial) (fun _ => only_own rfl trivial)

/-- The response for a pending object. -/
theorem pendingObject_own {row : ObjectRow} (hrow : row.tenant = tenant)
    (tags parents : List String) :
    Only (Call.Own settings tenant plain) (pendingObject row tags parents) := by
  obtain rfl := hrow
  refine Only.bind (loadSchema_own row.label) (fun _ => ?_)
  exact Only.bind (rowCount_own row.label) (fun _ => trivial)

/-- What a producer does after its data. -/
theorem finish_own [Backend] (row : ObjectRow) (hrow : row.tenant = tenant) (tags : List String)
    (parents : Option (List String)) (shown : List String) :
    Only (Call.Own settings tenant plain) (do
      let ok ← recordObjectGuarded row tags parents
      if ok then describeObject settings row.tenant row.label
      else pendingObject row tags shown) := by
  refine Only.bind ?_ (fun ok => ?_)
  · exact recordObjectGuarded_only Call.own_openRegistry
      (Call.own_of_tenant (congrArg some hrow) trivial)
  · cases ok with
    | true =>
      obtain rfl := hrow
      exact describeObject_own row.label
    | false => exact pendingObject_own hrow tags shown

omit [Engines] in
/-- Dropping an object. -/
theorem dropObject_own (name : String) :
    Only (Call.Own settings tenant plain) (dropObject tenant name) := by
  refine Only.bind Only.lift (fun label => ?_)
  refine Only.bind ?_ (fun _ => Only.bind (only_own rfl trivial) (fun _ => trivial))
  refine Only.bind (only_own rfl trivial) (fun exists_ => ?_)
  split
  · exact only_own rfl trivial
  · trivial

end

/-- Overwriting through a handle of the tenant's table. -/
theorem overwrite_own {label : String} {handle : TableHandle}
    (hhandle : handle.key = (tenant, label)) (rows : Rows) :
    Only (Call.Own settings tenant plain) (call (.overwrite handle rows)) :=
  only_own (congrArg (fun k : Key => some k.1) hhandle) trivial

/-- Appending through a handle of the tenant's table. -/
theorem append_own {label : String} {handle : TableHandle}
    (hhandle : handle.key = (tenant, label)) (rows : Rows) :
    Only (Call.Own settings tenant plain) (call (.append handle rows)) :=
  only_own (congrArg (fun k : Key => some k.1) hhandle) trivial

/-- Creating a table and filling it. -/
theorem createAndAppend_own (label : String) (table : ArrowTable) :
    Calls (Call.Own settings tenant plain) TrueHandle (createAndAppend (tenant, label) table) := by
  have hcreate : (Call.createTable (tenant, label) table.schema).Own settings tenant plain :=
    Call.own_of_tenant rfl trivial
  exact Calls.perform_bind hcreate (fun handle hhandle => (append_own hhandle table.rows).calls)

/-- A write to a table that was loaded and checked. -/
theorem loaded_own (label : String) (check : TableHandle → PyM Unit)
    {write : TableHandle → Tool PUnit} (hwrite : ∀ handle, handle.key = (tenant, label) →
      Only (Call.Own settings tenant plain) (write handle)) :
    Calls (Call.Own settings tenant plain) TrueHandle
      (call (.loadTable (tenant, label)) >>= fun handle =>
        Program.lift (check handle) >>= fun _ => write handle) := by
  have hload : (Call.loadTable (tenant, label)).Own settings tenant plain :=
    Call.own_of_tenant rfl trivial
  exact Calls.perform_bind hload
    (fun handle hhandle => Calls.lift_bind (fun _ _ => (hwrite handle hhandle).calls))

/-- Committing data in the three modes. -/
theorem commitArrow_own (label : String) (table : ArrowTable) (mode : Json) (exists_ : Bool) :
    Calls (Call.Own settings tenant plain) TrueHandle
      (commitArrow tenant label table mode exists_) := by
  unfold commitArrow
  split
  · split
    · exact .raise _
    · exact createAndAppend_own label table
  · split
    · split
      · exact loaded_own label _ (fun handle hhandle => overwrite_own hhandle table.rows)
      · exact createAndAppend_own label table
    · split
      · split
        · exact loaded_own label _ (fun handle hhandle => append_own hhandle table.rows)
        · exact createAndAppend_own label table
      · exact .raise _

/-- Writing a table of the catalog. -/
theorem writeArrow_own (label : String) (table : ArrowTable) (mode : Json) :
    Calls (Call.Own settings tenant plain) TrueHandle (writeArrow tenant label table mode) := by
  refine Calls.bind (Only.calls (only_own rfl trivial)) (fun _ => ?_)
  refine Calls.bind (Only.calls (only_own rfl trivial)) (fun exists_ => ?_)
  exact Calls.bind (commitArrow_own label table mode exists_) (fun _ => .pure _)

/-- The catalog of the tenant's scratchpad. -/
theorem ensureCatalog_own :
    Only (Call.Own settings tenant plain) (ensureCatalog settings tenant) := by
  unfold ensureCatalog
  split
  · rename_i hmode
    exact Only.perform (Call.own_scratch ⟨rfl, hmode⟩ (fun _ => trivial))
  · split <;> trivial

/-- The requirement that the scratchpad is enabled makes no call. -/
theorem requireEnabled_own : Only (Call.Own settings tenant plain) (requireEnabled settings) := by
  unfold requireEnabled
  split <;> trivial

/-- A statement in the schema of the tenant that reads nothing. -/
theorem statement_own {statement : ScratchStatement} (habout : statement.About settings tenant)
    (hreads : statement.ReadsWithin settings tenant) :
    Only (Call.Own settings tenant plain) (call (.scratch statement)) :=
  Only.perform (Call.own_scratch habout (fun _ => hreads))

/-- Filling a table of the scratchpad. -/
theorem createAsSelect_own (label : String) {select : SelectText} (replace : Bool)
    (hreads : plain → ReadsWithin settings tenant select) :
    Only (Call.Own settings tenant plain)
      (createAsSelect settings tenant label select replace) := by
  refine Only.bind requireEnabled_own (fun _ => ?_)
  refine Only.bind ?_ (fun _ => Only.bind ?_ (fun _ => ?_))
  · refine Only.bind requireEnabled_own (fun _ => Only.bind ensureCatalog_own (fun _ => ?_))
    exact statement_own ⟨rfl, rfl⟩ trivial
  · split
    · exact Only.bind requireEnabled_own (fun _ => statement_own ⟨rfl, rfl⟩ trivial)
    · trivial
  · exact Only.perform (Call.own_scratch ⟨rfl, rfl⟩ hreads)

/-- Describing a table of the scratchpad. -/
theorem describeScratch_own (label : String) :
    Only (Call.Own settings tenant plain) (describeScratch settings tenant label) := by
  refine Only.bind requireEnabled_own (fun _ => ?_)
  refine Only.bind (statement_own ⟨rfl, rfl⟩ trivial) (fun _ => ?_)
  exact Only.bind (statement_own ⟨rfl, rfl⟩ trivial) (fun _ => trivial)

/-- Looking for a table of the scratchpad. -/
theorem scratchTableExists_own (label : String) :
    Only (Call.Own settings tenant plain) (scratchTableExists settings tenant label) := by
  refine Only.bind requireEnabled_own (fun _ => ?_)
  exact Only.bind (statement_own ⟨rfl, rfl⟩ trivial) (fun _ => trivial)

omit [Python] [Sqlglot] [Federation] in
/-- The alias of the scratchpad leads to the schema of the tenant. -/
theorem scratchGuardParams_schema (settings : Settings) (tenant : String) (target : ScratchTarget)
    (h : scratchGuardParams settings tenant = some target) : target.schema = tenant := by
  unfold scratchGuardParams at h
  split at h
  · cases h
    rfl
  · cases h

section

variable [Engines] [Backend]

/-- The inline `SELECT` of a table says no more than the table. -/
def InlineFaithful (table : ArrowTable) : Prop :=
  ∀ text, scratchSelect table = .ok text → Faithful table text

omit [Engines] [Backend] in
/-- Ingesting into the scratchpad. -/
theorem ingestToScratch_own (label : String) (table : ArrowTable) (kind : SourceKind)
    (mode : String) (hplain : plain → InlineFaithful table) :
    Calls (Call.Own settings tenant plain) TrueHandle
      (ingestToScratch settings tenant label table kind mode) := by
  unfold ingestToScratch
  split
  · exact .raise _
  · split
    · exact .raise _
    · refine Calls.bind ?_ (fun exists_ => ?_)
      · split
        · exact (scratchTableExists_own label).calls
        · exact .pure _
      · split
        · exact .raise _
        · refine Calls.lift_bind (fun text htext => Calls.bind ?_ (fun _ => ?_))
          · refine (createAsSelect_own label _ (fun h => ?_)).calls
            intro ident hident
            rw [Federation.reads_inline (hplain h text htext)] at hident
            cases hident
          · exact (describeScratch_own label).calls

/-- Ingesting an object. -/
theorem ingestObject_own (label : String) (source : PyM ResolvedSource) (mode : String)
    (tags : Option (List String)) (target : String)
    (hplain : plain → ∀ resolved, source = .ok resolved → target = "scratch" →
      InlineFaithful resolved.table) :
    Calls (Call.Own settings tenant plain) TrueHandle
      (ingestObject settings tenant label source mode tags target) := by
  refine Calls.lift_bind (fun label _ => ?_)
  split
  · exact .raise _
  · refine Calls.lift_bind (fun resolved hresolved => ?_)
    split
    · rename_i htarget
      exact ingestToScratch_own label resolved.table resolved.kind mode
        (fun h => hplain h resolved hresolved htarget)
    · exact Calls.bind (writeArrow_own label resolved.table (.str mode))
        (fun _ => (finish_own (ingestRow settings tenant label resolved.kind resolved.ref)
          rfl (tags.getD []) none []).calls)

omit [Backend] in
/-- The schema check of a derive. -/
theorem checkDerive_own (newLabel : String) {sql : List Token} (mode : String) (exists_ : Bool)
    (hreads : ReadsWithin settings tenant (.query sql)) :
    Only (Call.Own settings tenant plain) (checkDerive tenant newLabel sql mode exists_) := by
  unfold checkDerive
  split
  · trivial
  · split
    · refine Only.bind (loadSchema_own newLabel) (fun _ => Only.bind (only_own rfl hreads) ?_)
      intro new
      dsimp only
      split <;> trivial
    · trivial

/-- Deriving an object of the lakehouse. -/
theorem deriveToLakehouse_own (newLabel : String) {guarded : GuardedQuery} (mode : String)
    (tags : List String) (hreads : ReadsWithin settings tenant (.query guarded.sql)) :
    Only (Call.Own settings tenant plain)
      (deriveToLakehouse settings tenant newLabel guarded mode tags) := by
  refine Only.bind (only_own rfl trivial) (fun exists_ => ?_)
  refine Only.bind (checkDerive_own newLabel mode exists_ hreads) (fun _ => ?_)
  refine Only.bind (only_own rfl trivial) (fun _ => Only.bind (only_own rfl hreads) (fun _ => ?_))
  refine Only.bind (Only.select (fun label _ => only_own rfl trivial)) (fun parents => ?_)
  exact finish_own (deriveRow settings tenant newLabel guarded.sql) rfl tags (some parents) parents

/-- Deriving from a guarded query. -/
theorem deriveGuarded_own (newLabel : String) {guarded : GuardedQuery} (mode : String)
    (tags : List String) (target : String)
    (hreads : ReadsWithin settings tenant (.query guarded.sql)) :
    Only (Call.Own settings tenant plain)
      (if target = "scratch" then deriveToScratch settings tenant newLabel guarded mode
        else deriveToLakehouse settings tenant newLabel guarded mode tags) := by
  split
  · refine Only.bind (scratchTableExists_own newLabel) (fun exists_ => ?_)
    split
    · trivial
    · exact Only.bind (createAsSelect_own newLabel _ (fun _ => hreads))
        (fun _ => describeScratch_own newLabel)
  · exact deriveToLakehouse_own newLabel mode tags hreads

/-- Deriving an object. -/
theorem deriveObject_own (hns : IsNamespace tenant) (newLabel sql mode : String)
    (tags : Option (List String)) (target : String) :
    Calls (Call.Own settings tenant plain) TrueHandle
      (deriveObject settings tenant newLabel sql mode tags target) := by
  have hguarded (guarded : GuardedQuery)
      (h : validateSelect (deriveParams settings tenant) sql = .ok guarded) :
      ReadsWithin settings tenant (.query guarded.sql) :=
    validateSelect_reads h hns rfl (scratchGuardParams_schema settings tenant)
  refine Calls.lift_bind (fun label _ => ?_)
  split
  · exact .raise _
  · split
    · exact .raise _
    · generalize validateSelect (deriveParams settings tenant) sql = result at hguarded
      exact Calls.lift_bind (fun guarded h =>
        (deriveGuarded_own label mode (tags.getD []) target (hguarded guarded h)).calls)

omit [Engines] [Backend] in
/-- Committing what is buffered. -/
theorem flush_own {schema : Columns} (name : String) (mode : Json) (s : PutState schema) :
    Calls (Call.Own settings tenant plain) TrueHandle (flush tenant name mode s) := by
  unfold flush
  split
  · exact .pure _
  · exact Calls.bind (writeArrow_own name _ _) (fun _ => .pure _)

omit [Engines] [Backend] in
/-- The loop over the chunks of a stream. -/
theorem putChunks_own {schema : Columns} (name : String) (mode : Json)
    (chunks : List (Option (Batch schema))) (s : PutState schema) :
    Calls (Call.Own settings tenant plain) TrueHandle
      (putChunks settings tenant name mode chunks s) := by
  induction chunks generalizing s with
  | nil => exact .pure _
  | cons chunk chunks ih =>
    cases chunk with
    | none => exact ih s
    | some batch =>
      unfold putChunks
      split
      · exact ih s
      · dsimp only
        split
        · exact Calls.bind (flush_own name mode _) ih
        · exact ih _

omit [Engines] in
/-- An upload. -/
theorem doPut_own {schema : Columns} {target : PyM (String × String × Json)}
    (htarget : ∀ name mode tenant', target = .ok (tenant', name, mode) → tenant' = tenant)
    (chunks : List (Option (Batch schema))) :
    Calls (Call.Own settings tenant plain) TrueHandle (doPut settings target chunks) := by
  refine Calls.lift_bind (fun put hput => ?_)
  obtain ⟨tenant', name, mode⟩ := put
  obtain rfl := htarget name mode tenant' hput
  refine Calls.bind ?_ (fun _ => Calls.bind (Only.calls ?_) (fun _ => .pure _))
  · refine Calls.bind (putChunks_own name mode chunks {}) (fun s => ?_)
    refine Calls.bind (flush_own name mode s) (fun s => ?_)
    split
    · exact Calls.bind (writeArrow_own name _ mode) (fun _ => .pure _)
    · exact .pure _
  · exact recordObjectGuarded_only Call.own_openRegistry (Call.own_of_tenant rfl trivial)

end

end

end Memcove
