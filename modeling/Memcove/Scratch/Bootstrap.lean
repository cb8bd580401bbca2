import Memcove.Scratch.Replace
import Memcove.Tools.Ingest

/-!
# The first write of a tenant

A tenant's own catalog is created by `ensure`, inside `create_as_select`. Derive, and ingest in
create mode, look at the catalog before that, so the first of these writes fails for a tenant whose
catalog does not exist yet.
-/

namespace Memcove

open Programs

section

variable [Federated] {failures : Bool} {settings : Settings} {s : TrinoState}
  {tenant label : String} {select : SelectText} {α β : Type}

/-- In every run, every statement that is sent names only catalogs that exist at that moment. -/
def NamesExisting (failures : Bool) (s : TrinoState) (p : Tool α) : Prop :=
  ∀ t statement, Sends (trino failures) s p t (.scratch statement) →
    ∀ catalog ∈ statement.catalogs, catalog ∈ t.catalogs

/-- One program after the other. -/
theorem namesExisting_bind {p : Tool α} {f : α → Tool β} :
    NamesExisting failures s (p >>= f) ↔ NamesExisting failures s p ∧
      ∀ u a, Completes (trino failures) s p (.ok a) u → NamesExisting failures u (f a) := by
  simp only [NamesExisting, sends_bind]
  constructor
  · intro h
    exact ⟨fun t statement hsends => h t statement (Or.inl hsends),
      fun u a hrun t statement hsends => h t statement (Or.inr ⟨u, a, hrun, hsends⟩)⟩
  · rintro ⟨hp, hf⟩ t statement (hsends | ⟨u, a, hrun, hsends⟩)
    · exact hp t statement hsends
    · exact hf u a hrun t statement hsends

/-- One statement. -/
theorem namesExisting_call {statement : ScratchStatement} :
    NamesExisting failures s (call (.scratch statement)) ↔
      ∀ catalog ∈ statement.catalogs, catalog ∈ s.catalogs := by
  simp only [NamesExisting, call, sends_perform]
  constructor
  · exact fun h => h s statement ⟨rfl, rfl⟩
  · rintro h t statement' ⟨rfl, hstatement⟩
    cases hstatement
    exact h

/-- A computation without calls. -/
theorem namesExisting_lift {x : PyM α} : NamesExisting failures s (Program.lift x) :=
  fun _ _ hsends => (not_sends_lift hsends).elim

/-- Nothing is sent while the scratchpad is disabled. -/
theorem namesExisting_enabled {f : PUnit → Tool α} :
    NamesExisting failures s (requireEnabled settings >>= f) ↔
      (settings.scratchEnabled = true → NamesExisting failures s (f ⟨⟩)) := by
  unfold requireEnabled
  cases settings.scratchEnabled with
  | true => exact ⟨fun h _ => h, fun h => h rfl⟩
  | false =>
    refine iff_of_true (fun t statement hsends => ?_) (fun h => nomatch h)
    cases hsends

/-- A run without failures is a run. -/
theorem completes_of_healthy {p : Tool α} {r : PyM α} {u : TrinoState}
    (h : Completes (trino false) s p r u) : Completes (trino failures) s p r u := by
  have hpossible (t : TrinoState) (c : Call) (r : PyM (Answer c))
      (h : (trino false).possible t ⟨c, r⟩) : (trino failures).possible t ⟨c, r⟩ := by
    cases c with
    | scratch statement => exact h.imp_right (fun h => nomatch h.1)
    | _ => exact h
  induction h with
  | pure => exact .pure
  | raise => exact .raise
  | call hcall _ ih => exact .call (hpossible _ _ _ hcall) ih

variable (failures) in
/-- A program that cannot raise while Trino does not fail has a run that returns. -/
theorem exists_completes {p : Tool α} {Q : TrinoState → PyM α → Prop}
    (hends : EndsIn (trino false) s p Q) (hraises : ∀ u e, ¬ Q u (.error e)) :
    ∃ u a, Completes (trino failures) s p (.ok a) u := by
  obtain ⟨r, u, hrun⟩ : ∃ r u, Completes (trino false) s p r u :=
    ⟨_, _, Program.execute_completes (trinoAnswer_possible false)⟩
  have hq := hends.completes hrun
  cases r with
  | ok a => exact ⟨u, a, completes_of_healthy hrun⟩
  | error e => exact (hraises u e hq).elim

variable [Python]

/-- `ensure` names nothing but what it creates, or the shared catalog. -/
theorem ensureScratch_names (h : Ensurable settings s tenant) :
    NamesExisting failures s (ensureScratch settings tenant) := by
  refine namesExisting_enabled.mpr (fun _ => namesExisting_bind.mpr
    ⟨?_, fun u _ hrun => namesExisting_call.mpr (fun catalog hcatalog => ?_)⟩)
  · unfold ensureCatalog
    split
    · exact namesExisting_call.mpr (fun _ hcatalog => nomatch hcatalog)
    · split
      · exact fun _ _ hsends => nomatch hsends
      · exact fun _ _ hsends => nomatch hsends
  · rw [List.mem_singleton.mp hcatalog]
    exact mem_of_ensureCatalog h (ensureCatalog_ends.completes hrun).2

/-- The catalogs that a `SELECT` names exist, or are created by `ensure`. -/
def CatalogsExist (settings : Settings) (s : TrinoState) (tenant : String) (select : SelectText) :
    Prop :=
  ∀ read ∈ Federated.reads select, read.1 = catalogFor settings tenant ∨ read.1 ∈ s.catalogs

omit [Python] in
/-- `drop` names the scratch catalog. -/
theorem drop_names (hcatalog : catalogFor settings tenant ∈ s.catalogs) (replace : Bool) :
    NamesExisting failures s (if replace then dropScratch settings tenant label else .pure ⟨⟩) := by
  cases replace with
  | false => exact namesExisting_lift (x := .ok PUnit.unit)
  | true =>
    refine namesExisting_enabled.mpr (fun _ => namesExisting_call.mpr (fun catalog hmem => ?_))
    rw [List.mem_singleton.mp hmem]
    exact hcatalog

omit [Python] in
/-- The `CREATE TABLE AS` names the scratch catalog and what its `SELECT` names. -/
theorem ctas_names {u : TrinoState} (hu : ∀ catalog, catalog ∈ u.catalogs ↔
      catalog = catalogFor settings tenant ∨ catalog ∈ s.catalogs) :
    NamesExisting failures u (call (.scratch (.createTableAs (catalogFor settings tenant)
      (schemaFor tenant) label select))) ↔ CatalogsExist settings s tenant select := by
  rw [namesExisting_call]
  simp only [ScratchStatement.catalogs, List.forall_mem_cons, List.forall_mem_map, hu, true_or,
    true_and, CatalogsExist]

/-- What `create_as_select` names besides the scratch catalog is what its `SELECT` names. -/
theorem createAsSelect_names (h : Ensurable settings s tenant) (replace : Bool) :
    NamesExisting failures s (createAsSelect settings tenant label select replace) ↔
      CatalogsExist settings s tenant select := by
  constructor
  · intro hnames
    obtain ⟨_, hnames⟩ := namesExisting_bind.mp (namesExisting_enabled.mp hnames h.1)
    obtain ⟨u, _, hensure⟩ := exists_completes failures (ensureScratch_ends (s := s))
      (fun u e hu => hu.2 rfl h)
    obtain ⟨htables, hu, _⟩ := ensureScratch_ends.completes hensure
    have hcatalog := (hu _).mpr (Or.inl rfl)
    obtain ⟨_, hnames⟩ := namesExisting_bind.mp (hnames u _ hensure)
    obtain ⟨v, _, hdrop⟩ := exists_completes failures (drop_ends label htables hcatalog replace)
      (fun v e hv => Bool.false_ne_true ((hv.2 rfl).symm.trans h.1))
    obtain ⟨_, hv, _⟩ := (drop_ends label htables hcatalog replace).completes hdrop
    exact (ctas_names (fun catalog => by rw [hv, hu])).mp (hnames v _ hdrop)
  · intro hreads
    refine namesExisting_enabled.mpr (fun _ => namesExisting_bind.mpr
      ⟨ensureScratch_names h, fun u _ hensure => ?_⟩)
    obtain ⟨htables, hu, _⟩ := ensureScratch_ends.completes hensure
    have hcatalog := (hu _).mpr (Or.inl rfl)
    refine namesExisting_bind.mpr ⟨drop_names hcatalog replace, fun v _ hdrop => ?_⟩
    obtain ⟨_, hv, _⟩ := (drop_ends label htables hcatalog replace).completes hdrop
    exact (ctas_names (fun catalog => by rw [hv, hu])).mpr hreads

/-- The description names the scratch catalog. -/
theorem createAndDescribe_names (h : Ensurable settings s tenant) (replace : Bool) :
    NamesExisting failures s (do
      createAsSelect settings tenant label select replace
      describeScratch settings tenant label) ↔ CatalogsExist settings s tenant select := by
  rw [namesExisting_bind, createAsSelect_names h]
  refine and_iff_left_of_imp (fun _ u _ hrun => ?_)
  obtain ⟨_, hcatalog⟩ := ((createAsSelect_ends replace).completes hrun).1 rfl
  have hnames {statement : ScratchStatement} {t : TrinoState}
      (ht : t.catalogs = u.catalogs)
      (hstatement : statement.catalogs = [catalogFor settings tenant]) :
      NamesExisting failures t (call (.scratch statement)) := by
    refine namesExisting_call.mpr (fun catalog hmem => ?_)
    rw [hstatement] at hmem
    rw [List.mem_singleton.mp hmem, ht]
    exact hcatalog
  refine namesExisting_enabled.mpr (fun _ => namesExisting_bind.mpr ⟨hnames rfl rfl, fun v _ hv =>
    namesExisting_bind.mpr ⟨hnames ?_ rfl, fun _ _ _ => namesExisting_lift (x := .ok _)⟩⟩)
  have hread : EndsIn (trino failures) u (call (.scratch (.describe (catalogFor settings tenant)
      (schemaFor tenant) label))) (fun v _ => v.catalogs = u.catalogs) :=
    ends_statement (fun _ _ => rfl) (fun _ _ => rfl)
  exact hread.completes hv

omit [Python] in
/-- A program that looks for the table first names the scratch catalog, whatever it does then. -/
theorem lookThen_names (henabled : settings.scratchEnabled = true) {f : Bool → Tool α} :
    NamesExisting failures s (scratchTableExists settings tenant label >>= f) ↔
      catalogFor settings tenant ∈ s.catalogs ∧
        NamesExisting failures s (f (s.table (scratchIdent settings tenant label)).isSome) := by
  have hlook : NamesExisting failures s (scratchTableExists settings tenant label) ↔
      catalogFor settings tenant ∈ s.catalogs := by
    rw [scratchTableExists, namesExisting_enabled, forall_prop_of_true henabled,
      namesExisting_bind, namesExisting_call]
    refine (and_iff_left_of_imp (fun _ _ _ _ => namesExisting_lift (x := .ok _))).trans ?_
    exact List.forall_mem_singleton
  rw [namesExisting_bind, hlook]
  refine and_congr_right (fun hcatalog => ⟨fun h => ?_, fun h u exists_ hrun => ?_⟩)
  · have hends : EndsIn (trino false) s (scratchTableExists settings tenant label) _ :=
      scratchTableExists_ends
    obtain ⟨u, exists_, hrun⟩ := exists_completes failures hends
      (fun u e hu => (hu.2 rfl).elim (fun h => Bool.false_ne_true (h.symm.trans henabled))
        (fun h => h hcatalog))
    obtain ⟨rfl, _, rfl⟩ := scratchTableExists_ends.completes hrun
    exact h _ _ hrun
  · obtain ⟨rfl, _, rfl⟩ := scratchTableExists_ends.completes hrun
    exact h

variable [Engines] [Backend] [Sqlglot]

/-- A write to the scratchpad: a derive, or an ingest of a resolved source. -/
inductive ScratchWrite where
  | derive (sql : String)
  | ingest (source : PyM ResolvedSource)

/-- The tool call of a write. -/
def ScratchWrite.program (settings : Settings) (tenant label mode : String)
    (tags : Option (List String)) : ScratchWrite → Tool MemoryObject
  | .derive sql => deriveObject settings tenant label sql mode tags "scratch"
  | .ingest source => ingestObject settings tenant label source mode tags "scratch"

/-- The `SELECT` of a write that is not rejected before it comes to the scratchpad. -/
def ScratchWrite.query (settings : Settings) (tenant : String) :
    ScratchWrite → Option (PyM SelectText)
  | .derive sql =>
    match validateSelect (deriveParams settings tenant) sql with
    | .ok guarded => some (.ok (.query guarded.sql))
    | .error _ => none
  | .ingest source =>
    match source with
    | .ok resolved =>
      if resolved.kind = .inline then some ((scratchSelect resolved.table).map .inline) else none
    | .error _ => none

omit [Federated] [Engines] [Backend] in
/-- The query of an accepted derive. -/
theorem ScratchWrite.query_derive {sql : String} {text : PyM SelectText}
    (h : (ScratchWrite.derive sql).query settings tenant = some text) :
    ∃ guarded, validateSelect (deriveParams settings tenant) sql = .ok guarded ∧
      text = .ok (.query guarded.sql) := by
  unfold ScratchWrite.query at h
  generalize validateSelect (deriveParams settings tenant) = validate at h ⊢
  dsimp only at h
  cases hguard : validate sql with
  | error e =>
    rw [hguard] at h
    cases h
  | ok guarded =>
    rw [hguard] at h
    cases h
    exact ⟨guarded, rfl, rfl⟩

omit [Federated] [Engines] [Backend] in
/-- An accepted derive has a query. -/
theorem ScratchWrite.query_of_guarded {sql : String} {guarded : GuardedQuery}
    (h : validateSelect (deriveParams settings tenant) sql = .ok guarded) :
    (ScratchWrite.derive sql).query settings tenant = some (.ok (.query guarded.sql)) := by
  dsimp only [ScratchWrite.query]
  rw [h]

omit [Federated] [Engines] [Backend] in
/-- The query of an ingest of inline data. -/
theorem ScratchWrite.query_ingest {source : PyM ResolvedSource} {text : PyM SelectText}
    (h : (ScratchWrite.ingest source).query settings tenant = some text) :
    ∃ resolved, source = .ok resolved ∧ resolved.kind = .inline ∧
      text = (scratchSelect resolved.table).map .inline := by
  unfold ScratchWrite.query at h
  cases source with
  | error e => cases h
  | ok resolved =>
    dsimp only at h
    split at h
    · rename_i hkind
      cases h
      exact ⟨resolved, rfl, hkind, rfl⟩
    · cases h

/-- A write that looks for the table before `ensure`. -/
def ScratchWrite.LooksFirst (mode : String) : ScratchWrite → Prop
  | .derive _ => True
  | .ingest _ => mode = "create"

/-- What a write does after it looked. -/
def afterLook (settings : Settings) (tenant label mode : String) (select : PyM SelectText)
    (refuse : Bool) : Tool MemoryObject :=
  if refuse then
    .raise ⟨.objectExistsError, s!"scratch object '{label}' already exists (use mode=replace)"⟩
  else do
    let text ← Program.lift select
    createAsSelect settings tenant label text (mode == "replace")
    describeScratch settings tenant label

omit [Federated] [Sqlglot] in
/-- An ingest of inline data into the scratchpad. -/
theorem ingestObject_scratch {resolved : ResolvedSource} {name mode : String}
    {tags : Option (List String)} (hlabel : validateLabel label = .ok name)
    (hmode : mode = "create" ∨ mode = "replace") (hkind : resolved.kind = .inline) :
    ingestObject settings tenant label (.ok resolved) mode tags "scratch" = (do
      let exists_ ← (if mode = "create" then scratchTableExists settings tenant name
        else .pure false)
      afterLook settings tenant name mode ((scratchSelect resolved.table).map .inline)
        exists_) := by
  have hmode' : ¬ (mode ≠ "create" ∧ mode ≠ "replace") :=
    fun h => hmode.elim h.1 h.2
  have htarget : ¬ ("scratch" ≠ "lakehouse" ∧ "scratch" ≠ "scratch") := fun h => h.2 rfl
  unfold ingestObject
  rw [hlabel, Program.lift_ok_bind, if_neg htarget, Program.lift_ok_bind, if_pos rfl,
    ingestToScratch, hkind, if_neg (not_not.mpr rfl), if_neg hmode']
  refine congrArg _ (funext fun exists_ => ?_)
  cases exists_ with
  | true => rfl
  | false =>
    cases hselect : scratchSelect resolved.table with
    | error e => rfl
    | ok sql => rfl

omit [Federated] in
/-- A write looks for the table, unless it is an ingest that replaces, and then creates it. -/
theorem ScratchWrite.program_eq {write : ScratchWrite} {name mode : String}
    (tags : Option (List String)) {select : PyM SelectText}
    (hlabel : validateLabel label = .ok name) (hmode : mode = "create" ∨ mode = "replace")
    (hquery : write.query settings tenant = some select) :
    (write.LooksFirst mode → write.program settings tenant label mode tags =
      scratchTableExists settings tenant name >>= fun exists_ =>
        afterLook settings tenant name mode select (mode == "create" && exists_)) ∧
    (¬ write.LooksFirst mode → write.program settings tenant label mode tags =
      afterLook settings tenant name mode select false) := by
  cases write with
  | derive sql =>
    obtain ⟨guarded, hguarded, rfl⟩ := ScratchWrite.query_derive hquery
    refine ⟨fun _ => ?_, fun hnot => (hnot trivial).elim⟩
    rw [ScratchWrite.program, deriveObject_scratch hlabel hmode hguarded]
    refine congrArg _ (funext fun exists_ => ?_)
    by_cases hblocked : mode = "create" ∧ exists_ = true
    · obtain ⟨rfl, rfl⟩ := hblocked
      rfl
    · have hblocked' : (mode == "create" && exists_) = false := by simpa using hblocked
      rw [if_neg hblocked, afterLook, hblocked']
      rfl
  | ingest source =>
    obtain ⟨resolved, rfl, hkind, rfl⟩ := ScratchWrite.query_ingest hquery
    rw [ScratchWrite.program, ingestObject_scratch hlabel hmode hkind]
    refine ⟨fun hlooks => ?_, fun hnot => ?_⟩
    · obtain rfl : mode = "create" := hlooks
      rfl
    · rw [if_neg (show ¬ mode = "create" from hnot)]
      rfl

omit [Engines] [Backend] [Sqlglot] in
/-- What a write names after it looked: nothing when it is refused. -/
theorem afterLook_names (h : Ensurable settings s tenant) {mode : String} {query : PyM SelectText}
    {refuse : Bool} : NamesExisting failures s (afterLook settings tenant label mode query refuse) ↔
      ∀ text, query = .ok text → refuse = false → CatalogsExist settings s tenant text := by
  unfold afterLook
  cases refuse with
  | true =>
    refine iff_of_true (fun _ _ hsends => ?_) (fun _ _ hrefuse => nomatch hrefuse)
    cases hsends
  | false =>
    cases query with
    | error e =>
      refine iff_of_true (fun _ _ hsends => ?_) (fun _ htext => nomatch htext)
      cases hsends
    | ok text =>
      rw [if_neg Bool.false_ne_true, Program.lift_ok_bind, createAndDescribe_names h]
      constructor
      · rintro hexist _ ⟨⟩ _
        exact hexist
      · exact fun hexist => hexist text rfl rfl

/-- A write in create mode whose table exists. -/
def Blocked (settings : Settings) (s : TrinoState) (tenant name mode : String) : Prop :=
  mode = "create" ∧ s.table (scratchIdent settings tenant name) ≠ none

/-- Where no statement names a missing catalog: those that look before `ensure` find the scratch
catalog, and what the `SELECT` names exists. -/
structure BootstrapSafe (settings : Settings) (s : TrinoState) (tenant name mode : String)
    (write : ScratchWrite) (query : PyM SelectText) : Prop where
  looked : write.LooksFirst mode → catalogFor settings tenant ∈ s.catalogs
  selected : ∀ text, query = .ok text → ¬ Blocked settings s tenant name mode →
    CatalogsExist settings s tenant text

variable (failures) in
/-- What a write names. -/
theorem scratchWrite_names (h : Ensurable settings s tenant) {write : ScratchWrite}
    {name mode : String} {tags : Option (List String)} {query : PyM SelectText}
    (hlabel : validateLabel label = .ok name) (hmode : mode = "create" ∨ mode = "replace")
    (hquery : write.query settings tenant = some query) :
    NamesExisting failures s (write.program settings tenant label mode tags) ↔
      BootstrapSafe settings s tenant name mode write query := by
  obtain ⟨hlooks, hskips⟩ := ScratchWrite.program_eq tags hlabel hmode hquery
  by_cases hfirst : write.LooksFirst mode
  · have hblocked : (mode == "create" && (s.table (scratchIdent settings tenant name)).isSome) =
        false ↔ ¬ Blocked settings s tenant name mode := by
      rw [← Bool.not_eq_true, Blocked, Bool.and_eq_true, beq_iff_eq, Option.isSome_iff_ne_none]
    rw [hlooks hfirst, lookThen_names h.1, afterLook_names h]
    simp only [hblocked]
    exact ⟨fun hsafe => ⟨fun _ => hsafe.1, hsafe.2⟩,
      fun hsafe => ⟨hsafe.looked hfirst, hsafe.selected⟩⟩
  · have hreplace : ¬ Blocked settings s tenant name mode := by
      rintro ⟨rfl, _⟩
      cases write with
      | derive sql => exact hfirst trivial
      | ingest source => exact hfirst rfl
    rw [hskips hfirst, afterLook_names h]
    exact ⟨fun hsafe => ⟨fun hlook => (hfirst hlook).elim,
        fun text htext _ => hsafe text htext rfl⟩,
      fun hsafe text htext _ => hsafe.selected text htext hreplace⟩

/-- A write of a table that does not exist yet succeeds when its `SELECT` has a result that can be
stored. -/
theorem scratchWrite_succeeds (h : Ensurable settings s tenant) {write : ScratchWrite}
    {name mode : String} {tags : Option (List String)} {query : PyM SelectText}
    (hlabel : validateLabel label = .ok name) (hmode : mode = "create" ∨ mode = "replace")
    (hquery : write.query settings tenant = some query)
    (hsafe : BootstrapSafe settings s tenant name mode write query)
    (hfresh : s.table (scratchIdent settings tenant name) = none) {text : SelectText}
    {result : QueryResult} (htext : query = .ok text)
    (hresult : Federated.evaluate s text = .ok result)
    (hstores : Federated.stores (scratchIdent settings tenant name) text result = .ok ()) :
    EndsIn (trino false) s (write.program settings tenant label mode tags)
      (fun _ r => r.isOk = true) := by
  obtain ⟨hlooks, hskips⟩ := ScratchWrite.program_eq tags hlabel hmode hquery
  subst htext
  have hafter : EndsIn (trino false) s (afterLook settings tenant name mode (.ok text) false)
      (fun _ r => r.isOk = true) := by
    refine (createAndDescribe_ends (mode == "replace")).mono (fun u r hu => ?_)
    have hsame : SameTables (beforeCtas s (scratchIdent settings tenant name)
        (mode == "replace")) s := by
      intro ident
      cases mode == "replace" with
      | true => exact TrinoState.table_dropTable_of_none hfresh
      | false => rfl
    cases hu with
    | unchanged e htables hwhy => exact (hwhy rfl h).elim
    | failed e htables hwhy =>
      rcases hwhy rfl with hexists | hfails
      · exact (hexists ((hsame _).trans hfresh)).elim
      · have hctas := Federated.ctas_eq_ok_iff.mpr ⟨hresult, hstores⟩
        rw [ctas_congr (evaluate_tables _ hsame), hctas] at hfails
        cases hfails
    | done _ result hothers htable hbefore hresult hok => exact hok rfl
  by_cases hfirst : write.LooksFirst mode
  · rw [hlooks hfirst]
    refine scratchTableExists_ends.bind (fun u exists_ hu => ?_) (fun u e hu => ?_)
    · obtain ⟨rfl, _, rfl⟩ := hu
      rw [hfresh, Option.isSome_none, Bool.and_false]
      exact hafter
    · rcases hu.2 rfl with hdisabled | hmissing
      · exact (Bool.false_ne_true (hdisabled.symm.trans h.1)).elim
      · exact (hmissing (hsafe.looked hfirst)).elim
  · rw [hskips hfirst]
    exact hafter

/-- A write names no missing catalog in any run, and the first write of a table succeeds when its
`SELECT` has a result that can be stored, if and only if those writes that look before `ensure` find
the scratch catalog and what the `SELECT` names exists. -/
theorem scratchWrite_bootstraps_iff (h : Ensurable settings s tenant) {write : ScratchWrite}
    {name mode : String} (tags : Option (List String)) {query : PyM SelectText}
    (hlabel : validateLabel label = .ok name) (hmode : mode = "create" ∨ mode = "replace")
    (hquery : write.query settings tenant = some query) :
    ((∀ failures, NamesExisting failures s (write.program settings tenant label mode tags)) ∧
      (s.table (scratchIdent settings tenant name) = none → ∀ text result, query = .ok text →
        Federated.evaluate s text = .ok result →
        Federated.stores (scratchIdent settings tenant name) text result = .ok () →
        ∀ r u, Completes (trino false) s
          (write.program settings tenant label mode tags) r u → r.isOk = true)) ↔
      BootstrapSafe settings s tenant name mode write query := by
  constructor
  · intro hboth
    exact (scratchWrite_names false h hlabel hmode hquery).mp (hboth.1 false)
  · intro hsafe
    refine ⟨fun failures => (scratchWrite_names failures h hlabel hmode hquery).mpr hsafe,
      fun hfresh text result htext hresult hstores r u hrun => ?_⟩
    exact (scratchWrite_succeeds h hlabel hmode hquery hsafe hfresh htext hresult
      hstores).completes hrun

end

section

attribute [local instance] asciiPython recordedSqlglot textEngines externalBackend

/-- Settings with a catalog for each tenant. -/
def perTenant : Settings := { scratchEnabled := true, scratchCatalogMode := "per_tenant" }

/-- Trino before the first scratch write, with the lakehouse table `events`. -/
def beforeFirstWrite : TrinoState where
  catalogs := ["iceberg"]
  schemas := [("iceberg", "t_acme")]
  tables := [(("iceberg", "t_acme", "events"), ⟨[("v", "varchar")], [[.str "a"]]⟩)]

/-- The first derive into the scratchpad asks for the tables of a catalog that does not exist, and
fails although its `SELECT` has a result that can be stored. -/
theorem firstDerive_fails :
    let _ : Federated := readingEngine [("iceberg", "t_acme", "events")]
    let derive := ScratchWrite.derive "SELECT * FROM events"
    ¬ NamesExisting false beforeFirstWrite (derive.program perTenant "t_acme" "x" "create" none) ∧
      (∃ text result, derive.query perTenant "t_acme" = some (.ok text) ∧
        Federated.ctas beforeFirstWrite ("scratch_t_acme", "t_acme", "x") text = .ok result) ∧
      ∃ e, Completes (trino false) beforeFirstWrite
        (derive.program perTenant "t_acme" "x" "create" none) (.error e) beforeFirstWrite := by
  intro engine derive
  have hlabel : validateLabel "x" = .ok "x" := by rfl
  have hguarded : validateSelect (deriveParams perTenant "t_acme") "SELECT * FROM events" =
      .ok ⟨.node .select (readStar ⟨"events", "t_acme", "iceberg"⟩), ["events"], []⟩ := by rfl
  have hprogram : derive.program perTenant "t_acme" "x" "create" none =
      deriveToScratch perTenant "t_acme" "x"
        ⟨.node .select (readStar ⟨"events", "t_acme", "iceberg"⟩), ["events"], []⟩ "create" :=
    deriveObject_scratch hlabel (Or.inl rfl) hguarded
  refine ⟨fun hnames => ?_, ⟨_, _, ScratchWrite.query_of_guarded hguarded, rfl⟩, ?_⟩
  · rw [hprogram] at hnames
    have hcatalog := ((lookThen_names rfl).mp hnames).1
    revert hcatalog
    decide
  · rw [hprogram]
    exact ⟨_, .call (Or.inl rfl) .raise⟩

/-- With its catalog in place the same derive is safe. -/
theorem laterDerive_succeeds :
    let _ : Federated := readingEngine [("iceberg", "t_acme", "events")]
    let derive := ScratchWrite.derive "SELECT * FROM events"
    let prepared := beforeFirstWrite.addCatalog "scratch_t_acme"
    (∀ failures, NamesExisting failures prepared
      (derive.program perTenant "t_acme" "x" "create" none)) ∧
      ∀ r u, Completes (trino false) prepared
        (derive.program perTenant "t_acme" "x" "create" none) r u → r.isOk = true := by
  intro engine derive prepared
  have hlabel : validateLabel "x" = .ok "x" := by rfl
  have hguarded : validateSelect (deriveParams perTenant "t_acme") "SELECT * FROM events" =
      .ok ⟨.node .select (readStar ⟨"events", "t_acme", "iceberg"⟩), ["events"], []⟩ := by rfl
  have hsafe : BootstrapSafe perTenant prepared "t_acme" "x" "create" derive
      (.ok (.query (generate (.node .select (readStar ⟨"events", "t_acme", "iceberg"⟩))))) := by
    refine ⟨fun _ => by decide, ?_⟩
    rintro text ⟨⟩ _ read hread
    rw [List.mem_singleton.mp hread]
    exact Or.inr (by decide)
  have hensurable : Ensurable perTenant prepared "t_acme" := ⟨rfl, Or.inl rfl⟩
  obtain ⟨hnames, hsucceeds⟩ := (scratchWrite_bootstraps_iff hensurable none hlabel (Or.inl rfl)
    (ScratchWrite.query_of_guarded hguarded)).mpr hsafe
  exact ⟨hnames, hsucceeds rfl _ _ rfl rfl rfl⟩

end

end Memcove
