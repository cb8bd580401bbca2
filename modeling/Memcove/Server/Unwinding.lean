import Memcove.Server.Views

/-!
# Calls and views

The calls of a request are about its tenant, and what they read is visible to it. This file proves
the two unwinding conditions of the site: a call about another tenant leaves a tenant's view alone,
and a call about the tenant is answered, and changes the view, as the view says.
-/

namespace Memcove

open KeyedTables Programs

/-- In the mode with a catalog for each tenant these catalogs differ. -/
theorem catalogFor_inj {settings : Settings} {tenant tenant' : String}
    (hmode : settings.scratchCatalogMode = "per_tenant")
    (h : catalogFor settings tenant = catalogFor settings tenant') : tenant = tenant' := by
  have htext := congrArg String.toList h
  simpa [catalogFor, hmode, ← String.toList_inj] using htext

/-- The schemas after one was added. -/
theorem TrinoState.mem_addSchema {s : TrinoState} {schema schema' : String × String} :
    schema ∈ (s.addSchema schema').schemas ↔ schema = schema' ∨ schema ∈ s.schemas := by
  unfold TrinoState.addSchema
  split
  · rename_i hmem
    refine (or_iff_right_of_imp ?_).symm
    rintro rfl
    exact hmem
  · exact List.mem_cons

/-- Answers behind the check of a catalog that is there in both or in neither. -/
theorem onCatalog_congr {α : Type} {s t : TrinoState} {catalog : String} {x y : Except PyError α}
    (hcatalog : catalog ∈ s.catalogs ↔ catalog ∈ t.catalogs) (hxy : x.toOption = y.toOption) :
    (s.onCatalog catalog x).toOption = (t.onCatalog catalog y).toOption := by
  unfold TrinoState.onCatalog
  by_cases h : catalog ∈ s.catalogs
  · rw [if_pos h, if_pos (hcatalog.mp h), hxy]
  · rw [if_neg h, if_neg (fun ht => h (hcatalog.mpr ht))]

/-- Answers about the same table. -/
theorem onTable_congr {α : Type} {s t : TrinoState} {ident : TableIdent} (f : QueryResult → α)
    (h : s.table ident = t.table ident) :
    (s.onTable ident f).toOption = (t.onTable ident f).toOption := by
  rw [TrinoState.onTable, TrinoState.onTable, h]

/-- The value of a result that is mapped. -/
theorem toOption_map {α β : Type} (f : α → β) (x : PyM α) :
    (x.map f).toOption = x.toOption.map f := by
  cases x <;> rfl

/-- Computations with the same value return the same. -/
theorem eq_ok_iff {α : Type} {x y : PyM α} (h : x.toOption = y.toOption) (a : α) :
    x = .ok a ↔ y = .ok a := by
  have hvalue (x : PyM α) : x = .ok a ↔ x.toOption = some a := by
    cases x <;> simp [Except.toOption]
  rw [hvalue, hvalue, h]

variable [Python] (settings : Settings) (tenant : String)

/-- Whether a tenant may read a schema: its own namespace, or a shared schema. -/
def visible (ns : String) : Bool :=
  ns == tenant || (sharedNames settings.sharedSchemas).contains ns ||
    settings.sharedSchemas.contains ns

/-- The part of the scratchpad that a tenant sees. -/
def TrinoState.seenBy (s : TrinoState) : TrinoState where
  catalogs := s.catalogs.filter (· == catalogFor settings tenant)
  schemas := s.schemas.filter (· == (catalogFor settings tenant, schemaFor tenant))
  tables := s.tables.filter (fun t => visible settings tenant t.1.2.1)

/-- The part of the site that a tenant sees. -/
def Site.seenBy (σ : Site) : Site where
  stores :=
    { lakehouse := σ.stores.lakehouse.only (visible settings tenant)
      registry := σ.stores.registry.only (· == tenant) }
  scratch := σ.scratch.seenBy settings tenant

/-- Two states of Trino that look the same to a tenant. -/
structure SameTrino (s t : TrinoState) : Prop where
  catalog : catalogFor settings tenant ∈ s.catalogs ↔ catalogFor settings tenant ∈ t.catalogs
  schema : (catalogFor settings tenant, schemaFor tenant) ∈ s.schemas ↔
    (catalogFor settings tenant, schemaFor tenant) ∈ t.schemas
  tables : s.tables.filter (fun t => visible settings tenant t.1.2.1) =
    t.tables.filter (fun t => visible settings tenant t.1.2.1)

/-- Two sites that look the same to a tenant. The first one may have drawn more identities. -/
structure SameView (σ τ : Site) : Prop where
  tables : (σ.stores.lakehouse.only (visible settings tenant)).tables =
    (τ.stores.lakehouse.only (visible settings tenant)).tables
  namespaces : (σ.stores.lakehouse.only (visible settings tenant)).namespaces =
    (τ.stores.lakehouse.only (visible settings tenant)).namespaces
  registry : σ.stores.registry.only (· == tenant) = τ.stores.registry.only (· == tenant)
  scratch : SameTrino settings tenant σ.scratch τ.scratch
  identities : τ.stores.lakehouse.nextUuid ≤ σ.stores.lakehouse.nextUuid

/-- The statement is about the scratchpad of the tenant. -/
def ScratchStatement.About : ScratchStatement → Prop
  | .createCatalog catalog _ =>
    catalogFor settings tenant = catalog ∧ settings.scratchCatalogMode = "per_tenant"
  | .createSchema catalog schema | .dropTable catalog schema _ | .createTableAs catalog schema _ _
  | .tableNames catalog schema _ | .describe catalog schema _ | .count catalog schema _ =>
    catalogFor settings tenant = catalog ∧ schemaFor tenant = schema

/-- The call of a tool is about the tenant, or about none. -/
def Call.About : Call → Prop
  | .scratch statement => statement.About settings tenant
  | .openRegistry => True
  | c => c.tenant? = some tenant

/-- The call is about the tenant, or about none. A query only reads. -/
def SiteCall.About : SiteCall → Prop
  | .tool c => c.About settings tenant
  | .listObjects tenant' _ => tenant' = tenant
  | .select runAs sql _ => runAs = tenant ∧ IsQuery sql
  | .referenceColumns schema => schema ∈ settings.sharedSchemas
  | .respond _ => True

/-- The call changes neither the tables of the catalog nor the scratchpad. -/
def SiteCall.Bookkeeping : SiteCall → Prop
  | .tool (.createNamespace _) | .tool (.ensureSchema _) | .tool (.scratch _) => False
  | .tool c => c.changes = none
  | _ => True

/-- A call about another tenant. If the namespace of that tenant is visible, the call writes to the
registry alone. -/
def SiteCall.Foreign (c : SiteCall) : Prop :=
  ∃ other, other ≠ tenant ∧ c.About settings other ∧
    (visible settings tenant other = true → c.Bookkeeping)

variable {settings tenant}

/-- A tenant sees its own namespace. -/
@[simp] theorem visible_self : visible settings tenant tenant = true := by simp [visible]

/-- A tenant sees the shared schemas. -/
theorem visible_of_shared {ns : String} (h : ns ∈ sharedNames settings.sharedSchemas) :
    visible settings tenant ns = true := by simp [visible, h]

/-- A tenant sees the schemas that the operator lists. -/
theorem visible_of_listed {ns : String} (h : ns ∈ settings.sharedSchemas) :
    visible settings tenant ns = true := by simp [visible, h]

section

variable {s t : TrinoState}

/-- A table of a schema that the tenant sees. -/
theorem SameTrino.table (h : SameTrino settings tenant s t) {ident : TableIdent}
    (hident : visible settings tenant ident.2.1 = true) : s.table ident = t.table ident := by
  have hpart (s : TrinoState) := lookup_part Prod.fst
    (fun ident : TableIdent => visible settings tenant ident.2.1) s.tables hident
  rw [TrinoState.table, TrinoState.table, ← hpart s, ← hpart t, h.tables]

/-- The names of the tables in the schema of the tenant. -/
theorem SameTrino.tableNames (h : SameTrino settings tenant s t) (catalog : String)
    (label : Option String) : s.tableNames catalog (schemaFor tenant) label =
      t.tableNames catalog (schemaFor tenant) label := by
  have hpart (s : TrinoState) := filter_tenant (p := visible settings tenant)
    (fun t => t.1.2.1) s.tables
    (q := fun t => t.1.1 == catalog && t.1.2.1 == schemaFor tenant &&
      label.all (fun l => t.1.2.2 == l)) visible_self
    (fun t ht => beq_iff_eq.mp (Bool.and_eq_true_iff.mp (Bool.and_eq_true_iff.mp ht).1).2)
  rw [TrinoState.tableNames, TrinoState.tableNames, ← hpart s, ← hpart t, h.tables]

/-- Adding a catalog on both sides. -/
theorem SameTrino.addCatalog (h : SameTrino settings tenant s t) (catalog : String) :
    SameTrino settings tenant (s.addCatalog catalog) (t.addCatalog catalog) := by
  have hsame (s : TrinoState) : (s.addCatalog catalog).schemas = s.schemas ∧
      (s.addCatalog catalog).tables = s.tables := by
    unfold TrinoState.addCatalog
    split <;> exact ⟨rfl, rfl⟩
  refine ⟨?_, ?_, ?_⟩
  · rw [TrinoState.mem_addCatalog, TrinoState.mem_addCatalog, h.catalog]
  · rw [(hsame s).1, (hsame t).1, h.schema]
  · rw [(hsame s).2, (hsame t).2, h.tables]

/-- Adding a catalog that is not the tenant's. -/
theorem SameTrino.addCatalog_left (h : SameTrino settings tenant s t) {catalog : String}
    (hcatalog : catalogFor settings tenant ≠ catalog) :
    SameTrino settings tenant (s.addCatalog catalog) t := by
  have hsame : (s.addCatalog catalog).schemas = s.schemas ∧
      (s.addCatalog catalog).tables = s.tables := by
    unfold TrinoState.addCatalog
    split <;> exact ⟨rfl, rfl⟩
  refine ⟨?_, ?_, ?_⟩
  · rw [TrinoState.mem_addCatalog, or_iff_right hcatalog, h.catalog]
  · rw [hsame.1, h.schema]
  · rw [hsame.2, h.tables]

/-- Adding a schema on both sides. -/
theorem SameTrino.addSchema (h : SameTrino settings tenant s t) (schema : String × String) :
    SameTrino settings tenant (s.addSchema schema) (t.addSchema schema) := by
  have hsame (s : TrinoState) : (s.addSchema schema).tables = s.tables := by
    unfold TrinoState.addSchema
    split <;> rfl
  refine ⟨?_, ?_, ?_⟩
  · rw [TrinoState.catalogs_addSchema, TrinoState.catalogs_addSchema, h.catalog]
  · rw [TrinoState.mem_addSchema, TrinoState.mem_addSchema, h.schema]
  · rw [hsame s, hsame t, h.tables]

/-- Adding a schema that is not the tenant's. -/
theorem SameTrino.addSchema_left (h : SameTrino settings tenant s t) {schema : String × String}
    (hschema : schema.2 ≠ tenant) : SameTrino settings tenant (s.addSchema schema) t := by
  have hsame : (s.addSchema schema).tables = s.tables := by
    unfold TrinoState.addSchema
    split <;> rfl
  refine ⟨?_, ?_, ?_⟩
  · rw [TrinoState.catalogs_addSchema, h.catalog]
  · rw [TrinoState.mem_addSchema, or_iff_right (fun heq => hschema (congrArg Prod.snd heq).symm),
      h.schema]
  · rw [hsame, h.tables]

/-- Adding a table on both sides. -/
theorem SameTrino.addTable (h : SameTrino settings tenant s t) (ident : TableIdent)
    (result : QueryResult) :
    SameTrino settings tenant (s.addTable ident result) (t.addTable ident result) := by
  refine ⟨h.catalog, h.schema, ?_⟩
  simp only [TrinoState.addTable, List.filter_append, h.tables]

/-- Adding a table that the tenant does not see. -/
theorem SameTrino.addTable_left (h : SameTrino settings tenant s t) {ident : TableIdent}
    (hident : visible settings tenant ident.2.1 = false) (result : QueryResult) :
    SameTrino settings tenant (s.addTable ident result) t := by
  refine ⟨h.catalog, h.schema, ?_⟩
  simp [TrinoState.addTable, List.filter_append, hident, h.tables]

/-- Dropping a table on both sides. -/
theorem SameTrino.dropTable (h : SameTrino settings tenant s t) (ident : TableIdent) :
    SameTrino settings tenant (s.dropTable ident) (t.dropTable ident) := by
  have hpart (s : TrinoState) := part_remove Prod.fst
    (fun ident : TableIdent => visible settings tenant ident.2.1) s.tables ident
  refine ⟨h.catalog, h.schema, ?_⟩
  rw [TrinoState.dropTable, TrinoState.dropTable, hpart, hpart, h.tables]

/-- Dropping a table that the tenant does not see. -/
theorem SameTrino.dropTable_left (h : SameTrino settings tenant s t) {ident : TableIdent}
    (hident : visible settings tenant ident.2.1 = false) :
    SameTrino settings tenant (s.dropTable ident) t := by
  have hpart := part_remove_of_not Prod.fst
    (fun ident : TableIdent => visible settings tenant ident.2.1) s.tables hident
  exact ⟨h.catalog, h.schema, hpart.trans h.tables⟩

end

section

variable [Federated] {s t : TrinoState}

/-- What a `SELECT` reads is visible to the tenant. -/
def ReadsWithin (settings : Settings) (tenant : String) (select : SelectText) : Prop :=
  ∀ ident ∈ Federated.reads select, visible settings tenant ident.2.1 = true

/-- A `SELECT` that reads what the tenant sees. -/
theorem SameTrino.evaluate (h : SameTrino settings tenant s t) {select : SelectText}
    (hreads : ReadsWithin settings tenant select) :
    (Federated.evaluate s select).toOption = (Federated.evaluate t select).toOption :=
  Federated.evaluate_congr (fun ident hident => h.table (hreads ident hident))

/-- A table that is created from what the tenant sees. -/
theorem SameTrino.ctas (h : SameTrino settings tenant s t) {select : SelectText}
    (hreads : ReadsWithin settings tenant select) (ident : TableIdent) :
    (Federated.ctas s ident select).toOption = (Federated.ctas t ident select).toOption :=
  ctas_congr (h.evaluate hreads) ident

/-- What a statement reads is visible to the tenant. -/
def ScratchStatement.ReadsWithin (settings : Settings) (tenant : String) :
    ScratchStatement → Prop
  | .createTableAs _ _ _ select => Memcove.ReadsWithin settings tenant select
  | _ => True

/-- A statement about the tenant has the same answer. -/
theorem SameTrino.respond (h : SameTrino settings tenant s t) {statement : ScratchStatement}
    (habout : statement.About settings tenant) (hreads : statement.ReadsWithin settings tenant) :
    (s.respond statement).toOption = (t.respond statement).toOption := by
  have htable (label : String) :
      s.table (catalogFor settings tenant, schemaFor tenant, label) =
        t.table (catalogFor settings tenant, schemaFor tenant, label) := h.table visible_self
  cases statement with
  | createCatalog catalog url => rfl
  | createSchema catalog schema | dropTable catalog schema label =>
    obtain ⟨rfl, rfl⟩ := habout
    exact onCatalog_congr h.catalog rfl
  | tableNames catalog schema label =>
    obtain ⟨rfl, rfl⟩ := habout
    refine onCatalog_congr h.catalog ?_
    rw [h.tableNames]
  | describe catalog schema label | count catalog schema label =>
    obtain ⟨rfl, rfl⟩ := habout
    exact onCatalog_congr h.catalog (onTable_congr _ (htable label))
  | createTableAs catalog schema label select =>
    obtain ⟨rfl, rfl⟩ := habout
    refine onCatalog_congr h.catalog ?_
    simp only [h.schema, htable label]
    split
    · rfl
    · split
      · rfl
      · rw [toOption_map, toOption_map, h.ctas hreads]

end

section

variable [Sqlglot] [Federation] {σ τ : Site} {c : Call} {n : ℕ}

/-- What the call of a tool reads in Trino is visible to the tenant. -/
def Call.ReadsWithin (settings : Settings) (tenant : String) : Call → Prop
  | .probeColumns _ sql | .createTableAs _ _ sql =>
    Memcove.ReadsWithin settings tenant (.query sql)
  | .scratch statement => statement.ReadsWithin settings tenant
  | _ => True

/-- What the call reads in Trino is visible to the tenant. -/
def SiteCall.ReadsWithin (settings : Settings) (tenant : String) : SiteCall → Prop
  | .tool c => c.ReadsWithin settings tenant
  | .select _ sql _ => Memcove.ReadsWithin settings tenant (.query sql)
  | _ => True

omit [Sqlglot] [Federation] in
/-- A table of a schema that the tenant sees. -/
theorem SameView.table (h : SameView settings tenant σ τ) {k : Key}
    (hk : visible settings tenant k.1 = true) :
    σ.stores.lakehouse.table k = τ.stores.lakehouse.table k := by
  rw [← Lakehouse.table_only (p := visible settings tenant) hk,
    ← Lakehouse.table_only (L := τ.stores.lakehouse) (p := visible settings tenant) hk,
    Lakehouse.table, Lakehouse.table, h.tables]

omit [Sqlglot] [Federation] in
/-- The tables of a schema that the tenant sees. -/
theorem SameView.tablesOf (h : SameView settings tenant σ τ) {ns : String}
    (hns : visible settings tenant ns = true) :
    σ.stores.lakehouse.tables.filter (fun t => t.1.1 == ns) =
      τ.stores.lakehouse.tables.filter (fun t => t.1.1 == ns) := by
  rw [← Lakehouse.tables_only (p := visible settings tenant) hns,
    ← Lakehouse.tables_only (L := τ.stores.lakehouse) (p := visible settings tenant) hns, h.tables]

/-- Trino looks the same. -/
theorem SameView.trino (h : SameView settings tenant σ τ) :
    SameTrino settings tenant (σ.trino settings) (τ.trino settings) := by
  have hlisted : (∃ ns' ∈ σ.stores.lakehouse.namespaces,
      (settings.trinoCatalog, ns') = (catalogFor settings tenant, tenant)) ↔
      ∃ ns' ∈ τ.stores.lakehouse.namespaces,
        (settings.trinoCatalog, ns') = (catalogFor settings tenant, tenant) := by
    have hmem (σ : Site) : tenant ∈ σ.stores.lakehouse.namespaces ↔
        tenant ∈ (σ.stores.lakehouse.only (visible settings tenant)).namespaces := by
      simp [Lakehouse.only]
    have hboth := (hmem σ).trans ((by rw [h.namespaces] : _ ↔ _).trans (hmem τ).symm)
    simp only [Prod.mk.injEq]
    constructor
    · rintro ⟨_, hns, hcatalog, rfl⟩
      exact ⟨_, hboth.mp hns, hcatalog, rfl⟩
    · rintro ⟨_, hns, hcatalog, rfl⟩
      exact ⟨_, hboth.mpr hns, hcatalog, rfl⟩
  refine ⟨?_, ?_, ?_⟩
  · simp only [Site.trino, List.mem_cons, h.scratch.catalog]
  · simp only [Site.trino, List.mem_append, List.mem_map]
    exact or_congr hlisted h.scratch.schema
  · have hshown (σ : Site) : (σ.stores.lakehouse.tables.map (fun t =>
        (((settings.trinoCatalog, t.1) : TableIdent), Federation.shown t.2))).filter
          (fun t => visible settings tenant t.1.2.1) =
        (σ.stores.lakehouse.only (visible settings tenant)).tables.map (fun t =>
          ((settings.trinoCatalog, t.1), Federation.shown t.2)) := by
      rw [List.filter_map, Lakehouse.only]
      rfl
    simp only [Site.trino, List.filter_append, hshown, h.tables, h.scratch.tables]

omit [Sqlglot] [Federation] in
/-- The stores look the same when a new table gets the same identity. -/
theorem SameView.drawn (h : SameView settings tenant σ τ) (n : ℕ) :
    (σ.stores.drawn n).lakehouse.only (visible settings tenant) =
      (τ.stores.drawn n).lakehouse.only (visible settings tenant) := by
  have htables := h.tables
  have hnamespaces := h.namespaces
  simp only [Lakehouse.only, Stores.drawn] at htables hnamespaces ⊢
  rw [htables, hnamespaces]

/-- What a call about the tenant shows is the same. -/
theorem SameView.shows (h : SameView settings tenant σ τ) (habout : c.About settings tenant)
    (hreads : c.ReadsWithin settings tenant) (a : Answer c) :
    σ.Shows settings c a ↔ τ.Shows settings c a := by
  cases c with
  | listTables ns =>
    obtain rfl : ns = tenant := Option.some.inj habout
    simp only [Site.Shows, h.tablesOf visible_self]
  | listNamespaces => cases habout
  | probeColumns tenant' sql =>
    simp only [Site.Shows, eq_ok_iff (h.trino.evaluate hreads)]
  | createTableAs replace k sql =>
    simp only [Site.Shows, eq_ok_iff (h.trino.ctas hreads _)]
  | countRows k =>
    obtain rfl : k.1 = tenant := Option.some.inj habout
    simp only [Site.Shows, h.table visible_self]
  | scratch statement => exact eq_ok_iff (h.trino.respond habout hreads) a
  | _ => exact Iff.rfl

variable [Engines]

omit [Sqlglot] [Federation] in
/-- What a call about the tenant returns of the stores is the same. -/
theorem SameView.returnsOf (h : SameView settings tenant σ τ) (habout : c.About settings tenant)
    (n : ℕ) (a : Answer c) : Returns (σ.stores.drawn n) c a ↔ Returns (τ.stores.drawn n) c a := by
  have htable {k : Key} (hk : some k.1 = some tenant) :
      (σ.stores.drawn n).lakehouse.table k = (τ.stores.drawn n).lakehouse.table k :=
    h.table (by rw [Option.some.inj hk]; exact visible_self)
  have hregistry {β : Type} (f : Registry → β)
      (hf : ∀ R : Registry, f (R.only (· == tenant)) = f R) :
      f (σ.stores.drawn n).registry = f (τ.stores.drawn n).registry := by
    rw [← hf, ← hf (τ.stores.drawn n).registry]
    exact congrArg f h.registry
  cases c with
  | tableExists k | dropTable k | createTableAs replace k sql =>
    simp only [Returns, htable (k := k) habout]
  | createTable k schema => simp only [Returns, htable (k := k) habout]; rfl
  | loadTable k => simp only [Returns, htable (k := k) habout]
  | overwrite handle rows | append handle rows =>
    simp only [Returns, Lakehouse.accepts, htable (k := handle.key) habout]
  | getObject k =>
    obtain rfl : k.1 = tenant := Option.some.inj habout
    simp only [Returns, hregistry (Registry.getObject · k)
      (fun R => Registry.getObject_only (by simp))]
  | getParents k =>
    obtain rfl : k.1 = tenant := Option.some.inj habout
    simp only [Returns, hregistry (Registry.getParents · k)
      (fun R => Registry.getParents_only (by simp))]
  | labelsForTenant tenant' =>
    obtain rfl : tenant' = tenant := Option.some.inj habout
    simp only [Returns, hregistry (Registry.labelsForTenant · tenant')
      (fun R => Registry.labelsForTenant_only (by simp))]
  | tombstonesForTenant tenant' =>
    obtain rfl : tenant' = tenant := Option.some.inj habout
    simp only [Returns, hregistry (Registry.tombstonesForTenant · tenant')
      (fun R => Registry.tombstonesForTenant_only (by simp))]
  | _ => exact Iff.rfl

omit [Python] in
/-- A call that returns returns also when another identity would be drawn. -/
theorem returns_drawn {s : Stores} {a : Answer c} (h : Returns (s.drawn n) c a) (m : ℕ) :
    ∃ a', Returns (s.drawn m) c a' ∧ ∀ τ : Site, τ.Shows settings c a → τ.Shows settings c a' := by
  cases c with
  | createTable k schema => exact ⟨_, ⟨h.1, rfl⟩, fun _ _ => trivial⟩
  | _ => exact ⟨a, h, fun _ => id⟩

/-- A call about the tenant returns what it returns in a site that looks the same. -/
theorem SameView.returns {c : SiteCall} (h : SameView settings tenant σ τ)
    (habout : c.About settings tenant) (hreads : c.ReadsWithin settings tenant)
    {a : SiteAnswer c} (ha : σ.Returns settings c a) : τ.Returns settings c a := by
  cases c with
  | tool c =>
    obtain ⟨hfresh, hreturns, hshows⟩ := ha
    exact ⟨h.identities.trans hfresh, (h.returnsOf habout _ _).mp hreturns,
      (h.shows habout hreads _).mp hshows⟩
  | listObjects tenant' tags =>
    obtain rfl : tenant' = tenant := habout
    have hlisted (R : Registry) :=
      Registry.listObjects_only (R := R) (p := (· == tenant')) (beq_self_eq_true tenant') tags
    simp only [Site.Returns] at ha ⊢
    rwa [← hlisted, ← h.registry, hlisted]
  | select runAs sql wrapping =>
    have hresult : (Federation.result (σ.trino settings) sql wrapping).toOption =
        (Federation.result (τ.trino settings) sql wrapping).toOption :=
      Federation.result_congr (fun ident hident => h.trino.table (hreads ident hident))
    exact (eq_ok_iff hresult a).mp ha
  | referenceColumns schema =>
    simp only [Site.Returns, Site.referenceRows, h.tablesOf (visible_of_listed habout)] at ha ⊢
    exact ha
  | respond response => trivial

/-- A call about the tenant that can return in a site that looks the same can return. -/
theorem SameView.can_return {c : SiteCall} (h : SameView settings tenant σ τ)
    (habout : c.About settings tenant) (hreads : c.ReadsWithin settings tenant)
    {a : SiteAnswer c} (ha : τ.Returns settings c a) : ∃ a', σ.Returns settings c a' := by
  cases c with
  | tool c =>
    obtain ⟨a, n⟩ := a
    obtain ⟨hfresh, hreturns, hshows⟩ := ha
    obtain ⟨a', hreturns', hshows'⟩ := returns_drawn hreturns
      (max n σ.stores.lakehouse.nextUuid)
    exact ⟨(a', max n σ.stores.lakehouse.nextUuid), Nat.le_max_right _ _,
      (h.returnsOf habout _ _).mpr hreturns', (h.shows habout hreads _).mpr (hshows' τ hshows)⟩
  | listObjects tenant' tags => exact ⟨_, List.Perm.refl _⟩
  | select runAs sql wrapping =>
    have hresult : (Federation.result (σ.trino settings) sql wrapping).toOption =
        (Federation.result (τ.trino settings) sql wrapping).toOption :=
      Federation.result_congr (fun ident hident => h.trino.table (hreads ident hident))
    exact ⟨a, (eq_ok_iff hresult a).mpr ha⟩
  | referenceColumns schema => exact ⟨_, rfl⟩
  | respond response => exact ⟨⟨⟩, trivial⟩

omit [Python] [Sqlglot] [Federation] [Engines] in
/-- Engines that read schemas back alike, and agree on the query of a call, do the same. -/
theorem lakehouseAfter_congr {e f : Engines} (hreadBack : e.readBack = f.readBack)
    (hselect : ∀ replace k sql, c = .createTableAs replace k sql →
      ∀ L, e.select L sql = f.select L sql) (L : Lakehouse) :
    @lakehouseAfter e L c = @lakehouseAfter f L c := by
  cases c with
  | createTable k schema => simp only [lakehouseAfter, hreadBack]
  | createTableAs replace k sql =>
    simp only [lakehouseAfter, Lakehouse.createTableAs, hselect replace k sql rfl]
  | _ => rfl

omit [Engines] in
/-- A query about the tenant stores the same. -/
theorem SameView.selected (h : SameView settings tenant σ τ) {sql : List Token}
    (hreads : Memcove.ReadsWithin settings tenant (.query sql)) :
    σ.selected settings sql = τ.selected settings sql := by
  have hresult := eq_ok_iff (h.trino.evaluate hreads)
  unfold Site.selected
  cases hσ : Federated.evaluate (σ.trino settings) (.query sql) with
  | ok result => rw [(hresult result).mp hσ]
  | error e =>
    cases hτ : Federated.evaluate (τ.trino settings) (.query sql) with
    | ok result =>
      rw [(hresult result).mpr hτ] at hσ
      cases hσ
    | error e' => rfl

omit [Python] [Sqlglot] [Federation] [Engines] in
/-- A call about a tenant is a call on its objects, on its scratchpad, or opens the registry. -/
theorem Call.About.kinds (h : c.About settings tenant) : c.tenant? = some tenant ∨
    (∃ statement, c = .scratch statement ∧ statement.About settings tenant) ∨
      c = .openRegistry := by
  cases c with
  | scratch statement => exact Or.inr (Or.inl ⟨statement, rfl, h⟩)
  | openRegistry => exact Or.inr (Or.inr rfl)
  | _ => exact Or.inl h

/-- A call about the tenant does the same to the catalog. -/
theorem SameView.lakehouseAfter (h : SameView settings tenant σ τ)
    (habout : c.About settings tenant) (hreads : c.ReadsWithin settings tenant) (n : ℕ) :
    (@lakehouseAfter (σ.engines settings) (σ.stores.drawn n).lakehouse c).only
        (visible settings tenant) =
      (@lakehouseAfter (τ.engines settings) (τ.stores.drawn n).lakehouse c).only
        (visible settings tenant) := by
  rcases habout.kinds with htenant | ⟨statement, rfl, _⟩ | rfl
  · have hpart (σ : Site) (L : Lakehouse) :=
      @only_lakehouseAfter (σ.engines settings) (visible settings tenant) L tenant c htenant
        visible_self (fun _ => rfl)
    rw [hpart, hpart, h.drawn n]
    refine lakehouseAfter_congr (e := σ.engines settings) (f := τ.engines settings) rfl ?_ _
    rintro replace k sql rfl L
    exact h.selected hreads
  · exact h.drawn n
  · exact h.drawn n

omit [Sqlglot] [Federation] [Engines] in
/-- A call about the tenant does the same to the registry. -/
theorem SameView.registryAfter (h : SameView settings tenant σ τ)
    (habout : c.About settings tenant) :
    (registryAfter σ.stores.registry c).only (· == tenant) =
      (registryAfter τ.stores.registry c).only (· == tenant) := by
  rcases habout.kinds with htenant | ⟨statement, rfl, _⟩ | rfl
  · have hpart (R : Registry) := only_registryAfter (p := (· == tenant)) (R := R) htenant
      (beq_self_eq_true tenant)
    rw [hpart, hpart, h.registry]
  · exact h.registry
  · exact h.registry

omit [Python] [Engines] in
/-- The scratchpad after a `CREATE TABLE … AS` that goes through. -/
theorem scratchAfter_of_ok {catalog schema label : String} {select : SelectText}
    {result : QueryResult}
    (h : Federated.ctas (σ.trino settings) (catalog, schema, label) select = .ok result) :
    σ.scratchAfter settings (.createTableAs catalog schema label select) =
      σ.scratch.addTable (catalog, schema, label) result := by
  simp only [Site.scratchAfter, h]

omit [Python] [Engines] in
/-- The scratchpad after a `CREATE TABLE … AS` that fails. -/
theorem scratchAfter_of_error {catalog schema label : String} {select : SelectText} {e : PyError}
    (h : Federated.ctas (σ.trino settings) (catalog, schema, label) select = .error e) :
    σ.scratchAfter settings (.createTableAs catalog schema label select) = σ.scratch := by
  simp only [Site.scratchAfter, h]

omit [Engines] in
/-- A statement about the tenant does the same to the scratchpad. -/
theorem SameView.scratchAfter (h : SameView settings tenant σ τ) {statement : ScratchStatement}
    (habout : statement.About settings tenant) (hreads : statement.ReadsWithin settings tenant) :
    SameTrino settings tenant (σ.scratchAfter settings statement)
      (τ.scratchAfter settings statement) := by
  cases statement with
  | createCatalog catalog url => exact h.scratch.addCatalog catalog
  | createSchema catalog schema => exact h.scratch.addSchema (catalog, schema)
  | dropTable catalog schema label => exact h.scratch.dropTable (catalog, schema, label)
  | createTableAs catalog schema label select =>
    have hresult := eq_ok_iff (@SameTrino.ctas _ _ _ _ _ _ h.trino select hreads
      (catalog, schema, label))
    cases hσ : Federated.ctas (σ.trino settings) (catalog, schema, label) select with
    | ok result =>
      rw [scratchAfter_of_ok hσ, scratchAfter_of_ok ((hresult result).mp hσ)]
      exact h.scratch.addTable (catalog, schema, label) result
    | error e =>
      cases hτ : Federated.ctas (τ.trino settings) (catalog, schema, label) select with
      | ok result =>
        rw [(hresult result).mpr hτ] at hσ
        cases hσ
      | error e' =>
        rw [scratchAfter_of_error hσ, scratchAfter_of_error hτ]
        exact h.scratch
  | tableNames | describe | count => exact h.scratch

/-- A call about the tenant changes sites that look the same to sites that look the same. -/
theorem SameView.afterTool (h : SameView settings tenant σ τ) (habout : c.About settings tenant)
    (hreads : c.ReadsWithin settings tenant) (n : ℕ) :
    SameView settings tenant (σ.afterTool settings c n) (τ.afterTool settings c n) := by
  have hlakehouse := h.lakehouseAfter habout hreads n
  refine ⟨congrArg Lakehouse.tables hlakehouse, congrArg Lakehouse.namespaces hlakehouse,
    h.registryAfter habout, ?_, (congrArg Lakehouse.nextUuid hlakehouse).ge⟩
  cases c with
  | scratch statement => exact h.scratchAfter habout hreads
  | _ => exact h.scratch

omit [Python] [Sqlglot] [Federation] in
/-- A call that changes neither the tables nor the scratchpad leaves the catalog alone. -/
theorem lakehouseAfter_bookkeeping (hc : (SiteCall.tool c).Bookkeeping) (L : Lakehouse) :
    Memcove.lakehouseAfter L c = L := by
  cases c <;> first | rfl | exact absurd hc (by simp [SiteCall.Bookkeeping, Call.changes])

omit [Engines] in
/-- A statement about another tenant leaves the view of the scratchpad alone. -/
theorem SameView.scratchAfter_left (h : SameView settings tenant σ τ) {other : String}
    (hother : visible settings tenant other = false) {statement : ScratchStatement}
    (habout : statement.About settings other) :
    SameTrino settings tenant (σ.scratchAfter settings statement) τ.scratch := by
  have hne : other ≠ tenant := by
    rintro rfl
    rw [visible_self] at hother
    cases hother
  cases statement with
  | createCatalog catalog url =>
    obtain ⟨rfl, hmode⟩ := habout
    exact h.scratch.addCatalog_left (fun heq => hne (catalogFor_inj hmode heq).symm)
  | createSchema catalog schema =>
    obtain ⟨rfl, rfl⟩ := habout
    exact h.scratch.addSchema_left hne
  | dropTable catalog schema label =>
    obtain ⟨rfl, rfl⟩ := habout
    exact h.scratch.dropTable_left hother
  | createTableAs catalog schema label select =>
    obtain ⟨rfl, rfl⟩ := habout
    cases hσ : Federated.ctas (σ.trino settings)
        (catalogFor settings other, schemaFor other, label) select with
    | ok result =>
      rw [scratchAfter_of_ok hσ]
      refine h.scratch.addTable_left ?_ result
      exact hother
    | error e =>
      rw [scratchAfter_of_error hσ]
      exact h.scratch
  | tableNames | describe | count => exact h.scratch

/-- A call about another tenant leaves the view alone. -/
theorem SameView.afterTool_left (h : SameView settings tenant σ τ)
    (hc : (SiteCall.tool c).Foreign settings tenant) (hn : σ.stores.lakehouse.nextUuid ≤ n) :
    SameView settings tenant (σ.afterTool settings c n) τ := by
  obtain ⟨other, hne, habout, hbookkeeping⟩ := hc
  have hlakehouse :
      ((σ.afterTool settings c n).stores.lakehouse.only (visible settings tenant)).tables =
          (σ.stores.lakehouse.only (visible settings tenant)).tables ∧
        ((σ.afterTool settings c n).stores.lakehouse.only (visible settings tenant)).namespaces =
          (σ.stores.lakehouse.only (visible settings tenant)).namespaces := by
    cases hvisible : visible settings tenant other with
    | true =>
      have honly := congrArg (Lakehouse.only (visible settings tenant))
        (@lakehouseAfter_bookkeeping c (σ.engines settings) (hbookkeeping hvisible)
          (σ.stores.drawn n).lakehouse)
      have htables := congrArg Lakehouse.tables honly
      have hnamespaces := congrArg Lakehouse.namespaces honly
      exact ⟨htables, hnamespaces⟩
    | false =>
      rcases Call.About.kinds habout with htenant | ⟨statement, rfl, _⟩ | rfl
      · exact @only_lakehouseAfter_of_not (σ.engines settings) _
          (σ.stores.drawn n).lakehouse _ _ htenant hvisible
      · exact ⟨rfl, rfl⟩
      · exact ⟨rfl, rfl⟩
  have hregistry : (Memcove.registryAfter σ.stores.registry c).only (· == tenant) =
      σ.stores.registry.only (· == tenant) := by
    rcases Call.About.kinds habout with htenant | ⟨statement, rfl, _⟩ | rfl
    · exact only_registryAfter_of_not htenant (beq_eq_false_iff_ne.mpr hne)
    · rfl
    · rfl
  have hidentities : n ≤ (σ.afterTool settings c n).stores.lakehouse.nextUuid :=
    @nextUuid_lakehouseAfter (σ.engines settings) (σ.stores.drawn n).lakehouse c
  refine ⟨hlakehouse.1.trans h.tables, hlakehouse.2.trans h.namespaces,
    hregistry.trans h.registry, ?_, h.identities.trans (hn.trans hidentities)⟩
  cases c with
  | scratch statement =>
    cases hvisible : visible settings tenant other with
    | true => exact (hbookkeeping hvisible).elim
    | false => exact h.scratchAfter_left hvisible habout
  | _ => exact h.scratch

omit [Python] in
/-- A query leaves the site as it is. -/
theorem after_select {runAs : String} {sql : List Token} {wrapping : Wrapping}
    (hquery : IsQuery sql) (r : Except PyError QueryResult) :
    σ.after settings ⟨.select runAs sql wrapping, r⟩ = σ := by
  cases r with
  | error e => rfl
  | ok result => rw [Site.after, Federation.sideEffect_query hquery]

/-- The unwinding conditions of the site. -/
theorem site_unwinding (settings : Settings) (tenant : String) (fragile : SiteCall → Prop) :
    Unwinding (site settings fragile) (SameView settings tenant)
      (fun c => c.About settings tenant ∧ c.ReadsWithin settings tenant)
      (SiteCall.Foreign settings tenant) where
  foreign {σ τ event} h hpossible hc := by
    obtain ⟨c, r⟩ := event
    cases c with
    | tool c =>
      cases r with
      | error e => exact h
      | ok a => exact h.afterTool_left hc hpossible.1
    | select runAs sql wrapping =>
      obtain ⟨other, _, habout, _⟩ := hc
      have hσ : (site settings fragile).effect σ ⟨.select runAs sql wrapping, r⟩ = σ :=
        after_select habout.2 r
      rwa [hσ]
    | listObjects | referenceColumns | respond => cases r <;> exact h
  own {σ τ event} h hpossible hc := by
    obtain ⟨c, r⟩ := event
    obtain ⟨habout, hreads⟩ := hc
    refine ⟨?_, ?_⟩
    · cases r with
      | ok a => exact h.returns habout hreads hpossible
      | error e =>
        refine hpossible.imp_right (fun hno a ha => ?_)
        obtain ⟨a', ha'⟩ := h.can_return habout hreads ha
        exact hno a' ha'
    · cases c with
      | tool c =>
        cases r with
        | error e => exact h
        | ok a => exact h.afterTool habout hreads a.2
      | select runAs sql wrapping =>
        have hsame (υ : Site) :
            (site settings fragile).effect υ ⟨.select runAs sql wrapping, r⟩ = υ :=
          after_select habout.2 r
        rwa [hsame, hsame]
      | listObjects | referenceColumns | respond => cases r <;> exact h

omit [Sqlglot] [Federation] [Engines] in
/-- What a tenant sees of a site looks the same as the site. -/
theorem sameView_seenBy (settings : Settings) (tenant : String) (σ : Site) :
    SameView settings tenant σ (σ.seenBy settings tenant) := by
  have htwice {ρ : Type} (p : ρ → Bool) (rows : List ρ) :
      rows.filter p = (rows.filter p).filter p := by simp
  refine ⟨htwice _ _, htwice _ _, ?_, ⟨?_, ?_, htwice _ _⟩, le_rfl⟩
  · simp only [Site.seenBy, Registry.only, ← htwice]
  · simp [Site.seenBy, TrinoState.seenBy]
  · simp [Site.seenBy, TrinoState.seenBy]

end

end Memcove
