import Memcove.Scratch.Engine
import Memcove.Tools.Derive

/-!
# What a write to the scratchpad leaves

`CREATE TABLE AS` after `ensure` and, in replace mode, after a `DROP`: the table is dropped before
its replacement is computed. This file says what each way to end leaves in Trino.
-/

namespace Memcove

open Programs

variable [Python] [Federated] {failures : Bool} {settings : Settings} {s : TrinoState}
  {tenant label : String} {select : SelectText} {α : Type}

/-- The table of a scratch dataset. -/
def scratchIdent (settings : Settings) (tenant label : String) : TableIdent :=
  (catalogFor settings tenant, schemaFor tenant, label)

/-- The same tables. -/
def SameTables (s t : TrinoState) : Prop := ∀ ident, s.table ident = t.table ident

/-- Where `ensure` succeeds: a tenant's own catalog is created, the shared one must exist. -/
def Ensurable (settings : Settings) (s : TrinoState) (tenant : String) : Prop :=
  settings.scratchEnabled = true ∧ (settings.scratchCatalogMode = "per_tenant" ∨
    settings.scratchCatalogMode = "shared" ∧ catalogFor settings tenant ∈ s.catalogs)

omit [Python] in
/-- The rule for `_require_enabled`. -/
theorem requireEnabled_ends {f : PUnit → Tool α} {Q : TrinoState → Except PyError α → Prop}
    (hok : settings.scratchEnabled = true → EndsIn (trino failures) s (f ⟨⟩) Q)
    (herror : ∀ e, settings.scratchEnabled = false → Q s (.error e)) :
    EndsIn (trino failures) s (requireEnabled settings >>= f) Q := by
  unfold requireEnabled
  cases henabled : settings.scratchEnabled with
  | true => exact hok henabled
  | false => exact .raise (herror _ henabled)

/-- The part of `ensure` that depends on the catalog mode. -/
theorem ensureCatalog_ends : EndsIn (trino failures) s (ensureCatalog settings tenant) (fun u r =>
    SameTables u s ∧ match r with
      | .ok _ => u = s.addCatalog (catalogFor settings tenant) ∨
          (settings.scratchCatalogMode = "shared" ∧ u = s)
      | .error _ => failures = false → ¬ Ensurable settings s tenant) := by
  unfold ensureCatalog
  split
  · exact ends_statement (fun _ _ => ⟨fun _ => TrinoState.table_addCatalog, Or.inl rfl⟩)
      (fun e he => ⟨fun _ => rfl, fun hf => nomatch he hf⟩)
  · rename_i hmode
    split
    · rename_i hshared
      refine .raise ⟨fun _ => rfl, fun _ hensurable => ?_⟩
      rcases hensurable.2 with h | h
      · exact hmode h
      · exact hshared h.1
    · rename_i hshared
      exact .pure ⟨fun _ => rfl, Or.inr ⟨not_not.mp hshared, rfl⟩⟩

omit [Python] [Federated] in
/-- After this part the catalog exists. -/
theorem mem_of_ensureCatalog {u : TrinoState} (h : Ensurable settings s tenant)
    (hu : u = s.addCatalog (catalogFor settings tenant) ∨
      (settings.scratchCatalogMode = "shared" ∧ u = s)) :
    catalogFor settings tenant ∈ u.catalogs := by
  rcases hu with rfl | ⟨hshared, rfl⟩
  · exact TrinoState.mem_addCatalog.mpr (Or.inl rfl)
  · rcases h.2 with hmode | ⟨_, hmem⟩
    · rw [hshared] at hmode
      simp at hmode
    · exact hmem

/-- `ensure` changes no table. -/
theorem ensureScratch_ends : EndsIn (trino failures) s (ensureScratch settings tenant) (fun u r =>
    SameTables u s ∧ match r with
      | .ok _ => (∀ catalog, catalog ∈ u.catalogs ↔
            catalog = catalogFor settings tenant ∨ catalog ∈ s.catalogs) ∧
          (catalogFor settings tenant, schemaFor tenant) ∈ u.schemas
      | .error _ => failures = false → ¬ Ensurable settings s tenant) := by
  refine requireEnabled_ends (fun _ => ?_)
    (fun e hdisabled => ⟨fun _ => rfl, fun _ hensurable => ?_⟩)
  · refine ensureCatalog_ends.bind (fun u _ hu => ?_) (fun _ _ hu => hu)
    obtain ⟨htables, hu⟩ := hu
    refine ends_statement (fun _ hrespond => ⟨fun ident => ?_, ?_, TrinoState.mem_addSchema_self⟩)
      (fun e he => ⟨htables, fun hf hensurable => ?_⟩)
    · exact TrinoState.table_addSchema.trans (htables ident)
    · have hmem := (TrinoState.onCatalog_ok hrespond).1
      intro catalog
      simp only [TrinoState.after, TrinoState.catalogs_addSchema]
      rcases hu with rfl | ⟨_, rfl⟩
      · exact TrinoState.mem_addCatalog
      · refine (or_iff_right_of_imp ?_).symm
        rintro rfl
        exact hmem
    · have hmem := mem_of_ensureCatalog hensurable hu
      have hrespond := he hf
      simp only [TrinoState.respond, TrinoState.onCatalog_of_mem hmem] at hrespond
      cases hrespond
  · rw [hensurable.1] at hdisabled
    cases hdisabled

/-- The state in which the `SELECT` of a write is evaluated. -/
def beforeCtas (s : TrinoState) (ident : TableIdent) (replace : Bool) : TrinoState :=
  if replace then s.dropTable ident else s

omit [Python] [Federated] in
/-- Only the table itself is dropped. -/
theorem table_beforeCtas_of_ne {ident ident' : TableIdent} {replace : Bool} (h : ident ≠ ident') :
    (beforeCtas s ident' replace).table ident = s.table ident := by
  cases replace with
  | false => rfl
  | true => exact TrinoState.table_dropTable_of_ne h

/-- How a write to the scratchpad ends that started from `s`: it was given up before the drop, for
the reason `why` unless Trino failed; or the `CREATE TABLE AS` failed; or the table has the result
of the `SELECT`, and then only a failure of Trino can still make it raise. -/
inductive ScratchEnd (failures : Bool) (s : TrinoState) (ident : TableIdent) (replace : Bool)
    (select : SelectText) (why : Prop) (u : TrinoState) : Except PyError α → Prop
  | unchanged (e : PyError) (htables : SameTables u s) (hwhy : failures = false → why) :
      ScratchEnd failures s ident replace select why u (.error e)
  | failed (e : PyError) (htables : SameTables u (beforeCtas s ident replace))
      (hwhy : failures = false → (beforeCtas s ident replace).table ident ≠ none ∨
        (Federated.ctas (beforeCtas s ident replace) ident select).toOption = none) :
      ScratchEnd failures s ident replace select why u (.error e)
  | done (r : Except PyError α) (result : QueryResult)
      (hothers : ∀ ident', ident' ≠ ident → u.table ident' = s.table ident')
      (htable : u.table ident = some result)
      (hbefore : (Federated.ctas (beforeCtas s ident replace) ident select).toOption = some result)
      (hresult : (Federated.evaluate s select).toOption = some result)
      (hok : failures = false → r.isOk = true) :
      ScratchEnd failures s ident replace select why u r

omit [Python] in
/-- A reason that is implied by the reason given. -/
theorem ScratchEnd.mono {ident : TableIdent} {replace : Bool} {why why' : Prop} {u : TrinoState}
    {r : Except PyError α} (h : ScratchEnd failures s ident replace select why u r)
    (himp : why → why') : ScratchEnd failures s ident replace select why' u r := by
  cases h with
  | unchanged e htables hwhy => exact .unchanged e htables (fun hf => himp (hwhy hf))
  | failed e htables hwhy => exact .failed e htables hwhy
  | done _ result hothers htable hbefore hresult hok =>
    exact .done _ result hothers htable hbefore hresult hok

omit [Python] in
variable (label) in
/-- The state before the `CREATE TABLE AS`. -/
theorem drop_ends {u : TrinoState} (htables : SameTables u s)
    (hcatalog : catalogFor settings tenant ∈ u.catalogs) (replace : Bool) :
    EndsIn (trino failures) u
      (if replace then dropScratch settings tenant label else .pure ⟨⟩) (fun v r =>
        match r with
        | .ok _ => SameTables v (beforeCtas s (scratchIdent settings tenant label) replace) ∧
            v.catalogs = u.catalogs ∧ v.schemas = u.schemas
        | .error _ => SameTables v s ∧ (failures = false → settings.scratchEnabled = false)) := by
  cases replace with
  | false => exact .pure ⟨htables, rfl, rfl⟩
  | true =>
    refine requireEnabled_ends (fun henabled => ?_) (fun e h => ⟨htables, fun _ => h⟩)
    refine ends_statement (fun _ _ => ⟨fun ident => ?_, rfl, rfl⟩)
      (fun e he => ⟨htables, fun hf => ?_⟩)
    · simp only [TrinoState.after, beforeCtas, if_true]
      by_cases hident : ident = scratchIdent settings tenant label
      · subst hident
        exact TrinoState.table_dropTable_self.trans TrinoState.table_dropTable_self.symm
      · rw [TrinoState.table_dropTable_of_ne hident]
        exact (TrinoState.table_dropTable_of_ne hident).trans (htables ident)
    · have hrespond := he hf
      simp only [TrinoState.respond, TrinoState.onCatalog_of_mem hcatalog] at hrespond
      cases hrespond

omit [Python] in
/-- A `SELECT` that succeeds without a table has the same result with it. -/
theorem evaluate_beforeCtas {ident : TableIdent} {replace : Bool} {result : QueryResult}
    (habsent : (beforeCtas s ident replace).table ident = none)
    (h : (Federated.evaluate (beforeCtas s ident replace) select).toOption = some result) :
    (Federated.evaluate s select).toOption = some result := by
  have hsame : (Federated.evaluate s select).toOption =
      (Federated.evaluate (beforeCtas s ident replace) select).toOption := by
    refine Federated.evaluate_congr (fun read hread => ?_)
    have hne : read ≠ ident := by
      rintro rfl
      exact reads_exist (toOption_eq_some.mp h) hread habsent
    exact (table_beforeCtas_of_ne hne).symm
  exact hsame.trans h

omit [Python] in
/-- The `CREATE TABLE AS`. -/
theorem ctas_ends {why : Prop} {replace : Bool} {v : TrinoState}
    (henabled : settings.scratchEnabled = true)
    (hbefore : SameTables v (beforeCtas s (scratchIdent settings tenant label) replace))
    (hcatalog : catalogFor settings tenant ∈ v.catalogs)
    (hschema : (catalogFor settings tenant, schemaFor tenant) ∈ v.schemas) :
    EndsIn (trino failures) v (call (.scratch (.createTableAs (catalogFor settings tenant)
      (schemaFor tenant) label select))) (fun u r =>
        (r.isOk = true → settings.scratchEnabled = true ∧
          catalogFor settings tenant ∈ u.catalogs) ∧
        ScratchEnd failures s (scratchIdent settings tenant label) replace select why u r) := by
  have hctas := ctas_congr (evaluate_tables select hbefore) (scratchIdent settings tenant label)
  refine ends_statement (fun _ hrespond => ?_)
    (fun e he => ⟨fun h => (Bool.false_ne_true h).elim, .failed e hbefore (fun hf => ?_)⟩)
  · obtain ⟨_, hrespond⟩ := TrinoState.onCatalog_ok hrespond
    rw [if_neg (not_not.mpr hschema)] at hrespond
    split at hrespond
    · cases hrespond
    · rename_i hnone
      change (Federated.ctas v (scratchIdent settings tenant label) select).map _ = _ at hrespond
      cases hresult : Federated.ctas v (scratchIdent settings tenant label) select with
      | error e =>
        rw [hresult] at hrespond
        cases hrespond
      | ok result =>
        have habsent := Option.not_isSome_iff_eq_none.mp hnone
        have hafter : v.after (.createTableAs (catalogFor settings tenant) (schemaFor tenant)
            label select) = v.addTable (scratchIdent settings tenant label) result := by
          rw [scratchIdent] at hresult
          simp only [TrinoState.after, hresult]
          rfl
        have hsome : (Federated.ctas (beforeCtas s (scratchIdent settings tenant label) replace)
            (scratchIdent settings tenant label) select).toOption = some result := by
          rw [← hctas, hresult]
          rfl
        have hselect : (Federated.evaluate (beforeCtas s (scratchIdent settings tenant label)
            replace) select).toOption = some result :=
          toOption_eq_some.mpr (Federated.ctas_eq_ok_iff.mp (toOption_eq_some.mp hsome)).1
        rw [hafter]
        refine ⟨fun _ => ⟨henabled, hcatalog⟩, .done _ result (fun ident hident => ?_)
          (TrinoState.table_addTable_self habsent) hsome
          (evaluate_beforeCtas ((hbefore _).symm.trans habsent) hselect) (fun _ => rfl)⟩
        rw [TrinoState.table_addTable_of_ne hident, hbefore]
        exact table_beforeCtas_of_ne hident
  · have hrespond := he hf
    simp only [TrinoState.respond, TrinoState.onCatalog_of_mem hcatalog,
      if_neg (not_not.mpr hschema)] at hrespond
    split at hrespond
    · rename_i hsome
      rw [← hbefore]
      exact Or.inl (Option.isSome_iff_ne_none.mp hsome)
    · rw [← hctas]
      refine Or.inr ?_
      change (Federated.ctas v (scratchIdent settings tenant label) select).map _ = _ at hrespond
      cases hresult : Federated.ctas v (scratchIdent settings tenant label) select with
      | error e => rfl
      | ok result =>
        rw [hresult] at hrespond
        cases hrespond

/-- `create_as_select`. -/
theorem createAsSelect_ends (replace : Bool) :
    EndsIn (trino failures) s (createAsSelect settings tenant label select replace) (fun u r =>
      (r.isOk = true → settings.scratchEnabled = true ∧
        catalogFor settings tenant ∈ u.catalogs) ∧
      ScratchEnd failures s (scratchIdent settings tenant label) replace select
        (¬ Ensurable settings s tenant) u r) := by
  have hgivenUp {u : TrinoState} {e : PyError} (htables : SameTables u s)
      (hwhy : failures = false → ¬ Ensurable settings s tenant) :
      ((Except.error e : Except PyError PUnit).isOk = true → settings.scratchEnabled = true ∧
        catalogFor settings tenant ∈ u.catalogs) ∧
      ScratchEnd failures s (scratchIdent settings tenant label) replace select
        (¬ Ensurable settings s tenant) u (.error e : Except PyError PUnit) :=
    ⟨fun h => (Bool.false_ne_true h).elim, .unchanged e htables hwhy⟩
  refine requireEnabled_ends (fun henabled => ?_)
    (fun e hdisabled => hgivenUp (fun _ => rfl) (fun _ hensurable => ?_))
  · refine ensureScratch_ends.bind (fun u _ hu => ?_) (fun u e hu => hgivenUp hu.1 hu.2)
    obtain ⟨htables, hcatalogs, hschema⟩ := hu
    have hcatalog := (hcatalogs _).mpr (Or.inl rfl)
    refine (drop_ends label htables hcatalog replace).bind (fun v _ hv => ?_)
      (fun v e hv => hgivenUp hv.1 (fun hf => ?_))
    · obtain ⟨hbefore, hcatalogs', hschemas⟩ := hv
      exact ctas_ends henabled hbefore (hcatalogs' ▸ hcatalog) (hschemas ▸ hschema)
    · rw [hv.2 hf] at henabled
      cases henabled
  · rw [hensurable.1] at hdisabled
    cases hdisabled

omit [Python] in
/-- `table_exists`. -/
theorem scratchTableExists_ends : EndsIn (trino failures) s
    (scratchTableExists settings tenant label) (fun u r => u = s ∧ match r with
      | .ok exists_ => catalogFor settings tenant ∈ s.catalogs ∧
          exists_ = (s.table (scratchIdent settings tenant label)).isSome
      | .error _ => failures = false →
          settings.scratchEnabled = false ∨ catalogFor settings tenant ∉ s.catalogs) := by
  refine requireEnabled_ends (fun _ => ?_) (fun e hdisabled => ⟨rfl, fun _ => Or.inl hdisabled⟩)
  refine ends_statement_bind (fun rows hrows => .pure ⟨rfl, ?_⟩)
    (fun e he => ⟨rfl, fun hf => Or.inr (fun hmem => ?_)⟩)
  · obtain ⟨hcatalog, hrows⟩ := TrinoState.onCatalog_ok hrows
    cases hrows
    exact ⟨hcatalog, TrinoState.isEmpty_tableNames⟩
  · have hrespond := he hf
    simp only [TrinoState.respond, TrinoState.onCatalog_of_mem hmem] at hrespond
    cases hrespond

omit [Python] in
/-- `describe` of a table. -/
theorem describeScratch_ends (hcatalog : catalogFor settings tenant ∈ s.catalogs)
    {result : QueryResult} (ht : s.table (scratchIdent settings tenant label) = some result)
    (henabled : settings.scratchEnabled = true) :
    EndsIn (trino failures) s (describeScratch settings tenant label) (fun u r => u = s ∧
      (failures = false → r.isOk = true)) := by
  have ht' : s.table (catalogFor settings tenant, schemaFor tenant, label) = some result := ht
  refine requireEnabled_ends (fun _ => ?_) (fun e h => ?_)
  · refine ends_statement_bind (fun columns _ => ?_) (fun e he => ⟨rfl, fun hf => ?_⟩)
    · refine ends_statement_bind (fun n _ => .pure ⟨rfl, fun _ => rfl⟩)
        (fun e he => ⟨rfl, fun hf => ?_⟩)
      have hrespond := he hf
      simp only [TrinoState.respond, TrinoState.after, TrinoState.onCatalog_of_mem hcatalog,
        TrinoState.onTable_of_some ht'] at hrespond
      cases hrespond
    · have hrespond := he hf
      simp only [TrinoState.respond, TrinoState.onCatalog_of_mem hcatalog,
        TrinoState.onTable_of_some ht'] at hrespond
      cases hrespond
  · rw [henabled] at h
    cases h

/-- The write and its description. -/
theorem createAndDescribe_ends (replace : Bool) :
    EndsIn (trino failures) s (do
      createAsSelect settings tenant label select replace
      describeScratch settings tenant label) (fun u r =>
        ScratchEnd failures s (scratchIdent settings tenant label) replace select
          (¬ Ensurable settings s tenant) u r) := by
  refine (createAsSelect_ends replace).bind (fun u _ hu => ?_) (fun u e hu => ?_)
  · obtain ⟨hcatalog, hend⟩ := hu
    cases hend with
    | done _ result hothers htable hbefore hresult _ =>
      obtain ⟨henabled, hcatalog⟩ := hcatalog rfl
      refine (describeScratch_ends hcatalog htable henabled).mono (fun v r hv => ?_)
      obtain ⟨rfl, hok⟩ := hv
      exact .done r result hothers htable hbefore hresult hok
  · obtain ⟨_, hend⟩ := hu
    cases hend with
    | unchanged _ htables hwhy => exact .unchanged e htables hwhy
    | failed _ htables hwhy => exact .failed e htables hwhy
    | done _ result hothers htable hbefore hresult hok =>
      exact .done _ result hothers htable hbefore hresult hok

/-- Why a derive into the scratchpad is given up before it changes anything. -/
def GivenUp (settings : Settings) (s : TrinoState) (tenant label mode : String) : Prop :=
  settings.scratchEnabled = false ∨ catalogFor settings tenant ∉ s.catalogs ∨
    (mode = "create" ∧ s.table (scratchIdent settings tenant label) ≠ none) ∨
    ¬ Ensurable settings s tenant

/-- `_derive_to_scratch`. -/
theorem deriveToScratch_ends [Sqlglot] (guarded : GuardedQuery) (mode : String) :
    EndsIn (trino failures) s (deriveToScratch settings tenant label guarded mode)
      (ScratchEnd failures s (scratchIdent settings tenant label) (mode == "replace")
        (.query guarded.sql) (GivenUp settings s tenant label mode)) := by
  refine scratchTableExists_ends.bind (fun u exists_ hu => ?_) (fun u e hu => ?_)
  · obtain ⟨rfl, hcatalog, rfl⟩ := hu
    split
    · rename_i hexists
      refine .raise (.unchanged _ (fun _ => rfl) (fun _ => Or.inr (Or.inr (Or.inl ?_))))
      exact ⟨hexists.1, Option.isSome_iff_ne_none.mp hexists.2⟩
    · exact (createAndDescribe_ends (mode == "replace")).mono
        (fun _ _ hv => hv.mono (fun h => Or.inr (Or.inr (Or.inr h))))
  · obtain ⟨rfl, hwhy⟩ := hu
    exact .unchanged e (fun _ => rfl) (fun hf => (hwhy hf).imp_right Or.inl)

end Memcove
