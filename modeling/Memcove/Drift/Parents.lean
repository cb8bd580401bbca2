import Memcove.Drift.Operations
import Memcove.Sql.Scoping
import Memcove.Tools.FrontEnds

/-!
# The parents that a derive records

`validate_select` collects the bare names of all references that it resolves in the lakehouse, and
`derive_object` keeps those for which the tenant has a table. A reference to a shared schema leaves
its bare name too, so the parents are exact only where no such name is that of another table of the
tenant.
-/

namespace Memcove

open Programs Trees KeyedTables

section

variable [Python]

/-- The emitted statement has a reference that is no CTE and carries the name of a table of the
tenant. -/
def RefersTo (params : GuardParams) (tree : SqlTree) (l : String) : Prop :=
  ∃ r ∈ references [] tree, ¬ r.Bound ∧ r.ref.catalog = params.catalog ∧
    r.ref.db = params.tenantNs ∧ lower r.ref.name = l

/-- A bare name that no CTE has, or a reference to the caller's own schema. -/
def OwnReference (params : GuardParams) (ctes : List String) (ref : TableName) : Prop :=
  ¬ (ref.db = "" ∧ ref.catalog = "" ∧ lower ref.name ∈ ctes) ∧
    (ref.db = "" ∨ lower ref.db = lower params.tenantNs)

/-- A reference to a shared schema. -/
def SharedReference (params : GuardParams) (ctes : List String) (ref : TableName) : Prop :=
  ¬ InScratch params ctes ref ∧ ref.db ≠ "" ∧ lower ref.db ≠ lower params.tenantNs ∧
    lower ref.db ∈ sharedNames params.sharedSchemas

/-- The statement has a reference of a kind with the given name. -/
def Mentions (kind : TableName → Prop) (tree : SqlTree) (l : String) : Prop :=
  ∃ r ∈ references [] tree, kind r.ref ∧ lower r.ref.name = l

/-- The scratchpad is configured to be the tenant's schema of the lakehouse. -/
def ScratchIsOwn (params : GuardParams) : Prop :=
  ∃ target, params.scratch = some target ∧ target.catalog = params.catalog ∧
    target.schema = params.tenantNs

/-- No relevant label is the name of a shared reference alone. (Where the scratchpad is configured
to be the tenant's own schema, such a label is the name of a scratch reference.) -/
def NoNamesakes (params : GuardParams) (tree : SqlTree) (relevant : String → Prop) : Prop :=
  ∀ l, relevant l → ¬ Mentions (OwnReference params (cteNames tree)) tree l →
    (Mentions (SharedReference params (cteNames tree)) tree l ↔
      ScratchIsOwn params ∧ Mentions (InScratch params (cteNames tree)) tree l)

section

variable {params : GuardParams} {ctes : List String} {ref : TableName}

/-- The four ways in which a reference is accepted, by its own name parts. -/
theorem resolveTable_kinds (hns : IsNamespace params.tenantNs) {r : Resolution}
    (h : resolveTable params ctes ref = .ok r) :
    ((ref.db = "" ∧ ref.catalog = "" ∧ lower ref.name ∈ ctes) ∧ r = .cteReference) ∨
      (InScratch params ctes ref ∧ ∃ target, params.scratch = some target ∧ r = .scratch target) ∨
      (OwnReference params ctes ref ∧ r = .lakehouse params.tenantNs) ∨
      (SharedReference params ctes ref ∧ ∃ db, db ≠ params.tenantNs ∧ r = .lakehouse db) := by
  unfold resolveTable at h
  simp only [lower_eq_empty_iff] at h
  split at h
  · rename_i hcte
    cases h
    exact Or.inl ⟨hcte, rfl⟩
  · rename_i hcte
    right
    split at h
    · cases h
    · rename_i hname
      split at h
      · rename_i target hscratch
        cases h
        have hsome := (Option.filter_eq_some_iff.mp hscratch).1
        exact Or.inl ⟨⟨hcte, hname, target, hscratch⟩, target, hsome, rfl⟩
      · rename_i hscratch
        right
        unfold resolveLakehouse at h
        simp only [lower_eq_empty_iff] at h
        split at h
        · cases h
        · split at h
          · cases h
          · split at h
            · rename_i hown
              cases h
              exact Or.inl ⟨⟨hcte, hown⟩, rfl⟩
            · rename_i hother
              split at h
              · rename_i hshared
                cases h
                rw [not_or] at hother
                have hin : ¬ InScratch params ctes ref := by
                  rintro ⟨_, _, target, htarget⟩
                  rw [hscratch] at htarget
                  cases htarget
                refine Or.inr ⟨⟨hin, hother.1, hother.2, hshared⟩, _, ?_, rfl⟩
                rw [(namespace_ne_scratchAlias hns).1] at hother
                exact hother.2
              · cases h

/-- No reference is of two kinds. -/
theorem kinds_exclusive (hns : IsNamespace params.tenantNs) :
    ¬ (OwnReference params ctes ref ∧ InScratch params ctes ref) ∧
      ¬ (OwnReference params ctes ref ∧ SharedReference params ctes ref) := by
  constructor
  · rintro ⟨⟨_, hown⟩, _, _, target, htarget⟩
    obtain ⟨_, hcond⟩ := Option.filter_eq_some_iff.mp htarget
    simp only [Bool.and_eq_true, beq_iff_eq] at hcond
    have halias := hcond.1.2
    obtain ⟨hlower, hne⟩ := namespace_ne_scratchAlias hns
    rcases hown with hempty | hown
    · rw [lower_eq_empty_iff.mpr hempty] at halias
      exact absurd halias (by decide)
    · rw [hown, hlower] at halias
      exact hne halias
  · rintro ⟨⟨_, hown⟩, _, hempty, hother, _⟩
    exact hown.elim hempty hother

/-- An accepted own reference goes to the tenant's schema of the lakehouse. -/
theorem OwnReference.resolution (hns : IsNamespace params.tenantNs)
    (hown : OwnReference params ctes ref) {r : Resolution}
    (h : resolveTable params ctes ref = .ok r) : r = .lakehouse params.tenantNs := by
  rcases resolveTable_kinds hns h with ⟨hcte, _⟩ | ⟨hscratch, _⟩ | ⟨_, heq⟩ | ⟨hshared, _⟩
  · exact absurd hcte hown.1
  · exact absurd ⟨hown, hscratch⟩ (kinds_exclusive hns).1
  · exact heq
  · exact absurd ⟨hown, hshared⟩ (kinds_exclusive hns).2

/-- An accepted scratch reference goes to the configured scratchpad. -/
theorem InScratch.resolution (hns : IsNamespace params.tenantNs)
    (hscratch : InScratch params ctes ref) {r : Resolution}
    (h : resolveTable params ctes ref = .ok r) :
    ∃ target, params.scratch = some target ∧ r = .scratch target := by
  rcases resolveTable_kinds hns h with ⟨hcte, _⟩ | ⟨_, htarget⟩ | ⟨hown, _⟩ | ⟨hshared, _⟩
  · exact absurd hcte hscratch.1
  · exact htarget
  · exact absurd ⟨hown, hscratch⟩ (kinds_exclusive hns).1
  · exact absurd hscratch hshared.1

/-- An accepted reference to a shared schema goes to the lakehouse. -/
theorem SharedReference.resolution (hns : IsNamespace params.tenantNs)
    (hshared : SharedReference params ctes ref) {r : Resolution}
    (h : resolveTable params ctes ref = .ok r) : ∃ db, r = .lakehouse db := by
  rcases resolveTable_kinds hns h with ⟨hcte, _⟩ | ⟨hscratch, _⟩ | ⟨hown, _⟩ | ⟨_, db, _, heq⟩
  · exact absurd hcte.1 hshared.2.1
  · exact absurd hscratch hshared.1
  · exact absurd ⟨hown, hshared⟩ (kinds_exclusive hns).2
  · exact ⟨db, heq⟩

end

variable {params : GuardParams} {tree : SqlTree} {guarded : GuardedQuery}

/-- The referenced labels are the names of the own and the shared references. -/
theorem mem_referencedLabels (hns : IsNamespace params.tenantNs)
    (h : guardTree params tree = .ok guarded) {l : String} : l ∈ guarded.referencedLabels ↔
      Mentions (OwnReference params (cteNames tree)) tree l ∨
        Mentions (SharedReference params (cteNames tree)) tree l := by
  have hresult : ∃ result, resolveTables params (cteNames tree) tree.walk ([], []) = .ok result ∧
      guarded.referencedLabels = result.1 := by
    obtain ⟨_, _, htables⟩ := bind_eq_ok h
    obtain ⟨result, hresult, hguarded⟩ := bind_eq_ok htables
    cases hguarded
    exact ⟨result, hresult, rfl⟩
  obtain ⟨result, hresult, hlabels⟩ := hresult
  have hmem : l ∈ guarded.referencedLabels ↔ ∃ r ∈ references [] tree, ∃ db,
      resolveTable params (cteNames tree) r.ref = .ok (.lakehouse db) ∧ lower r.ref.name = l := by
    rw [hlabels, mem_resolveTables hresult, exists_references (P := fun ref => ∃ db,
      resolveTable params (cteNames tree) ref = .ok (.lakehouse db) ∧ lower ref.name = l)]
    simp only [List.not_mem_nil, false_or, RoseTree.mem_walk, exists_and_left]
  rw [hmem]
  constructor
  · rintro ⟨r, hr, db, hdb, hname⟩
    rcases resolveTable_kinds hns hdb with ⟨_, hcte⟩ | ⟨_, _, _, hscratch⟩ | ⟨hown, _⟩ |
      ⟨hshared, _⟩
    · cases hcte
    · cases hscratch
    · exact Or.inl ⟨r, hr, hown, hname⟩
    · exact Or.inr ⟨r, hr, hshared, hname⟩
  · rintro (⟨r, hr, hkind, hname⟩ | ⟨r, hr, hkind, hname⟩)
    · obtain ⟨resolution, hresolution⟩ := references_resolve h hr
      exact ⟨r, hr, _, hkind.resolution hns hresolution ▸ hresolution, hname⟩
    · obtain ⟨resolution, hresolution⟩ := references_resolve h hr
      obtain ⟨db, rfl⟩ := hkind.resolution hns hresolution
      exact ⟨r, hr, db, hresolution, hname⟩

/-- The emitted statement refers to the names of the own references, and of the scratch references
where the scratchpad is the tenant's own schema. -/
theorem refersTo_iff (hns : IsNamespace params.tenantNs)
    (h : guardTree params tree = .ok guarded) {l : String} : RefersTo params guarded.tree l ↔
      Mentions (OwnReference params (cteNames tree)) tree l ∨
        (ScratchIsOwn params ∧ Mentions (InScratch params (cteNames tree)) tree l) := by
  have hempty : params.tenantNs ≠ "" := by
    intro hnil
    obtain ⟨rest, htext, _⟩ := hns
    simp [hnil] at htext
  have hbound (ref : TableName) (scope : List String) (hdb : ref.db = params.tenantNs) :
      ¬ Scoped.Bound ⟨ref, scope⟩ := fun hbound => hempty (hdb.symm.trans hbound.1)
  have hemitted {ref : TableName} {resolution : Resolution}
      (hresolution : resolveTable params (cteNames tree) ref = .ok resolution) :
      emittedName params (cteNames tree) ref = resolution.qualify params ref := by
    simp only [emittedName, hresolution]
  unfold RefersTo
  rw [(guardTree_ok h).2.1, references_rewrite]
  simp only [List.mem_map, exists_exists_and_eq_and]
  constructor
  · rintro ⟨r, hr, _, hcatalog, hdb, hname⟩
    obtain ⟨resolution, hresolution⟩ := references_resolve h hr
    rw [hemitted hresolution] at hcatalog hdb hname
    rw [Resolution.qualify_name] at hname
    rcases resolveTable_kinds hns hresolution with ⟨hcte, rfl⟩ | ⟨hscratch, target, htarget, rfl⟩ |
      ⟨hown, _⟩ | ⟨_, db, hne, rfl⟩
    · exact absurd (hdb.symm.trans hcte.1) hempty
    · exact Or.inr ⟨⟨target, htarget, hcatalog, hdb⟩, r, hr, hscratch, hname⟩
    · exact Or.inl ⟨r, hr, hown, hname⟩
    · exact absurd hdb hne
  · rintro (⟨r, hr, hown, hname⟩ | ⟨⟨target, htarget, hcatalog, hdb⟩, r, hr, hscratch, hname⟩)
    · obtain ⟨resolution, hresolution⟩ := references_resolve h hr
      refine ⟨r, hr, ?_⟩
      rw [hemitted hresolution, hown.resolution hns hresolution]
      exact ⟨hbound _ _ rfl, rfl, rfl, hname⟩
    · obtain ⟨resolution, hresolution⟩ := references_resolve h hr
      obtain ⟨target', htarget', rfl⟩ := hscratch.resolution hns hresolution
      rw [htarget] at htarget'
      cases htarget'
      refine ⟨r, hr, ?_⟩
      rw [hemitted hresolution]
      exact ⟨hbound _ _ hdb, hcatalog, hdb, hname⟩

/-- For the relevant labels, being referenced is being read in the tenant's schema exactly when
there are no namesakes. -/
theorem referenced_iff_refersTo (hns : IsNamespace params.tenantNs)
    (h : guardTree params tree = .ok guarded) (relevant : String → Prop) :
    (∀ l, relevant l → (l ∈ guarded.referencedLabels ↔ RefersTo params guarded.tree l)) ↔
      NoNamesakes params tree relevant := by
  simp only [mem_referencedLabels hns h, refersTo_iff hns h, NoNamesakes]
  refine forall_congr' (fun l => imp_congr_right (fun _ => ?_))
  constructor
  · intro hiff hown
    simpa only [hown, false_or] using hiff
  · intro hiff
    by_cases hown : Mentions (OwnReference params (cteNames tree)) tree l
    · simp only [hown, true_or]
    · rw [hiff hown]

end

/-- A derive of the key changes no other table, deletes nothing, and records as parents the labels
whose tables exist. It relies on answers about other tables, which nobody else changes. -/
def inheriting (k : Key) (labels : List String) (exists_ : String → Bool) :
    Contract Call Answer PyError where
  guarantee _ c :=
    (∀ k', c.changes = some k' → k' = k) ∧
      match c with
      | .recordObject row _ (some parents) => row.key = k ∧
        ∀ l, l ≠ k.2 → (l ∈ parents ↔ l ∈ labels ∧ exists_ l = true)
      | .deleteObject _ => False
      | _ => True
  assume _ event := ∀ l b, event = ⟨.tableExists (k.1, l), .ok b⟩ → l ≠ k.2 → b = exists_ l

section

variable {k : Key} {labels : List String} {exists_ : String → Bool} {h : List CallEvent}

/-- The contract permits calls that change neither store, and read-repairs. -/
theorem repairs_guarantee {c : Call} (hc : Repairs c) :
    (inheriting k labels exists_).guarantee h c := by
  rcases hc with hidle | ⟨row, _, rfl⟩
  · refine ⟨fun k' hk' => ?_, by cases c <;> trivial⟩
    rw [hidle.stable] at hk'
    cases hk'
  · exact ⟨by rintro _ ⟨⟩, trivial⟩

/-- A program of such calls keeps the contract. -/
theorem sat_of_repairs {α : Type} {p : Tool α} (hp : Only Repairs p) :
    Sat (inheriting k labels exists_) (fun _ _ => True) h p :=
  hp.sat (I := fun _ => True) (fun _ _ _ hc => repairs_guarantee hc) (fun _ _ _ _ _ => trivial)
    trivial

/-- The lakehouse path of `derive_object` keeps the contract. -/
theorem deriveToLakehouse_inheriting [Python] [Engines] [Backend] [Sqlglot] (settings : Settings)
    {tenant newLabel : String} {guarded : GuardedQuery} (mode : String) (tags : List String) :
    Sat (inheriting (tenant, newLabel) guarded.referencedLabels exists_) (fun _ _ => True) h
      (deriveToLakehouse settings tenant newLabel guarded mode tags) := by
  have hidle {α : Type} {p : Tool α} {h : List CallEvent} (hp : Only Idle p) :
      Sat (inheriting (tenant, newLabel) guarded.referencedLabels exists_) (fun _ _ => True) h p :=
    sat_of_repairs (hp.mono (fun _ => Or.inl))
  have hexists (label : String) : Only Idle (tableExists tenant label) := Only.perform trivial
  have hopen : Only Idle (call .openRegistry) := Only.perform trivial
  refine (hidle (hexists newLabel)).bind (fun h found _ => ?_) (fun _ _ _ => trivial)
  refine (hidle (checkDerive_idle _ _ _ _ found)).bind (fun h _ _ => ?_) (fun _ _ _ => trivial)
  refine Sat.perform_bind ⟨by rintro _ ⟨⟩, trivial⟩ (fun _ _ => ?_) (fun _ _ => trivial)
  refine Sat.perform_bind ⟨?_, trivial⟩ (fun _ _ => ?_) (fun _ _ => trivial)
  · rintro _ ⟨⟩
    rfl
  refine (selectParents_rule (I := fun _ => True) (fun h l _ => repairs_guarantee (Or.inl trivial))
    (fun h l r _ hassume => ⟨trivial, fun hl b hb => hassume l b (by rw [hb]) hl⟩)
    guarded.referencedLabels trivial).bind (fun h parents hparents => ?_) (fun _ _ _ => trivial)
  have hrecord : Sat (inheriting (tenant, newLabel) guarded.referencedLabels exists_)
      (fun _ _ => True) h (recordObjectGuarded (deriveRow settings tenant newLabel guarded.sql) tags
        (some parents)) := by
    refine (hidle hopen).bind (fun h _ _ => ?_) (fun _ _ _ => trivial)
    have hcall : Sat (inheriting (tenant, newLabel) guarded.referencedLabels exists_)
        (fun _ _ => True) h (do
          call (.recordObject (deriveRow settings tenant newLabel guarded.sql) tags (some parents))
          return true) :=
      Sat.perform_bind ⟨by rintro _ ⟨⟩, rfl, hparents.2 parents rfl⟩ (fun _ _ => trivial)
        (fun _ _ => trivial)
    refine hcall.tryCatch (fun _ _ _ => trivial) (fun h e _ => ?_)
    split <;> trivial
  refine hrecord.bind (fun h ok _ => ?_) (fun _ _ _ => trivial)
  cases ok with
  | true => exact sat_of_repairs (describeObject_repairs settings tenant newLabel)
  | false => exact hidle (pendingObject_idle _ _ _)

end

section

variable [Engines] {k : Key} {labels : List String} {exists_ : String → Bool} {s : Stores}
  {log : Log Call Answer PyError Unit}

/-- The other tables are as they were before the derive. -/
theorem table_of_inheriting (hguarantees : Along (fun older entry =>
    (inheriting k labels exists_).guarantee (history entry.1 older) entry.2.call) log) {l : String}
    (hl : l ≠ k.2) :
    (machine.after s log).lakehouse.table (k.1, l) = s.lakehouse.table (k.1, l) := by
  induction log with
  | nil => rfl
  | cons entry log ih =>
    have hchanged : changed entry.2 ≠ some (k.1, l) := by
      obtain ⟨⟨⟩, c, r⟩ := entry
      cases r with
      | error e => exact fun h => nomatch h
      | ok a => exact fun h => hl (congrArg Prod.snd (hguarantees.1.1 _ h))
    rw [Machine.after_cons]
    exact (table_storesAfter _ hchanged).trans (ih hguarantees.2)

/-- After a derive has recorded, the edges are its parents. -/
theorem lineage_of_inheriting (hguarantees : Along (fun older entry =>
    (inheriting k labels exists_).guarantee (history entry.1 older) entry.2.call) log)
    (hrecorded : ∃ row tags parents,
      ((), ⟨.recordObject row tags (some parents), .ok ⟨⟩⟩) ∈ log) {l : String} :
    l ∈ valuesOf (machine.after s log).registry.lineage k ↔
      l ≠ k.2 ∧ l ∈ labels ∧ exists_ l = true := by
  induction log with
  | nil =>
    obtain ⟨_, _, _, hmem⟩ := hrecorded
    cases hmem
  | cons entry log ih =>
    obtain ⟨⟨⟩, event⟩ := entry
    rw [Machine.after_cons]
    change l ∈ valuesOf (storesAfter _ event).registry.lineage k ↔ _
    rw [lineage_storesAfter]
    -- the newest event that sets the edges decides
    have holder (hnone : lineageSet k event = none)
        (hevent : ∀ row tags parents, event ≠ ⟨.recordObject row tags (some parents), .ok ⟨⟩⟩) :
        l ∈ (lineageSet k event).getD (valuesOf (machine.after s log).registry.lineage k) ↔
          l ≠ k.2 ∧ l ∈ labels ∧ exists_ l = true := by
      rw [hnone, Option.getD_none]
      obtain ⟨row, tags, parents, hmem⟩ := hrecorded
      rcases List.mem_cons.mp hmem with heq | hmem
      · exact absurd (congrArg Prod.snd heq).symm (hevent row tags parents)
      · exact ih hguarantees.2 ⟨row, tags, parents, hmem⟩
    obtain ⟨c, r⟩ := event
    cases r with
    | error e =>
      refine holder ?_ (by rintro _ _ _ ⟨⟩)
      cases c <;> first | rfl | (cases ‹Option (List String)› <;> rfl)
    | ok a =>
      cases c with
      | recordObject row tags parents =>
        cases parents with
        | none => exact holder rfl (by rintro _ _ _ ⟨⟩)
        | some parents =>
          obtain ⟨_, hkey, hparents⟩ := hguarantees.1
          simp only [lineageSet, if_pos hkey, Option.getD_some, List.mem_filter,
            Registry.mem_fromKeys, bne_iff_ne]
          rw [and_comm]
          exact and_congr_right (hparents l)
      | deleteObject k' => exact hguarantees.1.2.elim
      | _ => exact holder rfl (by rintro _ _ _ ⟨⟩)

end

section

variable [Python] [Engines] [Backend] [Sqlglot] {settings : Settings}
  {tenant newLabel name sql mode : String} {tags : Option (List String)} {s : Stores}
  {log : Log Call Answer PyError Unit} {threads : Unit → Tool Unit}

/-- The labels that may become parents: those of other tables of the tenant. -/
def Stored (s : Stores) (k : Key) (l : String) : Prop :=
  l ≠ k.2 ∧ (s.lakehouse.table (k.1, l)).isSome = true

/-- `derive_object` keeps the contract. -/
theorem derive_inheriting {exists_ : String → Bool} (hlabel : validateLabel newLabel = .ok name)
    {guarded : GuardedQuery}
    (hguard : validateSelect (deriveParams settings tenant) sql = .ok guarded) :
    Sat (inheriting (tenant, name) guarded.referencedLabels exists_) (fun _ _ => True) []
      ((Operation.derive tenant newLabel sql mode tags "lakehouse").program settings) := by
  have hderive : Sat (inheriting (tenant, name) guarded.referencedLabels exists_)
      (fun _ _ => True) []
      (deriveObject settings tenant newLabel sql mode tags "lakehouse") := by
    refine Sat.lift_bind (fun name' hvalid => ?_) (fun _ _ => trivial)
    rw [hlabel] at hvalid
    cases hvalid
    split
    · trivial
    · rw [if_neg (by simp)]
      generalize validateSelect (deriveParams settings tenant) sql = result at hguard ⊢
      refine Sat.lift_bind (fun guarded' hguarded => ?_) (fun _ _ => trivial)
      rw [hguard] at hguarded
      cases hguarded
      rw [if_neg (by simp)]
      exact deriveToLakehouse_inheriting settings mode _
  exact hderive.bind (fun _ _ _ => trivial) (fun _ _ _ => trivial)

/-- When a derive has recorded its parents, these are the tables of the tenant that the emitted
statement reads, exactly when no shared reference is a namesake of another table. -/
theorem derive_parents_exact_iff (hns : IsNamespace tenant)
    (hlabel : validateLabel newLabel = .ok name) {tree : SqlTree}
    (hparse : parseStatement sql = .ok tree) {guarded : GuardedQuery}
    (hguard : guardTree (deriveParams settings tenant) tree = .ok guarded)
    (hrun : Run machine (fun _ : Unit =>
      (Operation.derive tenant newLabel sql mode tags "lakehouse").program settings) s log threads)
    (hrecorded : ∃ row tags parents,
      ((), ⟨.recordObject row tags (some parents), .ok ⟨⟩⟩) ∈ log) :
    (∀ l, l ∈ (machine.after s log).registry.getParents (tenant, name) ↔
        Stored s (tenant, name) l ∧ RefersTo (deriveParams settings tenant) guarded.tree l) ↔
      NoNamesakes (deriveParams settings tenant) tree (Stored s (tenant, name)) := by
  have hvalid : validateSelect (deriveParams settings tenant) sql = .ok guarded := by
    rw [validateSelect, hparse]
    exact hguard
  obtain ⟨exists_, hexists⟩ : ∃ exists_ : String → Bool, ∀ l,
      exists_ l = (s.lakehouse.table (tenant, l)).isSome := ⟨_, fun _ => rfl⟩
  have hsat : Sat (inheriting (tenant, name) guarded.referencedLabels exists_) (fun _ _ => True) []
      ((Operation.derive tenant newLabel sql mode tags "lakehouse").program settings) :=
    derive_inheriting hlabel hvalid
  have hguarantees := (hrun.sat (fun _ => hsat)
    (hrun.possible.imp (fun older entry hpossible hguarantees l b hevent hl => ?_))).2
  swap
  · have hanswer : machine.possible (machine.after s older) entry.2 := hpossible.1
    rw [hevent] at hanswer
    have hb : b = ((machine.after s older).lakehouse.table (tenant, l)).isSome := hanswer
    rw [hb, table_of_inheriting hguarantees hl, hexists]
  rw [← referenced_iff_refersTo hns hguard]
  refine forall_congr' (fun l => ?_)
  rw [Registry.mem_getParents, lineage_of_inheriting hguarantees hrecorded, Stored, hexists]
  constructor
  · intro hiff hstored
    constructor
    · exact fun hmem => (hiff.mp ⟨hstored.1, hmem, hstored.2⟩).2
    · exact fun hrefers => (hiff.mpr ⟨hstored, hrefers⟩).2.1
  · intro hiff
    constructor
    · rintro ⟨hl, hmem, hexists⟩
      exact ⟨⟨hl, hexists⟩, (hiff ⟨hl, hexists⟩).mp hmem⟩
    · rintro ⟨hstored, hrefers⟩
      exact ⟨hstored.1, (hiff hstored).mpr hrefers, hstored.2⟩

end

section

attribute [local instance] asciiPython textEngines externalBackend

/-- The SQL library on a read of a shared table and a read of a table of the tenant. -/
@[reducible] def pricesSqlglot : Sqlglot :=
  plainSqlglot [("SELECT * FROM ref_market.prices",
      .node .select (readStar { name := "prices", db := "ref_market" })),
    ("SELECT * FROM prices", .node .select (readStar { name := "prices" }))]

attribute [local instance] pricesSqlglot

/-- A tenant with a table `prices`. -/
def pricesStores : Stores where
  lakehouse := {
    namespaces := ["t_acme"]
    tables := [(("t_acme", "prices"), ⟨0, [("v", .string true)], []⟩)]
    nextUuid := 1 }

/-- The run of a derive of `d`, all of whose calls succeed. -/
def deriveD (sql : String) : Log Call Answer PyError Unit × (Unit → Tool Unit) :=
  play machine answerOf pricesStores (List.replicate 11 ((), none)) []
    (fun _ => (Operation.derive "t_acme" "d" sql "create" none "lakehouse").program {})

/-- What is played is a run. -/
theorem deriveD_run (sql : String) : Run machine
    (fun _ => (Operation.derive "t_acme" "d" sql "create" none "lakehouse").program {})
    pricesStores (deriveD sql).1 (deriveD sql).2 :=
  play_run answerOf_possible (fun _ _ _ => trivial) .start

/-- A derive from the shared table records the tenant's own table of that name as its parent. -/
theorem sharedPrices_not_exact : ∃ log threads guarded,
    guardTree (deriveParams {} "t_acme")
        (.node .select (readStar { name := "prices", db := "ref_market" })) = .ok guarded ∧
      Run machine (fun _ : Unit => (Operation.derive "t_acme" "d" "SELECT * FROM ref_market.prices"
        "create" none "lakehouse").program {}) pricesStores log threads ∧
      (∃ row tags parents, ((), ⟨.recordObject row tags (some parents), .ok ⟨⟩⟩) ∈ log) ∧
      ¬ ∀ l, l ∈ (machine.after pricesStores log).registry.getParents ("t_acme", "d") ↔
        Stored pricesStores ("t_acme", "d") l ∧
          RefersTo (deriveParams {} "t_acme") guarded.tree l := by
  refine ⟨_, _, ⟨.node .select (readStar ⟨"prices", "ref_market", "iceberg"⟩), ["prices"], []⟩,
    by rfl, deriveD_run _, ?_, fun hexact => ?_⟩
  · have hrecord : (deriveD "SELECT * FROM ref_market.prices").1[5]? = some ((),
        ⟨.recordObject (deriveRow {} "t_acme" "d"
          (generate (.node .select (readStar ⟨"prices", "ref_market", "iceberg"⟩)))) []
            (some ["prices"]), .ok ⟨⟩⟩) := by rfl
    exact ⟨_, _, _, List.mem_of_getElem? hrecord⟩
  · obtain ⟨_, r, hr, _, _, hdb, _⟩ := (hexact "prices").mp (by decide +kernel)
    rw [show references [] (.node .select (readStar ⟨"prices", "ref_market", "iceberg"⟩)) =
      [⟨⟨"prices", "ref_market", "iceberg"⟩, []⟩] by rfl, List.mem_singleton] at hr
    rw [hr] at hdb
    exact absurd hdb (by decide)

/-- A derive from the tenant's own table records it as its parent. -/
theorem ownPrices_exact : ∃ log threads guarded,
    guardTree (deriveParams {} "t_acme") (.node .select (readStar { name := "prices" })) =
        .ok guarded ∧
      Run machine (fun _ : Unit => (Operation.derive "t_acme" "d" "SELECT * FROM prices" "create"
        none "lakehouse").program {}) pricesStores log threads ∧
      ∀ l, l ∈ (machine.after pricesStores log).registry.getParents ("t_acme", "d") ↔
        Stored pricesStores ("t_acme", "d") l ∧
          RefersTo (deriveParams {} "t_acme") guarded.tree l := by
  have hns : IsNamespace "t_acme" := ⟨"acme".toList, rfl, List.all_eq_true.mp (by decide),
    by decide⟩
  have hlabel : validateLabel "d" = .ok "d" := by decide +kernel
  have hparse : parseStatement "SELECT * FROM prices" =
      .ok (.node .select (readStar { name := "prices" })) := by rfl
  have hguard : guardTree (deriveParams {} "t_acme")
      (.node .select (readStar { name := "prices" })) =
        .ok ⟨.node .select (readStar ⟨"prices", "t_acme", "iceberg"⟩), ["prices"], []⟩ := by rfl
  have hrecord : (deriveD "SELECT * FROM prices").1[5]? = some ((),
      ⟨.recordObject (deriveRow {} "t_acme" "d"
        (generate (.node .select (readStar ⟨"prices", "t_acme", "iceberg"⟩)))) []
          (some ["prices"]), .ok ⟨⟩⟩) := by rfl
  refine ⟨_, _, _, hguard, deriveD_run _, (derive_parents_exact_iff hns hlabel hparse hguard
    (deriveD_run _) ⟨_, _, _, List.mem_of_getElem? hrecord⟩).mpr ?_⟩
  have hrefs : references [] (.node .select (readStar { name := "prices" })) =
      [⟨{ name := "prices" }, []⟩] := by rfl
  have hno {kind : TableName → Prop} {l : String} (hkind : ¬ kind { name := "prices" }) :
      ¬ Mentions kind (.node .select (readStar { name := "prices" })) l := by
    rintro ⟨r, hr, hr', _⟩
    rw [hrefs, List.mem_singleton] at hr
    rw [hr] at hr'
    exact hkind hr'
  intro l _ _
  refine iff_of_false (hno (fun hshared => hshared.2.1 rfl)) (fun hscratch => ?_)
  obtain ⟨⟨target, htarget, _⟩, _⟩ := hscratch
  cases htarget

end

end Memcove
