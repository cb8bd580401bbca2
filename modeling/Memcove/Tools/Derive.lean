import Memcove.Scratch.Store
import Memcove.Tools.Objects

/-!
# Derive

`derive_object` of `tools/derive.py`: a guarded `SELECT` becomes a table, in the lakehouse or in
the scratchpad.
-/

namespace Memcove

open Programs

variable [Python] [Engines] [Backend] [Sqlglot]

/-- The columns that the first list has and the second lacks, sorted and printed. -/
def missingColumns (columns others : List String) : String :=
  sortedText ((columns.filter (fun c => !others.contains c)).dedup)

/-- `_assert_replace_keeps_shape`. -/
def assertReplaceKeepsShape (tenant newLabel : String) (sql : List Token) : Tool PUnit := do
  let existing ← loadSchema tenant newLabel
  let new ← call (.probeColumns tenant sql)
  let old := existing.map (·.name)
  if old.all new.contains && new.all old.contains then .pure ⟨⟩
  else
    .raise ⟨.schemaMismatchError, s!"derive replace of '{newLabel}' changes columns (added=" ++
      missingColumns new old ++ "; removed=" ++ missingColumns old new ++
      "); forget() then create() to change shape"⟩

/-- `_derive_to_scratch`. -/
def deriveToScratch (settings : Settings) (tenant newLabel : String) (guarded : GuardedQuery)
    (mode : String) : Tool MemoryObject := do
  let exists_ ← scratchTableExists settings tenant newLabel
  if mode = "create" ∧ exists_ = true then
    .raise ⟨.objectExistsError,
      s!"scratch object '{newLabel}' already exists (use mode=replace)"⟩
  else do
    createAsSelect settings tenant newLabel (.query guarded.sql) (mode == "replace")
    describeScratch settings tenant newLabel

/-- The registry row of a derived object. -/
def deriveRow (settings : Settings) (tenant newLabel : String) (sql : List Token) : ObjectRow where
  tenant := tenant
  label := newLabel
  tableIdent := tableIdent settings tenant newLabel
  source := .derived
  producingSql := some sql

/-- The checks of the lakehouse path that depend on whether the object exists. -/
def checkDerive (tenant newLabel : String) (sql : List Token) (mode : String) (exists_ : Bool) :
    Tool PUnit :=
  if mode = "create" ∧ exists_ = true then
    .raise ⟨.objectExistsError, s!"object '{newLabel}' already exists (use mode=replace)"⟩
  else if mode = "replace" ∧ exists_ = true then assertReplaceKeepsShape tenant newLabel sql
  else .pure ⟨⟩

/-- The lakehouse path of `derive_object`. -/
def deriveToLakehouse (settings : Settings) (tenant newLabel : String) (guarded : GuardedQuery)
    (mode : String) (tags : List String) : Tool MemoryObject := do
  let exists_ ← tableExists tenant newLabel
  checkDerive tenant newLabel guarded.sql mode exists_
  call (.ensureSchema tenant)
  call (.createTableAs (mode == "replace") (tenant, newLabel) guarded.sql)
  let parents ← Program.select (fun label => tableExists tenant label) guarded.referencedLabels
  let ok ← recordObjectGuarded (deriveRow settings tenant newLabel guarded.sql) tags (some parents)
  if ok then describeObject settings tenant newLabel
  else pendingObject (deriveRow settings tenant newLabel guarded.sql) tags parents

/-- The guard's arguments in `derive_object`. -/
def deriveParams (settings : Settings) (tenant : String) : GuardParams where
  tenantNs := tenant
  catalog := settings.trinoCatalog
  sharedSchemas := settings.sharedSchemas
  scratch := scratchGuardParams settings tenant

/-- `derive_object`. -/
def deriveObject (settings : Settings) (tenant newLabel sql mode : String)
    (tags : Option (List String)) (target : String) : Tool MemoryObject := do
  let newLabel ← Program.lift (validateLabel newLabel)
  if mode ≠ "create" ∧ mode ≠ "replace" then
    .raise ⟨.valueError, "unknown mode " ++ Python.repr mode ++ "; expected create|replace"⟩
  else if target ≠ "lakehouse" ∧ target ≠ "scratch" then
    .raise ⟨.valueError, "unknown target " ++ Python.repr target ++
      "; expected lakehouse|scratch"⟩
  else do
    let guarded ← Program.lift (validateSelect (deriveParams settings tenant) sql)
    if target = "scratch" then deriveToScratch settings tenant newLabel guarded mode
    else deriveToLakehouse settings tenant newLabel guarded mode (tags.getD [])

omit [Python] [Engines] [Backend] [Sqlglot] in
/-- The parents are the labels whose tables exist, for those labels about which the answers are
known. -/
theorem selectParents_rule {K : Contract Call Answer PyError} {I : List CallEvent → Prop}
    {known : String → Prop} {exists_ : String → Bool} {tenant : String}
    (hcall : ∀ h l, I h → K.guarantee h (.tableExists (tenant, l)))
    (hanswer : ∀ h l r, I h → K.assume h ⟨.tableExists (tenant, l), r⟩ →
      I (⟨.tableExists (tenant, l), r⟩ :: h) ∧ (known l → ∀ b, r = .ok b → b = exists_ l))
    (labels : List String) {h : List CallEvent} (hh : I h) :
    Sat K (fun h r => I h ∧ ∀ parents, r = .ok parents → ∀ l, known l →
        (l ∈ parents ↔ l ∈ labels ∧ exists_ l = true)) h
      (Program.select (fun label => tableExists tenant label) labels) := by
  induction labels generalizing h with
  | nil =>
    refine ⟨hh, ?_⟩
    rintro _ ⟨⟩ l _
    simp
  | cons label labels ih =>
    refine Sat.perform_bind (hcall h label hh) (fun found hfound => ?_) (fun e he => ?_)
    · obtain ⟨hnext, hknown⟩ := hanswer h label _ hh hfound
      refine (ih hnext).bind (fun h' parents hselected => ⟨hselected.1, ?_⟩)
        (fun h' e hselected => ⟨hselected.1, fun _ hr => nomatch hr⟩)
      rintro _ ⟨⟩ l hl
      have hparents := hselected.2 parents rfl l hl
      by_cases hlabel : l = label
      · subst hlabel
        rw [hknown hl found rfl]
        cases hexists : exists_ l <;> simp [hparents, hexists]
      · cases found <;> simp [hparents, hlabel]
    · exact ⟨(hanswer h label _ hh he).1, fun _ hr => nomatch hr⟩

end Memcove
