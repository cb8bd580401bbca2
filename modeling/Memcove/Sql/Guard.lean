import Memcove.Core.Tenancy
import Memcove.Sql.Syntax

/-!
# The SQL guard

`core/sql_guard.py`: parse one statement, check that it is a pure read, then resolve every table
reference in breadth-first order. The source rewrites the table nodes in place while it walks; as
a decision reads only the node's own name parts, the result is the tree with its table labels
replaced.
-/

namespace Memcove

open Trees

/-- The caller's scratchpad, where the alias `scratch.<label>` leads. The callers of the guard
pass its catalog and its schema together or not at all. -/
structure ScratchTarget where
  catalog : String
  schema : String

/-- The arguments of `validate_select` besides the statement. -/
structure GuardParams where
  tenantNs : String
  catalog : String
  sharedSchemas : List String := []
  scratch : Option ScratchTarget := none

/-- `GuardedQuery`; its `sql` is the text that the rewritten tree prints. -/
structure GuardedQuery where
  tree : SqlTree
  referencedLabels : List String
  scratchLabels : List String

/-- `GuardedQuery.sql`. -/
def GuardedQuery.sql [Sqlglot] (guarded : GuardedQuery) : List Token := generate guarded.tree

/-- The constant `SCRATCH_ALIAS`. -/
def scratchAlias : String := "scratch"

/-- The set `_DENY_SCHEMAS`. -/
def denySchemas : List String :=
  ["information_schema", "system", "jdbc", "metadata", "sys", "pg_catalog"]

/-- The loop over `_FORBIDDEN`. -/
def rejectForbidden (tree : SqlTree) : List Kind → PyM Unit
  | [] => .ok ()
  | kind :: rest =>
    match tree.walk.find? (fun node => node.label == kind) with
    | some node => raise .sqlGuardError
        s!"statement contains a non-read operation ({node.label.className})"
    | none => rejectForbidden tree rest

/-- The two read-only checks of `validate_select`. -/
def checkReadOnly (tree : SqlTree) : PyM Unit :=
  if tree.label ∉ allowedTop then raise .sqlGuardError
    s!"only read-only SELECT statements are allowed, got {tree.label.className}"
  else rejectForbidden tree forbidden

/-- The loop over the forbidden classes ends normally only on a tree without them. -/
theorem rejectForbidden_ok {tree : SqlTree} {kinds : List Kind}
    (h : rejectForbidden tree kinds = .ok ()) :
    ∀ node ∈ tree.subtrees, node.label ∉ kinds := by
  induction kinds with
  | nil => simp
  | cons kind rest ih =>
    unfold rejectForbidden at h
    split at h
    · cases h
    · rename_i hnone
      intro node hnode hmem
      rcases List.mem_cons.mp hmem with heq | hrest
      · have := List.find?_eq_none.mp hnone node (RoseTree.mem_walk.mpr hnode)
        simp [heq] at this
      · exact ih h node hnode hrest

/-- What the read-only check establishes. -/
theorem checkReadOnly_ok {tree : SqlTree} (h : checkReadOnly tree = .ok ()) :
    tree.label ∈ allowedTop ∧ ∀ node ∈ tree.subtrees, node.label ∉ forbidden := by
  unfold checkReadOnly at h
  split at h
  · cases h
  · rename_i htop
    exact ⟨not_not.mp htop, rejectForbidden_ok h⟩

/-- The loop over the forbidden classes ends normally on a tree without them. -/
theorem rejectForbidden_of_free {tree : SqlTree} {kinds : List Kind}
    (h : ∀ node ∈ tree.subtrees, node.label ∉ kinds) : rejectForbidden tree kinds = .ok () := by
  induction kinds with
  | nil => rfl
  | cons kind rest ih =>
    have hnone : tree.walk.find? (fun node => node.label == kind) = none := by
      refine List.find?_eq_none.mpr (fun node hnode hsame => ?_)
      exact h node (RoseTree.mem_walk.mp hnode) (List.mem_cons.mpr (Or.inl (beq_iff_eq.mp hsame)))
    simp only [rejectForbidden, hnone]
    exact ih (fun node hnode hmem => h node hnode (List.mem_cons_of_mem _ hmem))

/-- What the read-only check asks for. -/
theorem checkReadOnly_of_free {tree : SqlTree} (htop : tree.label ∈ allowedTop)
    (h : ∀ node ∈ tree.subtrees, node.label ∉ forbidden) : checkReadOnly tree = .ok () := by
  rw [checkReadOnly, if_neg (not_not.mpr htop)]
  exact rejectForbidden_of_free h

variable [Python]

/-- The lower-case alias of a `CTE` node that has one. -/
def cteName : Kind → Option String
  | .cte name => if name = "" then none else some (lower name)
  | _ => none

/-- The aliases that a `With` node declares. -/
def declaredBy (node : SqlTree) : List String :=
  match node.label with
  | .withClause _ => node.children.filterMap (fun child => cteName child.label)
  | _ => []

/-- `_cte_names`: the aliases declared anywhere in the tree. -/
def cteNames (tree : SqlTree) : List String := tree.walk.flatMap declaredBy

/-- The set `shared` of `validate_select`. -/
def sharedNames (schemas : List String) : List String :=
  (schemas.filter (fun s => strip s != "")).map (fun s => lower (strip s))

/-- What the loop decides for one table node. -/
inductive Resolution where
  | cteReference
  | scratch (target : ScratchTarget)
  | lakehouse (db : String)

/-- The catalog and schema checks for a reference that is neither a CTE nor a scratch one. -/
def resolveLakehouse (params : GuardParams) (name db cat : String) : PyM Resolution :=
  if cat ≠ "" ∧ cat ≠ lower params.catalog then raise .sqlGuardError
    s!"cross-catalog reference '{cat}.{db}.{name}' is not permitted"
  else if db ∈ denySchemas then raise .sqlGuardError
    s!"reference to restricted schema '{db}' is not permitted"
  else if db = "" ∨ db = lower params.tenantNs then .ok (.lakehouse params.tenantNs)
  else if db ∈ sharedNames params.sharedSchemas then .ok (.lakehouse db)
  else raise .sqlGuardError
    (s!"cross-namespace reference '{db}.{name}' is not permitted; you may " ++
      "only reference your own objects or the shared reference plane")

/-- `scratch_catalog and db == SCRATCH_ALIAS and not cat`. -/
def scratchReference (params : GuardParams) (db cat : String) : Option ScratchTarget :=
  params.scratch.filter (fun target => target.catalog != "" && db == scratchAlias && cat == "")

/-- One iteration of the loop over the table nodes. -/
def resolveTable (params : GuardParams) (ctes : List String) (ref : TableName) :
    PyM Resolution :=
  let name := lower ref.name
  let db := lower ref.db
  let cat := lower ref.catalog
  if db = "" ∧ cat = "" ∧ name ∈ ctes then .ok .cteReference
  else if name = "" then raise .sqlGuardError "unsupported table expression in FROM clause"
  else
    match scratchReference params db cat with
    | some target => .ok (.scratch target)
    | none => resolveLakehouse params name db cat

/-- `table.set("catalog", …)` and `table.set("db", …)`. -/
def Resolution.qualify (params : GuardParams) (ref : TableName) : Resolution → TableName
  | cteReference => ref
  | scratch target => { ref with db := target.schema, catalog := target.catalog }
  | lakehouse db => { ref with db := db, catalog := params.catalog }

/-- `if name not in names: names.append(name)`. -/
def appendNew (names : List String) (name : String) : List String :=
  if name ∈ names then names else names ++ [name]

/-- The two label lists after one iteration. -/
def Resolution.record (name : String) (labels : List String × List String) :
    Resolution → List String × List String
  | cteReference => labels
  | scratch _ => (labels.1, appendNew labels.2 name)
  | lakehouse _ => (appendNew labels.1 name, labels.2)

/-- The loop over `tree.find_all(exp.Table)`, with `referenced` and `scratch_refs` so far. -/
def resolveTables (params : GuardParams) (ctes : List String) :
    List SqlTree → List String × List String → PyM (List String × List String)
  | [], labels => .ok labels
  | node :: rest, labels =>
    match node.label with
    | .table ref =>
      match resolveTable params ctes ref with
      | .error e => .error e
      | .ok resolution =>
        resolveTables params ctes rest (resolution.record (lower ref.name) labels)
    | _ => resolveTables params ctes rest labels

/-- The label of a node after the loop: table nodes are qualified, others are kept. -/
def rewriteKind (params : GuardParams) (ctes : List String) : Kind → Kind
  | .table ref =>
    match resolveTable params ctes ref with
    | .ok resolution => .table (resolution.qualify params ref)
    | .error _ => .table ref
  | kind => kind

/-- `validate_select` from the parsed statement on. -/
def guardTree (params : GuardParams) (tree : SqlTree) : PyM GuardedQuery := do
  checkReadOnly tree
  let ctes := cteNames tree
  let (referenced, scratchRefs) ← resolveTables params ctes tree.walk ([], [])
  return ⟨tree.map (rewriteKind params ctes), referenced, scratchRefs⟩

/-- A name of `sharedNames` is the lower-case form of a configured schema. -/
theorem mem_sharedNames {schemas : List String} {db : String} :
    db ∈ sharedNames schemas ↔ ∃ s ∈ schemas, strip s ≠ "" ∧ db = lower (strip s) := by
  simp only [sharedNames, List.mem_map, List.mem_filter, bne_iff_ne, ne_eq]
  constructor
  · rintro ⟨s, ⟨hs, hne⟩, rfl⟩
    exact ⟨s, hs, hne, rfl⟩
  · rintro ⟨s, hs, hne, rfl⟩
    exact ⟨s, ⟨hs, hne⟩, rfl⟩

/-- An accepted lakehouse reference leads to the tenant's schema or to a shared one. -/
theorem resolveLakehouse_ok {params : GuardParams} {name db cat : String} {r : Resolution}
    (h : resolveLakehouse params name db cat = .ok r) :
    r = .lakehouse params.tenantNs ∨
      (r = .lakehouse db ∧ db ∉ denySchemas ∧ db ∈ sharedNames params.sharedSchemas) := by
  unfold resolveLakehouse at h
  split at h
  · cases h
  · split at h
    · cases h
    · rename_i hdeny
      split at h
      · cases h
        exact Or.inl rfl
      · split at h
        · rename_i hshared
          cases h
          exact Or.inr ⟨rfl, hdeny, hshared⟩
        · cases h

/-- The three ways in which a table node is accepted. -/
theorem resolveTable_ok {params : GuardParams} {ctes : List String} {ref : TableName}
    {r : Resolution} (h : resolveTable params ctes ref = .ok r) :
    ((ref.db = "" ∧ ref.catalog = "" ∧ lower ref.name ∈ ctes) ∧ r = .cteReference) ∨
      (¬ (ref.db = "" ∧ ref.catalog = "" ∧ lower ref.name ∈ ctes) ∧
        ((∃ target, r = .scratch target ∧ params.scratch = some target ∧ target.catalog ≠ "") ∨
          r = .lakehouse params.tenantNs ∨
          ∃ db, r = .lakehouse db ∧ db ∉ denySchemas ∧ db ∈ sharedNames params.sharedSchemas)) := by
  unfold resolveTable at h
  simp only [lower_eq_empty_iff] at h
  split at h
  · rename_i hcte
    cases h
    exact Or.inl ⟨hcte, rfl⟩
  · rename_i hcte
    refine Or.inr ⟨hcte, ?_⟩
    split at h
    · cases h
    · split at h
      · rename_i target hscratch
        cases h
        obtain ⟨hsome, hcond⟩ := Option.filter_eq_some_iff.mp hscratch
        simp only [Bool.and_eq_true, bne_iff_ne] at hcond
        exact Or.inl ⟨target, rfl, hsome, hcond.1.1⟩
      · rcases resolveLakehouse_ok h with hns | ⟨hdb, hdeny, hshared⟩
        · exact Or.inr (Or.inl hns)
        · exact Or.inr (Or.inr ⟨_, hdb, hdeny, hshared⟩)

/-- The loop ends normally only when it accepts every table node. -/
theorem resolveTables_ok {params : GuardParams} {ctes : List String} {nodes : List SqlTree}
    {labels result : List String × List String}
    (h : resolveTables params ctes nodes labels = .ok result) :
    ∀ node ∈ nodes, ∀ ref, node.label = .table ref →
      ∃ r, resolveTable params ctes ref = .ok r := by
  induction nodes generalizing labels with
  | nil => simp
  | cons node rest ih =>
    intro n hn ref href
    unfold resolveTables at h
    split at h
    · rename_i ref' href'
      split at h
      · cases h
      · rename_i r hr
        rcases List.mem_cons.mp hn with rfl | hn
        · rw [href', Kind.table.injEq] at href
          exact ⟨r, href ▸ hr⟩
        · exact ih h n hn ref href
    · rename_i hnot
      rcases List.mem_cons.mp hn with rfl | hn
      · exact absurd href (hnot ref)
      · exact ih h n hn ref href

/-- What the loop collects in one of the two lists: what was there before it, and the names of the
table nodes whose resolution adds to that list. -/
theorem mem_resolveTables_of {list : List String × List String → List String}
    {Adds : Resolution → Prop}
    (hrecord : ∀ r name labels x,
      x ∈ list (Resolution.record name labels r) ↔ x ∈ list labels ∨ (Adds r ∧ name = x))
    {params : GuardParams} {ctes : List String} {nodes : List SqlTree}
    {labels result : List String × List String}
    (h : resolveTables params ctes nodes labels = .ok result) {x : String} :
    x ∈ list result ↔ x ∈ list labels ∨ ∃ node ∈ nodes, ∃ ref r, node.label = .table ref ∧
      resolveTable params ctes ref = .ok r ∧ Adds r ∧ lower ref.name = x := by
  induction nodes generalizing labels with
  | nil =>
    cases h
    simp
  | cons node rest ih =>
    unfold resolveTables at h
    split at h
    · rename_i ref href
      split at h
      · cases h
      · rename_i r hr
        rw [ih h, hrecord, or_assoc]
        refine or_congr_right ?_
        simp only [List.mem_cons, exists_eq_or_imp]
        refine or_congr_left ?_
        simp [href, hr]
    · rename_i hnot
      rw [ih h]
      refine or_congr_right ?_
      simp only [List.mem_cons, exists_eq_or_imp]
      refine (or_iff_right ?_).symm
      rintro ⟨ref, _, href, _⟩
      exact hnot ref href

omit [Python] in
/-- A name is appended where it was not before. -/
theorem mem_appendNew {names : List String} {name x : String} :
    x ∈ appendNew names name ↔ x ∈ names ∨ name = x := by
  unfold appendNew
  split
  · rename_i hmem
    refine (or_iff_left_of_imp ?_).symm
    rintro rfl
    exact hmem
  · rw [List.mem_append, List.mem_singleton, eq_comm (a := x)]

/-- The referenced labels after the loop: those before it, and the names of the table nodes that
were resolved to the lakehouse. -/
theorem mem_resolveTables {params : GuardParams} {ctes : List String} {nodes : List SqlTree}
    {labels result : List String × List String}
    (h : resolveTables params ctes nodes labels = .ok result) {name : String} :
    name ∈ result.1 ↔ name ∈ labels.1 ∨ ∃ node ∈ nodes, ∃ ref db, node.label = .table ref ∧
      resolveTable params ctes ref = .ok (.lakehouse db) ∧ lower ref.name = name := by
  have hrecord (r : Resolution) (name : String) (labels : List String × List String) (x : String) :
      x ∈ (Resolution.record name labels r).1 ↔
        x ∈ labels.1 ∨ ((∃ db, r = .lakehouse db) ∧ name = x) := by
    cases r <;> simp [Resolution.record, mem_appendNew]
  rw [@mem_resolveTables_of _ Prod.fst _ hrecord _ _ _ _ _ h]
  refine or_congr_right ?_
  constructor
  · rintro ⟨node, hnode, ref, _, href, hr, ⟨db, rfl⟩, hname⟩
    exact ⟨node, hnode, ref, db, href, hr, hname⟩
  · rintro ⟨node, hnode, ref, db, href, hr, hname⟩
    exact ⟨node, hnode, ref, _, href, hr, ⟨db, rfl⟩, hname⟩

/-- The scratch labels after the loop: those before it, and the names of the table nodes that were
resolved to the scratchpad. -/
theorem mem_resolveTables_scratch {params : GuardParams} {ctes : List String}
    {nodes : List SqlTree} {labels result : List String × List String}
    (h : resolveTables params ctes nodes labels = .ok result) {name : String} :
    name ∈ result.2 ↔ name ∈ labels.2 ∨ ∃ node ∈ nodes, ∃ ref target, node.label = .table ref ∧
      resolveTable params ctes ref = .ok (.scratch target) ∧ lower ref.name = name := by
  have hrecord (r : Resolution) (name : String) (labels : List String × List String) (x : String) :
      x ∈ (Resolution.record name labels r).2 ↔
        x ∈ labels.2 ∨ ((∃ target, r = .scratch target) ∧ name = x) := by
    cases r <;> simp [Resolution.record, mem_appendNew]
  rw [@mem_resolveTables_of _ Prod.snd _ hrecord _ _ _ _ _ h]
  refine or_congr_right ?_
  constructor
  · rintro ⟨node, hnode, ref, _, href, hr, ⟨target, rfl⟩, hname⟩
    exact ⟨node, hnode, ref, target, href, hr, hname⟩
  · rintro ⟨node, hnode, ref, target, href, hr, hname⟩
    exact ⟨node, hnode, ref, _, href, hr, ⟨target, rfl⟩, hname⟩

/-- What acceptance of a tree establishes, and what the emitted tree is. -/
theorem guardTree_ok {params : GuardParams} {tree : SqlTree} {guarded : GuardedQuery}
    (h : guardTree params tree = .ok guarded) :
    (tree.label ∈ allowedTop ∧ ∀ node ∈ tree.subtrees, node.label ∉ forbidden) ∧
      guarded.tree = tree.map (rewriteKind params (cteNames tree)) ∧
      ∀ node ∈ tree.subtrees, ∀ ref, node.label = .table ref →
        ∃ r, resolveTable params (cteNames tree) ref = .ok r := by
  unfold guardTree at h
  simp only [Bind.bind, Except.bind] at h
  split at h
  · cases h
  · rename_i hcheck
    split at h
    · cases h
    · rename_i labels hlabels
      cases h
      exact ⟨checkReadOnly_ok hcheck, rfl, fun node hnode =>
        resolveTables_ok hlabels node (RoseTree.mem_walk.mpr hnode)⟩

/-- The tree is a pure read, and every table node resolves. -/
def Accepts (params : GuardParams) (tree : SqlTree) : Prop :=
  checkReadOnly tree = .ok () ∧ ∀ node ∈ tree.subtrees, ∀ ref, node.label = .table ref →
    ∃ r, resolveTable params (cteNames tree) ref = .ok r

/-- The loop ends normally when it accepts every table node. -/
theorem resolveTables_accepts {params : GuardParams} {ctes : List String} {nodes : List SqlTree}
    (h : ∀ node ∈ nodes, ∀ ref, node.label = .table ref →
      ∃ r, resolveTable params ctes ref = .ok r) (labels : List String × List String) :
    ∃ result, resolveTables params ctes nodes labels = .ok result := by
  induction nodes generalizing labels with
  | nil => exact ⟨labels, rfl⟩
  | cons node rest ih =>
    have hrest := ih (fun node hnode => h node (List.mem_cons_of_mem _ hnode))
    unfold resolveTables
    split
    · rename_i ref href
      obtain ⟨r, hr⟩ := h node List.mem_cons_self ref href
      simp only [hr]
      exact hrest _
    · exact hrest labels

/-- The guard accepts exactly the pure reads whose table nodes all resolve. -/
theorem guardTree_accepts_iff {params : GuardParams} {tree : SqlTree} :
    (∃ guarded, guardTree params tree = .ok guarded) ↔ Accepts params tree := by
  constructor
  · rintro ⟨guarded, h⟩
    refine ⟨?_, (guardTree_ok h).2.2⟩
    obtain ⟨⟨⟩, hread, _⟩ := bind_eq_ok h
    exact hread
  · rintro ⟨hread, htables⟩
    obtain ⟨result, hresult⟩ := resolveTables_accepts
      (fun node hnode => htables node (RoseTree.mem_walk.mp hnode)) ([], [])
    refine ⟨⟨tree.map (rewriteKind params (cteNames tree)), result.1, result.2⟩, ?_⟩
    simp only [guardTree, hread, hresult]
    rfl

/-- The tree that the guard emits, unless it rejects. -/
def emittedTree (params : GuardParams) (tree : SqlTree) : Option SqlTree :=
  (guardTree params tree).toOption.map (·.tree)

/-- An accepted tree is emitted with its table nodes rewritten. -/
theorem emittedTree_of_accepts {params : GuardParams} {tree : SqlTree}
    (h : Accepts params tree) :
    emittedTree params tree = some (tree.map (rewriteKind params (cteNames tree))) := by
  obtain ⟨guarded, hguarded⟩ := guardTree_accepts_iff.mpr h
  rw [emittedTree, hguarded, ← (guardTree_ok hguarded).2.1]
  rfl

/-- A rejected tree is not emitted. -/
theorem emittedTree_of_not_accepts {params : GuardParams} {tree : SqlTree}
    (h : ¬ Accepts params tree) : emittedTree params tree = none := by
  cases hguard : guardTree params tree with
  | error e => rw [emittedTree, hguard]; rfl
  | ok guarded => exact absurd (guardTree_accepts_iff.mp ⟨guarded, hguard⟩) h

variable [Sqlglot]

/-- The first half of `validate_select`: strip the text, parse it, insist on one statement. -/
def parseStatement (sql : String) : PyM SqlTree :=
  let stripped := strip (rstripChar ';' (strip sql))
  if stripped = "" then raise .sqlGuardError "empty SQL"
  else
    match Sqlglot.parse stripped with
    | .error exc => raise .sqlGuardError s!"could not parse SQL: {exc}"
    | .ok statements =>
      match statements.filterMap id with
      | [tree] => .ok tree
      | _ => raise .sqlGuardError "exactly one statement is allowed"

/-- `validate_select`. -/
def validateSelect (params : GuardParams) (sql : String) : PyM GuardedQuery := do
  guardTree params (← parseStatement sql)

/-- Acceptance of a statement is acceptance of the tree it parses to. -/
theorem validateSelect_ok {params : GuardParams} {sql : String} {guarded : GuardedQuery}
    (h : validateSelect params sql = .ok guarded) :
    ∃ tree, parseStatement sql = .ok tree ∧ guardTree params tree = .ok guarded := by
  cases hparse : parseStatement sql with
  | error e => simp [validateSelect, hparse, Bind.bind, Except.bind] at h
  | ok tree => exact ⟨tree, rfl, by simpa [validateSelect, hparse, Bind.bind, Except.bind] using h⟩

end Memcove
