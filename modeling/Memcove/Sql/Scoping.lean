import Memcove.Sql.Guard

/-!
# Which references the guard leaves unqualified

SQL scopes CTE names by query block: a CTE is visible to its later siblings, to itself under
`WITH RECURSIVE`, and to the query that carries the `WITH` clause. `references` computes that
scope for every table reference of a tree. The guard collects the names once for the whole tree,
so it agrees with the scoping exactly when no bare reference uses a CTE's name out of its scope.
-/

namespace Memcove

open Trees

/-- A table reference and the lower-case CTE names in scope where it stands. -/
structure Scoped where
  ref : TableName
  scope : List String

/-- The reference of a table node. -/
def tableOf : Kind → Option TableName
  | .table ref => some ref
  | _ => none

/-- The name of a reference is never rewritten. -/
theorem Resolution.qualify_name (params : GuardParams) (ref : TableName) (r : Resolution) :
    (r.qualify params ref).name = ref.name := by
  cases r <;> rfl

section

variable [Python]

/-- The reference of a node itself. -/
def ownReference (scope : List String) (kind : Kind) : List Scoped :=
  ((tableOf kind).map (fun ref => ⟨ref, scope⟩)).toList

/-- The scope of the children of a node other than its `WITH` clause. The target of an `INTO` is
written, not read, so no CTE name is looked up there. -/
def innerScope (scope : List String) (kind : Kind) (children : List SqlTree) : List String :=
  if kind = .into then [] else children.flatMap declaredBy ++ scope

mutual

/-- The table references of a tree in textual order, each with the CTE names in scope. -/
def references (scope : List String) : SqlTree → List Scoped
  | .node kind children =>
    ownReference scope kind ++ childReferences (innerScope scope kind children) scope children

/-- The references below a node: its `WITH` clause in the outer scope, the rest in the inner. -/
def childReferences (inner outer : List String) : List SqlTree → List Scoped
  | [] => []
  | .node (.withClause recursive) ctes :: rest =>
    cteReferences recursive outer ctes ++ childReferences inner outer rest
  | child :: rest => references inner child ++ childReferences inner outer rest

/-- The references in the list of a `WITH` clause: each CTE sees the earlier ones, and itself
when the clause is recursive. -/
def cteReferences (recursive : Bool) (scope : List String) : List SqlTree → List Scoped
  | [] => []
  | cte :: rest =>
    references (if recursive then (cteName cte.label).toList ++ scope else scope) cte ++
      cteReferences recursive ((cteName cte.label).toList ++ scope) rest

end

/-- SQL binds the reference to a CTE. -/
def Scoped.Bound (r : Scoped) : Prop :=
  r.ref.db = "" ∧ r.ref.catalog = "" ∧ lower r.ref.name ∈ r.scope

/-- The reference is left to the session defaults or to a CTE. -/
def TableName.Unqualified (ref : TableName) : Prop := ref.db = "" ∧ ref.catalog = ""

/-- The three places a physical reference may lead to. -/
def TableName.Qualified (params : GuardParams) (ref : TableName) : Prop :=
  (ref.catalog = params.catalog ∧ ref.db = params.tenantNs) ∨
    (ref.catalog = params.catalog ∧ ref.db ∉ denySchemas ∧
      ∃ s ∈ params.sharedSchemas, strip s ≠ "" ∧ ref.db = lower (strip s)) ∨
    ∃ target, params.scratch = some target ∧ ref.catalog = target.catalog ∧ ref.db = target.schema

/-- An emitted reference agrees with the scope of the reference it was made from. -/
structure ScopeCorrect (params : GuardParams) (input emitted : Scoped) : Prop where
  name_eq : emitted.ref.name = input.ref.name
  unqualified_iff : emitted.ref.Unqualified ↔ input.Bound
  qualified : ¬ input.Bound → emitted.ref.Qualified params

/-- Every bare reference that carries the name of a CTE of the tree is in that CTE's scope. -/
def CteNamesInScope (tree : SqlTree) : Prop :=
  ∀ r ∈ references [] tree, r.ref.Unqualified → lower r.ref.name ∈ cteNames tree →
    lower r.ref.name ∈ r.scope

/-- A child other than a `WITH` clause reads in the inner scope. -/
theorem childReferences_cons {child : SqlTree}
    (h : ∀ recursive ctes, child = .node (.withClause recursive) ctes → False)
    (inner outer : List String) (rest : List SqlTree) :
    childReferences inner outer (child :: rest) =
      references inner child ++ childReferences inner outer rest := by
  cases child with
  | node kind children =>
    cases kind with
    | withClause recursive => exact absurd rfl (h recursive children)
    | _ => rfl

/-- The references of a tree are the names of its table nodes, in textual order. -/
theorem references_refs (scope : List String) (tree : SqlTree) :
    (references scope tree).map (·.ref) =
      tree.subtrees.filterMap (fun node => tableOf node.label) := by
  refine references.induct
    (fun scope t => (references scope t).map (·.ref) =
      t.subtrees.filterMap (fun node => tableOf node.label))
    (fun inner outer ts => (childReferences inner outer ts).map (·.ref) =
      (RoseTree.subtreesOf ts).filterMap (fun node => tableOf node.label))
    (fun recursive scope ts => (cteReferences recursive scope ts).map (·.ref) =
      (RoseTree.subtreesOf ts).filterMap (fun node => tableOf node.label))
    ?node ?nil ?withClause ?child ?noCte ?cte scope tree
  case node =>
    intro scope kind children ih
    rw [references, List.map_append, ih, RoseTree.subtrees, List.filterMap_cons]
    cases kind <;> rfl
  case nil => exact fun _ _ => rfl
  case withClause =>
    intro inner outer recursive ctes rest ihctes ihrest
    rw [childReferences, List.map_append, ihctes, ihrest, RoseTree.subtreesOf, RoseTree.subtrees,
      List.filterMap_append, List.filterMap_cons]
    rfl
  case child =>
    intro inner outer child rest hchild ihchild ihrest
    rw [childReferences_cons hchild, List.map_append, ihchild, ihrest, RoseTree.subtreesOf,
      List.filterMap_append]
  case noCte => exact fun _ _ => rfl
  case cte =>
    intro recursive scope cte rest ihcte ihrest
    rw [cteReferences, List.map_append, ihcte, ihrest, RoseTree.subtreesOf,
      List.filterMap_append]

/-- Something holds of a reference of a tree exactly when it holds of one of its table nodes. -/
theorem exists_references {tree : SqlTree} {P : TableName → Prop} :
    (∃ r ∈ references [] tree, P r.ref) ↔
      ∃ node ∈ tree.subtrees, ∃ ref, node.label = .table ref ∧ P ref := by
  have htable (node : SqlTree) (ref : TableName) :
      tableOf node.label = some ref ↔ node.label = .table ref := by
    cases node.label <;> simp [tableOf]
  have hrefs : (∃ r ∈ references [] tree, P r.ref) ↔
      ∃ ref ∈ (references [] tree).map (·.ref), P ref := by
    simp
  rw [hrefs, references_refs]
  simp only [List.mem_filterMap, htable]
  constructor
  · rintro ⟨ref, ⟨node, hnode, href⟩, hP⟩
    exact ⟨node, hnode, ref, href, hP⟩
  · rintro ⟨node, hnode, ref, href, hP⟩
    exact ⟨ref, ⟨node, hnode, href⟩, hP⟩

/-- The references of an accepted tree all resolve. -/
theorem references_resolve {params : GuardParams} {tree : SqlTree} {guarded : GuardedQuery}
    (h : guardTree params tree = .ok guarded) {r : Scoped} (hr : r ∈ references [] tree) :
    ∃ resolution, resolveTable params (cteNames tree) r.ref = .ok resolution := by
  obtain ⟨node, hnode, ref, href, heq⟩ :=
    (exists_references (P := fun ref => ref = r.ref)).mp ⟨r, hr, rfl⟩
  rw [← heq]
  exact (guardTree_ok h).2.2 node hnode ref href

/-- A name in the scope of the children of a node was in scope from outside, or one of the children
declares it. -/
theorem mem_innerScope {scope : List String} {kind : Kind} {children : List SqlTree} {x : String}
    (hx : x ∈ innerScope scope kind children) :
    x ∈ scope ∨ x ∈ (RoseTree.subtreesOf children).flatMap declaredBy := by
  unfold innerScope at hx
  split at hx
  · simp at hx
  · rcases List.mem_append.mp hx with hdeclared | houter
    · obtain ⟨child, hchild, hx⟩ := List.mem_flatMap.mp hdeclared
      refine Or.inr (List.mem_flatMap.mpr ⟨child, ?_, hx⟩)
      rw [RoseTree.subtreesOf_eq]
      exact List.mem_flatMap.mpr ⟨child, hchild, RoseTree.self_mem_subtrees child⟩
    · exact Or.inl houter

/-- The names of a list of CTEs are the first one's and the others'. -/
theorem mem_cteNames_cons {cte : SqlTree} {rest : List SqlTree} {x : String} :
    x ∈ (cte :: rest).filterMap (fun t => cteName t.label) ↔
      x ∈ (cteName cte.label).toList ∨ x ∈ rest.filterMap (fun t => cteName t.label) := by
  cases h : cteName cte.label <;> simp [h]

/-- A name in the scope of a CTE's body was in scope before it, or is the CTE's own. -/
theorem mem_cteScope {recursive : Bool} {scope : List String} {cte : SqlTree} {x : String}
    (hx : x ∈ if recursive then (cteName cte.label).toList ++ scope else scope) :
    x ∈ scope ∨ x ∈ (cteName cte.label).toList := by
  cases recursive with
  | false => exact Or.inl hx
  | true => exact (List.mem_append.mp hx).symm

/-- A name in scope was in scope from outside, or some `WITH` clause of the tree declares it. -/
theorem references_scope {scope : List String} {tree : SqlTree} :
    ∀ r ∈ references scope tree, ∀ x ∈ r.scope,
      x ∈ scope ∨ x ∈ tree.subtrees.flatMap declaredBy := by
  refine references.induct
    (fun scope t => ∀ r ∈ references scope t, ∀ x ∈ r.scope,
      x ∈ scope ∨ x ∈ t.subtrees.flatMap declaredBy)
    (fun inner outer ts => ∀ r ∈ childReferences inner outer ts, ∀ x ∈ r.scope,
      x ∈ inner ∨ x ∈ outer ∨ x ∈ (RoseTree.subtreesOf ts).flatMap declaredBy)
    (fun recursive scope ts => ∀ r ∈ cteReferences recursive scope ts, ∀ x ∈ r.scope,
      x ∈ scope ∨ x ∈ ts.filterMap (fun t => cteName t.label) ∨
        x ∈ (RoseTree.subtreesOf ts).flatMap declaredBy)
    ?node ?nil ?withClause ?child ?noCte ?cte scope tree
  case node =>
    intro scope kind children ih r hr x hx
    rw [references, List.mem_append] at hr
    rcases hr with hown | hbelow
    · obtain ⟨ref, _, rfl⟩ := by simpa [ownReference] using hown
      exact Or.inl hx
    · rw [RoseTree.subtrees, List.flatMap_cons, List.mem_append]
      rcases ih r hbelow x hx with hinner | houter | hbelow
      · exact (mem_innerScope hinner).imp_right Or.inr
      · exact Or.inl houter
      · exact Or.inr (Or.inr hbelow)
  case nil => simp [childReferences]
  case withClause =>
    intro inner outer recursive ctes rest ihctes ihrest r hr x hx
    rw [childReferences, List.mem_append] at hr
    simp only [RoseTree.subtreesOf, RoseTree.subtrees, List.flatMap_append, List.flatMap_cons,
      List.mem_append]
    rcases hr with hr | hr
    · rcases ihctes r hr x hx with h | h | h
      · exact Or.inr (Or.inl h)
      · exact Or.inr (Or.inr (Or.inl (Or.inl h)))
      · exact Or.inr (Or.inr (Or.inl (Or.inr h)))
    · rcases ihrest r hr x hx with h | h | h
      · exact Or.inl h
      · exact Or.inr (Or.inl h)
      · exact Or.inr (Or.inr (Or.inr h))
  case child =>
    intro inner outer child rest hchild ihchild ihrest r hr x hx
    rw [childReferences_cons hchild, List.mem_append] at hr
    simp only [RoseTree.subtreesOf, List.flatMap_append, List.mem_append]
    rcases hr with hr | hr
    · exact (ihchild r hr x hx).imp_right (fun h => Or.inr (Or.inl h))
    · rcases ihrest r hr x hx with h | h | h
      · exact Or.inl h
      · exact Or.inr (Or.inl h)
      · exact Or.inr (Or.inr (Or.inr h))
  case noCte => simp [cteReferences]
  case cte =>
    intro recursive scope cte rest ihcte ihrest r hr x hx
    rw [cteReferences, List.mem_append] at hr
    simp only [RoseTree.subtreesOf, List.flatMap_append, List.mem_append,
      mem_cteNames_cons]
    rcases hr with hr | hr
    · rcases ihcte r hr x hx with h | h
      · exact (mem_cteScope h).elim Or.inl (fun hname => Or.inr (Or.inl (Or.inl hname)))
      · exact Or.inr (Or.inr (Or.inl h))
    · rcases ihrest r hr x hx with h | h | h
      · rcases List.mem_append.mp h with hname | houter
        · exact Or.inr (Or.inl (Or.inl hname))
        · exact Or.inl houter
      · exact Or.inr (Or.inl (Or.inr h))
      · exact Or.inr (Or.inr (Or.inr h))

/-- A table name after the guard. -/
def emittedName (params : GuardParams) (ctes : List String) (ref : TableName) : TableName :=
  match resolveTable params ctes ref with
  | .ok resolution => resolution.qualify params ref
  | .error _ => ref

/-- The guard replaces the label of a table node by its emitted name. -/
theorem rewriteKind_table (params : GuardParams) (ctes : List String) (ref : TableName) :
    rewriteKind params ctes (.table ref) = .table (emittedName params ctes ref) := by
  cases h : resolveTable params ctes ref <;> simp only [rewriteKind, emittedName, h]

/-- The guard changes no label but those of table nodes. -/
theorem rewriteKind_other {params : GuardParams} {ctes : List String} {kind : Kind}
    (h : tableOf kind = none) : rewriteKind params ctes kind = kind := by
  cases kind with
  | table ref => simp [tableOf] at h
  | _ => rfl

/-- The guard leaves the alias of a CTE alone. -/
theorem cteName_rewrite (params : GuardParams) (ctes : List String) (kind : Kind) :
    cteName (rewriteKind params ctes kind) = cteName kind := by
  cases kind with
  | table ref => rw [rewriteKind_table]; rfl
  | _ => rfl

/-- The guard leaves the declarations of a `WITH` clause alone. -/
theorem declaredBy_rewrite (params : GuardParams) (ctes : List String) (node : SqlTree) :
    declaredBy (node.map (rewriteKind params ctes)) = declaredBy node := by
  unfold declaredBy
  rw [RoseTree.label_map, RoseTree.children_map]
  cases hkind : node.label with
  | table ref => rw [rewriteKind_table]
  | withClause recursive =>
    rw [rewriteKind_other rfl]
    dsimp only
    rw [List.filterMap_map]
    congr 1
    funext child
    simp [cteName_rewrite]
  | _ => rfl

/-- The guard replaces the name of a reference and leaves its scope alone. -/
theorem ownReference_rewrite (params : GuardParams) (ctes scope : List String) (kind : Kind) :
    ownReference scope (rewriteKind params ctes kind) =
      (ownReference scope kind).map (fun r => ⟨emittedName params ctes r.ref, r.scope⟩) := by
  cases kind with
  | table ref => rw [rewriteKind_table]; rfl
  | _ => rfl

/-- The guard neither adds an `INTO` nor removes one. -/
theorem rewriteKind_eq_into {params : GuardParams} {ctes : List String} {kind : Kind} :
    rewriteKind params ctes kind = .into ↔ kind = .into := by
  cases kind with
  | table ref => rw [rewriteKind_table]; simp
  | _ => rw [rewriteKind_other rfl]

/-- The guard neither adds a `WITH` clause nor removes one. -/
theorem rewriteKind_eq_withClause {params : GuardParams} {ctes : List String} {kind : Kind}
    {recursive : Bool} :
    rewriteKind params ctes kind = .withClause recursive ↔ kind = .withClause recursive := by
  cases kind with
  | table ref => rw [rewriteKind_table]; simp
  | _ => rw [rewriteKind_other rfl]

/-- The guard leaves the scope of the children of a node alone. -/
theorem innerScope_rewrite (params : GuardParams) (ctes scope : List String) (kind : Kind)
    (children : List SqlTree) :
    innerScope scope (rewriteKind params ctes kind)
      (children.map (RoseTree.map (rewriteKind params ctes))) = innerScope scope kind children := by
  simp only [innerScope, rewriteKind_eq_into, List.flatMap_map, declaredBy_rewrite]

/-- The references of the emitted tree stand in the scopes of the original ones. -/
theorem references_rewrite (params : GuardParams) (ctes : List String) (scope : List String)
    (tree : SqlTree) :
    references scope (tree.map (rewriteKind params ctes)) =
      (references scope tree).map (fun r => ⟨emittedName params ctes r.ref, r.scope⟩) := by
  refine references.induct
    (fun scope t => references scope (t.map (rewriteKind params ctes)) =
      (references scope t).map (fun r => ⟨emittedName params ctes r.ref, r.scope⟩))
    (fun inner outer ts =>
      childReferences inner outer (ts.map (RoseTree.map (rewriteKind params ctes))) =
        (childReferences inner outer ts).map (fun r => ⟨emittedName params ctes r.ref, r.scope⟩))
    (fun recursive scope ts =>
      cteReferences recursive scope (ts.map (RoseTree.map (rewriteKind params ctes))) =
        (cteReferences recursive scope ts).map
          (fun r => ⟨emittedName params ctes r.ref, r.scope⟩))
    ?node ?nil ?withClause ?child ?noCte ?cte scope tree
  case node =>
    intro scope kind children ih
    rw [RoseTree.map, RoseTree.maps_eq, references, ownReference_rewrite, innerScope_rewrite, ih,
      references, List.map_append]
  case nil => exact fun _ _ => rfl
  case withClause =>
    intro inner outer recursive ctes' rest ihctes ihrest
    rw [List.map_cons, RoseTree.map, RoseTree.maps_eq, rewriteKind_other rfl, childReferences,
      ihctes, ihrest, childReferences, List.map_append]
  case child =>
    intro inner outer child rest hchild ihchild ihrest
    have hmapped : ∀ recursive ctes', child.map (rewriteKind params ctes) =
        .node (.withClause recursive) ctes' → False := by
      intro recursive ctes' heq
      have hlabel := congrArg RoseTree.label heq
      rw [RoseTree.label_map] at hlabel
      refine hchild recursive child.children ?_
      cases child with
      | node kind children =>
        have hkind : kind = .withClause recursive := rewriteKind_eq_withClause.mp hlabel
        rw [hkind]
        rfl
    rw [List.map_cons, childReferences_cons hmapped, childReferences_cons hchild, ihchild, ihrest,
      List.map_append]
  case noCte => exact fun _ _ => rfl
  case cte =>
    intro recursive scope cte rest ihcte ihrest
    rw [List.map_cons, cteReferences, RoseTree.label_map, cteName_rewrite, ihcte, ihrest,
      cteReferences, List.map_append]

/-- One reference of an accepted tree: it is left bare exactly when it has the name of some CTE
of the tree, and is qualified otherwise. -/
theorem emittedName_cases {params : GuardParams} (hns : params.tenantNs ≠ "")
    {ctes : List String} {ref : TableName} {r : Resolution}
    (h : resolveTable params ctes ref = .ok r) :
    ((ref.Unqualified ∧ lower ref.name ∈ ctes) ∧ emittedName params ctes ref = ref) ∨
      (¬ (ref.Unqualified ∧ lower ref.name ∈ ctes) ∧
        (emittedName params ctes ref).Qualified params ∧
        ¬ (emittedName params ctes ref).Unqualified) := by
  have hemitted : emittedName params ctes ref = r.qualify params ref := by
    simp only [emittedName, h]
  rw [hemitted]
  simp only [TableName.Unqualified, and_assoc]
  rcases resolveTable_ok h with ⟨hcte, rfl⟩ | ⟨hcte, hphysical⟩
  · exact Or.inl ⟨hcte.1, hcte.2.1, hcte.2.2, rfl⟩
  · refine Or.inr ⟨hcte, ?_⟩
    rcases hphysical with ⟨target, rfl, htarget, hcatalog⟩ | rfl | ⟨db, rfl, hdeny, hshared⟩
    · exact ⟨Or.inr (Or.inr ⟨target, htarget, rfl, rfl⟩), fun hbare => hcatalog hbare.2⟩
    · exact ⟨Or.inl ⟨rfl, rfl⟩, fun hbare => hns hbare.1⟩
    · obtain ⟨s, hs, hne, rfl⟩ := mem_sharedNames.mp hshared
      refine ⟨Or.inr (Or.inl ⟨rfl, hdeny, s, hs, hne, rfl⟩), fun hbare => ?_⟩
      exact hne (lower_eq_empty_iff.mp hbare.1)

variable [Sqlglot]

/-- Every reference of an accepted statement is emitted scope-correctly exactly when no bare
reference carries the name of a CTE outside that CTE's scope. -/
theorem validateSelect_scopeCorrect_iff {params : GuardParams} (hns : IsNamespace params.tenantNs)
    {sql : String} {guarded : GuardedQuery} (h : validateSelect params sql = .ok guarded) :
    ∃ tree, parseStatement sql = .ok tree ∧
      (List.Forall₂ (ScopeCorrect params) (references [] tree) (references [] guarded.tree) ↔
        CteNamesInScope tree) := by
  obtain ⟨tree, hparse, hguard⟩ := validateSelect_ok h
  obtain ⟨_, htree, _⟩ := guardTree_ok hguard
  have hne : params.tenantNs ≠ "" := by
    obtain ⟨rest, hrest, _⟩ := hns
    intro hempty
    simp [hempty] at hrest
  refine ⟨tree, hparse, ?_⟩
  rw [htree, references_rewrite, List.forall₂_map_right_iff, List.forall₂_same]
  constructor
  · intro hcorrect r hr hbare hname
    obtain ⟨resolution, hresolution⟩ := references_resolve hguard hr
    rcases emittedName_cases hne hresolution with ⟨_, hkept⟩ | ⟨hnot, _⟩
    · have hbound := (hcorrect r hr).unqualified_iff.mp (by rw [hkept]; exact hbare)
      exact hbound.2.2
    · exact absurd ⟨hbare, hname⟩ hnot
  · intro hscope r hr
    obtain ⟨resolution, hresolution⟩ := references_resolve hguard hr
    have hin (hbound : r.Bound) : r.ref.Unqualified ∧ lower r.ref.name ∈ cteNames tree := by
      refine ⟨⟨hbound.1, hbound.2.1⟩, ?_⟩
      rcases references_scope r hr _ hbound.2.2 with hnil | hdeclared
      · simp at hnil
      · obtain ⟨node, hnode, hname⟩ := List.mem_flatMap.mp hdeclared
        exact List.mem_flatMap.mpr ⟨node, RoseTree.mem_walk.mpr hnode, hname⟩
    have hname : (emittedName params (cteNames tree) r.ref).name = r.ref.name := by
      simp only [emittedName, hresolution, Resolution.qualify_name]
    rcases emittedName_cases hne hresolution with ⟨hcte, hkept⟩ | ⟨hnot, hqualified, hbare⟩
    · have hbound : r.Bound := ⟨hcte.1.1, hcte.1.2, hscope r hr hcte.1 hcte.2⟩
      exact ⟨hname, by simp [hkept, hbound, hcte.1], fun hunbound => absurd hbound hunbound⟩
    · have hunbound : ¬ r.Bound := fun hbound => hnot (hin hbound)
      exact ⟨hname, by simp [hbare, hunbound], fun _ => hqualified⟩

end

section

attribute [local instance] asciiPython

/-- A tenant without shared schemas and without a scratchpad. -/
def acmeParams : GuardParams where
  tenantNs := "t_acme"
  catalog := "iceberg"

/-- `WITH <name> AS (SELECT * FROM events) SELECT * FROM <name>`. -/
def cteOverEvents (name : String) : SqlTree :=
  .node .select (.node (.withClause false) [.node (.cte name) [.node .select
    (readStar { name := "events" })]] :: readStar { name := name })

/-- The text of `cteOverEvents`. -/
def cteOverEventsText (name : String) : String :=
  "WITH " ++ name ++ " AS (SELECT * FROM events) SELECT * FROM " ++ name

/-- When the CTE takes the name of the table it reads, the table reference inside it is emitted
bare, although the CTE is not yet in scope there. -/
theorem cteOverEvents_shadowed_not_scopeCorrect :
    let _ : Sqlglot := plainSqlglot [(cteOverEventsText "events", cteOverEvents "events")]
    ∃ guarded, validateSelect acmeParams (cteOverEventsText "events") = .ok guarded ∧
      ¬ List.Forall₂ (ScopeCorrect acmeParams) (references [] (cteOverEvents "events"))
        (references [] guarded.tree) := by
  intro _
  refine ⟨⟨cteOverEvents "events", [], []⟩, by rfl, fun hcorrect => ?_⟩
  have hinner : (⟨⟨"events", "", ""⟩, []⟩ : Scoped) ∈ references [] (cteOverEvents "events") := by
    rw [show references [] (cteOverEvents "events") =
      [⟨⟨"events", "", ""⟩, []⟩, ⟨⟨"events", "", ""⟩, ["events"]⟩] by rfl]
    exact List.mem_cons_self
  rw [List.forall₂_same] at hcorrect
  have hbound := (hcorrect _ hinner).unqualified_iff.mp ⟨rfl, rfl⟩
  simpa using hbound.2.2

/-- A CTE under a fresh name is qualified scope-correctly. -/
theorem cteOverEvents_fresh_scopeCorrect :
    let _ : Sqlglot := plainSqlglot [(cteOverEventsText "c", cteOverEvents "c")]
    ∃ guarded, validateSelect acmeParams (cteOverEventsText "c") = .ok guarded ∧
      List.Forall₂ (ScopeCorrect acmeParams) (references [] (cteOverEvents "c"))
        (references [] guarded.tree) := by
  intro _
  have hns : IsNamespace acmeParams.tenantNs := ⟨"acme".toList, rfl,
    List.all_eq_true.mp (by decide), by decide⟩
  have haccept : validateSelect acmeParams (cteOverEventsText "c") =
      .ok ⟨(cteOverEvents "c").map (rewriteKind acmeParams ["c"]), ["events"], []⟩ := by rfl
  obtain ⟨tree, hparse, hiff⟩ := validateSelect_scopeCorrect_iff hns haccept
  have htree : parseStatement (cteOverEventsText "c") = .ok (cteOverEvents "c") := by rfl
  rw [htree, Except.ok.injEq] at hparse
  subst hparse
  refine ⟨_, haccept, hiff.mpr ?_⟩
  have hrefs : references [] (cteOverEvents "c") =
      [⟨⟨"events", "", ""⟩, []⟩, ⟨⟨"c", "", ""⟩, ["c"]⟩] := by rfl
  intro r hr hbare hname
  rw [hrefs] at hr
  have hnames : cteNames (cteOverEvents "c") = ["c"] := by rfl
  rw [hnames] at hname
  rcases List.mem_cons.mp hr with rfl | hr
  · exact absurd hname (by decide)
  · rw [List.mem_singleton] at hr
    subst hr
    exact hname

end

end Memcove
