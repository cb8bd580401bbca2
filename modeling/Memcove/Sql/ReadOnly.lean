import Memcove.Sql.Scoping

/-!
# Which accepted statements only read

A statement that the guard accepts is executed exactly as it is emitted. The guard's deny-list
names some of the writing classes. An accepted tree is a pure read exactly when it has no node of
the others, which are `Into` and the statements that can only stand in the place of the query of a
CTE.
-/

namespace Memcove

open Trees

/-- The text has no verb of a writing statement anywhere. -/
def IsQuery (sql : List Token) : Prop := ∀ v, Token.verb v ∉ sql

/-- A table that some writing node of the tree has as its direct argument. -/
def WriteTarget (tree : SqlTree) (ref : TableName) : Prop :=
  ∃ node ∈ tree.subtrees, node.label.writes = true ∧
    ∃ child ∈ node.children, child.label = .table ref

/-- The query engine, as far as writes go: executing a query changes no table. -/
structure Engine (State : Type) where
  execute : List Token → State → State
  query_unchanged : ∀ sql state, IsQuery sql → execute sql state = state

/-- A guarded query is a pure read: its text is a query, nothing in its tree is a write target,
and executing it leaves the tables of every engine alone. -/
structure PureRead [Sqlglot] (guarded : GuardedQuery) : Prop where
  isQuery : IsQuery guarded.sql
  noTarget : ∀ ref, ¬ WriteTarget guarded.tree ref
  unchanged : ∀ (State : Type) (engine : Engine State) (state : State),
    engine.execute guarded.sql state = state

/-- The parser puts an ordinary table node below every `Into` node. -/
def IntoHasTable [Sqlglot] : Prop :=
  ∀ sql statements tree, Sqlglot.parse sql = .ok statements → some tree ∈ statements →
    ∀ node ∈ tree.subtrees, node.label = .into → ∃ child ∈ node.children, ∃ ref,
      child.label = .table ref

/-- A parsed statement is one of the trees that the parser returned. -/
theorem parseStatement_ok [Sqlglot] {sql : String} {tree : SqlTree}
    (h : parseStatement sql = .ok tree) :
    ∃ text statements, Sqlglot.parse text = .ok statements ∧ some tree ∈ statements := by
  unfold parseStatement at h
  dsimp only at h
  split at h
  · cases h
  · split at h
    · cases h
    · rename_i statements hparse
      split at h
      · rename_i single hsingle
        cases h
        have hmem : tree ∈ statements.filterMap id := by rw [hsingle]; exact List.mem_cons_self
        obtain ⟨entry, hentry, heq⟩ := List.mem_filterMap.mp hmem
        exact ⟨_, statements, hparse, by simpa [← heq] using hentry⟩
      · cases h

/-- The writing classes that the deny-list leaves out. -/
def missed : List Kind :=
  [.into, .multitableInserts, .copy, .loadData, .comment, .grant, .revoke, .analyze, .refresh,
    .cache, .uncache, .set, .use, .kill, .pragma, .transaction, .commit, .rollback]

/-- The deny-list and these are all writing classes. -/
theorem writes_iff {kind : Kind} : kind.writes = true ↔ kind ∈ missed ∨ kind ∈ forbidden := by
  have hperm : writing.Perm (missed ++ forbidden) := by decide
  rw [Kind.writes, List.contains_iff_mem, hperm.mem_iff, List.mem_append]

/-- In a tree without the forbidden classes only the missed ones write. -/
theorem writes_eq_false {kind : Kind} (hforbidden : kind ∉ forbidden) (hmissed : kind ∉ missed) :
    kind.writes = false := by
  rw [← Bool.not_eq_true, writes_iff]
  exact not_or.mpr ⟨hmissed, hforbidden⟩

section

variable [Python]

/-- The guard rejects every tree with a node of a writing class exactly when the class is not among
the missed ones. -/
theorem rejects_iff {kind : Kind} (hwrites : kind.writes = true) :
    (∀ (params : GuardParams) (tree : SqlTree), (∃ node ∈ tree.subtrees, node.label = kind) →
      ∀ guarded, guardTree params tree ≠ .ok guarded) ↔ kind ∉ missed := by
  constructor
  · intro hrejects hmissed
    -- a select above the statement, as above the query of a CTE
    have hnodes : ∀ node ∈ RoseTree.subtrees (.node .select [.node kind []]),
        node.label = .select ∨ node.label = kind := by
      simp [RoseTree.subtrees, RoseTree.subtreesOf, RoseTree.label]
    have hplain : ∀ kind ∈ .select :: missed, kind ∉ forbidden ∧ ∀ ref, kind ≠ .table ref := by
      simp [missed, forbidden]
    have hkinds {node : SqlTree}
        (hnode : node ∈ RoseTree.subtrees (.node .select [.node kind []])) :
        node.label ∈ .select :: missed := by
      rcases hnodes node hnode with h | h
      · rw [h]
        exact List.mem_cons_self
      · rw [h]
        exact List.mem_cons_of_mem _ hmissed
    have haccepts : Accepts ⟨"t_acme", "iceberg", [], none⟩ (.node .select [.node kind []]) := by
      refine ⟨checkReadOnly_of_free List.mem_cons_self
        (fun node hnode => (hplain _ (hkinds hnode)).1), fun node hnode ref href => ?_⟩
      exact ((hplain _ (hkinds hnode)).2 ref href).elim
    obtain ⟨guarded, hguarded⟩ := guardTree_accepts_iff.mpr haccepts
    refine hrejects _ _ ⟨.node kind [], ?_, rfl⟩ guarded hguarded
    exact RoseTree.mem_subtrees_of_child List.mem_cons_self (RoseTree.self_mem_subtrees _)
  · intro hmissed params tree hnode guarded hguarded
    obtain ⟨node, hnode, rfl⟩ := hnode
    obtain ⟨⟨_, hforbidden⟩, _⟩ := guardTree_ok hguarded
    exact hforbidden node hnode ((writes_iff.mp hwrites).resolve_left hmissed)

/-- The guard makes no node writing that was not, and the other way round. -/
theorem writes_rewrite (params : GuardParams) (ctes : List String) (kind : Kind) :
    (rewriteKind params ctes kind).writes = kind.writes := by
  cases kind with
  | table ref => rw [rewriteKind_table]; rfl
  | _ => rfl

/-- The table below an `Into` node is a write target of the emitted tree. The guard keeps the node
and only renames the table. -/
theorem into_target [Sqlglot] (hparser : IntoHasTable) (params : GuardParams) (ctes : List String)
    {sql : String} {tree node : SqlTree} (hparse : parseStatement sql = .ok tree)
    (hnode : node ∈ tree.subtrees) (hinto : node.label = .into) :
    ∃ ref, WriteTarget (tree.map (rewriteKind params ctes)) ref := by
  obtain ⟨text, statements, htext, hmem⟩ := parseStatement_ok hparse
  obtain ⟨child, hchild, ref, href⟩ := hparser text statements tree htext hmem node hnode hinto
  refine ⟨emittedName params ctes ref, node.map (rewriteKind params ctes), ?_, ?_,
    child.map (rewriteKind params ctes), ?_, ?_⟩
  · rw [RoseTree.subtrees_map]
    exact List.mem_map_of_mem hnode
  · rw [RoseTree.label_map, hinto]
    rfl
  · rw [RoseTree.children_map]
    exact List.mem_map_of_mem hchild
  · rw [RoseTree.label_map, href, rewriteKind_table]

/-- An accepted statement is a pure read exactly when its tree has no node of the missed
classes. -/
theorem validateSelect_pureRead_iff [Sqlglot] (hparser : IntoHasTable)
    (hprints : PrintsStatements) {params : GuardParams} {sql : String} {guarded : GuardedQuery}
    (h : validateSelect params sql = .ok guarded) :
    ∃ tree, parseStatement sql = .ok tree ∧
      (PureRead guarded ↔ ∀ node ∈ tree.subtrees, node.label ∉ missed) := by
  obtain ⟨tree, hparse, hguard⟩ := validateSelect_ok h
  obtain ⟨⟨_, hforbidden⟩, htree, _⟩ := guardTree_ok hguard
  refine ⟨tree, hparse, ?_, ?_⟩
  · intro hread node hnode hmissed
    by_cases hinto : node.label = .into
    · obtain ⟨ref, htarget⟩ := into_target hparser params _ hparse hnode hinto
      exact hread.noTarget ref (htree ▸ htarget)
    · -- a statement below the select is printed with its verb
      obtain ⟨v, hv⟩ : ∃ v, Token.verb v ∈ guarded.sql := by
        refine generate_verb hprints ⟨node.map (rewriteKind params (cteNames tree)), ?_, ?_, ?_⟩
        · rw [htree, RoseTree.subtrees_map]
          exact List.mem_map_of_mem hnode
        · rw [RoseTree.label_map, writes_rewrite]
          exact writes_iff.mpr (Or.inl hmissed)
        · rw [RoseTree.label_map, Ne, rewriteKind_eq_into]
          exact hinto
      exact hread.isQuery v hv
  · intro hmissed
    have hplain : ∀ node ∈ guarded.tree.subtrees, node.label.writes = false := by
      intro node hnode
      rw [htree, RoseTree.subtrees_map] at hnode
      obtain ⟨original, horiginal, rfl⟩ := List.mem_map.mp hnode
      rw [RoseTree.label_map, writes_rewrite]
      exact writes_eq_false (hforbidden original horiginal) (hmissed original horiginal)
    have hquery : IsQuery guarded.sql := generate_verb_free hplain
    refine ⟨hquery, ?_, fun State engine state => engine.query_unchanged _ _ hquery⟩
    rintro ref ⟨node, hnode, hwrites, _⟩
    rw [hplain node hnode] at hwrites
    cases hwrites

end

section

attribute [local instance] asciiPython

/-- `SELECT * INTO ref_market.x FROM events`. -/
def selectInto : SqlTree :=
  .node .select (.node .into [.node (.table { name := "x", db := "ref_market" }) []] ::
    readStar { name := "events" })

/-- An engine that knows the names of its tables and runs `CREATE TABLE … AS`. -/
def namesEngine : Engine (List (List Token)) where
  execute
    | .verb .create :: .text "TABLE" :: rest, tables =>
      rest.takeWhile (· != .text "AS") :: tables
    | _, tables => tables
  query_unchanged sql tables h := by
    split
    · exact absurd List.mem_cons_self (h .create)
    · rfl

/-- The guard accepts `SELECT … INTO` a table of a shared reference schema, and executing the
emitted text creates that table. -/
theorem selectInto_creates :
    let _ : Sqlglot := plainSqlglot [("SELECT * INTO ref_market.x FROM events", selectInto)]
    ∃ guarded, validateSelect { acmeParams with sharedSchemas := ["ref_market"] }
        "SELECT * INTO ref_market.x FROM events" = .ok guarded ∧
      [.text "iceberg", .text "ref_market", .text "x"] ∈ namesEngine.execute guarded.sql [] ∧
      ¬ PureRead guarded := by
  intro _
  refine ⟨⟨.node .select (.node .into [.node (.table ⟨"x", "ref_market", "iceberg"⟩) []] ::
    readStar ⟨"events", "t_acme", "iceberg"⟩), ["x", "events"], []⟩, by rfl, by decide, ?_⟩
  intro hread
  have hunchanged := hread.unchanged _ namesEngine []
  exact absurd hunchanged (by decide)

/-- Where the listed trees put a table below every `Into` node, so does the parser. -/
theorem plainSqlglot_intoHasTable {statements : List (String × SqlTree)}
    (h : ∀ statement ∈ statements, ∀ node ∈ statement.2.subtrees, node.label = .into →
      ∃ child ∈ node.children, ∃ ref, child.label = .table ref) :
    @IntoHasTable (plainSqlglot statements) := by
  intro sql result tree hparse hmem
  simp only [Sqlglot.parse] at hparse
  split at hparse
  · rename_i text listed hfind
    cases hparse
    rw [List.mem_singleton, Option.some.injEq] at hmem
    subst hmem
    exact h _ (List.mem_of_find?_eq_some hfind)
  · cases hparse

/-- A plain select is a pure read. -/
theorem readStar_pureRead :
    let _ : Sqlglot := eventsSqlglot
    ∃ guarded, validateSelect acmeParams "SELECT * FROM events" = .ok guarded ∧
      PureRead guarded := by
  intro _
  have haccept : validateSelect acmeParams "SELECT * FROM events" =
      .ok ⟨.node .select (readStar ⟨"events", "t_acme", "iceberg"⟩), ["events"], []⟩ := by rfl
  have hplain : ∀ node ∈ RoseTree.subtrees (.node .select (readStar { name := "events" })),
      node.label ∉ missed := by
    simp [readStar, missed, RoseTree.subtrees, RoseTree.subtreesOf, RoseTree.label]
  have hparser : IntoHasTable := plainSqlglot_intoHasTable (by
    intro statement hstatement node hnode hinto
    rw [List.mem_singleton] at hstatement
    subst hstatement
    exact absurd (hinto ▸ List.mem_cons_self) (hplain node hnode))
  obtain ⟨tree, hparse, hiff⟩ := validateSelect_pureRead_iff hparser
    plainSqlglot_printsStatements haccept
  have htree : parseStatement "SELECT * FROM events" =
      .ok (.node .select (readStar { name := "events" })) := by rfl
  rw [htree, Except.ok.injEq] at hparse
  subst hparse
  exact ⟨_, haccept, hiff.mpr hplain⟩

end

end Memcove
