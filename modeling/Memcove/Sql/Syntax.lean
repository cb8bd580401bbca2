import Memcove.Lib.Trees

/-!
# SQL syntax trees

The parser and the generator of the SQL library are not part of the repository, so a syntax tree
is any tree over the node classes that the guard distinguishes, and the two are the fields of
`Sqlglot`. What is fixed here is what the guard depends on: a table node holds its three name
parts, and the generator prints a `SELECT` with an `INTO` child as `CREATE TABLE … AS`.
-/

namespace Memcove

open Trees

/-- The name parts of a table node; a part that is absent is the empty text. -/
structure TableName where
  name : String
  db : String := ""
  catalog : String := ""
  deriving DecidableEq, Repr

/-- The class of a syntax node, with the arguments that the guard reads. -/
inductive Kind where
  | select | union | intersect | except | subquery
  | withClause (recursive : Bool)
  | cte (name : String)
  | table (ref : TableName)
  | into
  | insert | update | delete | merge | create | drop | alter | truncateTable | command
  | multitableInserts | copy | loadData | comment | grant | revoke | analyze | refresh
  | cache | uncache | set | use | kill | pragma | transaction | commit | rollback
  | other (className : String)
  deriving DecidableEq, Repr

/-- A syntax tree. -/
abbrev SqlTree := RoseTree Kind

/-- `type(node).__name__`. -/
def Kind.className : Kind → String
  | select => "Select"
  | union => "Union"
  | intersect => "Intersect"
  | except => "Except"
  | subquery => "Subquery"
  | withClause _ => "With"
  | cte _ => "CTE"
  | table _ => "Table"
  | into => "Into"
  | insert => "Insert"
  | update => "Update"
  | delete => "Delete"
  | merge => "Merge"
  | create => "Create"
  | drop => "Drop"
  | alter => "Alter"
  | truncateTable => "TruncateTable"
  | command => "Command"
  | multitableInserts => "MultitableInserts"
  | copy => "Copy"
  | loadData => "LoadData"
  | comment => "Comment"
  | grant => "Grant"
  | revoke => "Revoke"
  | analyze => "Analyze"
  | refresh => "Refresh"
  | cache => "Cache"
  | uncache => "Uncache"
  | set => "Set"
  | use => "Use"
  | kill => "Kill"
  | pragma => "Pragma"
  | transaction => "Transaction"
  | commit => "Commit"
  | rollback => "Rollback"
  | other className => className

/-- The tuple `_FORBIDDEN`. -/
def forbidden : List Kind :=
  [.insert, .update, .delete, .merge, .create, .drop, .alter, .truncateTable, .command]

/-- The tuple `_ALLOWED_TOP`. -/
def allowedTop : List Kind := [.select, .union, .intersect, .except, .subquery]

/-- The classes of the statements that are no queries, which change tables, permissions, the session
or the server, and `Into`. The parser reads any statement in the place of the query of a CTE. -/
def writing : List Kind :=
  [.into, .insert, .multitableInserts, .update, .delete, .merge, .copy, .loadData, .truncateTable,
    .create, .drop, .alter, .comment, .grant, .revoke, .analyze, .refresh, .cache, .uncache, .set,
    .use, .kill, .pragma, .transaction, .commit, .rollback, .command]

/-- The class is one of these. -/
def Kind.writes (kind : Kind) : Bool := writing.contains kind

/-- The verbs that open a writing statement. -/
inductive WriteVerb where
  | insert | update | delete | merge | copy | load | truncate | create | drop | alter | comment
  | grant | revoke | analyze | refresh | cache | uncache | set | use | kill | pragma | start
  | commit | rollback | command
  deriving DecidableEq, Repr

/-- The verb of a class of statements. -/
def Kind.verb : Kind → Option WriteVerb
  | insert | multitableInserts => some .insert
  | update => some .update
  | delete => some .delete
  | merge => some .merge
  | copy => some .copy
  | loadData => some .load
  | truncateTable => some .truncate
  | create => some .create
  | drop => some .drop
  | alter => some .alter
  | comment => some .comment
  | grant => some .grant
  | revoke => some .revoke
  | analyze => some .analyze
  | refresh => some .refresh
  | cache => some .cache
  | uncache => some .uncache
  | set => some .set
  | use => some .use
  | kill => some .kill
  | pragma => some .pragma
  | transaction => some .start
  | commit => some .commit
  | rollback => some .rollback
  | command => some .command
  | _ => none

/-- Every class of statements has a verb. -/
theorem verb_ne_none : ∀ kind ∈ writing, kind ≠ .into → kind.verb ≠ none := by decide

/-- The other classes have none. -/
theorem verb_eq_none {kind : Kind} (h : kind.writes = false) : kind.verb = none := by
  cases kind <;> first | rfl | cases h

/-- A piece of SQL text: a verb that opens a writing statement, or anything else. -/
inductive Token where
  | verb (v : WriteVerb)
  | text (s : String)
  deriving DecidableEq, Repr

/-- The SQL library: its parser, and how its generator prints a node from the classes and the
printed texts of its children. Only the writing classes print the verb of a writing statement. -/
class Sqlglot where
  parse : String → Except String (List (Option SqlTree))
  frame : Kind → List (Kind × List Token) → List Token
  frame_verbs : ∀ kind children v, kind.writes = false → Token.verb v ∈ frame kind children →
    ∃ child ∈ children, Token.verb v ∈ child.2

section

variable [Sqlglot]

/-- The generator prints a writing statement with its verb, and every node with the verbs below
it. -/
structure PrintsStatements : Prop where
  verb : ∀ kind children, kind.writes = true → kind ≠ .into →
    ∃ v, Token.verb v ∈ Sqlglot.frame kind children
  keeps : ∀ kind (children : List (Kind × List Token)), ∀ child ∈ children,
    ∀ v, Token.verb v ∈ child.2 → Token.verb v ∈ Sqlglot.frame kind children

/-- How one node is printed. A select with an `Into` child becomes `CREATE TABLE <target> AS`
followed by the select without that child. -/
def generateNode (kind : Kind) (children : List (Kind × List Token)) : List Token :=
  match kind with
  | .into => (children.map (·.2)).flatten
  | .select =>
    let targets := children.filter (fun child => child.1 == .into)
    let others := children.filter (fun child => child.1 != .into)
    if targets.isEmpty then Sqlglot.frame .select others
    else [.verb .create, .text "TABLE"] ++ (targets.map (·.2)).flatten ++
      .text "AS" :: Sqlglot.frame .select others
  | kind => Sqlglot.frame kind children

/-- `tree.sql(dialect="trino")`. -/
def generate (tree : SqlTree) : List Token := tree.fold generateNode

/-- A node outside the writing classes and without an `Into` child adds no verb. -/
theorem generateNode_verb {kind : Kind} {children : List (Kind × List Token)} {v : WriteVerb}
    (hkind : kind.writes = false) (hchildren : ∀ child ∈ children, child.1 ≠ .into)
    (h : Token.verb v ∈ generateNode kind children) :
    ∃ child ∈ children, Token.verb v ∈ child.2 := by
  have htargets : children.filter (fun child => child.1 == .into) = [] := by
    simpa [List.filter_eq_nil_iff] using hchildren
  have hothers : children.filter (fun child => child.1 != .into) = children := by
    simpa [List.filter_eq_self] using hchildren
  unfold generateNode at h
  simp only [htargets, hothers, List.isEmpty_nil, if_true] at h
  split at h
  · cases hkind
  · exact Sqlglot.frame_verbs _ _ v rfl h
  · exact Sqlglot.frame_verbs _ _ v hkind h

/-- A tree without writing nodes prints no verb of a writing statement. -/
theorem generate_verb_free {tree : SqlTree}
    (h : ∀ node ∈ tree.subtrees, node.label.writes = false) (v : WriteVerb) :
    Token.verb v ∉ generate tree := by
  refine RoseTree.fold_induct (f := generateNode)
    (Q := fun t tokens => (∀ node ∈ t.subtrees, node.label.writes = false) →
      Token.verb v ∉ tokens) ?_ tree h
  intro kind children ih hplain hmem
  have hroot := hplain _ (RoseTree.self_mem_subtrees _)
  have hchild (c : SqlTree) (hc : c ∈ children) :
      ∀ node ∈ c.subtrees, node.label.writes = false :=
    fun node hnode => hplain node (RoseTree.mem_subtrees_of_child hc hnode)
  obtain ⟨printed, hprinted, hv⟩ := generateNode_verb hroot (by
    intro printed hprinted
    obtain ⟨c, hc, rfl⟩ := List.mem_map.mp hprinted
    intro hinto
    have hwrites := hchild c hc c (RoseTree.self_mem_subtrees c)
    rw [show c.label = .into from hinto] at hwrites
    cases hwrites) hmem
  obtain ⟨c, hc, rfl⟩ := List.mem_map.mp hprinted
  exact ih c hc (hchild c hc) hv

/-- A node prints a verb that is printed below it. -/
theorem generateNode_keeps (hprints : PrintsStatements) {kind : Kind}
    {children : List (Kind × List Token)} {child : Kind × List Token} (hchild : child ∈ children)
    {v : WriteVerb} (h : Token.verb v ∈ child.2) :
    ∃ v, Token.verb v ∈ generateNode kind children := by
  cases kind with
  | into => exact ⟨v, List.mem_flatten.mpr ⟨_, List.mem_map_of_mem hchild, h⟩⟩
  | select =>
    by_cases htargets : children.filter (fun child => child.1 == .into) = []
    · have hothers : children.filter (fun child => child.1 != .into) = children := by
        simpa [List.filter_eq_nil_iff, List.filter_eq_self] using htargets
      simp only [generateNode, htargets, hothers, List.isEmpty_nil, if_true]
      exact ⟨v, hprints.keeps .select children child hchild v h⟩
    · -- the target makes it a statement that creates a table
      refine ⟨.create, ?_⟩
      simp [generateNode, htargets]
  | _ => exact ⟨v, hprints.keeps _ children child hchild v h⟩

/-- A tree with a writing statement prints a verb. -/
theorem generate_verb (hprints : PrintsStatements) {tree : SqlTree}
    (h : ∃ node ∈ tree.subtrees, node.label.writes = true ∧ node.label ≠ .into) :
    ∃ v, Token.verb v ∈ generate tree := by
  refine RoseTree.fold_induct (f := generateNode)
    (Q := fun t tokens => (∃ node ∈ t.subtrees, node.label.writes = true ∧ node.label ≠ .into) →
      ∃ v, Token.verb v ∈ tokens) ?_ tree h
  rintro kind children ih ⟨node, hnode, hwrites, hinto⟩
  rcases RoseTree.mem_subtrees.mp hnode with rfl | ⟨child, hchild, hbelow⟩
  · cases kind with
    | into => exact absurd rfl hinto
    | select => cases hwrites
    | _ => exact hprints.verb _ _ hwrites hinto
  · obtain ⟨v, hv⟩ := ih child hchild ⟨node, hbelow, hwrites, hinto⟩
    exact generateNode_keeps hprints (List.mem_map_of_mem hchild) hv

end

/-- The name parts of a table as they are printed. -/
def printName (ref : TableName) : List Token :=
  [ref.catalog, ref.db, ref.name].filter (· != "") |>.map .text

/-- How the generator prints the classes of a plain `SELECT * FROM`, and the verbs of statements. -/
def plainFrame (kind : Kind) (children : List (Kind × List Token)) : List Token :=
  let isWith (child : Kind × List Token) := child.1.className == "With"
  match kind with
  | .select => (children.filter isWith).flatMap (·.2) ++
      .text "SELECT" :: (children.filter (!isWith ·)).flatMap (·.2)
  | .withClause recursive => .text "WITH" :: (if recursive then [.text "RECURSIVE"] else []) ++
      children.flatMap (·.2)
  | .cte name => [.text name, .text "AS", .text "("] ++ children.flatMap (·.2) ++ [.text ")"]
  | .table ref => printName ref ++ children.flatMap (·.2)
  | .other "Star" => .text "*" :: children.flatMap (·.2)
  | .other "From" => .text "FROM" :: children.flatMap (·.2)
  | kind => (kind.verb.map Token.verb).toList ++ children.flatMap (·.2)

/-- The SQL library on a fixed list of statements made of those classes. -/
@[reducible] def plainSqlglot (statements : List (String × SqlTree)) : Sqlglot where
  parse sql :=
    match statements.find? (fun statement => statement.1 == sql) with
    | some (_, tree) => .ok [some tree]
    | none => .error "Invalid expression / Unexpected token"
  frame := plainFrame
  frame_verbs kind children v hkind h := by
    unfold plainFrame printName at h
    split at h <;> simp [verb_eq_none hkind] at h <;> grind

/-- That library prints every statement with its verb. -/
theorem plainSqlglot_printsStatements {statements : List (String × SqlTree)} :
    @PrintsStatements (plainSqlglot statements) := by
  refine @PrintsStatements.mk (plainSqlglot statements) (fun kind children hwrites hinto => ?_)
    (fun kind children child hchild v hv => ?_)
  · have hverb := verb_ne_none kind (List.contains_iff_mem.mp hwrites) hinto
    obtain ⟨v, hv⟩ := Option.ne_none_iff_exists'.mp hverb
    refine ⟨v, ?_⟩
    change Token.verb v ∈ plainFrame kind children
    unfold plainFrame
    split
    all_goals first | cases hv | simp [hv]
  · have hmem : Token.verb v ∈ children.flatMap (·.2) := List.mem_flatMap.mpr ⟨child, hchild, hv⟩
    change Token.verb v ∈ plainFrame kind children
    unfold plainFrame
    split
    · -- the clause of the CTEs comes first, the others after the keyword
      by_cases hwith : (child.1.className == "With") = true
      · refine List.mem_append_left _ (List.mem_flatMap.mpr ⟨child, ?_, hv⟩)
        exact List.mem_filter.mpr ⟨hchild, hwith⟩
      · refine List.mem_append_right _ (List.mem_cons_of_mem _
          (List.mem_flatMap.mpr ⟨child, ?_, hv⟩))
        exact List.mem_filter.mpr ⟨hchild, by simpa using hwith⟩
    all_goals simp only [List.mem_append, List.mem_cons, hmem, or_true, true_or]

/-- The arguments of `SELECT * FROM <ref>`. -/
def readStar (ref : TableName) : List SqlTree :=
  [.node (.other "Star") [], .node (.other "From") [.node (.table ref) []]]

/-- The SQL library on `SELECT * FROM events` alone. -/
@[reducible] def eventsSqlglot : Sqlglot :=
  plainSqlglot [("SELECT * FROM events", .node .select (readStar { name := "events" }))]

end Memcove
