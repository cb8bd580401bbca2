import Memcove.Sql.Scoping
import Memcove.Tools.FrontEnds

/-!
# Recorded SQL

`derive_object` records the text that the guard emits. Guarded again under the same arguments, that
text is the same query, except where it was written with the scratch alias: the alias is rewritten
to the scratch catalog, which the guard never accepts by name as a scratch reference.
-/

namespace Memcove

open Trees

/-- The verb as it is printed. -/
def WriteVerb.keyword : WriteVerb → String
  | insert => "INSERT"
  | update => "UPDATE"
  | delete => "DELETE"
  | merge => "MERGE"
  | copy => "COPY"
  | load => "LOAD"
  | create => "CREATE"
  | drop => "DROP"
  | alter => "ALTER"
  | truncate => "TRUNCATE"
  | comment => "COMMENT"
  | grant => "GRANT"
  | revoke => "REVOKE"
  | analyze => "ANALYZE"
  | refresh => "REFRESH"
  | cache => "CACHE"
  | uncache => "UNCACHE"
  | set => "SET"
  | use => "USE"
  | kill => "KILL"
  | pragma => "PRAGMA"
  | start => "START"
  | commit => "COMMIT"
  | rollback => "ROLLBACK"
  | command => "COMMAND"

/-- The characters of a piece of SQL text. -/
def Token.chars : Token → String
  | verb v => v.keyword
  | text s => s

/-- A printed statement as one text. -/
def sqlText (tokens : List Token) : String := " ".intercalate (tokens.map Token.chars)

/-- A namespace is not a restricted schema. -/
theorem namespace_notMem_denySchemas {tenant : String} (h : IsNamespace tenant) :
    tenant ∉ denySchemas := by
  obtain ⟨rest, htext, _⟩ := h
  intro hmem
  have hhead : ∀ s ∈ denySchemas, s.toList.take 2 ≠ ['t', '_'] := by decide
  exact hhead tenant hmem (by rw [htext]; rfl)

/-- A reference that names a catalog is no scratch reference. -/
theorem scratchReference_of_catalog {params : GuardParams} {db cat : String} (h : cat ≠ "") :
    scratchReference params db cat = none := by
  rw [scratchReference, Option.filter_eq_none_iff]
  intro target _
  simp [h]

/-- A reference to another schema than the alias is no scratch reference. -/
theorem scratchReference_of_db {params : GuardParams} {db cat : String} (h : db ≠ scratchAlias) :
    scratchReference params db cat = none := by
  rw [scratchReference, Option.filter_eq_none_iff]
  intro target _
  simp [h]

section

variable [Python]

/-- Some table node of the tree is read in the scratchpad. -/
def HasScratchReference (params : GuardParams) (tree : SqlTree) : Prop :=
  ∃ node ∈ tree.subtrees, ∃ ref, node.label = .table ref ∧ InScratch params (cteNames tree) ref

/-- The guard accepts its own output, and returns it with the same labels. -/
def Replays [Sqlglot] (params : GuardParams) (guarded : GuardedQuery) : Prop :=
  ∃ again, validateSelect params (sqlText guarded.sql) = .ok again ∧ again.sql = guarded.sql ∧
    again.referencedLabels = guarded.referencedLabels ∧ again.scratchLabels = guarded.scratchLabels

variable {params : GuardParams} {ctes : List String} {ref : TableName}

/-- A reference that leads to the lakehouse leads to the same place once it is qualified. -/
theorem resolveLakehouse_qualified (hns : IsNamespace params.tenantNs) {name db cat : String}
    {r : Resolution} (hscratch : scratchReference params db cat = none)
    (hdb : lower db = db) (h : resolveLakehouse params name db cat = .ok r) :
    ∃ db', r = .lakehouse db' ∧ db' ≠ "" ∧ lower db' = db' ∧
      scratchReference params db' (lower params.catalog) = none ∧
      resolveLakehouse params name db' (lower params.catalog) = .ok r := by
  obtain ⟨hlower, halias⟩ := namespace_ne_scratchAlias hns
  have hne : params.tenantNs ≠ "" := by
    obtain ⟨rest, hrest, _⟩ := hns
    intro hempty
    simp [hempty] at hrest
  unfold resolveLakehouse at h
  split at h
  · cases h
  · rename_i hcat
    split at h
    · cases h
    · rename_i hdeny
      split at h
      · cases h
        refine ⟨_, rfl, hne, hlower, scratchReference_of_db halias, ?_⟩
        simp [resolveLakehouse, namespace_notMem_denySchemas hns, hlower]
      · rename_i hown
        split at h
        · rename_i hshared
          cases h
          have hkept : scratchReference params db (lower params.catalog) = none := by
            by_cases hempty : lower params.catalog = ""
            · have hnone : cat = "" := by
                by_contra hcatne
                exact hcat ⟨hcatne, fun heq => hcatne (heq.trans hempty)⟩
              rw [hempty, ← hnone]
              exact hscratch
            · exact scratchReference_of_catalog hempty
          refine ⟨db, rfl, fun hempty => hown (Or.inl hempty), hdb, hkept, ?_⟩
          simp only [resolveLakehouse, ne_eq, not_true_eq_false, and_false, if_false,
            if_neg hdeny, if_neg hown, if_pos hshared]
        · cases h

/-- A reference outside the scratchpad is resolved the same way once it is rewritten. -/
theorem resolveTable_emittedName (hns : IsNamespace params.tenantNs) {r : Resolution}
    (hnot : ¬ InScratch params ctes ref) (h : resolveTable params ctes ref = .ok r) :
    resolveTable params ctes (emittedName params ctes ref) = .ok r ∧
      ∀ target, r ≠ .scratch target := by
  have hemitted : emittedName params ctes ref = r.qualify params ref := by
    simp only [emittedName, h]
  rw [hemitted]
  by_cases hcte : ref.db = "" ∧ ref.catalog = "" ∧ lower ref.name ∈ ctes
  · have hr : resolveTable params ctes ref = .ok .cteReference := by
      simp only [resolveTable, lower_eq_empty_iff, if_pos hcte]
    rw [h, Except.ok.injEq] at hr
    subst hr
    refine ⟨h, ?_⟩
    rintro _ ⟨⟩
  · have hname : ref.name ≠ "" := by
      intro hempty
      simp only [resolveTable, lower_eq_empty_iff, if_neg hcte, if_pos hempty] at h
      cases h
    have hnone : scratchReference params (lower ref.db) (lower ref.catalog) = none := by
      rw [Option.eq_none_iff_forall_ne_some]
      exact fun target htarget => hnot ⟨hcte, hname, target, htarget⟩
    simp only [resolveTable, lower_eq_empty_iff, if_neg hcte, if_neg hname, hnone] at h
    obtain ⟨db, rfl, hne, hlower, hscratch, hagain⟩ :=
      resolveLakehouse_qualified hns hnone (Python.lower_lower _) h
    have hbare : ¬ (db = "" ∧ params.catalog = "" ∧ lower ref.name ∈ ctes) :=
      fun hbare => hne hbare.1
    constructor
    · simp only [Resolution.qualify, resolveTable, lower_eq_empty_iff, if_neg hbare,
        if_neg hname, hlower, hscratch, hagain]
    · rintro _ ⟨⟩

/-- A scratch reference is no scratch reference once it is rewritten. -/
theorem resolveTable_emittedName_ne (hns : IsNamespace params.tenantNs) {r : Resolution}
    (h : resolveTable params ctes ref = .ok r) (target : ScratchTarget) :
    resolveTable params ctes (emittedName params ctes ref) ≠ .ok (.scratch target) := by
  by_cases hin : InScratch params ctes ref
  · obtain ⟨own, hsome, _, _, hown⟩ := resolveTable_inScratch hin
    have hcatalog : own.catalog ≠ "" := by
      obtain ⟨_, _, found, hfound⟩ := hin
      obtain ⟨hscratch, hcond⟩ := Option.filter_eq_some_iff.mp hfound
      rw [hsome, Option.some.injEq] at hscratch
      simp only [Bool.and_eq_true, bne_iff_ne] at hcond
      exact hscratch ▸ hcond.1.1
    intro hagain
    simp only [emittedName, hown, Resolution.qualify] at hagain
    rcases resolveTable_ok hagain with ⟨_, hr⟩ | ⟨hcte, _⟩
    · cases hr
    · unfold resolveTable at hagain
      simp only [lower_eq_empty_iff, if_neg hcte,
        scratchReference_of_catalog (fun hempty => hcatalog (lower_eq_empty_iff.mp hempty))]
        at hagain
      split at hagain
      · cases hagain
      · rcases resolveLakehouse_ok hagain with hr | ⟨hr, _⟩ <;> cases hr
  · obtain ⟨hagain, hne⟩ := resolveTable_emittedName hns hin h
    rw [hagain]
    intro heq
    cases heq
    exact hne target rfl

omit [Python] in
/-- Qualifying a reference twice is qualifying it once. -/
theorem Resolution.qualify_qualify (r : Resolution) :
    r.qualify params (r.qualify params ref) = r.qualify params ref := by
  cases r <;> rfl

/-- The emitted name is the given one. -/
theorem emittedName_name : (emittedName params ctes ref).name = ref.name := by
  unfold emittedName
  split
  · exact Resolution.qualify_name params ref _
  · rfl

/-- The guard leaves the declared CTE names alone. -/
theorem cteNames_rewrite (tree : SqlTree) :
    cteNames (tree.map (rewriteKind params ctes)) = cteNames tree := by
  rw [cteNames, RoseTree.walk_map, List.flatMap_map, cteNames]
  exact List.flatMap_congr (fun node _ => declaredBy_rewrite params ctes node)

/-- The guard turns only table nodes into table nodes. -/
theorem rewriteKind_eq_iff {kind other : Kind} (h : tableOf other = none) :
    rewriteKind params ctes kind = other ↔ kind = other := by
  cases hkind : tableOf kind with
  | none => rw [rewriteKind_other hkind]
  | some found =>
    have htable : kind = .table found := by
      cases kind <;> simp_all [tableOf]
    subst htable
    rw [rewriteKind_table]
    constructor
    · rintro rfl
      simp [tableOf] at h
    · rintro rfl
      simp [tableOf] at h

/-- Where no forbidden node was found, none is found after the guard. -/
theorem rejectForbidden_rewrite {tree : SqlTree} {kinds : List Kind}
    (hkinds : ∀ kind ∈ kinds, tableOf kind = none)
    (h : ∀ node ∈ tree.subtrees, node.label ∉ kinds) :
    rejectForbidden (tree.map (rewriteKind params ctes)) kinds = .ok () := by
  induction kinds with
  | nil => rfl
  | cons kind rest ih =>
    have hnone : (tree.map (rewriteKind params ctes)).walk.find?
        (fun node => node.label == kind) = none := by
      rw [RoseTree.walk_map, List.find?_eq_none]
      intro node hnode
      obtain ⟨original, horiginal, rfl⟩ := List.mem_map.mp hnode
      rw [RoseTree.label_map, beq_iff_eq,
        rewriteKind_eq_iff (hkinds kind List.mem_cons_self)]
      intro heq
      exact h original (RoseTree.mem_walk.mp horiginal) (heq ▸ List.mem_cons_self)
    simp only [rejectForbidden, hnone]
    exact ih (fun other hother => hkinds other (List.mem_cons_of_mem _ hother))
      (fun node hnode hmem => h node hnode (List.mem_cons_of_mem _ hmem))

/-- A pure read is a pure read after the guard. -/
theorem checkReadOnly_rewrite {tree : SqlTree} (h : checkReadOnly tree = .ok ()) :
    checkReadOnly (tree.map (rewriteKind params ctes)) = .ok () := by
  obtain ⟨htop, hforbidden⟩ := checkReadOnly_ok h
  have hplain : ∀ kind ∈ allowedTop ++ forbidden, tableOf kind = none := by decide
  have hroot : (tree.map (rewriteKind params ctes)).label = tree.label := by
    rw [RoseTree.label_map]
    exact rewriteKind_other (hplain _ (List.mem_append_left _ htop))
  rw [checkReadOnly, hroot, if_neg (not_not.mpr htop)]
  exact rejectForbidden_rewrite
    (fun kind hkind => hplain kind (List.mem_append_right _ hkind)) hforbidden

variable (params) in
/-- The loop collects the same labels from table nodes that resolve the same way once they are
rewritten. -/
theorem resolveTables_rewrite {nodes : List SqlTree}
    (h : ∀ node ∈ nodes, ∀ ref, node.label = .table ref →
      resolveTable params ctes (emittedName params ctes ref) = resolveTable params ctes ref)
    (labels : List String × List String) :
    resolveTables params ctes (nodes.map (RoseTree.map (rewriteKind params ctes))) labels =
      resolveTables params ctes nodes labels := by
  induction nodes generalizing labels with
  | nil => rfl
  | cons node rest ih =>
    have hrest := ih (fun node hnode => h node (List.mem_cons_of_mem _ hnode))
    rw [List.map_cons]
    cases hkind : node.label with
    | table ref =>
      simp only [resolveTables, RoseTree.label_map, hkind, rewriteKind_table,
        h node List.mem_cons_self ref hkind, emittedName_name, hrest]
    | _ => simp only [resolveTables, RoseTree.label_map, hkind, rewriteKind, hrest]

variable {tree : SqlTree} {guarded : GuardedQuery}

/-- Without scratch references the guard returns its own output unchanged. -/
theorem guardTree_again (hns : IsNamespace params.tenantNs)
    (h : guardTree params tree = .ok guarded) (hnone : ¬ HasScratchReference params tree) :
    guardTree params guarded.tree = .ok guarded := by
  obtain ⟨_, htree, hresolve⟩ := guardTree_ok h
  obtain ⟨⟨⟩, hread, htables⟩ := bind_eq_ok h
  obtain ⟨labels, hlabels, hguarded⟩ := bind_eq_ok htables
  have hsame : ∀ node ∈ tree.subtrees, ∀ ref, node.label = .table ref →
      resolveTable params (cteNames tree) (emittedName params (cteNames tree) ref) =
        resolveTable params (cteNames tree) ref := by
    intro node hnode ref href
    obtain ⟨r, hr⟩ := hresolve node hnode ref href
    rw [hr]
    exact (resolveTable_emittedName hns (fun hin => hnone ⟨node, hnode, ref, href, hin⟩) hr).1
  have htwice : (tree.map (rewriteKind params (cteNames tree))).map
      (rewriteKind params (cteNames tree)) = tree.map (rewriteKind params (cteNames tree)) := by
    rw [RoseTree.map_map, RoseTree.map_eq_map_iff]
    intro node hnode
    rw [Function.comp_apply]
    cases hkind : node.label with
    | table ref =>
      obtain ⟨r, hr⟩ := hresolve node hnode ref hkind
      have hagain := hsame node hnode ref hkind
      rw [hr] at hagain
      have hemitted : emittedName params (cteNames tree) ref = r.qualify params ref := by
        simp only [emittedName, hr]
      rw [rewriteKind_table, rewriteKind_table, Kind.table.injEq]
      conv_lhs => rw [emittedName, hagain]
      rw [hemitted]
      exact Resolution.qualify_qualify r
    | _ => rfl
  have hloop := resolveTables_rewrite params
    (fun node hnode => hsame node (RoseTree.mem_walk.mp hnode)) ([], [])
  cases hguarded
  simp only [guardTree, checkReadOnly_rewrite hread, cteNames_rewrite, RoseTree.walk_map, hloop,
    hlabels, htwice]
  rfl

/-- The scratch labels of an accepted tree are the names of its scratch references. -/
theorem scratchLabels_eq_nil_iff (h : guardTree params tree = .ok guarded) :
    guarded.scratchLabels = [] ↔ ∀ node ∈ tree.subtrees, ∀ ref, node.label = .table ref →
      ∀ target, resolveTable params (cteNames tree) ref ≠ .ok (.scratch target) := by
  obtain ⟨_, _, htables⟩ := bind_eq_ok h
  obtain ⟨labels, hlabels, hguarded⟩ := bind_eq_ok htables
  cases hguarded
  rw [List.eq_nil_iff_forall_not_mem]
  simp only [mem_resolveTables_scratch hlabels, RoseTree.mem_walk, List.not_mem_nil, false_or]
  constructor
  · intro hnone node hnode ref href target hr
    exact hnone _ ⟨node, hnode, ref, target, href, hr, rfl⟩
  · rintro hnone name ⟨node, hnode, ref, target, href, hr, _⟩
    exact hnone node hnode ref href target hr

variable [Sqlglot]

/-- A recorded statement is replayed to the same query and the same labels if and only if it was
written without the scratch alias. -/
theorem validateSelect_replays_iff (hns : IsNamespace params.tenantNs) {sql : String}
    (h : validateSelect params sql = .ok guarded)
    (hparse : parseStatement (sqlText guarded.sql) = .ok guarded.tree) :
    ∃ tree, parseStatement sql = .ok tree ∧
      (Replays params guarded ↔ ¬ HasScratchReference params tree) := by
  obtain ⟨tree, htree, hguard⟩ := validateSelect_ok h
  have hagain : validateSelect params (sqlText guarded.sql) = guardTree params guarded.tree := by
    rw [validateSelect, hparse]
    rfl
  refine ⟨tree, htree, ?_, ?_⟩
  · rintro ⟨again, hvalidate, _, _, hlabels⟩ ⟨node, hnode, ref, href, hin⟩
    rw [hagain] at hvalidate
    obtain ⟨_, hemitted, hresolve⟩ := guardTree_ok hguard
    have hempty : again.scratchLabels = [] := by
      rw [scratchLabels_eq_nil_iff hvalidate, hemitted, cteNames_rewrite]
      intro emitted hmem emittedRef hlabel target
      rw [RoseTree.subtrees_map] at hmem
      obtain ⟨original, horiginal, rfl⟩ := List.mem_map.mp hmem
      rw [RoseTree.label_map] at hlabel
      cases hkind : original.label with
      | table name =>
        rw [hkind, rewriteKind_table, Kind.table.injEq] at hlabel
        obtain ⟨r, hr⟩ := hresolve original horiginal name hkind
        rw [← hlabel]
        exact resolveTable_emittedName_ne hns hr target
      | _ =>
        rw [hkind, rewriteKind_other rfl] at hlabel
        cases hlabel
    obtain ⟨target, _, _, _, hscratch⟩ := resolveTable_inScratch hin
    exact (scratchLabels_eq_nil_iff hguard).mp (hlabels ▸ hempty) node hnode ref href target
      hscratch
  · intro hnone
    exact ⟨guarded, hagain.trans (guardTree_again hns hguard hnone), rfl, rfl, rfl⟩

end

/-- The SQL library on a fixed list of statements, with the names of tables printed in dots. -/
@[reducible] def dottedSqlglot (statements : List (String × SqlTree)) : Sqlglot where
  parse := (plainSqlglot statements).parse
  frame kind children :=
    match kind with
    | .table ref => [.text (".".intercalate ([ref.catalog, ref.db, ref.name].filter (· != "")))]
    | _ => plainFrame kind children
  frame_verbs kind children v hkind h := by
    cases kind with
    | table ref => simp at h
    | _ => exact (plainSqlglot statements).frame_verbs _ children v hkind h

/-- The SQL library on two statements and on what is recorded of them. -/
@[reducible] def recordedSqlglot : Sqlglot :=
  dottedSqlglot [("SELECT * FROM scratch.x", .node .select (readStar ⟨"x", "scratch", ""⟩)),
    ("SELECT * FROM scratch.t_acme.x", .node .select (readStar ⟨"x", "t_acme", "scratch"⟩)),
    ("SELECT * FROM events", .node .select (readStar ⟨"events", "", ""⟩)),
    ("SELECT * FROM iceberg.t_acme.events",
      .node .select (readStar ⟨"events", "t_acme", "iceberg"⟩))]

/-- A tenant with a scratchpad. -/
def scratchParams : GuardParams where
  tenantNs := "t_acme"
  catalog := "iceberg"
  scratch := some ⟨"scratch", "t_acme"⟩

section

attribute [local instance] asciiPython recordedSqlglot

/-- A statement on the scratchpad is accepted; what is recorded of it is rejected. -/
theorem scratchReference_not_replayed : ∃ guarded,
    validateSelect scratchParams "SELECT * FROM scratch.x" = .ok guarded ∧
      sqlText guarded.sql = "SELECT * FROM scratch.t_acme.x" ∧
      parseStatement (sqlText guarded.sql) = .ok guarded.tree ∧
      ¬ Replays scratchParams guarded := by
  have hsql : sqlText (generate (.node .select (readStar ⟨"x", "t_acme", "scratch"⟩))) =
      "SELECT * FROM scratch.t_acme.x" := by decide +kernel
  refine ⟨⟨.node .select (readStar ⟨"x", "t_acme", "scratch"⟩), [], ["x"]⟩, by rfl, hsql, ?_, ?_⟩
  · rw [GuardedQuery.sql, hsql]
    rfl
  · rintro ⟨again, hagain, _⟩
    rw [GuardedQuery.sql, hsql] at hagain
    cases hagain

/-- A statement on the lakehouse is replayed. -/
theorem lakehouseReference_replays : ∃ guarded,
    validateSelect scratchParams "SELECT * FROM events" = .ok guarded ∧
      Replays scratchParams guarded := by
  have hsql : sqlText (generate (.node .select (readStar ⟨"events", "t_acme", "iceberg"⟩))) =
      "SELECT * FROM iceberg.t_acme.events" := by decide +kernel
  have hns : IsNamespace scratchParams.tenantNs := ⟨"acme".toList, rfl,
    List.all_eq_true.mp (by decide), by decide⟩
  have haccept : validateSelect scratchParams "SELECT * FROM events" =
      .ok ⟨.node .select (readStar ⟨"events", "t_acme", "iceberg"⟩), ["events"], []⟩ := by rfl
  obtain ⟨tree, htree, hiff⟩ := validateSelect_replays_iff hns haccept (by
    rw [GuardedQuery.sql, hsql]
    rfl)
  have hparsed : parseStatement "SELECT * FROM events" =
      .ok (.node .select (readStar ⟨"events", "", ""⟩)) := by rfl
  rw [hparsed, Except.ok.injEq] at htree
  subst htree
  refine ⟨_, haccept, hiff.mpr ?_⟩
  rintro ⟨node, hnode, ref, href, _, _, target, htarget⟩
  have hdb := (Option.filter_eq_some_iff.mp htarget).2
  have htables : ∀ node ∈ (RoseTree.node Kind.select (readStar ⟨"events", "", ""⟩)).subtrees,
      ∀ found, tableOf node.label = some found → found.db = "" := by
    simp [RoseTree.subtrees, RoseTree.subtreesOf, readStar, RoseTree.label, tableOf]
  rw [htables node hnode ref (by rw [href]; rfl), lower_eq_empty_iff.mpr rfl] at hdb
  simp [scratchAlias] at hdb

end

end Memcove
