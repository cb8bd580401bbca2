import Memcove.Drift.Creators
import Memcove.Sql.Scoping
import Memcove.Tools.Export

/-!
# Reading an object by its name

`get_object` of `tools/objects.py`, the export of a label and the Flight read all splice the label
into `SELECT * FROM <label>`, unquoted, and have the guard resolve it. The writers use the label as
an identifier. The two agree on every label that the SQL grammar reads as a table name.
-/

namespace Memcove

open Json Programs Trees

/-- The tables of a statement. -/
def tableRefs (tree : SqlTree) : List TableName :=
  tree.subtrees.filterMap (fun node => tableOf node.label)

/-- `f"SELECT * FROM {label}"`. -/
def readText (label : String) : String := "SELECT * FROM " ++ label

/-- What `get_object` returns in its three modes. -/
inductive ObjectView where
  | schema (columns : List ColumnSchema)
  | stats (rowCount : Option Int) (columns : List ColumnSchema)
  | preview (result : PreviewResult)

section

variable [Python] [Sqlglot]

/-- The guarded query of a preview. -/
def previewQuery (settings : Settings) (tenant label : String) : PyM GuardedQuery :=
  validateSelect (flightParams settings tenant) (readText label)

/-- `get_object`. -/
def getObject [Engines] [Trino] (settings : Settings) (tenant label mode : String)
    (limit : Option ℕ) : Tool ObjectView := do
  let label ← Program.lift (validateLabel label)
  if !(← tableExists tenant label) then .raise (objectNotFound label)
  else if mode = "schema" then return .schema (← loadSchema tenant label)
  else if mode = "stats" then
    let rows ← rowCount tenant label
    return .stats rows (← loadSchema tenant label)
  else if mode = "preview" then
    let guarded ← Program.lift (previewQuery settings tenant label)
    return .preview (previewResult guarded.sql (previewCap settings limit))
  else .raise ⟨.valueError,
    "unknown mode " ++ Python.repr mode ++ "; expected preview|schema|stats"⟩

/-- The guarded query of a Flight read. -/
def readQuery (settings : Settings) (cmd : Fields) : PyM GuardedQuery := do
  let tenant ← commandTenant settings cmd
  let name ← commandLabel cmd
  validateSelect (flightParams settings tenant) (readText name)

/-- The statement of a label as the guard reads it. -/
def readTree (label : String) : SqlTree := .node .select (readStar { name := label })

omit [Python] [Sqlglot] in
/-- The text ends in the label, which is all that could be stripped of it. -/
theorem readText_stripped {label : String} (h : IsLabel label) :
    strip (rstripChar ';' (strip (readText label))) = readText label := by
  have hhead : (readText label).toList.head? = some 'S' := by
    rw [readText, String.toList_append]
    rfl
  have hlast : ∀ c, (readText label).toList.getLast? = some c → isNameChar c = true := by
    intro c hc
    rw [readText, String.toList_append, List.getLast?_append_of_ne_nil _
      (by simpa using h.ne_empty)] at hc
    exact h.nameChars c (List.mem_of_getLast? hc)
  have hstrip : strip (readText label) = readText label := by
    rw [strip, stripChars_of_ends, String.ofList_toList]
    · intro c hc
      rw [hhead] at hc
      cases hc
      decide
    · exact fun c hc => (isNameChar_plain (hlast c hc)).2
  have hsemicolon : rstripChar ';' (readText label) = readText label := by
    rw [rstripChar, List.rdropWhile_eq_self_iff.mpr, String.ofList_toList]
    intro hne hsame
    have hname := hlast _ (List.getLast?_eq_some_getLast hne)
    rw [beq_iff_eq.mp hsame] at hname
    cases hname
  rw [hstrip, hsemicolon, hstrip]

omit [Sqlglot] in
/-- The guard resolves the bare name to the tenant's namespace. -/
theorem guardTree_readTree (settings : Settings) (tenant : String) {label : String}
    (h : IsLabel label) : guardTree (flightParams settings tenant) (readTree label) =
      .ok ⟨.node .select (readStar ⟨label, tenant, settings.trinoCatalog⟩), [label], []⟩ := by
  have hread : checkReadOnly (readTree label) = .ok () := rfl
  have hctes : cteNames (readTree label) = [] := rfl
  have hlower := h.lower_eq
  have hempty : lower "" = "" := lower_eq_empty_iff.mpr rfl
  have hresolve : resolveTable (flightParams settings tenant) [] { name := label } =
      .ok (.lakehouse tenant) := by
    simp [resolveTable, hlower, h.ne_empty, hempty, scratchReference, flightParams,
      resolveLakehouse, denySchemas]
  have hwalk : (readTree label).walk = [readTree label, .node (.other "Star") [],
      .node (.other "From") [.node (.table { name := label }) []],
      .node (.table { name := label }) []] := rfl
  have htables : resolveTables (flightParams settings tenant) [] (readTree label).walk ([], []) =
      .ok ([label], []) := by
    rw [hwalk]
    simp [resolveTables, readTree, RoseTree.label, hresolve, Resolution.record, hlower, appendNew]
  have hrewrite : rewriteKind (flightParams settings tenant) [] (.table { name := label }) =
      .table ⟨label, tenant, settings.trinoCatalog⟩ := by
    simp only [rewriteKind, hresolve]
    rfl
  have htree : (readTree label).map (rewriteKind (flightParams settings tenant) []) =
      .node .select (readStar ⟨label, tenant, settings.trinoCatalog⟩) := by
    change RoseTree.node .select [.node (.other "Star") [], .node (.other "From")
      [.node (rewriteKind (flightParams settings tenant) [] (.table { name := label })) []]] = _
    rw [hrewrite]
    rfl
  unfold guardTree
  simp only [hread, hctes, htables, htree]
  rfl

/-- An export is that of its guarded query. -/
theorem exportArtifact_eq (settings : Settings) (tenant fmt : String) (label sql : Option String)
    (answer : List Token → CursorAnswer) : exportArtifact settings tenant fmt label sql answer =
      (exportQuery settings tenant fmt label sql).map
        (fun guarded => exportGuarded settings fmt (answer guarded.sql)) := by
  unfold exportArtifact exportQuery exportStatement
  generalize validateSelect (exportParams settings tenant) = validate
  split
  · rfl
  · change (if (given label == given sql) = true then _ else _) = _
    split
    · rfl
    · by_cases hlabel : label.getD "" = ""
      · have hgiven : given label = false := by simp [given, hlabel]
        rw [if_pos hlabel, hgiven]
        change (validate (sql.getD "") >>= _) = (validate (sql.getD "")).map _
        cases validate (sql.getD "") <;> rfl
      · have hgiven : given label = true := by simpa [given] using hlabel
        rw [if_neg hlabel, hgiven]
        cases validateLabel (label.getD "") with
        | error e => rfl
        | ok base =>
          change (validate ("SELECT * FROM " ++ base) >>= _) =
            (validate ("SELECT * FROM " ++ base)).map _
          cases validate ("SELECT * FROM " ++ base) <;> rfl

/-- A Flight read streams the text of its guarded query for its tenant. -/
theorem validatedQuery_read {settings : Settings} {cmd : Fields} (h : get cmd "op" = .str "read") :
    validatedQuery settings cmd = do
      let tenant ← commandTenant settings cmd
      let guarded ← readQuery settings cmd
      return (tenant, guarded.sql) := by
  have hread : (Json.str "read").isStr "read" = true := by simp [isStr]
  unfold validatedQuery readQuery
  generalize (validateSelect : GuardParams → String → PyM GuardedQuery) = validate
  simp only [h, hread, if_true, bind_assoc]
  cases commandTenant settings cmd <;> rfl

/-- A bare word that is a keyword of the SQL grammar is not parsed as a table name, and every other
label is. -/
structure KeywordGrammar (reserved : String → Prop) : Prop where
  plain : ∀ label, IsLabel label → ¬ reserved label →
    Sqlglot.parse (readText label) = .ok [some (readTree label)]
  keyword : ∀ label statements tree, IsLabel label → reserved label →
    Sqlglot.parse (readText label) = .ok statements → some tree ∈ statements →
    ∀ ref ∈ tableRefs tree, ref.name ≠ label

/-- The read is of the table of the label in the tenant's namespace, and of no other. -/
def Resolves (settings : Settings) (tenant label : String) (read : PyM GuardedQuery) : Prop :=
  ∃ guarded, read = .ok guarded ∧
    tableRefs guarded.tree = [⟨label, tenant, settings.trinoCatalog⟩]

/-- A whole-dataset read by any spelling of the label resolves to the table. -/
structure ReadableByName (settings : Settings) (tenant label : String) : Prop where
  recalled : Resolves settings tenant label (previewQuery settings tenant label)
  exported : ∀ raw fmt, validateLabel raw = .ok label → fmt ∈ exportFormats →
    Resolves settings tenant label (exportQuery settings tenant fmt (some raw) none)
  streamed : ∀ cmd raw, validateLabel raw = .ok label → get cmd "op" = .str "read" →
    get cmd "tenant" = .str tenant → get cmd "name" = .str raw →
    Resolves settings tenant label (readQuery settings cmd)

omit [Python] in
/-- A statement that parses to one tree. -/
theorem parseStatement_readText {label : String} (h : IsLabel label) {tree : SqlTree}
    (hparse : Sqlglot.parse (readText label) = .ok [some tree]) :
    parseStatement (readText label) = .ok tree := by
  have hne : readText label ≠ "" := by simp [readText]
  simp only [parseStatement, readText_stripped h, if_neg hne, hparse]
  rfl

omit [Python] in
/-- The tree of a statement is among those that it parses to. -/
theorem mem_of_parseStatement {label : String} (h : IsLabel label) {tree : SqlTree}
    (hparse : parseStatement (readText label) = .ok tree) :
    ∃ statements, Sqlglot.parse (readText label) = .ok statements ∧ some tree ∈ statements := by
  have hne : readText label ≠ "" := by simp [readText]
  simp only [parseStatement, readText_stripped h, if_neg hne] at hparse
  split at hparse
  · cases hparse
  · rename_i statements hstatements
    refine ⟨statements, hstatements, ?_⟩
    split at hparse
    · rename_i found hfound
      cases hparse
      have hmem : tree ∈ statements.filterMap id := by rw [hfound]; exact List.mem_singleton_self _
      simpa using hmem
    · cases hparse

omit [Sqlglot] in
/-- The guard renames no table. -/
theorem name_mem_of_guardTree {params : GuardParams} {tree : SqlTree} {guarded : GuardedQuery}
    (h : guardTree params tree = .ok guarded) {ref : TableName}
    (href : ref ∈ tableRefs guarded.tree) : ∃ ref' ∈ tableRefs tree, ref'.name = ref.name := by
  rw [(guardTree_ok h).2.1, tableRefs, RoseTree.subtrees_map] at href
  obtain ⟨node, hnode, hlabel⟩ := List.mem_filterMap.mp href
  obtain ⟨source, hsource, rfl⟩ := List.mem_map.mp hnode
  rw [RoseTree.label_map] at hlabel
  cases hkind : source.label with
  | table ref' =>
    rw [hkind, rewriteKind_table] at hlabel
    refine ⟨ref', List.mem_filterMap.mpr ⟨source, hsource, by rw [hkind]; rfl⟩, ?_⟩
    obtain rfl := Option.some.inj hlabel
    unfold emittedName
    split
    · rw [Resolution.qualify_name]
    · rfl
  | _ =>
    rw [hkind] at hlabel
    cases hlabel

/-- What follows `SELECT * FROM` is parsed, if it is parsed at all, as a single read that names no
table but the label. -/
def ParsesWords : Prop :=
  ∀ label statements, IsLabel label → Sqlglot.parse (readText label) = .ok statements →
    ∃ tree, statements = [some tree] ∧ checkReadOnly tree = .ok () ∧
      ∀ ref ∈ tableRefs tree, ref = { name := label }

/-- The guard accepts the read of a label if and only if the parser does. -/
theorem previewQuery_ok_iff (hwords : ParsesWords) (settings : Settings) (tenant : String)
    {label : String} (h : IsLabel label) :
    (∃ guarded, previewQuery settings tenant label = .ok guarded) ↔
      (Sqlglot.parse (readText label)).isOk = true := by
  constructor
  · rintro ⟨guarded, hguarded⟩
    obtain ⟨tree, hparse, _⟩ := validateSelect_ok hguarded
    obtain ⟨statements, hstatements, _⟩ := mem_of_parseStatement h hparse
    rw [hstatements]
    rfl
  · intro hparses
    cases hparse : Sqlglot.parse (readText label) with
    | error e =>
      rw [hparse] at hparses
      cases hparses
    | ok statements =>
      obtain ⟨tree, rfl, hread, htables⟩ := hwords label statements h hparse
      have haccepts : Accepts (flightParams settings tenant) tree := by
        refine ⟨hread, fun node hnode ref href => ?_⟩
        have hmem : ref ∈ tableRefs tree :=
          List.mem_filterMap.mpr ⟨node, hnode, by rw [href]; rfl⟩
        obtain rfl := htables ref hmem
        have hempty : lower "" = "" := lower_eq_empty_iff.mpr rfl
        by_cases hcte : label ∈ cteNames tree
        · exact ⟨.cteReference, by simp [resolveTable, h.lower_eq, hempty, hcte]⟩
        · exact ⟨.lakehouse tenant, by simp [resolveTable, h.lower_eq, h.ne_empty, hempty, hcte,
            scratchReference, flightParams, resolveLakehouse, denySchemas]⟩
      obtain ⟨guarded, hguarded⟩ := guardTree_accepts_iff.mpr haccepts
      refine ⟨guarded, ?_⟩
      rw [previewQuery, validateSelect, parseStatement_readText h hparse]
      exact hguarded

/-- The read of a label resolves to its table if and only if the label is no keyword. -/
theorem resolves_iff {reserved : String → Prop} (hgrammar : KeywordGrammar reserved)
    (settings : Settings) (tenant : String) {label : String} (h : IsLabel label) :
    Resolves settings tenant label (previewQuery settings tenant label) ↔ ¬ reserved label := by
  constructor
  · rintro ⟨guarded, hguarded, htables⟩ hreserved
    obtain ⟨tree, hparse, hguard⟩ := validateSelect_ok hguarded
    obtain ⟨statements, hstatements, htree⟩ := mem_of_parseStatement h hparse
    have hmem : (⟨label, tenant, settings.trinoCatalog⟩ : TableName) ∈ tableRefs guarded.tree := by
      rw [htables]
      exact List.mem_singleton_self _
    obtain ⟨ref, href, hname⟩ := name_mem_of_guardTree hguard hmem
    exact hgrammar.keyword label statements tree h hreserved hstatements htree ref href hname
  · intro hplain
    have hparse := parseStatement_readText h (hgrammar.plain label h hplain)
    have hguard := guardTree_readTree settings tenant h
    refine ⟨⟨.node .select (readStar ⟨label, tenant, settings.trinoCatalog⟩), [label], []⟩, ?_, rfl⟩
    rw [previewQuery, validateSelect, hparse]
    exact hguard

/-- An export of the label reads the same query. -/
theorem exportQuery_label {settings : Settings} {tenant fmt label raw : String}
    (hraw : validateLabel raw = .ok label) (hfmt : fmt ∈ exportFormats) :
    exportQuery settings tenant fmt (some raw) none = previewQuery settings tenant label := by
  have hgiven : given (some raw) = true := by
    rw [given, bne_iff_ne]
    rintro rfl
    have hstrip : strip "" = "" := by decide
    have hempty : lower "" = "" := lower_eq_empty_iff.mpr rfl
    simp only [validateLabel, hstrip, hempty] at hraw
    cases hraw
  have hnone : given none = false := rfl
  unfold exportQuery previewQuery
  generalize (validateSelect : GuardParams → String → PyM GuardedQuery) = validate
  rw [if_neg (not_not.mpr hfmt), hgiven, hnone]
  change (validateLabel raw >>= _) = _
  rw [hraw]
  rfl

/-- A Flight read of the label reads the same query. -/
theorem readQuery_label {settings : Settings} {tenant label raw : String} {cmd : Fields}
    (htenant : IsNamespace tenant) (hraw : validateLabel raw = .ok label)
    (htenant' : get cmd "tenant" = .str tenant) (hname : get cmd "name" = .str raw) :
    readQuery settings cmd = previewQuery settings tenant label := by
  have hcommand : commandTenant settings cmd = .ok tenant := by
    simp only [commandTenant, htenant']
    exact normalizeTenant_namespace htenant
  unfold readQuery previewQuery
  generalize (validateSelect : GuardParams → String → PyM GuardedQuery) = validate
  rw [hcommand, commandLabel_text hname, hraw]
  rfl

/-- A label is readable by its name if and only if it is no keyword, and the operations on it write
no table but the one that such a read resolves to. -/
theorem readableByName_iff [Engines] [Backend] {reserved : String → Prop}
    (hgrammar : KeywordGrammar reserved) {settings : Settings} {tenant label : String}
    (htenant : IsNamespace tenant) (hlabel : IsLabel label) :
    (ReadableByName settings tenant label ↔ ¬ reserved label) ∧
      ∀ op : Operation, op.object = some (tenant, label) → ∀ k, k ≠ (tenant, label) →
        Sat (creating k false) (fun _ _ => True) [] (op.program settings) := by
  refine ⟨?_, fun op hop k hk => operation_other settings (by rw [hop]; simpa using hk.symm)⟩
  rw [← resolves_iff hgrammar settings tenant hlabel]
  constructor
  · exact fun h => h.recalled
  · intro h
    refine ⟨h, fun raw fmt hraw hfmt => ?_, fun cmd raw hraw _ htenant' hname => ?_⟩
    · rw [exportQuery_label hraw hfmt]
      exact h
    · rw [readQuery_label htenant hraw htenant' hname]
      exact h

end

/-- Two words that open a clause. -/
def sqlKeywords : List String := ["select", "from"]

/-- `SELECT * FROM select`: the second word opens a query without anything. -/
def emptySelect : SqlTree :=
  .node .select [.node (.other "Star") [], .node (.other "From") [.node .select []]]

/-- How the statements that read one bare word are parsed. -/
def parseWord (sql : String) : Except String (List (Option SqlTree)) :=
  let word := String.ofList (sql.toList.drop 14)
  if !(startsWith sql "SELECT * FROM " && word.toList.all isNameChar) || word == "from" then
    .error "Expected table name"
  else if word == "select" then .ok [some emptySelect]
  else .ok [some (readTree word)]

/-- The SQL library on those statements. -/
@[reducible] def keywordSqlglot : Sqlglot where
  parse := parseWord
  frame := plainFrame
  frame_verbs := (plainSqlglot []).frame_verbs

/-- How the statement of a label is parsed. -/
theorem parseWord_readText {label : String} (h : IsLabel label) :
    parseWord (readText label) =
      if label = "from" then .error "Expected table name"
      else if label = "select" then .ok [some emptySelect]
      else .ok [some (readTree label)] := by
  have hread : (readText label).toList = "SELECT * FROM ".toList ++ label.toList := by
    rw [readText, String.toList_append]
  have hword : String.ofList ((readText label).toList.drop 14) = label := by
    rw [hread, List.drop_left' (by decide), String.ofList_toList]
  have hstart : startsWith (readText label) "SELECT * FROM " = true := by
    rw [startsWith, List.isPrefixOf_iff_prefix, hread]
    exact List.prefix_append _ _
  have hchars : label.toList.all isNameChar = true := List.all_eq_true.mpr h.nameChars
  simp [parseWord, hword, hstart, hchars]

/-- That library has the keywords. -/
theorem keywordSqlglot_grammar :
    let _ : Sqlglot := keywordSqlglot
    KeywordGrammar (· ∈ sqlKeywords) := by
  intro _
  constructor
  · intro label h hplain
    obtain ⟨hselect, hfrom⟩ : label ≠ "select" ∧ label ≠ "from" := by
      simpa [sqlKeywords] using hplain
    exact (parseWord_readText h).trans ((if_neg hfrom).trans (if_neg hselect))
  · intro label statements tree h hkeyword hparse hmem ref href
    have hword := (parseWord_readText h).symm.trans hparse
    obtain rfl | rfl : label = "select" ∨ label = "from" := by
      simpa [sqlKeywords] using hkeyword
    · cases hword
      rw [List.mem_singleton, Option.some.injEq] at hmem
      subst hmem
      have hnone : tableRefs emptySelect = [] := rfl
      rw [hnone] at href
      cases href
    · cases hword

/-- It parses no label as anything but a read of that name or a query without tables. -/
theorem keywordSqlglot_words :
    let _ : Sqlglot := keywordSqlglot
    ParsesWords := by
  intro _ label statements h hparse
  have hword := (parseWord_readText h).symm.trans hparse
  split at hword
  · cases hword
  · split at hword
    · cases hword
      exact ⟨emptySelect, rfl, rfl, fun ref href => nomatch href⟩
    · cases hword
      exact ⟨readTree label, rfl, rfl, fun ref href => List.mem_singleton.mp href⟩

section

attribute [local instance] asciiPython keywordSqlglot textEngines externalBackend

/-- A dataset may be called `select`, and no read by that name reads its table. -/
theorem select_not_readable :
    ¬ ∀ (settings : Settings) (tenant label : String), IsNamespace tenant → IsLabel label →
      ReadableByName settings tenant label := by
  intro h
  have htenant : IsNamespace "t_acme" := ⟨"acme".toList, rfl, List.all_eq_true.mp (by decide),
    by decide⟩
  have hlabel : IsLabel "select" := ⟨'s', "elect".toList, rfl, rfl,
    List.all_eq_true.mp (by decide), by decide⟩
  have hresolves := (h {} "t_acme" "select" htenant hlabel).recalled
  exact (resolves_iff keywordSqlglot_grammar {} "t_acme" hlabel).mp hresolves (by decide)

/-- A dataset called `prices` is readable by its name. -/
theorem prices_readable : ReadableByName {} "t_acme" "prices" := by
  have htenant : IsNamespace "t_acme" := ⟨"acme".toList, rfl, List.all_eq_true.mp (by decide),
    by decide⟩
  have hlabel : IsLabel "prices" := ⟨'p', "rices".toList, rfl, rfl,
    List.all_eq_true.mp (by decide), by decide⟩
  exact (readableByName_iff keywordSqlglot_grammar htenant hlabel).1.mpr (by decide)

end

end Memcove
