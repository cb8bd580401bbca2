import Memcove.Scratch.Injection
import Memcove.Scratch.Store

/-!
# The text of the scratchpad's statements

The statements of `core/scratch.py` as they are sent to Trino. Names and literals are put between
their quotes as they are, so that a statement is read as it is meant exactly when no name has a
double and no literal a single quotation mark.
-/

namespace Memcove

open SqlLexer

/-- `"<catalog>"."<schema>"."<label>"`. -/
def quotedName (catalog schema label : String) : String :=
  "\"" ++ catalog ++ "\".\"" ++ schema ++ "\".\"" ++ label ++ "\""

/-- `scratch.qualified`. -/
def qualified (settings : Settings) (tenant label : String) : String :=
  quotedName (catalogFor settings tenant) (schemaFor tenant) label

/-- The `CREATE CATALOG` of `scratch.ensure`. -/
def createCatalogText (catalog url : String) : String :=
  "CREATE CATALOG IF NOT EXISTS \"" ++ catalog ++
    "\" USING duckdb WITH (\"connection-url\" = '" ++ url ++ "')"

/-- The `CREATE SCHEMA` of `scratch.ensure`. -/
def createSchemaText (catalog schema : String) : String :=
  "CREATE SCHEMA IF NOT EXISTS \"" ++ catalog ++ "\".\"" ++ schema ++ "\""

/-- The statement of `scratch.drop`. -/
def dropTableText (name : String) : String := "DROP TABLE IF EXISTS " ++ name

/-- The `CREATE TABLE` of `scratch.create_as_select`. -/
def createTableAsText (name select : String) : String :=
  "CREATE TABLE " ++ name ++ " AS " ++ select

/-- The query of `scratch.table_exists`. -/
def tableExistsText (catalog schema label : String) : String :=
  "SELECT table_name FROM \"" ++ catalog ++ "\".information_schema.tables " ++
    "WHERE table_schema = '" ++ schema ++ "' AND table_name = '" ++ label ++ "'"

/-- The query of `scratch.list_labels`. -/
def listLabelsText (catalog schema : String) : String :=
  "SELECT table_name FROM \"" ++ catalog ++ "\".information_schema.tables " ++
    "WHERE table_schema = '" ++ schema ++ "' ORDER BY table_name"

/-- The first query of `scratch.describe`. -/
def describeText (name : String) : String := "DESCRIBE " ++ name

/-- The second query of `scratch.describe`. -/
def countText (name : String) : String := "SELECT count(*) FROM " ++ name

/-- The text of a statement, with that of the `SELECT` it is made from. -/
def ScratchStatement.text (select : SelectText → String) : ScratchStatement → String
  | .createCatalog catalog url => createCatalogText catalog url
  | .createSchema catalog schema => createSchemaText catalog schema
  | .dropTable catalog schema label => dropTableText (quotedName catalog schema label)
  | .createTableAs catalog schema label query =>
      createTableAsText (quotedName catalog schema label) (select query)
  | .tableNames catalog schema label =>
      label.elim (listLabelsText catalog schema) (tableExistsText catalog schema)
  | .describe catalog schema label => describeText (quotedName catalog schema label)
  | .count catalog schema label => countText (quotedName catalog schema label)

/-- A name of three parts. -/
def nameLexemes (catalog schema label : String) : List Lexeme :=
  [.delimited catalog.toList, .sym '.', .delimited schema.toList, .sym '.',
    .delimited label.toList]

/-- `SELECT table_name FROM <catalog>.information_schema.tables WHERE table_schema =`. -/
def tableNamesLexemes (catalog : String) : List Lexeme :=
  [keyword "SELECT", keyword "table_name", keyword "FROM", .delimited catalog.toList, .sym '.',
    keyword "information_schema", .sym '.', keyword "tables", keyword "WHERE",
    keyword "table_schema", .sym '=']

/-- The lexemes of a statement, with every name one identifier and every literal one string. -/
def ScratchStatement.meaning (select : SelectText → List Lexeme) :
    ScratchStatement → List Lexeme
  | .createCatalog catalog url =>
      [keyword "CREATE", keyword "CATALOG", keyword "IF", keyword "NOT", keyword "EXISTS",
        .delimited catalog.toList, keyword "USING", keyword "duckdb", keyword "WITH", .sym '(',
        .delimited "connection-url".toList, .sym '=', .str url.toList, .sym ')']
  | .createSchema catalog schema =>
      [keyword "CREATE", keyword "SCHEMA", keyword "IF", keyword "NOT", keyword "EXISTS",
        .delimited catalog.toList, .sym '.', .delimited schema.toList]
  | .dropTable catalog schema label =>
      keyword "DROP" :: keyword "TABLE" :: keyword "IF" :: keyword "EXISTS" ::
        nameLexemes catalog schema label
  | .createTableAs catalog schema label query =>
      keyword "CREATE" :: keyword "TABLE" ::
        (nameLexemes catalog schema label ++ keyword "AS" :: select query)
  | .tableNames catalog schema label =>
      tableNamesLexemes catalog ++ .str schema.toList ::
        label.elim [keyword "ORDER", keyword "BY", keyword "table_name"]
          (fun label => [keyword "AND", keyword "table_name", .sym '=', .str label.toList])
  | .describe catalog schema label => keyword "DESCRIBE" :: nameLexemes catalog schema label
  | .count catalog schema label =>
      keyword "SELECT" :: keyword "count" :: .sym '(' :: .sym '*' :: .sym ')' :: keyword "FROM" ::
        nameLexemes catalog schema label

/-- The names of a statement that stand between double quotes. -/
def ScratchStatement.names : ScratchStatement → List String
  | .createCatalog catalog _ => [catalog]
  | .createSchema catalog schema => [catalog, schema]
  | .tableNames catalog _ _ => [catalog]
  | .dropTable catalog schema label => [catalog, schema, label]
  | .createTableAs catalog schema label _ => [catalog, schema, label]
  | .describe catalog schema label => [catalog, schema, label]
  | .count catalog schema label => [catalog, schema, label]

/-- The texts of a statement that stand between single quotes. -/
def ScratchStatement.literals : ScratchStatement → List String
  | .createCatalog _ url => [url]
  | .tableNames _ schema label => schema :: label.toList
  | _ => []

/-- Nothing that a statement puts between quotes has a mark of that kind. -/
def ScratchStatement.Plain (statement : ScratchStatement) : Prop :=
  (∀ name ∈ statement.names, '"' ∉ name.toList) ∧
    ∀ literal ∈ statement.literals, '\'' ∉ literal.toList

/-- The characters of a name. -/
theorem quotedName_toList (catalog schema label : String) :
    (quotedName catalog schema label).toList =
      '"' :: (catalog.toList ++ '"' :: '.' :: '"' :: (schema.toList ++ '"' :: '.' :: '"' ::
        (label.toList ++ ['"']))) := by
  simp [quotedName]

/-- Keywords in front of a text. -/
theorem reads_keywords (ws : List String) (hws : ws.all isWord = true) {text : List Char}
    {toks : List Lexeme} {a : Prop} (h : ReadsTo text toks a) :
    ReadsTo (Paths.terminated ' ' (ws.map String.toList) ++ text) (ws.map keyword ++ toks) a := by
  have hwords : ∀ w ∈ ws.map String.toList, IsWord w := by
    rw [List.forall_mem_map]
    exact fun w hw => isWord_sound (List.all_eq_true.mp hws w hw)
  have hread := h.words hwords
  rw [List.map_map] at hread
  exact hread

/-- A keyword in front of a text that does not go on with it. -/
theorem reads_keyword (w : String) (hw : isWord w = true) {text : List Char} {toks : List Lexeme}
    {a : Prop} (h : ReadsTo text toks a) (hend : ∀ c ∈ text.head?, isWordChar c = false) :
    ReadsTo (w.toList ++ text) (keyword w :: toks) a :=
  h.word (isWord_sound hw) hend

/-- A name in front of a text. -/
theorem reads_quotedName (catalog schema label : String) {text : List Char} {toks : List Lexeme}
    {a : Prop} (h : ReadsTo text toks a) (hend : text.head? ≠ some '"') :
    ReadsTo ((quotedName catalog schema label).toList ++ text)
      (nameLexemes catalog schema label ++ toks)
      ('"' ∉ catalog.toList ∧ '"' ∉ schema.toList ∧ '"' ∉ label.toList ∧ a) := by
  have hlabel := h.delimited label.toList hend
  have hschema := (hlabel.symbol '.' (by decide)).delimited schema.toList (by simp)
  have hcatalog := (hschema.symbol '.' (by decide)).delimited catalog.toList (by simp)
  rw [quotedName_toList]
  simpa [nameLexemes] using hcatalog

/-- `CREATE CATALOG`. -/
theorem reads_createCatalog (catalog url : String) :
    ReadsTo (createCatalogText catalog url).toList
      [keyword "CREATE", keyword "CATALOG", keyword "IF", keyword "NOT", keyword "EXISTS",
        .delimited catalog.toList, keyword "USING", keyword "duckdb", keyword "WITH", .sym '(',
        .delimited "connection-url".toList, .sym '=', .str url.toList, .sym ')']
      ('"' ∉ catalog.toList ∧ '\'' ∉ url.toList) := by
  have hurl := (readsTo_nil.symbol ')' (by decide)).str url.toList (by simp)
  have hequals := ((hurl.white ' ' (by decide)).symbol '=' (by decide)).white ' ' (by decide)
  have hproperty := (hequals.delimited "connection-url".toList (by simp)).congr
    (and_iff_right (by decide))
  have hwith := (reads_keywords ["USING", "duckdb", "WITH"] (by decide)
    (hproperty.symbol '(' (by decide))).white ' ' (by decide)
  have hcatalog := reads_keywords ["CREATE", "CATALOG", "IF", "NOT", "EXISTS"] (by decide)
    (hwith.delimited catalog.toList (by simp))
  unfold createCatalogText
  simpa using hcatalog

/-- `CREATE SCHEMA`. -/
theorem reads_createSchema (catalog schema : String) :
    ReadsTo (createSchemaText catalog schema).toList
      [keyword "CREATE", keyword "SCHEMA", keyword "IF", keyword "NOT", keyword "EXISTS",
        .delimited catalog.toList, .sym '.', .delimited schema.toList]
      ('"' ∉ catalog.toList ∧ '"' ∉ schema.toList) := by
  have hschema := (readsTo_nil.delimited schema.toList (by simp)).symbol '.' (by decide)
  have hcatalog := reads_keywords ["CREATE", "SCHEMA", "IF", "NOT", "EXISTS"] (by decide)
    (hschema.delimited catalog.toList (by simp))
  unfold createSchemaText
  simpa using hcatalog

/-- A statement that ends in a name behind keywords. -/
theorem reads_lastName (ws : List String) (hws : ws.all isWord = true)
    (catalog schema label : String) {text : String}
    (htext : text.toList = Paths.terminated ' ' (ws.map String.toList) ++
      (quotedName catalog schema label).toList) :
    ReadsTo text.toList (ws.map keyword ++ nameLexemes catalog schema label)
      ('"' ∉ catalog.toList ∧ '"' ∉ schema.toList ∧ '"' ∉ label.toList) := by
  have hname := reads_quotedName catalog schema label readsTo_nil (by simp)
  rw [htext]
  simpa using reads_keywords ws hws hname

/-- The second query of `scratch.describe`. -/
theorem reads_count (catalog schema label : String) :
    ReadsTo (countText (quotedName catalog schema label)).toList
      (keyword "SELECT" :: keyword "count" :: .sym '(' :: .sym '*' :: .sym ')' :: keyword "FROM" ::
        nameLexemes catalog schema label)
      ('"' ∉ catalog.toList ∧ '"' ∉ schema.toList ∧ '"' ∉ label.toList) := by
  have hname := reads_quotedName catalog schema label readsTo_nil (by simp)
  have hfrom := (reads_keywords ["FROM"] (by decide) hname).white ' ' (by decide)
  have hstar := ((hfrom.symbol ')' (by decide)).symbol '*' (by decide)).symbol '(' (by decide)
  have hcount := reads_keyword "count" (by decide) hstar (by simp [isWordChar])
  have hread := reads_keywords ["SELECT"] (by decide) hcount
  unfold countText
  simpa using hread

/-- `CREATE TABLE … AS`, in front of a text that is read as the lexemes. -/
theorem reads_createTableAs (catalog schema label : String) {select : String}
    {toks : List Lexeme} (h : lexemes select.toList = some toks) :
    ReadsTo (createTableAsText (quotedName catalog schema label) select).toList
      (keyword "CREATE" :: keyword "TABLE" ::
        (nameLexemes catalog schema label ++ keyword "AS" :: toks))
      ('"' ∉ catalog.toList ∧ '"' ∉ schema.toList ∧ '"' ∉ label.toList) := by
  have hselect : ReadsTo select.toList toks True := iff_true_intro h
  have has := (reads_keywords ["AS"] (by decide) hselect).white ' ' (by decide)
  have hname := reads_quotedName catalog schema label has (by simp)
  have hread := reads_keywords ["CREATE", "TABLE"] (by decide) hname
  unfold createTableAsText
  simpa using hread

/-- What both listings of the tables in a schema begin with. -/
theorem reads_tableNames (catalog schema : String) {text : List Char} {toks : List Lexeme}
    {a : Prop} (h : ReadsTo text toks a) (hend : text.head? ≠ some '\'') :
    ReadsTo (("SELECT table_name FROM \"" ++ catalog ++ "\".information_schema.tables " ++
        "WHERE table_schema = '" ++ schema ++ "'").toList ++ text)
      (tableNamesLexemes catalog ++ .str schema.toList :: toks)
      ('"' ∉ catalog.toList ∧ '\'' ∉ schema.toList ∧ a) := by
  have hschema := (h.str schema.toList hend).white ' ' (by decide)
  have htables := reads_keywords ["tables", "WHERE", "table_schema"] (by decide)
    (hschema.symbol '=' (by decide))
  have hview := reads_keyword "information_schema" (by decide) (htables.symbol '.' (by decide))
    (by simp [isWordChar])
  have hcatalog := (hview.symbol '.' (by decide)).delimited catalog.toList (by simp)
  have hread := reads_keywords ["SELECT", "table_name", "FROM"] (by decide) hcatalog
  simpa [tableNamesLexemes] using hread

/-- The query of `scratch.table_exists`. -/
theorem reads_tableExists (catalog schema label : String) :
    ReadsTo (tableExistsText catalog schema label).toList
      (tableNamesLexemes catalog ++ [.str schema.toList, keyword "AND", keyword "table_name",
        .sym '=', .str label.toList])
      ('"' ∉ catalog.toList ∧ '\'' ∉ schema.toList ∧ '\'' ∉ label.toList) := by
  have hlabel := (readsTo_nil.str label.toList (by simp)).white ' ' (by decide)
  have hand := (reads_keywords ["AND", "table_name"] (by decide)
    (hlabel.symbol '=' (by decide))).white ' ' (by decide)
  have hread := reads_tableNames catalog schema hand (by simp)
  unfold tableExistsText
  simpa using hread

/-- The query of `scratch.list_labels`. -/
theorem reads_listLabels (catalog schema : String) :
    ReadsTo (listLabelsText catalog schema).toList
      (tableNamesLexemes catalog ++ [.str schema.toList, keyword "ORDER", keyword "BY",
        keyword "table_name"])
      ('"' ∉ catalog.toList ∧ '\'' ∉ schema.toList) := by
  have hlast := reads_keyword "table_name" (by decide) readsTo_nil (by simp)
  have horder := (reads_keywords ["ORDER", "BY"] (by decide) hlast).white ' ' (by decide)
  have hread := reads_tableNames catalog schema horder (by simp)
  unfold listLabelsText
  simpa using hread

/-- Every statement is read as it is meant exactly when nothing that it puts between quotes has a
mark of that kind. -/
theorem ScratchStatement.reads {select : SelectText → String}
    {meaning : SelectText → List Lexeme}
    (hselect : ∀ query, lexemes (select query).toList = some (meaning query))
    (statement : ScratchStatement) :
    ReadsTo (statement.text select).toList (statement.meaning meaning) statement.Plain := by
  cases statement with
  | createCatalog catalog url =>
    exact (reads_createCatalog catalog url).congr (by simp [Plain, names, literals])
  | createSchema catalog schema =>
    exact (reads_createSchema catalog schema).congr (by simp [Plain, names, literals])
  | dropTable catalog schema label =>
    refine (reads_lastName ["DROP", "TABLE", "IF", "EXISTS"] (by decide) catalog schema label
      ?_).congr (by simp [Plain, names, literals])
    unfold text dropTableText
    simp
  | createTableAs catalog schema label query =>
    exact (reads_createTableAs catalog schema label (hselect query)).congr
      (by simp [Plain, names, literals])
  | tableNames catalog schema label =>
    cases label with
    | none => exact (reads_listLabels catalog schema).congr (by simp [Plain, names, literals])
    | some label =>
      exact (reads_tableExists catalog schema label).congr (by simp [Plain, names, literals])
  | describe catalog schema label =>
    refine (reads_lastName ["DESCRIBE"] (by decide) catalog schema label ?_).congr
      (by simp [Plain, names, literals])
    unfold text describeText
    simp
  | count catalog schema label =>
    exact (reads_count catalog schema label).congr (by simp [Plain, names, literals])

end Memcove
