import Memcove.Scratch.Builder
import Memcove.Lib.SqlText
import Mathlib.Data.List.Nodup

/-!
# What the scratch builder's text says

The text of `scratchSelect` should be one `SELECT` over one `VALUES` list, with every column name
one delimited identifier and every cell one constant. It is so exactly when no column name has a
quotation mark: names are put between quotes without escaping, unlike cells.
-/

namespace Memcove

open SqlLexer Quoting

/-- A word. -/
def keyword (w : String) : Lexeme := .word w.toList

/-- `CAST ( c<i> AS <type> ) AS "<name>"`, with the name as one identifier. -/
def columnLexemes (field : String × ArrowType) (i : ℕ) : List Lexeme :=
  [keyword "CAST", .sym '(', keyword (columnName i), keyword "AS", keyword (trinoType field.2),
    .sym ')', keyword "AS", .delimited field.1.toList]

/-- A numeral with its sign. -/
def signed (negative : Bool) (t : Lexeme) : List Lexeme := if negative then [.sym '-', t] else [t]

/-- The constant that denotes a cell. -/
def constant : Cell → List Lexeme
  | .null => [keyword "NULL"]
  | .bool b => [keyword (if b then "true" else "false")]
  | .int i => signed (decide (i < 0)) (.integer i.natAbs)
  | .float r => signed r.negative (.decimal r.numeral.text)
  | .str s => [.str s.toList]

/-- Lexemes separated by commas. -/
def commaSeparated (items : List (List Lexeme)) : List Lexeme := [Lexeme.sym ','].intercalate items

/-- A parenthesised, comma-separated list. -/
def tuple (items : List (List Lexeme)) : List Lexeme :=
  .sym '(' :: (commaSeparated items ++ [.sym ')'])

/-- The rows of the `VALUES` list: those of the table, or one row of nulls when it has none. -/
def valueRows (table : ArrowTable) : List (List Lexeme) :=
  if table.rows.isEmpty then [tuple (table.schema.map (fun _ => constant .null))]
  else table.rows.map (fun row => tuple (row.map constant))

/-- `WHERE false` for a table without rows. -/
def rowFilter (table : ArrowTable) : List Lexeme :=
  if table.rows.isEmpty then [keyword "WHERE", keyword "false"] else []

/-- One `SELECT` of the columns over one `VALUES` list of the cells. -/
def selectLexemes (table : ArrowTable) : List Lexeme :=
  keyword "SELECT" :: (commaSeparated (table.schema.zipIdx.map (fun f => columnLexemes f.1 f.2)) ++
    keyword "FROM" :: .sym '(' :: keyword "VALUES" :: (commaSeparated (valueRows table) ++
      .sym ')' :: keyword "AS" :: keyword "_v" ::
        (tuple (table.schema.zipIdx.map (fun f => [keyword (columnName f.2)])) ++
          rowFilter table)))

/-- The text is one `SELECT` over one `VALUES` list in which every column name is one identifier
and every cell one constant. A `SELECT` has at least one column. -/
def Faithful (table : ArrowTable) (text : String) : Prop :=
  table.schema ≠ [] ∧ lexemes text.toList = some (selectLexemes table)

/-- The value that the literal of a cell stands for in a column of the type. -/
def literalValue [Python] (v : Cell) (type : ArrowType) : PyM Json :=
  if v.isNone then .ok .null
  else match type with
    | .boolean => .ok (.bool v.toJson.truthy)
    | .integer _ _ => v.toJson.toInt.map Json.int
    | .floating _ => .ok v.toJson
    | _ => .ok (.str v.toJson.toStr)

/-- The value that a constant denotes. -/
def readConstant : List Lexeme → Option Json
  | [.word w] =>
    if w = "NULL".toList then some .null
    else if w = "true".toList then some (.bool true)
    else if w = "false".toList then some (.bool false)
    else none
  | [.integer n] => some (.int n)
  | [.sym '-', .integer n] => some (.int (-n))
  | [.decimal t] => some (.float (String.ofList t))
  | [.sym '-', .decimal t] => some (.float (String.ofList ('-' :: t)))
  | [.str s] => some (.str (String.ofList s))
  | _ => none

/-- The constant of a cell decodes back to that cell. -/
theorem readConstant_constant (cell : Cell) : readConstant (constant cell) = some cell.toJson := by
  cases cell with
  | null => rfl
  | bool b => cases b <;> rfl
  | int i =>
    by_cases hneg : i < 0
    · have habs : -(i.natAbs : Int) = i := by omega
      simpa [constant, signed, hneg, readConstant, Cell.toJson] using habs
    · have habs : (i.natAbs : Int) = i := by omega
      simpa [constant, signed, hneg, readConstant, Cell.toJson] using habs
  | float r =>
    cases hneg : r.negative <;> simp [constant, signed, hneg, readConstant, Cell.toJson,
      FloatRepr.text]
  | str s => simp [constant, readConstant, Cell.toJson]

/-- Every cell denotes a constant. -/
theorem constant_isConstant (cell : Cell) : IsConstant (constant cell) := by
  have hsigned (negative : Bool) {t : Lexeme} (ht : t ≠ .sym '-') :
      IsConstant (signed negative t) := by
    cases negative with
    | false => exact Or.inl ⟨t, rfl, ht⟩
    | true => exact Or.inr ⟨t, rfl⟩
  cases cell with
  | null => exact Or.inl ⟨_, rfl, by simp [keyword]⟩
  | bool b => exact Or.inl ⟨_, rfl, by simp [keyword]⟩
  | int i => exact hsigned _ (by simp)
  | float r => exact hsigned _ (by simp)
  | str s => exact Or.inl ⟨_, rfl, by simp⟩

/-- A numeral does not open with a minus sign. -/
theorem numeral_head (n : Numeral) (rest : List Char) : n.text ≠ '-' :: rest := by
  intro h
  obtain ⟨c, digits, hwhole⟩ := List.exists_cons_of_ne_nil n.whole_ne
  have hc := n.whole_digits c (by simp [hwhole])
  simp only [Numeral.text, hwhole, List.cons_append, List.cons.injEq] at h
  rw [h.1] at hc
  exact absurd hc (by decide)

/-- Floats with the same text have the same constant. -/
theorem constant_float_congr {r r' : FloatRepr} (h : r.text = r'.text) :
    constant (.float r) = constant (.float r') := by
  have hne := numeral_head r.numeral
  have hne' := numeral_head r'.numeral
  cases hr : r.negative <;> cases hr' : r'.negative <;>
    simp only [FloatRepr.text, hr, hr', if_true, Bool.false_eq_true, if_false] at h
  case true.false => exact absurd h.symm (hne' _)
  case false.true => exact absurd h (hne _)
  all_goals simp_all [constant, signed]

/-- Two cells have the same constant exactly when they are the same value. -/
theorem constant_inj {a b : Cell} : constant a = constant b ↔ a.toJson = b.toJson := by
  constructor
  · intro h
    have ha := readConstant_constant a
    rw [h, readConstant_constant b, Option.some.injEq] at ha
    exact ha.symm
  · intro h
    cases a <;> cases b <;> simp only [Cell.toJson, reduceCtorEq, Json.bool.injEq, Json.int.injEq,
      Json.float.injEq, Json.str.injEq, String.ofList_inj] at h
    case float.float r r' => exact constant_float_congr h
    all_goals simp [h]

/-- A keyword in front of a break is one lexeme. -/
theorem lexes_keyword {w : String} (hw : IsWord w.toList) : Lexes w.toList [keyword w] :=
  lexes_word hw

/-- The check that a text can stand as a word. -/
def isWord (w : String) : Bool :=
  w.toList.head?.any isWordStart && w.toList.tail.all isWordChar

/-- A checked text can stand as a word. -/
theorem isWord_sound {w : String} (h : isWord w = true) : IsWord w.toList := by
  cases hw : w.toList with
  | nil => simp [isWord, hw] at h
  | cons c rest =>
    simp only [isWord, hw, List.head?_cons, Option.any_some, List.tail_cons, Bool.and_eq_true] at h
    exact ⟨c, rest, rfl, h.1, List.all_eq_true.mp h.2⟩

/-- The text of an integer: its digits behind an optional sign. -/
theorem toList_toString_int (i : Int) : (toString i).toList =
    if i < 0 then '-' :: Nat.toDigits 10 i.natAbs else Nat.toDigits 10 i.natAbs := by
  have hrepr : toString i = i.repr := rfl
  rw [hrepr, Int.repr_eq_if]
  by_cases hneg : i < 0
  · have habs : (-i).toNat = i.natAbs := by omega
    have hle : ¬ 0 ≤ i := by omega
    simp [hneg, hle, Nat.toList_repr, habs]
  · have habs : i.toNat = i.natAbs := by omega
    have hle : 0 ≤ i := by omega
    simp [hneg, hle, Nat.toList_repr, habs]

/-- The printed integer is its constant. -/
theorem lexes_int (i : Int) : Lexes (toString i).toList (constant (.int i)) := by
  have hdigits := lexes_integer i.natAbs
  rw [toList_toString_int]
  by_cases hneg : i < 0
  · have hsigned : constant (.int i) = [.sym '-', .integer i.natAbs] := by
      simp [constant, signed, hneg]
    rw [if_pos hneg, hsigned]
    cases hcase : Nat.toDigits 10 i.natAbs with
    | nil => exact absurd hcase Nat.toDigits_ne_nil
    | cons c rest =>
      rw [hcase] at hdigits
      refine hdigits.minus ?_
      exact Nat.isDigit_of_mem_toDigits (b := 10) (n := i.natAbs) (by decide) (by decide)
        (by simp [hcase])
  · simpa [hneg, constant, signed] using hdigits

/-- The printed float is its constant. -/
theorem lexes_float (r : FloatRepr) : Lexes r.text (constant (.float r)) := by
  have hnumeral := lexes_decimal r.numeral
  cases hneg : r.negative with
  | false => simpa [FloatRepr.text, constant, signed, hneg] using hnumeral
  | true =>
    simp only [FloatRepr.text, constant, signed, hneg, if_true]
    obtain ⟨c, digits, hwhole⟩ := List.exists_cons_of_ne_nil r.numeral.whole_ne
    have hcons : r.numeral.text = c :: (digits ++ r.numeral.fraction ++ r.numeral.exponent) := by
      simp [Numeral.text, hwhole]
    rw [hcons] at hnumeral ⊢
    exact hnumeral.minus (r.numeral.whole_digits c (by simp [hwhole]))

/-- A text in Python's quotation marks is never read as the constant of a null or a float. -/
theorem reads_repr [Python] (s : String) {own : Cell} (bits : ℕ)
    (hfits : own.Fits (.floating bits)) : Reads (Python.repr s).toList (constant own) False := by
  intro c rest _ ts
  simp only [false_and, iff_false]
  intro h
  obtain ⟨q, text, htext, hq⟩ : ∃ q text, (Python.repr s).toList = q :: text ∧
      (q = '\'' ∨ q = '"') := by
    cases htext : (Python.repr s).toList with
    | nil => simpa [htext] using Python.repr_quoted s
    | cons q text => exact ⟨q, text, rfl, by simpa [htext] using Python.repr_quoted s⟩
  rw [htext, List.cons_append] at h
  obtain ⟨d, us, hlex⟩ := lexemes_quoted hq h
  cases own with
  | null => simp [constant, keyword] at hlex
  | float r => cases hneg : r.negative <;> simp [constant, signed, hneg] at hlex
  | bool b => exact hfits.elim
  | int i => exact hfits.elim
  | str s => exact hfits.elim

/-- A literal in a floating column is read as the constant of the column's own cell exactly when
it is that cell. -/
theorem reads_floating [Python] {v own : Cell} (bits : ℕ) (hnull : v.isNone = false)
    (hfits : own.Fits (.floating bits)) :
    Reads v.toJson.repr.toList (constant own) (v.toJson = own.toJson) := by
  have hcell {a : Cell} (hlexes : Lexes v.toJson.repr.toList (constant a))
      (heq : a.toJson = v.toJson) :
      Reads v.toJson.repr.toList (constant own) (v.toJson = own.toJson) :=
    (hlexes.reads_constant (constant_isConstant a) (constant_isConstant own)).congr
      (by rw [constant_inj, heq])
  cases v with
  | null => cases hnull
  | bool b =>
    -- Python prints `True` or `False`, which is no constant of a floating column.
    have hlexes : Lexes (Cell.bool b).toJson.repr.toList
        [keyword (if b then "True" else "False")] := by
      cases b with
      | false => exact lexes_keyword (w := "False") (isWord_sound (by decide))
      | true => exact lexes_keyword (w := "True") (isWord_sound (by decide))
    have hword : IsConstant [keyword (if b then "True" else "False")] :=
      Or.inl ⟨_, rfl, by simp [keyword]⟩
    refine (hlexes.reads_constant hword (constant_isConstant own)).congr ?_
    cases own with
    | null => cases b <;> simp [constant, keyword, Cell.toJson]
    | float r =>
      cases hneg : r.negative <;> simp [constant, keyword, signed, hneg, Cell.toJson]
    | bool b => exact hfits.elim
    | int i => exact hfits.elim
    | str s => exact hfits.elim
  | int i => exact hcell (lexes_int i) rfl
  | float r =>
    refine hcell (a := .float r) ?_ rfl
    simpa [Cell.toJson, Json.repr] using lexes_float r
  | str s =>
    refine (reads_repr s bits hfits).congr ?_
    cases own <;> simp_all [Cell.toJson, Cell.Fits]

/-- A literal is read as the constant of the column's own cell exactly when it stands for the value
of that cell. -/
theorem literal_reads [Python] {v own : Cell} {type : ArrowType} {text : String}
    (hfits : own.Fits type) (h : literal v type = .ok text) :
    Reads text.toList (constant own) (literalValue v type = .ok own.toJson) := by
  have hcell {text : String} {p : Cell} (hlexes : Lexes text.toList (constant p)) :
      Reads text.toList (constant own) ((Except.ok p.toJson : PyM Json) = .ok own.toJson) :=
    (hlexes.reads_constant (constant_isConstant p) (constant_isConstant own)).congr
      (by rw [constant_inj, Except.ok.injEq])
  have hstr : Reads ("'" ++ replaceQuote v.toJson.toStr ++ "'").toList (constant own)
      ((Except.ok (.str v.toJson.toStr) : PyM Json) = .ok own.toJson) := by
    refine hcell (p := .str v.toJson.toStr) ?_
    simpa [constant, replaceQuote] using lexes_str v.toJson.toStr.toList
  cases hnull : v.isNone with
  | true =>
    simp only [literal, literalValue, hnull, if_true, Except.ok.injEq] at h ⊢
    subst h
    have hword : Lexes "NULL".toList (constant .null) := lexes_keyword (isWord_sound (by decide))
    exact (hcell hword).congr (by simp [Cell.toJson])
  | false =>
    simp only [literal, literalValue, hnull, Bool.false_eq_true, if_false] at h ⊢
    cases type with
    | boolean =>
      cases h
      refine hcell (p := .bool v.toJson.truthy) ?_
      cases v.toJson.truthy <;> exact lexes_keyword (isWord_sound (by decide))
    | integer bits signed =>
      cases hint : v.toJson.toInt with
      | error e => simp [hint, Except.map] at h
      | ok i =>
        simp only [hint, Except.map, Except.ok.injEq] at h
        subst h
        exact hcell (p := .int i) (lexes_int i)
    | floating bits =>
      cases h
      exact (reads_floating bits hnull hfits).congr (by simp)
    | _ =>
      cases h
      exact hstr

/-- Every type name is a word. -/
theorem isWord_trinoType (type : ArrowType) : IsWord (trinoType type).toList := by
  have hall : ["BOOLEAN", "BIGINT", "DOUBLE", "VARCHAR", "DATE", "TIMESTAMP"].all isWord =
      true := by decide
  refine isWord_sound (List.all_eq_true.mp hall _ ?_)
  cases type <;> simp [trinoType]

/-- Every generated column name is a word. -/
theorem isWord_columnName (i : ℕ) : IsWord (columnName i).toList := by
  refine ⟨'c', Nat.toDigits 10 i, ?_, by decide, ?_⟩
  · simp [columnName, Nat.toList_repr]
  · intro d hd
    have hdigit := Nat.isDigit_of_mem_toDigits (by decide) (by decide) hd
    simp [isWordChar, Char.isAlphanum, hdigit]

/-- A column is read as asked exactly when its name has no quotation mark. -/
theorem column_reads (field : String × ArrowType) (i : ℕ) :
    Reads (columnText field i).toList (columnLexemes field i) ('"' ∉ field.1.toList) := by
  have has : IsWord "AS".toList := isWord_sound (by decide)
  have hcast : IsWord "CAST".toList := isWord_sound (by decide)
  have hname := (reads_delimited field.1.toList).white (c := ' ') (by decide)
  have halias := (hname.word (by decide) has).white (c := ' ') (by decide)
  have htype := (halias.sym (c := ')') (by decide)).word (by decide) (isWord_trinoType field.2)
  have htarget := (htype.white (c := ' ') (by decide)).word (by decide) has
  have hcolumn := (htarget.white (c := ' ') (by decide)).word (by decide) (isWord_columnName i)
  have hall := (hcolumn.sym (c := '(') (by decide)).word (by decide) hcast
  simpa [columnText, columnLexemes, columnName, keyword] using hall

/-- Texts that are joined by a comma and a blank, each with its lexemes and its condition. -/
theorem join_reads {ι : Type} {items : List ι} {texts : List String} {toks : ι → List Lexeme}
    {cond : ι → Prop}
    (h : List.Forall₂ (fun x text => Reads text.toList (toks x) (cond x)) items texts) :
    Reads (", ".intercalate texts).toList (commaSeparated (items.map toks))
      (∀ x ∈ items, cond x) := by
  have hjoin := reads_join (List.forall₂_map_right_iff.mpr h)
  simpa [String.toList_intercalate, commaSeparated] using hjoin

/-- The same between parentheses. -/
theorem tuple_reads {ι : Type} {items : List ι} {texts : List String} {toks : ι → List Lexeme}
    {cond : ι → Prop}
    (h : List.Forall₂ (fun x text => Reads text.toList (toks x) (cond x)) items texts) :
    Reads ("(" ++ ", ".intercalate texts ++ ")").toList (tuple (items.map toks))
      (∀ x ∈ items, cond x) := by
  simpa [tuple] using (join_reads h).parens

/-- Pointwise facts about a mapped list. -/
theorem forall₂_map {α β : Type} {R : α → β → Prop} {l : List α} {f : α → β}
    (h : ∀ a ∈ l, R a (f a)) : List.Forall₂ R l (l.map f) :=
  List.forall₂_map_right_iff.mpr (List.forall₂_same.mpr h)

/-- The column list is read as asked exactly when no column name has a quotation mark. -/
theorem columns_read (fields : List (String × ArrowType)) :
    Reads (", ".intercalate (fields.zipIdx.map (fun f => columnText f.1 f.2))).toList
      (commaSeparated (fields.zipIdx.map (fun f => columnLexemes f.1 f.2)))
      (∀ field ∈ fields, '"' ∉ field.1.toList) := by
  have hcolumns := join_reads (forall₂_map (l := fields.zipIdx)
    (fun f _ => column_reads f.1 f.2))
  refine hcolumns.congr ?_
  constructor
  · intro h field hfield
    obtain ⟨i, hi, hget⟩ := List.mem_iff_getElem.mp hfield
    have hat : fields[i]? = some field := List.getElem?_eq_some_iff.mpr ⟨hi, hget⟩
    exact h (field, i) (List.mk_mem_zipIdx_iff_getElem?.mpr hat)
  · intro h f hf
    exact h f.1 (List.fst_mem_of_mem_zipIdx hf)

/-- The generated column names are read as asked. -/
theorem names_read (fields : List (String × ArrowType)) :
    Reads (", ".intercalate (fields.zipIdx.map (fun f => columnName f.2))).toList
      (commaSeparated (fields.zipIdx.map (fun f => [keyword (columnName f.2)]))) True := by
  have hnames := join_reads (forall₂_map (l := fields.zipIdx)
    (fun f _ => (lexes_keyword (isWord_columnName f.2)).reads))
  exact hnames.congr (by simp)

/-- Every literal that is printed for a row stands for the value of its own cell. -/
def RowFaithful [Python] (schema : List (String × ArrowType)) (row : List Cell) : Prop :=
  ∀ p ∈ schema.zip row, literalValue (rowGet schema row p.1.1) p.1.2 = .ok p.2.toJson

/-- A row is read as the tuple of its cells exactly when its literals are faithful. -/
theorem row_reads [Python] {schema : List (String × ArrowType)} {row : List Cell}
    {vals : List String}
    (hfits : List.Forall₂ (fun field cell => cell.Fits field.2) schema row)
    (h : rowLiterals schema row = .ok vals) :
    Reads ("(" ++ ", ".intercalate vals ++ ")").toList (tuple (row.map constant))
      (RowFaithful schema row) := by
  have hlength := hfits.length_eq
  have hfst : (schema.zip row).map Prod.fst = schema := List.map_fst_zip hlength.le
  have hsnd : (schema.zip row).map Prod.snd = row := List.map_snd_zip hlength.ge
  have hvals : List.Forall₂ (fun p text => literal (rowGet schema row p.1.1) p.1.2 = .ok text)
      (schema.zip row) vals := by
    have hmap : List.Forall₂ (fun field text => literal (rowGet schema row field.1) field.2 =
        .ok text) ((schema.zip row).map Prod.fst) vals := by
      rw [hfst]
      exact mapM_ok h
    exact List.forall₂_map_left_iff.mp hmap
  have hboth := (List.forall₂_and_left _ _).mpr
    ⟨fun p (hp : p ∈ schema.zip row) => List.forall₂_zip hfits hp, hvals⟩
  have hitems : List.Forall₂ (fun p text => Reads text.toList (constant p.2)
      (literalValue (rowGet schema row p.1.1) p.1.2 = .ok p.2.toJson)) (schema.zip row) vals :=
    hboth.imp (fun p text hp => literal_reads hp.1 hp.2)
  have htuple := tuple_reads hitems
  have htoks : (schema.zip row).map (fun p => constant p.2) = row.map constant := by
    conv_rhs => rw [← hsnd, List.map_map]
    rfl
  rwa [htoks] at htuple

/-- The rows of the `VALUES` list are read as asked exactly when every row is faithful. -/
theorem rows_read [Python] {table : ArrowTable} {rows : List String}
    (h : table.rows.mapM (fun row => do
      let vals ← rowLiterals table.schema row
      return "(" ++ ", ".intercalate vals ++ ")") = .ok rows) :
    Reads (", ".intercalate rows).toList
      (commaSeparated (table.rows.map (fun row => tuple (row.map constant))))
      (∀ row ∈ table.rows, RowFaithful table.schema row) := by
  have hboth := (List.forall₂_and_left _ _).mpr ⟨table.fits, mapM_ok h⟩
  refine join_reads (hboth.imp ?_)
  rintro row text ⟨hfits, hrow⟩
  obtain ⟨vals, hvals, htext⟩ := bind_eq_ok hrow
  cases htext
  exact row_reads hfits hvals

/-- The row of nulls is read as asked. -/
theorem nulls_read (fields : List (String × ArrowType)) :
    Reads ("(" ++ ", ".intercalate (fields.map (fun _ => "NULL")) ++ ")").toList
      (tuple (fields.map (fun _ => constant .null))) True := by
  have hnull : Reads "NULL".toList (constant .null) True :=
    (lexes_keyword (isWord_sound (by decide))).reads
  exact (tuple_reads (forall₂_map (l := fields) (fun _ _ => hnull))).congr (by simp)

/-- The statement around the columns and the rows, up to its last closing parenthesis. -/
theorem frame_reads {columns rows names : String} {columnToks rowToks nameToks : List Lexeme}
    {a b : Prop} (hcolumns : Reads columns.toList columnToks a)
    (hrows : Reads rows.toList rowToks b)
    (hnames : Reads names.toList nameToks True) :
    Reads ("SELECT " ++ columns ++ " FROM (VALUES " ++ rows ++ ") AS _v(" ++ names).toList
      (keyword "SELECT" :: (columnToks ++ keyword "FROM" :: .sym '(' :: keyword "VALUES" ::
        (rowToks ++ .sym ')' :: keyword "AS" :: keyword "_v" :: .sym '(' :: nameToks)))
      (a ∧ b) := by
  have hwords : ["SELECT", "FROM", "VALUES", "AS", "_v"].all isWord = true := by decide
  have hword (w : String) (hw : w ∈ ["SELECT", "FROM", "VALUES", "AS", "_v"]) :
      IsWord w.toList := isWord_sound (List.all_eq_true.mp hwords w hw)
  have hopen := hnames.sym (c := '(') (by decide)
  have hv := (hopen.word (by decide) (hword "_v" (by simp))).white (c := ' ') (by decide)
  have has := (hv.word (by decide) (hword "AS" (by simp))).white (c := ' ') (by decide)
  have hbody := hrows.append (by decide) (has.sym (c := ')') (by decide))
  have hvalues := (hbody.white (c := ' ') (by decide)).word (by decide) (hword "VALUES" (by simp))
  have hsource := (hvalues.sym (c := '(') (by decide)).white (c := ' ') (by decide)
  have hfrom := (hsource.word (by decide) (hword "FROM" (by simp))).white (c := ' ') (by decide)
  have hlist := (hcolumns.append (by decide) hfrom).white (c := ' ') (by decide)
  have hall := hlist.word (by decide) (hword "SELECT" (by simp))
  simpa [keyword] using hall

/-- The names need no escaping: the table has columns, and none of their names has a quotation
mark. -/
def NamesPlain (table : ArrowTable) : Prop :=
  table.schema ≠ [] ∧ ∀ field ∈ table.schema, '"' ∉ field.1.toList

/-- A text that the builder returns is faithful exactly when the names need no escaping and every
row is faithful. -/
theorem faithful_iff_of_ok [Python] {table : ArrowTable} {text : String}
    (h : scratchSelect table = .ok text) :
    Faithful table text ↔
      NamesPlain table ∧ ∀ row ∈ table.rows, RowFaithful table.schema row := by
  have hcolumns := columns_read table.schema
  have hnames := names_read table.schema
  unfold scratchSelect at h
  unfold Faithful NamesPlain
  cases hempty : table.rows.isEmpty with
  | true =>
    simp only [hempty, if_true] at h
    cases h
    have hframe := frame_reads hcolumns (nulls_read table.schema) hnames ')' " WHERE false".toList
      (by decide) [.sym ')', keyword "WHERE", keyword "false"]
    have hclose : lexemes (')' :: " WHERE false".toList) =
        some [.sym ')', keyword "WHERE", keyword "false"] := by decide
    have hnone : table.rows = [] := List.isEmpty_iff.mp hempty
    simp only [hclose, and_true] at hframe
    simp only [List.cons_append, List.append_assoc] at hframe
    have hiff := and_congr_right (a := table.schema ≠ []) (fun _ => hframe)
    simpa [selectLexemes, valueRows, rowFilter, hempty, hnone, tuple, commaSeparated] using hiff
  | false =>
    simp only [hempty, Bool.false_eq_true, if_false] at h
    obtain ⟨rows, hrows, htext⟩ := bind_eq_ok h
    cases htext
    have hframe := frame_reads hcolumns (rows_read hrows) hnames ')' [] (by decide) [.sym ')']
    have hclose : lexemes [')'] = some [.sym ')'] := by decide
    simp only [hclose, and_true] at hframe
    simp only [List.cons_append, List.append_assoc] at hframe
    have hiff := and_congr_right (a := table.schema ≠ []) (fun _ => hframe)
    rw [← and_assoc] at hiff
    simpa [selectLexemes, valueRows, rowFilter, hempty, tuple] using hiff

/-- A literal that stands for a value is printed without an error. -/
theorem literal_ok [Python] {v : Cell} {type : ArrowType} {value : Json}
    (h : literalValue v type = .ok value) : ∃ text, literal v type = .ok text := by
  unfold literalValue at h
  unfold literal
  split
  · exact ⟨_, rfl⟩
  · rename_i hnull
    rw [if_neg hnull] at h
    cases type with
    | integer bits signed =>
      cases hint : v.toJson.toInt with
      | error e => simp [hint, Except.map] at h
      | ok i => exact ⟨toString i, rfl⟩
    | _ => exact ⟨_, rfl⟩

/-- The literals of a faithful row are printed without an error. -/
theorem rowLiterals_ok [Python] {schema : List (String × ArrowType)} {row : List Cell}
    (hlength : schema.length = row.length) (h : RowFaithful schema row) :
    ∃ vals, rowLiterals schema row = .ok vals := by
  refine mapM_ok_of_forall (fun field hfield => ?_)
  rw [← List.map_fst_zip hlength.le] at hfield
  obtain ⟨p, hp, rfl⟩ := List.mem_map.mp hfield
  exact literal_ok (h p hp)

/-- The builder does not raise on a table whose rows are faithful. -/
theorem scratchSelect_ok [Python] {table : ArrowTable}
    (h : ∀ row ∈ table.rows, RowFaithful table.schema row) :
    ∃ text, scratchSelect table = .ok text := by
  unfold scratchSelect
  dsimp only
  split
  · exact ⟨_, rfl⟩
  · obtain ⟨rows, hrows⟩ := mapM_ok_of_forall (l := table.rows)
      (f := fun row => do
        let vals ← rowLiterals table.schema row
        return "(" ++ ", ".intercalate vals ++ ")") (fun row hrow => by
        obtain ⟨vals, hvals⟩ := rowLiterals_ok (table.fits row hrow).length_eq (h row hrow)
        exact ⟨_, by rw [hvals]; rfl⟩)
    rw [hrows]
    exact ⟨_, rfl⟩

/-- The builder returns a faithful text exactly when the names need no escaping and every row is
faithful. -/
theorem scratchSelect_faithful_iff [Python] (table : ArrowTable) :
    (∃ text, scratchSelect table = .ok text ∧ Faithful table text) ↔
      NamesPlain table ∧ ∀ row ∈ table.rows, RowFaithful table.schema row := by
  constructor
  · rintro ⟨text, hok, hfaithful⟩
    exact (faithful_iff_of_ok hok).mp hfaithful
  · intro h
    obtain ⟨text, hok⟩ := scratchSelect_ok h.2
    exact ⟨text, hok, (faithful_iff_of_ok hok).mpr h⟩

/-- The column has one of the types for which there is a literal of its own, or holds only texts
and nulls. -/
def Cell.Plain (cell : Cell) (type : ArrowType) : Prop :=
  match type, cell with
  | .other _, .bool _ | .other _, .int _ | .other _, .float _ => False
  | _, _ => True

/-- With distinct names, `row[name]` is the cell of that column. -/
theorem rowGet_of_nodup {schema : List (String × ArrowType)} {row : List Cell}
    (hnames : (schema.map Prod.fst).Nodup) {p : (String × ArrowType) × Cell}
    (hlength : schema.length = row.length) (hp : p ∈ schema.zip row) :
    rowGet schema row p.1.1 = p.2 := by
  have hkeys : ((schema.zip row).map (fun p => p.1.1)).Nodup := by
    have hmap : (schema.zip row).map (fun p => p.1.1) = schema.map Prod.fst := by
      conv_rhs => rw [← List.map_fst_zip hlength.le, List.map_map]
      rfl
    rwa [hmap]
  cases hfind : (schema.zip row).reverse.find? (fun q => q.1.1 == p.1.1) with
  | none =>
    have hnone := List.find?_eq_none.mp hfind p (List.mem_reverse.mpr hp)
    simp at hnone
  | some q =>
    have hq : q ∈ schema.zip row := List.mem_reverse.mp (List.mem_of_find?_eq_some hfind)
    have hkey : q.1.1 = p.1.1 := by simpa using List.find?_some hfind
    have heq : q = p := List.inj_on_of_nodup_map hkeys hq hp hkey
    simp [rowGet, hfind, heq]

/-- A cell of a plain column stands for itself. -/
theorem literalValue_self [Python] {cell : Cell} {type : ArrowType} (hfits : cell.Fits type)
    (hplain : cell.Plain type) : literalValue cell type = .ok cell.toJson := by
  cases cell <;> cases type <;> first | rfl | exact hfits.elim | exact hplain.elim

/-- Rows of a table with distinct column names are faithful. -/
theorem rowFaithful_of_nodup [Python] {schema : List (String × ArrowType)} {row : List Cell}
    (hnames : (schema.map Prod.fst).Nodup)
    (hfits : List.Forall₂ (fun field cell => cell.Fits field.2) schema row)
    (hplain : ∀ p ∈ schema.zip row, p.2.Plain p.1.2) : RowFaithful schema row := by
  intro p hp
  rw [rowGet_of_nodup hnames hfits.length_eq hp]
  exact literalValue_self (List.forall₂_zip hfits hp) (hplain p hp)

/-- Of a table with distinct column names and plain columns the text is faithful exactly when the
names need no escaping. -/
theorem scratchSelect_faithful_of_nodup [Python] (table : ArrowTable)
    (hnames : (table.schema.map Prod.fst).Nodup)
    (hplain : ∀ row ∈ table.rows, ∀ p ∈ table.schema.zip row, p.2.Plain p.1.2) :
    (∃ text, scratchSelect table = .ok text ∧ Faithful table text) ↔ NamesPlain table := by
  rw [scratchSelect_faithful_iff]
  exact and_iff_left
    (fun row hrow => rowFaithful_of_nodup hnames (table.fits row hrow) (hplain row hrow))

section

attribute [local instance] asciiPython

/-- One text column whose name closes the identifier and goes on with a query over a table of
another tenant. -/
def injectedTable : ArrowTable where
  schema := [("a\" FROM (SELECT v AS c0 FROM t_victim.secrets) UNION SELECT c0 AS \"b",
    .string false)]
  rows := [[.str "x"]]
  fits := by simp [Cell.Fits]

/-- The returned text is not faithful: the other tenant's schema is a word of the statement. -/
theorem injectedTable_reads_victim : ∃ text, scratchSelect injectedTable = .ok text ∧
    (lexemes text.toList).any (fun toks => toks.contains (keyword "t_victim")) = true ∧
      ¬ Faithful injectedTable text := by
  refine ⟨_, rfl, by decide +kernel, ?_⟩
  intro h
  have hplain := ((faithful_iff_of_ok rfl).mp h).1.2 _ (List.mem_singleton.mpr rfl)
  exact hplain (by decide +kernel)

end

end Memcove
