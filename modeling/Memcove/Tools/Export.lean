import Memcove.Tools.FrontEnds

/-!
# Exports

`export_artifact` of `tools/artifacts.py` with `stream_arrow_batches` of `core/trino_client.py`. A
query is exported as `SELECT * FROM (…) AS _e LIMIT n`, whose rows come in an order that is the
engine's. The cursor is read in batches, and each of the three formats writes one batch after the
other. The key of the file is a matter of `Identifiers`.
-/

namespace Memcove

/-- The dictionary of `_arrow_type_from_trino`. -/
def simpleTypes : List (String × ArrowType) :=
  [("boolean", .boolean), ("tinyint", .integer 8 true), ("smallint", .integer 16 true),
    ("integer", .integer 32 true), ("int", .integer 32 true), ("bigint", .integer 64 true),
    ("real", .floating 32), ("double", .floating 64), ("date", .date 32),
    ("varchar", .string false), ("char", .string false), ("varbinary", .binary false),
    ("json", .string false), ("uuid", .string false), ("time", .string false),
    ("ipaddress", .string false)]

/-- `(\d+)\s*,\s*(\d+)\)` at the beginning of a text. -/
def readPair (s : List Char) : Option (ℕ × ℕ) :=
  match (s.dropWhile Char.isDigit).dropWhile isSpace with
  | ',' :: rest =>
    let rest := rest.dropWhile isSpace
    match rest.dropWhile Char.isDigit with
    | ')' :: _ => do
      let precision ← (String.ofList (s.takeWhile Char.isDigit)).toNat?
      let scale ← (String.ofList (rest.takeWhile Char.isDigit)).toNat?
      return (precision, scale)
    | _ => none
  | _ => none

/-- `re.search(r"\((\d+)\s*,\s*(\d+)\)", t)`. -/
def searchPair : List Char → Option (ℕ × ℕ)
  | [] => none
  | c :: rest => (if c == '(' then readPair rest else none) <|> searchPair rest

/-- `pa.decimal128` with the precision and the scale of the type name, or `(38, 0)`. -/
def decimalType (t : String) : ArrowType :=
  let (precision, scale) := (searchPair t.toList).getD (38, 0)
  .other s!"decimal128({precision}, {scale})"

/-- `_arrow_type_from_trino`. -/
def arrowTypeFromTrino [Python] (typeCode : String) : ArrowType :=
  let t := lower (strip typeCode)
  let base := t.toList.takeWhile (fun c => c != '(' && !isSpace c)
  match dictGet simpleTypes (String.ofList base) with
  | some type => type
  | none =>
    if String.ofList base = "decimal" then decimalType t
    else if "timestamp".toList.isPrefixOf base then .timestamp .micro none
    else .string false

/-- `_build_array` on one cell: a column of strings holds the JSON text of other values. -/
def buildCell (type : ArrowType) (v : Cell) : Cell :=
  match type, v with
  | .string _, .bool b => .str (if b then "true" else "false")
  | .string _, .int i => .str (toString i)
  | .string _, .float r => .str (String.ofList r.text)
  | _, v => v

/-- One row of a record batch. -/
def buildRow (schema : Columns) (row : List Cell) : List Cell :=
  List.zipWith (fun field v => buildCell field.2 v) schema row

/-- The schema of `stream_arrow_batches`, from the names and type codes of the cursor. -/
def streamSchema [Python] (description : List (String × String)) : Columns :=
  description.map (fun d => (d.1, arrowTypeFromTrino d.2))

/-- At most `n` rounds of `while True: rows = cur.fetchmany(size)`. -/
def fetchBatches (size : ℕ) : ℕ → Rows → List Rows
  | 0, _ => []
  | n + 1, rows =>
    let fetched := rows.take size
    if fetched.isEmpty then [] else fetched :: fetchBatches size n (rows.drop size)

/-- `stream_arrow_batches` on the rows that the cursor returns. -/
def streamArrowBatches (size : ℕ) (schema : Columns) (rows : Rows) : List Rows :=
  if schema.isEmpty then []
  else (fetchBatches size rows.length rows).map (List.map (buildRow schema))

/-- What `_stream_json` writes at a time; `rows` is the text of the rows of a batch, without the
brackets. -/
inductive JsonPiece where
  | opening | comma | closing
  | rows (rows : Rows)

/-- The exported file. -/
inductive ExportedFile where
  | parquet (schema : Columns) (rowGroups : List Rows)
  | csv (header : List String) (lines : Rows)
  | json (pieces : List JsonPiece)

/-- The rest of a JSON array after its first elements. -/
def readElements : List JsonPiece → Option Rows
  | [.closing] => some []
  | .comma :: .rows rows :: rest =>
    if rows.isEmpty then none else (readElements rest).map (rows ++ ·)
  | _ => none

/-- The elements of a JSON array, if the pieces make up one. -/
def readJson : List JsonPiece → Option Rows
  | [.opening, .closing] => some []
  | .opening :: .rows rows :: rest =>
    if rows.isEmpty then none else (readElements rest).map (rows ++ ·)
  | _ => none

/-- The rows in a file, if it is well-formed. -/
def ExportedFile.rows : ExportedFile → Option Rows
  | parquet _ rowGroups => some rowGroups.flatten
  | csv _ lines => some lines
  | json pieces => readJson pieces

/-- The loop of `_stream_parquet`, with the row groups and the count so far. -/
def writeRowGroups : List Rows → ℕ → List Rows → List Rows × ℕ
  | groups, rowCount, [] => (groups, rowCount)
  | groups, rowCount, b :: batches =>
    writeRowGroups (groups ++ [b]) (rowCount + b.length) batches

/-- `_stream_parquet`. -/
def streamParquet (schema : Columns) (batches : List Rows) : ExportedFile × ℕ :=
  let written := writeRowGroups [] 0 batches
  (.parquet schema written.1, written.2)

/-- The loop of `_stream_csv`, with the lines and the count so far. -/
def writeLines : Rows → ℕ → List Rows → Rows × ℕ
  | lines, rowCount, [] => (lines, rowCount)
  | lines, rowCount, b :: batches => writeLines (lines ++ b) (rowCount + b.length) batches

/-- `_stream_csv`. -/
def streamCsv (schema : Columns) (batches : List Rows) : ExportedFile × ℕ :=
  let written := writeLines [] 0 batches
  (.csv (schema.map (·.1)) written.1, written.2)

/-- The loop of `_stream_json`, with `first` and the count so far. -/
def writeElements (first : Bool) (rowCount : ℕ) : List Rows → List JsonPiece × ℕ
  | [] => ([], rowCount)
  | b :: batches =>
    let rest := writeElements (first && b.isEmpty) (rowCount + b.length) batches
    let piece := if b.isEmpty then [] else if first then [.rows b] else [.comma, .rows b]
    (piece ++ rest.1, rest.2)

/-- `_stream_json`. -/
def streamJson (batches : List Rows) : ExportedFile × ℕ :=
  let written := writeElements true 0 batches
  (.json (.opening :: written.1 ++ [.closing]), written.2)

/-- The choice of the writer. -/
def streamFile (fmt : String) (schema : Columns) (batches : List Rows) : ExportedFile × ℕ :=
  if fmt = "parquet" then streamParquet schema batches
  else if fmt = "csv" then streamCsv schema batches
  else streamJson batches

/-- With a positive size the batches are the rows. -/
theorem flatten_fetchBatches {size : ℕ} (hsize : 0 < size) {n : ℕ} {rows : Rows}
    (hn : rows.length ≤ n) : (fetchBatches size n rows).flatten = rows := by
  induction n generalizing rows with
  | zero =>
    rw [List.length_eq_zero_iff.mp (Nat.le_zero.mp hn)]
    rfl
  | succ n ih =>
    unfold fetchBatches
    cases rows with
    | nil => simp
    | cons row rows =>
      have hne : ((row :: rows).take size).isEmpty = false := by
        simp [List.isEmpty_eq_false_iff]
        omega
      have hrest : ((row :: rows).drop size).length ≤ n := by
        simp only [List.length_drop, List.length_cons] at hn ⊢
        omega
      simp only [hne, Bool.false_eq_true, if_false, List.flatten_cons, ih hrest,
        List.take_append_drop]

/-- Fetching nothing at a time ends at once. -/
theorem fetchBatches_zero (n : ℕ) (rows : Rows) : fetchBatches 0 n rows = [] := by
  cases n <;> simp [fetchBatches]

/-- The row groups are the batches. -/
theorem writeRowGroups_eq (groups : List Rows) (rowCount : ℕ) (batches : List Rows) :
    writeRowGroups groups rowCount batches =
      (groups ++ batches, rowCount + batches.flatten.length) := by
  induction batches generalizing groups rowCount with
  | nil => simp [writeRowGroups]
  | cons b batches ih => simp [writeRowGroups, ih, Nat.add_assoc]

/-- The lines are the rows of the batches. -/
theorem writeLines_eq (lines : Rows) (rowCount : ℕ) (batches : List Rows) :
    writeLines lines rowCount batches =
      (lines ++ batches.flatten, rowCount + batches.flatten.length) := by
  induction batches generalizing lines rowCount with
  | nil => simp [writeLines]
  | cons b batches ih => simp [writeLines, ih, Nat.add_assoc]

/-- After the first elements the loop writes the rows of the batches, each with its comma. -/
theorem readElements_writeElements (rowCount : ℕ) (batches : List Rows) :
    readElements ((writeElements false rowCount batches).1 ++ [.closing]) =
      some batches.flatten := by
  induction batches generalizing rowCount with
  | nil => rfl
  | cons b batches ih =>
    cases b with
    | nil => simpa [writeElements] using ih rowCount
    | cons row rows =>
      simp only [writeElements, Bool.false_and, List.isEmpty_cons, Bool.false_eq_true, if_false,
        List.cons_append, List.nil_append, readElements, ih, Option.map_some, List.flatten_cons]

/-- The pieces make up an array of the rows of the batches. -/
theorem readJson_writeElements (rowCount : ℕ) (batches : List Rows) :
    readJson (.opening :: (writeElements true rowCount batches).1 ++ [.closing]) =
      some batches.flatten := by
  induction batches generalizing rowCount with
  | nil => rfl
  | cons b batches ih =>
    cases b with
    | nil => simpa [writeElements] using ih rowCount
    | cons row rows =>
      simp only [writeElements, List.isEmpty_cons, Bool.and_false, Bool.false_eq_true, if_false,
        if_true, List.cons_append, List.nil_append, readJson,
        readElements_writeElements, Option.map_some, List.flatten_cons]

/-- The JSON loop counts the rows of the batches. -/
theorem writeElements_count (first : Bool) (rowCount : ℕ) (batches : List Rows) :
    (writeElements first rowCount batches).2 = rowCount + batches.flatten.length := by
  induction batches generalizing first rowCount with
  | nil => rfl
  | cons b batches ih => simp [writeElements, ih, Nat.add_assoc]

/-- Every format writes the rows of the batches and counts them. -/
theorem streamFile_eq (fmt : String) (schema : Columns) (batches : List Rows) :
    (streamFile fmt schema batches).1.rows = some batches.flatten ∧
      (streamFile fmt schema batches).2 = batches.flatten.length := by
  unfold streamFile
  split
  · simp [streamParquet, writeRowGroups_eq, ExportedFile.rows]
  · split
    · simp [streamCsv, writeLines_eq, ExportedFile.rows]
    · exact ⟨readJson_writeElements 0 batches, by simp [streamJson, writeElements_count]⟩

/-- The batches hold the rows of the cursor, unless nothing is fetched at a time. -/
theorem flatten_streamArrowBatches {size : ℕ} {schema : Columns} (hschema : schema ≠ [])
    (rows : Rows) : (streamArrowBatches size schema rows).flatten =
      if size = 0 then [] else rows.map (buildRow schema) := by
  have hne : schema.isEmpty = false := by simpa using hschema
  simp only [streamArrowBatches, hne, Bool.false_eq_true, if_false]
  split
  · rename_i hsize
    subst hsize
    simp [fetchBatches_zero]
  · rename_i hsize
    rw [← List.map_flatten, flatten_fetchBatches (Nat.pos_of_ne_zero hsize) le_rfl]

section

variable [Python] [Sqlglot] [Trino]

/-- What the cursor returns for a wrapped query: the names and type codes of its columns, and the
rows of the query inside in the order of the engine, before the limit. -/
structure CursorAnswer where
  description : List (String × String)
  order : Rows

/-- `ArtifactRef`, with the file that it leads to. -/
structure ArtifactRef where
  format : String
  rowCount : ℕ
  file : ExportedFile

/-- `export_artifact` from the guarded query on. -/
def exportGuarded (settings : Settings) (fmt : String) (answer : CursorAnswer) : ArtifactRef :=
  let schema := streamSchema answer.description
  let batches := streamArrowBatches settings.streamBatchRows schema
    (answer.order.take settings.exportRowCap)
  let written := streamFile fmt schema batches
  { format := fmt, rowCount := written.2, file := written.1 }

/-- The statement that is exported. -/
def exportStatement (label sql : String) : PyM String :=
  if label = "" then .ok sql else do
    let base ← validateLabel label
    return "SELECT * FROM " ++ base

/-- `export_artifact`, where `answer` is the engine's answer to the wrapped query. -/
def exportArtifact (settings : Settings) (tenant fmt : String) (label sql : Option String)
    (answer : List Token → CursorAnswer) : PyM ArtifactRef :=
  if fmt ∉ exportFormats then
    raise .memcoveError s!"unsupported format {Python.repr fmt}; expected parquet|csv|json"
  else if (label.getD "" != "") == (sql.getD "" != "") then
    raise .memcoveError "provide exactly one of 'label' or 'sql'"
  else do
    let statement ← exportStatement (label.getD "") (sql.getD "")
    let guarded ← validateSelect (exportParams settings tenant) statement
    return exportGuarded settings fmt (answer guarded.sql)

/-- The file holds the first rows of the query up to the cap, in the order of the query, and they
are counted. So an exact preview of the same statement is the beginning of the file. -/
structure ExportAgrees (settings : Settings) (tenant sql : String) (guarded : GuardedQuery)
    (schema : Columns) (artifact : ArtifactRef) : Prop where
  rows : artifact.file.rows =
    some (((Trino.run guarded.sql).take settings.exportRowCap).map (buildRow schema))
  rowCount : artifact.file.rows.map List.length = some artifact.rowCount
  preview : ∀ limit result, validateSelect (queryParams settings tenant) sql = .ok guarded →
    runQuery settings tenant sql limit = .ok result →
    result.Exact (Trino.run guarded.sql) (previewCap settings limit) →
    previewCap settings limit ≤ settings.exportRowCap →
      ∃ rows, artifact.file.rows = some rows ∧ result.rows.map (buildRow schema) <+: rows

/-- The order of the rows makes no difference to the file. -/
def OrderFree (settings : Settings) (schema : Columns) (rows : Rows) : Prop :=
  settings.exportRowCap = 0 ∨ rows = [] ∨
    (settings.streamBatchRows ≠ 0 ∧ ∀ a ∈ rows, ∀ b ∈ rows, buildRow schema a = buildRow schema b)

/-- An export with the right rows agrees with the query. -/
theorem exportAgrees_iff {settings : Settings} {tenant sql fmt : String} {guarded : GuardedQuery}
    {description : List (String × String)} (hdescription : description ≠ []) (order : Rows) :
    ExportAgrees settings tenant sql guarded (streamSchema description)
        (exportGuarded settings fmt ⟨description, order⟩) ↔
      (if settings.streamBatchRows = 0 then []
        else (order.take settings.exportRowCap).map (buildRow (streamSchema description))) =
        ((Trino.run guarded.sql).take settings.exportRowCap).map
          (buildRow (streamSchema description)) := by
  have hschema : streamSchema description ≠ [] := by simpa [streamSchema] using hdescription
  obtain ⟨hrows, hcount⟩ := streamFile_eq fmt (streamSchema description)
    (streamArrowBatches settings.streamBatchRows (streamSchema description)
      (order.take settings.exportRowCap))
  rw [flatten_streamArrowBatches hschema] at hrows hcount
  constructor
  · intro hagrees
    have hsame := hagrees.rows
    rw [exportGuarded, hrows, Option.some.injEq] at hsame
    exact hsame
  · intro hsame
    rw [hsame] at hrows hcount
    refine ⟨hrows, by rw [exportGuarded, hrows, hcount, Option.map_some], ?_⟩
    intro limit result _ _ hexact hcap
    refine ⟨_, hrows, ?_⟩
    rw [hexact.rows]
    exact (List.take_prefix_take_left (le_trans (Nat.min_le_left _ _) hcap)).map _

omit [Python] [Sqlglot] [Trino] in
/-- A list of equal elements has one order. -/
theorem eq_of_perm_of_constant {α : Type} {l l' : List α} (h : l.Perm l')
    (hconstant : ∀ a ∈ l', ∀ b ∈ l', a = b) : l = l' := by
  cases l' with
  | nil => exact List.perm_nil.mp h
  | cons first rest =>
    have hreplicate : first :: rest = List.replicate (first :: rest).length first :=
      List.eq_replicate_iff.mpr ⟨rfl, fun a ha => hconstant a ha first List.mem_cons_self⟩
    rw [hreplicate] at h ⊢
    exact List.perm_replicate.mp h

omit [Python] [Sqlglot] [Trino] in
/-- Every order of the rows gives the same first rows if and only if the order makes no
difference. -/
theorem orderFree_iff (settings : Settings) (schema : Columns) (rows : Rows) :
    (∀ order : Rows, order.Perm rows →
      (if settings.streamBatchRows = 0 then []
        else (order.take settings.exportRowCap).map (buildRow schema)) =
        (rows.take settings.exportRowCap).map (buildRow schema)) ↔
      OrderFree settings schema rows := by
  constructor
  · intro h
    cases hrows : rows with
    | nil => exact Or.inr (Or.inl rfl)
    | cons first rest =>
      rw [hrows] at h
      cases hcap : settings.exportRowCap with
      | zero => exact Or.inl hcap
      | succ cap =>
        rw [hcap] at h
        have hsize : settings.streamBatchRows ≠ 0 := by
          intro hzero
          have hnone := h _ (List.Perm.refl _)
          simp [hzero] at hnone
        -- the engine may put any row first
        have hfirst (row : List Cell) (hrow : row ∈ first :: rest) :
            buildRow schema row = buildRow schema first := by
          obtain ⟨before, after, hsplit⟩ := List.append_of_mem hrow
          have hmoved := h (row :: (before ++ after)) (hsplit ▸ List.perm_middle.symm)
          rw [if_neg hsize, List.take_succ_cons, List.take_succ_cons, List.map_cons,
            List.map_cons] at hmoved
          exact (List.cons.inj hmoved).1
        exact Or.inr (Or.inr ⟨hsize, fun a ha b hb => (hfirst a ha).trans (hfirst b hb).symm⟩)
  · rintro (hcap | rfl | ⟨hsize, hsame⟩) order horder
    · simp [hcap]
    · rw [List.perm_nil.mp horder]
      simp
    · rw [if_neg hsize, List.map_take, List.map_take]
      refine congrArg _ (eq_of_perm_of_constant (horder.map _) ?_)
      intro _ hwritten _ hother
      obtain ⟨a, ha, rfl⟩ := List.mem_map.mp hwritten
      obtain ⟨b, hb, rfl⟩ := List.mem_map.mp hother
      exact hsame a ha b hb

/-- The exported file agrees with the query, whatever order the engine chooses, if and only if the
order makes no difference. -/
theorem exportArtifact_agrees_iff {settings : Settings} {tenant fmt sql : String}
    {guarded : GuardedQuery} (hfmt : fmt ∈ exportFormats)
    (hguard : validateSelect (exportParams settings tenant) sql = .ok guarded)
    {description : List (String × String)} (hdescription : description ≠ []) :
    (∀ order : Rows, order.Perm (Trino.run guarded.sql) → ∃ artifact,
      exportArtifact settings tenant fmt none (some sql) (fun _ => ⟨description, order⟩) =
        .ok artifact ∧
      ExportAgrees settings tenant sql guarded (streamSchema description) artifact) ↔
      OrderFree settings (streamSchema description) (Trino.run guarded.sql) := by
  have hsql : sql ≠ "" := by
    rintro rfl
    have hempty : parseStatement "" = raise .sqlGuardError "empty SQL" := by
      unfold parseStatement
      exact if_pos (by decide)
    rw [validateSelect, hempty] at hguard
    cases hguard
  have hexport (order : Rows) : exportArtifact settings tenant fmt none (some sql)
      (fun _ => ⟨description, order⟩) =
        .ok (exportGuarded settings fmt ⟨description, order⟩) := by
    have hone : ¬ (((none : Option String).getD "" != "") ==
        ((some sql).getD "" != "")) = true := by
      simp [hsql]
    rw [exportArtifact, if_neg (not_not.mpr hfmt), if_neg hone]
    generalize validateSelect (exportParams settings tenant) = validate at hguard ⊢
    change (validate sql >>= _) = _
    rw [hguard]
    rfl
  rw [← orderFree_iff]
  refine forall_congr' (fun order => imp_congr_right (fun _ => ?_))
  have hagrees_iff : ExportAgrees settings tenant sql guarded (streamSchema description)
      (exportGuarded settings fmt ⟨description, order⟩) ↔ _ := exportAgrees_iff hdescription order
  rw [← hagrees_iff, hexport]
  constructor
  · rintro ⟨artifact, hartifact, hagrees⟩
    cases hartifact
    exact hagrees
  · exact fun hagrees => ⟨_, rfl, hagrees⟩

end

/-- How the generator prints an `ORDER BY` after a plain `SELECT * FROM`. -/
def orderFrame (kind : Kind) (children : List (Kind × List Token)) : List Token :=
  match kind with
  | .other "Ordered" => .text "ORDER" :: .text "BY" :: children.flatMap (·.2)
  | .other "v" => [.text "v"]
  | _ => plainFrame kind children

/-- The SQL library on `SELECT * FROM events ORDER BY v`. -/
@[reducible] def orderSqlglot : Sqlglot where
  parse := (plainSqlglot [("SELECT * FROM events ORDER BY v", .node .select
    (readStar { name := "events" } ++ [.node (.other "Ordered") [.node (.other "v") []]]))]).parse
  frame := orderFrame
  frame_verbs kind children v hkind h := by
    unfold orderFrame at h
    split at h
    · simpa using h
    · simp at h
    · exact (plainSqlglot []).frame_verbs kind children v hkind h

/-- A query engine on which every table has one row. -/
@[reducible] def oneRowTrino : Trino where
  Body := PUnit
  parseOne _ := none
  columns _ := ["v"]
  ordered _ := []
  run _ := [[.str "a"]]
  scan _ := [[.str "a"]]
  run_parsed _ _ h := by cases h
  scan_perm _ := List.Perm.refl _

section

attribute [local instance] asciiPython orderSqlglot

/-- Under a cap of two the engine may return the last two of five ordered rows. -/
theorem orderedExport_disagrees :
    let _ : Trino := fiveRowsTrino
    ∃ guarded order, validateSelect (exportParams { exportRowCap := 2 } "t_acme")
        "SELECT * FROM events ORDER BY v" = .ok guarded ∧
      order.Perm (Trino.run guarded.sql) ∧ ∀ artifact,
        exportArtifact { exportRowCap := 2 } "t_acme" "csv" none
          (some "SELECT * FROM events ORDER BY v") (fun _ => ⟨[("v", "varchar")], order⟩) =
            .ok artifact →
        ¬ ExportAgrees { exportRowCap := 2 } "t_acme" "SELECT * FROM events ORDER BY v" guarded
          (streamSchema [("v", "varchar")]) artifact := by
  intro _
  refine ⟨_, fiveRows.reverse, rfl, List.reverse_perm _, ?_⟩
  intro artifact hartifact hagrees
  cases hartifact
  have hrows : some [[Cell.str "e"], [Cell.str "d"]] = some [[Cell.str "a"], [Cell.str "b"]] :=
    hagrees.rows
  simp at hrows

/-- The only row of a query is exported. -/
theorem singleRow_agrees :
    let _ : Trino := oneRowTrino
    ∃ guarded artifact, validateSelect (exportParams {} "t_acme")
        "SELECT * FROM events ORDER BY v" = .ok guarded ∧
      exportArtifact {} "t_acme" "json" none (some "SELECT * FROM events ORDER BY v")
        (fun _ => ⟨[("v", "varchar")], [[.str "a"]]⟩) = .ok artifact ∧
      ExportAgrees {} "t_acme" "SELECT * FROM events ORDER BY v" guarded
        (streamSchema [("v", "varchar")]) artifact := by
  intro _
  have hguard : validateSelect (exportParams {} "t_acme") "SELECT * FROM events ORDER BY v" =
      .ok _ := rfl
  have hfmt : "json" ∈ exportFormats := by decide
  have hfree : OrderFree {} (streamSchema [("v", "varchar")]) [[Cell.str "a"]] := by
    refine Or.inr (Or.inr ⟨by decide, fun a ha b hb => ?_⟩)
    rw [List.mem_singleton.mp ha, List.mem_singleton.mp hb]
  obtain ⟨artifact, hartifact, hagrees⟩ := (exportArtifact_agrees_iff hfmt hguard
    (List.cons_ne_nil ("v", "varchar") [])).mpr hfree _ (List.Perm.refl _)
  exact ⟨_, artifact, hguard, hartifact, hagrees⟩

end

end Memcove
