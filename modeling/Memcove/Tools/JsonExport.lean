import Memcove.Tools.Export

/-!
# The bytes of a JSON export

`_stream_json` of `tools/artifacts.py` prints each batch as an array of its own, cuts the brackets
off and puts the separators between the batches itself. Its bytes are those of the array of all
rows.
-/

namespace Memcove

/-- A string of bytes. -/
abbrev ByteString := List UInt8

/-- `b"["`. -/
def openBracket : ByteString := [0x5b]

/-- `b"]"`. -/
def closeBracket : ByteString := [0x5d]

/-- `b","`. -/
def commaByte : ByteString := [0x2c]

/-- `orjson.dumps(rows, default=str)` for the values of record batches. A row is a dictionary,
which is printed between braces or refused, and a list is printed as `[`, the rows with commas
between them, and `]`. -/
class RowPrinter where
  Value : Type
  row : List (String × Value) → PyM ByteString
  row_braces : ∀ {fields text}, row fields = .ok text → ∃ entries, text = 0x7b :: entries ++ [0x7d]
  dumps : List (List (String × Value)) → PyM ByteString
  dumps_rows : ∀ rows, dumps rows = do
    let texts ← rows.mapM row
    return openBracket ++ commaByte.intercalate texts ++ closeBracket

section

variable [RowPrinter]

open RowPrinter (Value)

/-- `pyarrow.RecordBatch`: distinct column names, and rows with a value in every column. -/
structure RecordBatch where
  columns : List String
  rows : List (List Value)
  distinct : columns.Nodup
  fits : ∀ row ∈ rows, row.length = columns.length

/-- `RecordBatch.to_pylist`. -/
def RecordBatch.toPylist (b : RecordBatch) : List (List (String × Value)) :=
  b.rows.map (List.zip b.columns)

/-- `RecordBatch.num_rows`. -/
def RecordBatch.numRows (b : RecordBatch) : ℕ := b.rows.length

/-- `text[1:-1]`. -/
def unbracket (text : ByteString) : ByteString := (text.drop 1).dropLast

/-- The loop of `_stream_json`, with `first` and the count so far. -/
def writeBatches (first : Bool) (rowCount : ℕ) : List RecordBatch → PyM (ByteString × ℕ)
  | [] => return ([], rowCount)
  | b :: batches => do
    let inner := unbracket (← RowPrinter.dumps b.toPylist)
    let written := if inner.isEmpty then [] else if first then inner else commaByte ++ inner
    let rest ← writeBatches (first && inner.isEmpty) (rowCount + b.numRows) batches
    return (written ++ rest.1, rest.2)

/-- `_stream_json`: the bytes written and the count returned. -/
def streamJsonBytes (batches : List RecordBatch) : PyM (ByteString × ℕ) := do
  let written ← writeBatches true 0 batches
  return (openBracket ++ written.1 ++ closeBracket, written.2)

/-- What is written for rows with these texts: `first` says that no row is written yet. -/
def continuation (first : Bool) (texts : List ByteString) : ByteString :=
  if texts.isEmpty then [] else (if first then [] else commaByte) ++ commaByte.intercalate texts

omit [RowPrinter] in
/-- The first rows are written without a separator. -/
theorem continuation_true (texts : List ByteString) :
    continuation true texts = commaByte.intercalate texts := by
  cases texts <;> simp [continuation]

omit [RowPrinter] in
/-- The rows of a batch come before the others, which are no longer the first ones if the batch has
any. -/
theorem continuation_append (first : Bool) (texts texts' : List ByteString) :
    continuation first (texts ++ texts') =
      continuation first texts ++ continuation (first && texts.isEmpty) texts' := by
  induction texts generalizing first with
  | nil => simp [continuation]
  | cons text texts ih =>
    cases texts with
    | nil => cases texts' <;> simp [continuation]
    | cons next texts =>
      have hrest := ih false
      simp only [continuation, List.cons_append, List.isEmpty_cons, Bool.false_eq_true, if_false,
        Bool.and_false, List.intercalate_cons_cons, List.append_assoc,
        List.append_cancel_left_eq] at hrest ⊢
      exact hrest

omit [RowPrinter] in
/-- Cutting the brackets off leaves the rows. -/
theorem unbracket_brackets (inner : ByteString) :
    unbracket (openBracket ++ inner ++ closeBracket) = inner := by
  simp [unbracket, openBracket, closeBracket]

omit [RowPrinter] in
/-- Texts with something in each are joined to nothing only if there are none. -/
theorem intercalate_isEmpty {texts : List ByteString} (h : ∀ text ∈ texts, text ≠ []) :
    (commaByte.intercalate texts).isEmpty = texts.isEmpty := by
  cases texts with
  | nil => rfl
  | cons text texts =>
    have htext := h text List.mem_cons_self
    cases texts <;> simp [htext]

/-- The texts of rows have something in each. -/
theorem rowTexts_ne_nil {rows : List (List (String × Value))} {texts : List ByteString}
    (h : rows.mapM RowPrinter.row = .ok texts) : ∀ text ∈ texts, text ≠ [] := by
  have hprinted := mapM_ok h
  clear h
  induction hprinted with
  | nil => simp
  | cons hrow _ ih =>
    rw [List.forall_mem_cons]
    obtain ⟨entries, rfl⟩ := RowPrinter.row_braces hrow
    exact ⟨by simp, ih⟩

/-- The loop writes the rows of all its batches as one continuation, and raises where a row is
refused. -/
theorem writeBatches_eq (first : Bool) (rowCount : ℕ) (batches : List RecordBatch) :
    writeBatches first rowCount batches = do
      let texts ← (batches.flatMap RecordBatch.toPylist).mapM RowPrinter.row
      return (continuation first texts,
        rowCount + (batches.flatMap RecordBatch.toPylist).length) := by
  induction batches generalizing first rowCount with
  | nil => rfl
  | cons b batches ih =>
    rw [writeBatches, List.flatMap_cons, List.mapM_append, RowPrinter.dumps_rows]
    cases hprinted : b.toPylist.mapM RowPrinter.row with
    | error e => rfl
    | ok texts =>
      have hnumRows : b.toPylist.length = b.numRows := List.length_map _
      have hempty := intercalate_isEmpty (rowTexts_ne_nil hprinted)
      -- the piece of one batch is its own continuation
      have hpiece : (if (commaByte.intercalate texts).isEmpty then []
          else if first then commaByte.intercalate texts
          else commaByte ++ commaByte.intercalate texts) = continuation first texts := by
        rw [hempty, continuation]
        cases first <;> simp
      change (writeBatches (first && (unbracket (openBracket ++ commaByte.intercalate texts ++
        closeBracket)).isEmpty) (rowCount + b.numRows) batches >>= fun rest => pure (_, _)) = _
      simp only [unbracket_brackets, hpiece]
      rw [hempty, ih, List.length_append, hnumRows]
      cases (batches.flatMap RecordBatch.toPylist).mapM RowPrinter.row with
      | error e => rfl
      | ok rest =>
        change Except.ok (continuation first texts ++ continuation (first && texts.isEmpty) rest,
          rowCount + b.numRows + (batches.flatMap RecordBatch.toPylist).length) =
          Except.ok (continuation first (texts ++ rest),
            rowCount + (b.numRows + (batches.flatMap RecordBatch.toPylist).length))
        rw [continuation_append, Nat.add_assoc]

/-- The bytes of a JSON export are those of the list of all rows, and the count is its length; the
export raises exactly where printing that list would. -/
theorem streamJsonBytes_eq (batches : List RecordBatch) :
    streamJsonBytes batches = do
      let bytes ← RowPrinter.dumps (batches.flatMap RecordBatch.toPylist)
      return (bytes, (batches.flatMap RecordBatch.toPylist).length) := by
  rw [streamJsonBytes, writeBatches_eq, RowPrinter.dumps_rows]
  cases (batches.flatMap RecordBatch.toPylist).mapM RowPrinter.row with
  | error e => rfl
  | ok texts =>
    change Except.ok (openBracket ++ continuation true texts ++ closeBracket, _) = _
    rw [continuation_true, Nat.zero_add]
    rfl

variable (cell : Cell → Value) (names : List String)

/-- The dictionaries of rows of cells. -/
def cellRows (rows : Rows) : List (List (String × Value)) :=
  rows.map (fun row => names.zip (row.map cell))

/-- The bytes of a piece of an exported file. -/
def pieceBytes : JsonPiece → PyM ByteString
  | .opening => return openBracket
  | .comma => return commaByte
  | .closing => return closeBracket
  | .rows rows => do return unbracket (← RowPrinter.dumps (cellRows cell names rows))

variable {cell names}

/-- The piece of a batch whose rows are printed. -/
theorem pieceBytes_rows {rows : Rows} {texts : List ByteString}
    (h : (cellRows cell names rows).mapM RowPrinter.row = .ok texts) :
    pieceBytes cell names (.rows rows) = .ok (commaByte.intercalate texts) := by
  rw [pieceBytes, RowPrinter.dumps_rows, h]
  exact congrArg Except.ok (unbracket_brackets _)

/-- The piece of a batch with a refused row. -/
theorem pieceBytes_refused {rows : Rows} {e : PyError}
    (h : (cellRows cell names rows).mapM RowPrinter.row = .error e) :
    pieceBytes cell names (.rows rows) = .error e := by
  rw [pieceBytes, RowPrinter.dumps_rows, h]
  rfl

/-- The pieces of the first batch with rows come before those of the others. -/
theorem firstPieces_bytes (first : Bool) {rows : Rows} {texts : List ByteString}
    (h : (cellRows cell names rows).mapM RowPrinter.row = .ok texts) (hsome : texts.isEmpty = false)
    (pieces : List JsonPiece) :
    (((if first then [JsonPiece.rows rows] else [.comma, .rows rows]) ++ pieces).mapM
        (pieceBytes cell names)).map List.flatten =
      ((pieces.mapM (pieceBytes cell names)).map List.flatten).map
        (continuation first texts ++ ·) := by
  have hfirst : continuation first texts =
      (if first then [] else commaByte) ++ commaByte.intercalate texts := by
    simp [continuation, hsome]
  rw [hfirst]
  cases first <;> simp only [Bool.false_eq_true, if_false, if_true, List.cons_append,
    List.nil_append, List.mapM_cons, pieceBytes_rows h] <;>
    cases pieces.mapM (pieceBytes cell names) <;> simp [pieceBytes] <;> rfl

variable (cell names) in
/-- The pieces of the loop have the bytes of one continuation. -/
theorem writeElements_bytes (first : Bool) (rowCount : ℕ) (groups : List Rows) :
    ((writeElements first rowCount groups).1.mapM (pieceBytes cell names)).map List.flatten =
      ((groups.flatMap (cellRows cell names)).mapM RowPrinter.row).map (continuation first) := by
  induction groups generalizing first rowCount with
  | nil => rfl
  | cons rows groups ih =>
    cases rows with
    | nil => simpa [writeElements, cellRows] using ih first rowCount
    | cons row rest =>
      have hrest := ih false (rowCount + (row :: rest).length)
      have hsplit : (cellRows cell names (row :: rest) ++
          groups.flatMap (cellRows cell names)).mapM RowPrinter.row = do
            let texts ← (cellRows cell names (row :: rest)).mapM RowPrinter.row
            let others ← (groups.flatMap (cellRows cell names)).mapM RowPrinter.row
            return texts ++ others := List.mapM_append
      rw [writeElements, List.flatMap_cons, hsplit]
      simp only [List.isEmpty_cons, Bool.and_false, Bool.false_eq_true, if_false]
      cases hprinted : (cellRows cell names (row :: rest)).mapM RowPrinter.row with
      | error e =>
        cases first <;> simp only [Bool.false_eq_true, if_false, if_true, List.cons_append,
          List.nil_append, List.mapM_cons, pieceBytes_refused hprinted] <;> rfl
      | ok texts =>
        have hsome : texts.isEmpty = false := by
          have hlength := (mapM_ok hprinted).length_eq
          cases texts with
          | nil => simp [cellRows] at hlength
          | cons text texts => rfl
        rw [firstPieces_bytes first hprinted hsome, hrest]
        cases (groups.flatMap (cellRows cell names)).mapM RowPrinter.row with
        | error e => rfl
        | ok others =>
          refine congrArg Except.ok ?_
          rw [continuation_append, hsome, Bool.and_false]

/-- The bytes of a JSON export are those of the pieces of the exported file. -/
theorem streamJsonBytes_pieces {batches : List RecordBatch} {groups : List Rows}
    {pieces : List JsonPiece} (hpieces : (streamJson groups).1 = .json pieces)
    (h : List.Forall₂ (fun b rows => b.toPylist = cellRows cell names rows) batches groups) :
    (streamJsonBytes batches).map (·.1) =
      (pieces.mapM (pieceBytes cell names)).map List.flatten := by
  have hrows : batches.flatMap RecordBatch.toPylist = groups.flatMap (cellRows cell names) := by
    clear hpieces
    induction h with
    | nil => rfl
    | cons hb _ ih => rw [List.flatMap_cons, List.flatMap_cons, hb, ih]
  have hbytes := writeElements_bytes cell names true 0 groups
  have hclosing : [JsonPiece.closing].mapM (pieceBytes cell names) = .ok [closeBracket] := rfl
  cases hpieces
  rw [streamJsonBytes, writeBatches_eq, hrows, List.mapM_append, List.mapM_cons, hclosing]
  cases hparts : (writeElements true 0 groups).1.mapM (pieceBytes cell names) with
  | error e =>
    rw [hparts] at hbytes
    cases hprinted : (groups.flatMap (cellRows cell names)).mapM RowPrinter.row with
    | error e' =>
      rw [hprinted] at hbytes
      exact hbytes.symm
    | ok texts =>
      rw [hprinted] at hbytes
      cases hbytes
  | ok parts =>
    rw [hparts] at hbytes
    cases hprinted : (groups.flatMap (cellRows cell names)).mapM RowPrinter.row with
    | error e' =>
      rw [hprinted] at hbytes
      cases hbytes
    | ok texts =>
      rw [hprinted] at hbytes
      have hjoined : parts.flatten = continuation true texts := Except.ok.inj hbytes
      change Except.ok (openBracket ++ continuation true texts ++ closeBracket) =
        Except.ok (openBracket :: (parts ++ [closeBracket])).flatten
      rw [← hjoined]
      simp

end

/-- Rows of bytes that are printed as they are. -/
@[reducible] def plainRows : RowPrinter where
  Value := UInt8
  row fields := .ok (0x7b :: fields.map (·.2) ++ [0x7d])
  row_braces h := ⟨_, (Except.ok.inj h).symm⟩
  dumps rows := do
    let texts ← rows.mapM (fun fields => .ok (0x7b :: fields.map (·.2) ++ [0x7d]))
    return openBracket ++ commaByte.intercalate texts ++ closeBracket
  dumps_rows _ := rfl

section

attribute [local instance] plainRows

/-- A batch of one column. -/
def byteBatch (values : List UInt8) : RecordBatch where
  columns := ["v"]
  rows := values.map (fun v => [v])
  distinct := by simp
  fits := by simp

/-- Empty batches at the start, in the middle and at the end leave no trace. -/
example : streamJsonBytes ([[], [1], [], [2, 3], []].map byteBatch) =
    .ok ([0x5b, 0x7b, 1, 0x7d, 0x2c, 0x7b, 2, 0x7d, 0x2c, 0x7b, 3, 0x7d, 0x5d], 3) := by
  decide

end

end Memcove
