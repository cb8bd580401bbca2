import Memcove.Scratch.Store
import Mathlib.Data.List.TakeWhile

/-!
# Previews

`run_query` of `tools/query.py` with `wrap_preview` of `core/sql_guard.py`. The query engine and
the second parse are not part of the repository. A parsed query is a body, whose rows come in the
order that `ORDER BY` and `OFFSET` leave, and at most one limit clause of its own.
-/

namespace Memcove

/-- The limit clause of a query, as the parser stores it under `limit`: a literal, another
expression with its `name` and the rows that it lets through (`none` for all), or a `FETCH FIRST`,
which has no `expression`. -/
inductive LimitClause where
  | literal (n : ℕ)
  | computed (name : String) (rows : Option ℕ)
  | fetch (n : ℕ)
  deriving DecidableEq

/-- The number of rows that a clause lets through. -/
def LimitClause.bound : LimitClause → Option ℕ
  | literal n => some n
  | computed _ rows => rows
  | fetch n => some n

/-- The rows that a clause lets through. -/
def LimitClause.restrict {ρ : Type} (clause : LimitClause) (rows : List ρ) : List ρ :=
  match clause.bound with
  | some n => rows.take n
  | none => rows

/-- A parsed query: everything but its own limit clause, and that clause. -/
structure Statement (Body : Type) where
  body : Body
  limit : Option LimitClause

/-- `Query.limit(k)`, which replaces the limit clause. -/
def Statement.limitTo {Body : Type} (tree : Statement Body) (k : ℕ) : Statement Body :=
  { tree with limit := some (.literal k) }

/-- The rows of a parsed query, when its body has the given rows in order. -/
def Statement.rows {Body : Type} (ordered : Body → Rows) (tree : Statement Body) : Rows :=
  match tree.limit with
  | some clause => clause.restrict (ordered tree.body)
  | none => ordered tree.body

/-- The query engine, and the parser on the texts that the guard emits. A wrapped query returns
the rows of the query inside, in an order that is the engine's. -/
class Trino where
  Body : Type
  parseOne : List Token → Option (Statement Body)
  columns : List Token → List String
  ordered : Body → Rows
  run : List Token → Rows
  scan : List Token → Rows
  run_parsed : ∀ text tree, parseOne text = some tree → run text = tree.rows ordered
  scan_perm : ∀ text, (scan text).Perm (run text)

/-- The text that `wrap_preview` returns: a query, or `SELECT * FROM (…) AS _memcove_q LIMIT n`. -/
inductive PreviewText [Trino] where
  | query (tree : Statement Trino.Body)
  | wrapped (inner : List Token) (limit : ℕ)

/-- `PreviewResult`. -/
structure PreviewResult where
  columns : List String
  rows : Rows
  rowCount : ℕ
  truncated : Bool

/-- What is fetched through the cap in place of a clause is what the clause lets through, when
the clause is the cap or neither cuts rows off. -/
theorem replaced_exact_iff {ρ : Type} (clause : LimitClause) (rows : List ρ) (cap : ℕ) :
    ((rows.take cap).take cap = (clause.restrict rows).take cap ∧
      (cap < (rows.take cap).length ↔ cap < (clause.restrict rows).length)) ↔
      clause.bound = some cap ∨ (rows.length ≤ cap ∧
        ∀ n, clause.bound = some n → rows.length ≤ n) := by
  have hcap : ¬ cap < (rows.take cap).length := by
    rw [List.length_take]
    omega
  rw [iff_false_left hcap, List.take_take, Nat.min_self, LimitClause.restrict]
  cases hbound : clause.bound with
  | none => simp
  | some n =>
    simp only [List.take_take, Option.some.injEq, List.length_take]
    constructor
    · rintro ⟨hrows, hlength⟩
      have hlengths := congrArg List.length hrows
      simp only [List.length_take] at hlengths
      by_cases hn : n = cap
      · exact Or.inl hn
      · refine Or.inr ⟨by omega, ?_⟩
        rintro m rfl
        omega
    · rintro (rfl | ⟨hle, hn⟩)
      · refine ⟨by rw [Nat.min_self], by omega⟩
      · have hlen := hn n rfl
        refine ⟨?_, by omega⟩
        rw [List.take_of_length_le hle, List.take_of_length_le (by omega)]

section

variable [Trino]

/-- The rows of `trino_client.execute`. -/
def PreviewText.rows : PreviewText → Rows
  | query tree => tree.rows Trino.ordered
  | wrapped inner limit => (Trino.scan inner).take limit

variable [Python]

/-- `int(existing.expression.name)`: a `FETCH FIRST` has no expression to take the name of. -/
def LimitClause.read : LimitClause → Option Int
  | literal n => some n
  | computed name _ => Python.intOfStr name
  | fetch _ => none

/-- `wrap_preview`. -/
def wrapPreview (validatedSql : List Token) (rowCap : ℕ) : PreviewText :=
  match Trino.parseOne validatedSql with
  | none => .wrapped validatedSql (rowCap + 1)
  | some tree =>
    match tree.limit with
    | none => .query (tree.limitTo (rowCap + 1))
    | some existing =>
      match existing.read with
      | some current =>
        if (rowCap : Int) < current then .query (tree.limitTo rowCap) else .query tree
      | none => .query (tree.limitTo rowCap)

/-- `min(limit or settings.preview_row_cap, settings.preview_row_cap)`. -/
def previewCap (settings : Settings) (limit : Option ℕ) : ℕ :=
  let chosen := limit.getD 0
  min (if chosen = 0 then settings.previewRowCap else chosen) settings.previewRowCap

/-- The guard's arguments in `run_query`. -/
def queryParams (settings : Settings) (tenant : String) : GuardParams where
  tenantNs := tenant
  catalog := settings.trinoCatalog
  sharedSchemas := settings.sharedSchemas
  scratch := scratchGuardParams settings tenant

/-- The result that is made of the rows of a preview. -/
def previewResult (text : List Token) (cap : ℕ) : PreviewResult :=
  let rows := (wrapPreview text cap).rows
  { columns := Trino.columns text
    rows := rows.take cap
    rowCount := min rows.length cap
    truncated := decide (cap < rows.length) }

/-- `run_query`. -/
def runQuery [Sqlglot] (settings : Settings) (tenant sql : String) (limit : Option ℕ) :
    PyM PreviewResult := do
  let cap := previewCap settings limit
  let guarded ← validateSelect (queryParams settings tenant) sql
  return previewResult guarded.sql cap

/-- The preview shows the first rows of the query up to the cap, counts them, and says whether
there are more. -/
structure PreviewResult.Exact (result : PreviewResult) (all : Rows) (cap : ℕ) : Prop where
  rows : result.rows = all.take (min cap all.length)
  rowCount : result.rowCount = result.rows.length
  truncated : result.truncated = true ↔ cap < all.length

/-- `wrap_preview` replaces the clause: it cannot be read, or it is larger than the cap. -/
def LimitClause.Replaced (clause : LimitClause) (cap : ℕ) : Prop :=
  ∀ current, clause.read = some current → (cap : Int) < current

/-- A clause that is replaced is the cap itself, or neither of the two cuts the rows off. A query
that is not parsed again is wrapped, and comes back in its own order up to the cap. -/
def PreviewFits (text : List Token) (cap : ℕ) : Prop :=
  match Trino.parseOne text with
  | none => (Trino.scan text).take cap = (Trino.run text).take cap
  | some tree => ∀ clause, tree.limit = some clause → clause.Replaced cap →
      clause.bound = some cap ∨ ((Trino.ordered tree.body).length ≤ cap ∧
        ∀ n, clause.bound = some n → (Trino.ordered tree.body).length ≤ n)

/-- A preview is exact when the rows it fetched begin as those of the query do, and exceed the cap
when those do. -/
theorem previewResult_exact {text : List Token} {cap : ℕ} {all : Rows} :
    (previewResult text cap).Exact all cap ↔
      (wrapPreview text cap).rows.take cap = all.take cap ∧
        (cap < (wrapPreview text cap).rows.length ↔ cap < all.length) := by
  have htake : all.take (min cap all.length) = all.take cap := by
    rcases Nat.le_total cap all.length with hle | hle
    · rw [Nat.min_eq_left hle]
    · rw [Nat.min_eq_right hle, List.take_length, List.take_of_length_le hle]
  constructor
  · rintro ⟨hrows, _, htruncated⟩
    rw [htake] at hrows
    exact ⟨hrows, by simpa [previewResult] using htruncated⟩
  · rintro ⟨hrows, htruncated⟩
    refine ⟨by rw [htake]; exact hrows, ?_, by simpa [previewResult] using htruncated⟩
    simp [previewResult, Nat.min_comm]

/-- The preview of a text is exact if and only if it fits. -/
theorem previewResult_exact_iff (text : List Token) (cap : ℕ) :
    (previewResult text cap).Exact (Trino.run text) cap ↔ PreviewFits text cap := by
  rw [previewResult_exact]
  unfold PreviewFits
  cases hparse : Trino.parseOne text with
  | none =>
    have hwrap : (wrapPreview text cap).rows = (Trino.scan text).take (cap + 1) := by
      simp only [wrapPreview, hparse, PreviewText.rows]
    have hlength := (Trino.scan_perm text).length_eq
    have hcount : cap < ((Trino.scan text).take (cap + 1)).length ↔
        cap < (Trino.run text).length := by
      rw [List.length_take, hlength]
      omega
    rw [hwrap, List.take_take, Nat.min_eq_left (by omega), and_iff_left hcount]
  | some tree =>
    rw [Trino.run_parsed text tree hparse]
    cases hlimit : tree.limit with
    | none =>
      have hwrap : (wrapPreview text cap).rows = (Trino.ordered tree.body).take (cap + 1) := by
        simp only [wrapPreview, hparse, hlimit]
        rfl
      simp [Statement.rows, hlimit, hwrap, List.take_take]
    | some clause =>
      simp only [hlimit, Option.some.injEq, forall_eq']
      by_cases hreplaced : clause.Replaced cap
      · have hwrap : (wrapPreview text cap).rows = (Trino.ordered tree.body).take cap := by
          simp only [wrapPreview, hparse, hlimit]
          cases hread : clause.read with
          | none => rfl
          | some current =>
            simp only [if_pos (hreplaced current hread)]
            rfl
        rw [hwrap, forall_prop_of_true hreplaced, ← replaced_exact_iff]
        simp only [Statement.rows, hlimit]
      · have hwrap : (wrapPreview text cap).rows = tree.rows Trino.ordered := by
          obtain ⟨current, hread, hle⟩ : ∃ current, clause.read = some current ∧
              ¬ (cap : Int) < current := by
            simpa [LimitClause.Replaced] using hreplaced
          simp only [wrapPreview, hparse, hlimit, hread, if_neg hle]
          rfl
        simp [hwrap, hreplaced]

/-- An accepted query has a preview, which is exact if and only if the text that the guard emits
fits the cap. -/
theorem runQuery_exact_iff [Sqlglot] {settings : Settings} {tenant sql : String}
    {guarded : GuardedQuery}
    (hguard : validateSelect (queryParams settings tenant) sql = .ok guarded)
    (limit : Option ℕ) :
    ∃ result, runQuery settings tenant sql limit = .ok result ∧
      (result.Exact (Trino.run guarded.sql) (previewCap settings limit) ↔
        PreviewFits guarded.sql (previewCap settings limit)) := by
  refine ⟨previewResult guarded.sql (previewCap settings limit), ?_,
    previewResult_exact_iff _ _⟩
  simp only [runQuery, hguard]
  rfl

end

/-- How the generator prints a limit clause after a plain `SELECT * FROM`. -/
def limitFrame (kind : Kind) (children : List (Kind × List Token)) : List Token :=
  match kind with
  | .other "Limit" => .text "LIMIT" :: children.flatMap (·.2)
  | .other "3" => [.text "3"]
  | _ => plainFrame kind children

/-- The SQL library on `SELECT * FROM events`, with and without `LIMIT 3`. -/
@[reducible] def limitSqlglot : Sqlglot where
  parse := (plainSqlglot [("SELECT * FROM events", .node .select (readStar { name := "events" })),
    ("SELECT * FROM events LIMIT 3", .node .select
      (readStar { name := "events" } ++ [.node (.other "Limit") [.node (.other "3") []]]))]).parse
  frame := limitFrame
  frame_verbs kind children v hkind h := by
    unfold limitFrame at h
    split at h
    · simpa using h
    · simp at h
    · exact (plainSqlglot []).frame_verbs kind children v hkind h

/-- The value of a text of digits. -/
def readNumber (n : String) : ℕ := n.toList.foldl (fun k c => 10 * k + (c.toNat - '0'.toNat)) 0

/-- The second parse of such texts: a final `LIMIT` with a number is the limit clause. -/
def readStatement (text : List Token) : Statement (List Token) :=
  match text.reverse with
  | .text n :: .text "LIMIT" :: body => ⟨body.reverse, some (.literal (readNumber n))⟩
  | _ => ⟨text, none⟩

/-- Five rows. -/
def fiveRows : Rows := ["a", "b", "c", "d", "e"].map (fun v => [.str v])

/-- A query engine on which every table has five rows. -/
@[reducible] def fiveRowsTrino : Trino where
  Body := List Token
  parseOne text := some (readStatement text)
  columns _ := ["v"]
  ordered _ := fiveRows
  run text := (readStatement text).rows (fun _ => fiveRows)
  scan text := (readStatement text).rows (fun _ => fiveRows)
  run_parsed text tree h := by
    cases h
    rfl
  scan_perm _ := List.Perm.refl _

section

attribute [local instance] asciiPython limitSqlglot fiveRowsTrino

/-- The preview of three of five rows under a cap of two is reported complete. -/
theorem limitAboveCap_not_exact : ∃ guarded result,
    validateSelect (queryParams {} "t_acme") "SELECT * FROM events LIMIT 3" = .ok guarded ∧
      runQuery {} "t_acme" "SELECT * FROM events LIMIT 3" (some 2) = .ok result ∧
      (Trino.run guarded.sql).length = 3 ∧ result.truncated = false ∧
      ¬ result.Exact (Trino.run guarded.sql) (previewCap {} (some 2)) := by
  refine ⟨_, _, rfl, rfl, by decide +kernel, by decide +kernel, fun h => ?_⟩
  exact absurd (h.truncated.mpr (by decide +kernel)) (by decide +kernel)

/-- Without a limit clause the preview of five rows under a cap of two is exact. -/
theorem noLimit_exact : ∃ guarded result,
    validateSelect (queryParams {} "t_acme") "SELECT * FROM events" = .ok guarded ∧
      runQuery {} "t_acme" "SELECT * FROM events" (some 2) = .ok result ∧
      result.truncated = true ∧
      result.Exact (Trino.run guarded.sql) (previewCap {} (some 2)) := by
  obtain ⟨result, hresult, hexact⟩ := runQuery_exact_iff
    (rfl : validateSelect (queryParams {} "t_acme") "SELECT * FROM events" = .ok _) (some 2)
  refine ⟨_, result, rfl, hresult, ?_, hexact.mpr ?_⟩
  · cases hresult
    decide +kernel
  · intro clause hclause
    cases hclause

end

end Memcove
