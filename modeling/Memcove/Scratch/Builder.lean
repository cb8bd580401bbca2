import Memcove.Arrow

/-!
# The inline scratch builder

The functions of `tools/ingest.py` that turn an inline Arrow table into the text of a `SELECT`
over a `VALUES` list. The text is run as a `CREATE TABLE … AS` by the service principal, without
passing the SQL guard.
-/

namespace Memcove

open Quoting

/-- `ingest._trino_type`. -/
def trinoType : ArrowType → String
  | .boolean => "BOOLEAN"
  | .integer _ _ => "BIGINT"
  | .floating _ => "DOUBLE"
  | .timestamp _ _ => "TIMESTAMP"
  | .date _ => "DATE"
  | _ => "VARCHAR"

/-- `s.replace("'", "''")`. -/
def replaceQuote (s : String) : String := String.ofList (escape '\'' s.toList)

/-- `ingest._literal`. -/
def literal [Python] (v : Cell) (at_ : ArrowType) : PyM String :=
  if v.isNone then .ok "NULL"
  else match at_ with
    | .boolean => .ok (if v.toJson.truthy then "true" else "false")
    | .integer _ _ => v.toJson.toInt.map (fun i => toString i)
    | .floating _ => .ok v.toJson.repr
    | _ => .ok ("'" ++ replaceQuote v.toJson.toStr ++ "'")

/-- `row[name]` for a row of `to_pylist`: of columns with one name the last one is kept. -/
def rowGet (schema : List (String × ArrowType)) (row : List Cell) (name : String) : Cell :=
  (((schema.zip row).reverse.find? (fun p => p.1.1 == name)).map (·.2)).getD .null

/-- `CAST(c<i> AS <type>) AS "<name>"`. -/
def columnText (field : String × ArrowType) (i : ℕ) : String :=
  "CAST(c" ++ toString i ++ " AS " ++ trinoType field.2 ++ ") AS \"" ++ field.1 ++ "\""

/-- `c<i>`. -/
def columnName (i : ℕ) : String := "c" ++ toString i

/-- The literals of one row, in the order of the fields. -/
def rowLiterals [Python] (schema : List (String × ArrowType)) (row : List Cell) :
    PyM (List String) :=
  schema.mapM (fun field => literal (rowGet schema row field.1) field.2)

/-- `ingest._scratch_select`. -/
def scratchSelect [Python] (table : ArrowTable) : PyM String := do
  let fields := table.schema
  let cols := ", ".intercalate (fields.zipIdx.map (fun f => columnText f.1 f.2))
  let names := ", ".intercalate (fields.zipIdx.map (fun f => columnName f.2))
  if table.rows.isEmpty then
    let nulls := ", ".intercalate (fields.map (fun _ => "NULL"))
    return "SELECT " ++ cols ++ " FROM (VALUES (" ++ nulls ++ ")) AS _v(" ++ names ++
      ") WHERE false"
  else
    let rows ← table.rows.mapM (fun row => do
      let vals ← rowLiterals fields row
      return "(" ++ ", ".intercalate vals ++ ")")
    return "SELECT " ++ cols ++ " FROM (VALUES " ++ ", ".intercalate rows ++ ") AS _v(" ++ names ++
      ")"

end Memcove
