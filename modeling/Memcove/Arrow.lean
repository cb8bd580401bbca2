import Memcove.Json
import Memcove.Lib.SqlLexer

/-!
# Arrow types and tables

The column types that the code distinguishes, and tables of the cells that an agent can send
inline. A table keeps its schema and rows that fit it.
-/

namespace Memcove

/-- The resolution of a timestamp. -/
inductive TimeUnit where
  | second | milli | micro | nano
  deriving DecidableEq, Repr

/-- An Arrow data type. Types that the code never tells apart are `other`. -/
inductive ArrowType where
  | boolean
  | integer (bits : ℕ) (signed : Bool)
  | floating (bits : ℕ)
  | string (large : Bool)
  | binary (large : Bool)
  | date (bits : ℕ)
  | timestamp (unit : TimeUnit) (tz : Option String)
  | list (large : Bool) (field : String) (item : ArrowType)
  | struct (fields : List (String × ArrowType))
  | other (name : String)

/-- A finite float, by its `repr`: a sign and a numeral with a fraction or an exponent. -/
structure FloatRepr where
  negative : Bool
  numeral : SqlLexer.Numeral

/-- The text of a float. -/
def FloatRepr.text (r : FloatRepr) : List Char :=
  if r.negative then '-' :: r.numeral.text else r.numeral.text

/-- A cell as `Table.to_pylist` returns it. -/
inductive Cell where
  | null
  | bool (b : Bool)
  | int (i : Int)
  | float (r : FloatRepr)
  | str (s : String)

/-- The cell as a Python value. -/
def Cell.toJson : Cell → Json
  | null => .null
  | bool b => .bool b
  | int i => .int i
  | float r => .float (String.ofList r.text)
  | str s => .str s

/-- `v is None`. -/
def Cell.isNone : Cell → Bool
  | null => true
  | _ => false

/-- The cells that a column can hold: any column holds nulls, a column of one of the plain types
holds values of that type. Columns of other types may hold any of these cells; dates, timestamps,
bytes, lists and structs have no further cell here. -/
def Cell.Fits (cell : Cell) (type : ArrowType) : Prop :=
  match cell, type with
  | null, _ => True
  | .bool _, .boolean => True
  | .int _, .integer _ _ => True
  | .float _, .floating _ => True
  | .str _, .string _ => True
  | _, .other _ => True
  | _, _ => False

/-- `pyarrow.Table`: named, typed columns and rows that fit them. -/
structure ArrowTable where
  schema : List (String × ArrowType)
  rows : List (List Cell)
  fits : ∀ row ∈ rows, List.Forall₂ (fun field cell => cell.Fits field.2) schema row

end Memcove
