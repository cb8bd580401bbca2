import Memcove.Arrow
import Memcove.Lib.KeyedTables

/-!
# Schema comparison of writes

`_norm_type` and `_assert_schema_compatible` of `core/catalog.py`. The source folds types on their
printed text, with one `str.replace` and two regular expressions, and so does this file.
-/

namespace Memcove

open KeyedTables

/-- The unit of a printed timestamp. -/
def TimeUnit.text : TimeUnit → String
  | second => "s"
  | milli => "ms"
  | micro => "us"
  | nano => "ns"

namespace ArrowType

mutual

/-- `str(type)` of a `pyarrow.DataType`. -/
def text : ArrowType → String
  | boolean => "bool"
  | integer bits signed => (if signed then "int" else "uint") ++ toString bits
  | floating bits => if bits = 16 then "halffloat" else if bits = 32 then "float" else "double"
  | string large => if large then "large_string" else "string"
  | binary large => if large then "large_binary" else "binary"
  | date bits => if bits = 32 then "date32[day]" else "date64[ms]"
  | timestamp unit none => "timestamp[" ++ unit.text ++ "]"
  | timestamp unit (some tz) => "timestamp[" ++ unit.text ++ ", tz=" ++ tz ++ "]"
  | list large field item =>
    (if large then "large_list<" else "list<") ++ field ++ ": " ++ text item ++ ">"
  | struct fields => "struct<" ++ ", ".intercalate (fieldTexts fields) ++ ">"
  | other name => name

/-- The fields of a printed struct. -/
def fieldTexts : List (String × ArrowType) → List String
  | [] => []
  | (name, type) :: fields => (name ++ ": " ++ text type) :: fieldTexts fields

end

end ArrowType

/-- `re.sub` of a pattern that never matches the empty text: `find` says, at a position with the
given character before it, what a match there is replaced by and how long it is. The number counts
characters of the current match that are still to be skipped. -/
def substitute (find : Option Char → List Char → Option (List Char × ℕ)) :
    ℕ → Option Char → List Char → List Char
  | _, _, [] => []
  | n + 1, _, c :: s => substitute find n (some c) s
  | 0, before, c :: s =>
    match find before (c :: s) with
    | some (replacement, length) => replacement ++ substitute find (length - 1) (some c) s
    | none => c :: substitute find 0 (some c) s

/-- A match of a fixed text. -/
def findText (pattern replacement : String) (s : List Char) : Option (List Char × ℕ) :=
  if pattern.toList.isPrefixOf s then some (replacement.toList, pattern.length) else none

/-- `s.replace("large_", "")`. -/
def findLarge (_ : Option Char) (s : List Char) : Option (List Char × ℕ) :=
  findText "large_" "" s

/-- `timestamp\[(ns|ms|s)`. -/
def findTimestamp (_ : Option Char) (s : List Char) : Option (List Char × ℕ) :=
  findText "timestamp[ns" "timestamp[us" s <|> findText "timestamp[ms" "timestamp[us" s <|>
    findText "timestamp[s" "timestamp[us" s

section

variable [Python]

/-- `\w` of one character, if there is one. -/
def wordAt (c : Option Char) : Bool := c.any (fun c => Python.isAlnum c || c == '_')

/-- `\bint(8|16)\b`. -/
def findInt (before : Option Char) (s : List Char) : Option (List Char × ℕ) :=
  if wordAt before then none
  else if "int8".toList.isPrefixOf s && !wordAt (s[4]?) then some ("int32".toList, 4)
  else if "int16".toList.isPrefixOf s && !wordAt (s[5]?) then some ("int32".toList, 5)
  else none

/-- `catalog._norm_type`. -/
def normType (t : ArrowType) : String :=
  let s := substitute findLarge 0 none t.text.toList
  let s := substitute findTimestamp 0 none s
  String.ofList (substitute findInt 0 none s)

/-- A dictionary with one more item. -/
def dictSet (d : List (String × String)) (key value : String) : List (String × String) :=
  upsert Prod.fst d (key, value) (fun _ => (key, value))

/-- `{f.name: _norm_type(f.type) for f in schema}`. -/
def normMap (schema : List (String × ArrowType)) : List (String × String) :=
  schema.foldl (fun d field => dictSet d field.1 (normType field.2)) []

/-- The items of the first dictionary that the second one lacks or has differently. -/
def differing (a b : List (String × String)) : List (String × String) :=
  a.filter (fun item => dictGet b item.1 != some item.2)

/-- `sorted(…)` of texts, printed. -/
def sortedText (texts : List String) : String :=
  (Json.arr ((texts.mergeSort (fun a b => decide (a ≤ b))).map Json.str)).repr

/-- `catalog._assert_schema_compatible`. -/
def assertSchemaCompatible (existing incoming : List (String × ArrowType)) (op label : String) :
    PyM Unit :=
  let old := normMap existing
  let new := normMap incoming
  if differing old new = [] ∧ differing new old = [] then .ok ()
  else
    let added := (new.filter (fun f => (dictGet old f.1).isNone)).map (·.1)
    let removed := (old.filter (fun f => (dictGet new f.1).isNone)).map (·.1)
    let retyped := ((old.filter (fun f => (dictGet new f.1).isSome)).filter
      (fun f => dictGet new f.1 != some f.2)).map
        (fun f => f.1 ++ " (" ++ f.2 ++ " -> " ++ (dictGet new f.1).getD "" ++ ")")
    let parts := (if added = [] then [] else ["added=" ++ sortedText added]) ++
      (if removed = [] then [] else ["removed=" ++ sortedText removed]) ++
      (if retyped = [] then [] else ["retyped=" ++ sortedText retyped])
    raise .schemaMismatchError (s!"{op} of '{label}' is schema-incompatible with the existing " ++
      "object (" ++ "; ".intercalate parts ++
      "); forget() then create() to change an object's shape")

/-- Two schemas are the same up to the folding of types. -/
def Compatible (existing incoming : List (String × ArrowType)) : Prop :=
  differing (normMap existing) (normMap incoming) = [] ∧
    differing (normMap incoming) (normMap existing) = []

/-- The comparison accepts compatible schemas. -/
theorem assertSchemaCompatible_ok {existing incoming : List (String × ArrowType)}
    (op label : String) (h : Compatible existing incoming) :
    assertSchemaCompatible existing incoming op label = .ok () := if_pos h

/-- The comparison rejects all others with a schema mismatch. -/
theorem assertSchemaCompatible_error {existing incoming : List (String × ArrowType)}
    (op label : String) (h : ¬ Compatible existing incoming) :
    ∃ message, assertSchemaCompatible existing incoming op label =
      .error ⟨.schemaMismatchError, message⟩ := ⟨_, if_neg h⟩

/-- The dictionary of a schema whose column names are distinct. -/
theorem normMap_eq {schema : List (String × ArrowType)} (hnames : (schema.map Prod.fst).Nodup) :
    normMap schema = schema.map (fun field => (field.1, normType field.2)) := by
  have hkeys : ((schema.map (fun field => (field.1, normType field.2))).map Prod.fst).Nodup := by
    rwa [List.map_map]
  have hnew : ∀ r ∈ ([] : List (String × String)), ∀ r' ∈
      schema.map (fun field => (field.1, normType field.2)), r.1 ≠ r'.1 := by simp
  have hfold : (schema.map (fun field => (field.1, normType field.2))).foldl
      (fun d item => upsert Prod.fst d item (fun _ => item)) [] = _ := foldl_upsert hkeys hnew
  rw [List.foldl_map] at hfold
  exact hfold

omit [Python] in
/-- Nothing differs when the items of the first dictionary are items of the second. -/
theorem differing_eq_nil_iff {a b : List (String × String)} (hb : (b.map Prod.fst).Nodup) :
    differing a b = [] ↔ ∀ item ∈ a, item ∈ b := by
  rw [differing, List.filter_eq_nil_iff]
  refine forall₂_congr (fun item _ => ?_)
  rw [bne_iff_ne, not_not]
  exact ⟨dictGet_mem, dictGet_of_mem hb⟩

end

end Memcove
