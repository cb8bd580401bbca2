import Memcove.Python
import Mathlib.Data.String.Basic

/-!
# JSON values as the service handles them

Token claims and Flight tickets arrive as decoded JSON, and the code treats them with Python's
dynamic operations: `dict.get`, truth testing, `in`, iteration, `int` and `str`. Each of these is a
function on `Json` here, raising where Python raises.
-/

namespace Memcove

/-- A decoded JSON value. A float is given by its `repr`; the fields of an object keep their
order and have no repeated key. -/
inductive Json where
  | null
  | bool (b : Bool)
  | int (i : Int)
  | float (repr : String)
  | str (s : String)
  | arr (items : List Json)
  | obj (fields : List (String × Json))

namespace Json

/-- `d.get(key)`: `None` is the same value whether the key is missing or holds `null`. -/
def get (fields : List (String × Json)) (key : String) : Json :=
  (dictGet fields key).getD .null

/-- Truth testing, `bool(v)`. -/
def truthy : Json → Bool
  | null => false
  | bool b => b
  | int i => i != 0
  | float r => r != "0.0" && r != "-0.0"
  | str s => s != ""
  | arr items => !items.isEmpty
  | obj fields => !fields.isEmpty

/-- `type(v).__name__`. -/
def typeName : Json → String
  | null => "NoneType"
  | bool _ => "bool"
  | int _ => "int"
  | float _ => "float"
  | str _ => "str"
  | arr _ => "list"
  | obj _ => "dict"

/-- `v == text`. -/
def isStr (text : String) : Json → Bool
  | str s => s == text
  | _ => false

/-- A value on which a method of `str` is called. -/
def expectStr (method : String) : Json → PyM String
  | str s => .ok s
  | v => raise .attributeError s!"'{v.typeName}' object has no attribute '{method}'"

/-- `a or b`. -/
def orElse (a b : Json) : Json := if a.truthy then a else b

/-- `key in d` for a dictionary with string keys, together with `d[key]`. A list or an object has
no hash, so the test itself raises; other values that are not strings are in no such dictionary. -/
def lookupIn {β : Type} (d : List (String × β)) : Json → PyM (Option β)
  | str s => .ok (dictGet d s)
  | arr _ => raise .typeError "unhashable type: 'list'"
  | obj _ => raise .typeError "unhashable type: 'dict'"
  | _ => .ok none

/-- `iter(v)`: the elements of a list, the keys of an object, the characters of a string. -/
def elements : Json → PyM (List Json)
  | arr items => .ok items
  | obj fields => .ok (fields.map (fun field => str field.1))
  | str s => .ok (s.toList.map (fun c => str (String.ofList [c])))
  | null => raise .typeError "'NoneType' object is not iterable"
  | bool _ => raise .typeError "'bool' object is not iterable"
  | int _ => raise .typeError "'int' object is not iterable"
  | float _ => raise .typeError "'float' object is not iterable"

/-- `int(v)`. -/
def toInt [Python] : Json → PyM Int
  | bool b => .ok (if b then 1 else 0)
  | int i => .ok i
  | float r => .ok (Python.intOfFloat r)
  | str s =>
    match Python.intOfStr s with
    | some i => .ok i
    | none => raise .valueError s!"invalid literal for int() with base 10: {Python.repr s}"
  | null => raise .typeError
      "int() argument must be a string, a bytes-like object or a real number, not 'NoneType'"
  | arr _ => raise .typeError
      "int() argument must be a string, a bytes-like object or a real number, not 'list'"
  | obj _ => raise .typeError
      "int() argument must be a string, a bytes-like object or a real number, not 'dict'"

mutual

/-- `repr(v)`. -/
def repr [Python] : Json → String
  | null => "None"
  | bool b => if b then "True" else "False"
  | int i => toString i
  | float r => r
  | str s => Python.repr s
  | arr items => "[" ++ ", ".intercalate (reprItems items) ++ "]"
  | obj fields => "\x7b" ++ ", ".intercalate (reprFields fields) ++ "\x7d"

/-- The elements of a printed list. -/
def reprItems [Python] : List Json → List String
  | [] => []
  | item :: items => repr item :: reprItems items

/-- The entries of a printed dictionary. -/
def reprFields [Python] : List (String × Json) → List String
  | [] => []
  | (key, value) :: fields => (Python.repr key ++ ": " ++ repr value) :: reprFields fields

end

/-- `str(v)`, which differs from `repr(v)` on strings only. -/
def toStr [Python] : Json → String
  | str s => s
  | v => repr v

/-- Iterating over a value fails with `TypeError` only. -/
theorem elements_error {v : Json} {e : PyError} (h : v.elements = .error e) :
    e.cls = .typeError := by
  cases v <;> simp only [elements, raise, reduceCtorEq, Except.error.injEq] at h <;>
    subst h <;> rfl

/-- `v == text` on decoded values. -/
theorem isStr_iff {v : Json} {text : String} : v.isStr text = true ↔ v = .str text := by
  cases v <;> simp [isStr]

/-- Only a text has the methods of `str`. -/
theorem expectStr_ok {v : Json} {method text : String} (h : v.expectStr method = .ok text) :
    v = .str text := by
  cases v <;> simp_all [expectStr, raise]

/-- The order of entries by key. -/
def keyLe (a b : String × Json) : Bool := decide (a.1 ≤ b.1)

mutual

/-- The value with the keys of every object sorted, as `orjson.OPT_SORT_KEYS` prints it. -/
def sortKeys : Json → Json
  | arr items => arr (sortItems items)
  | obj fields => obj ((sortFields fields).mergeSort keyLe)
  | null => null
  | bool b => bool b
  | int i => int i
  | float r => float r
  | str s => str s

/-- The elements of a list, each with sorted keys. -/
def sortItems : List Json → List Json
  | [] => []
  | item :: items => sortKeys item :: sortItems items

/-- The entries of an object, each value with sorted keys. -/
def sortFields : List (String × Json) → List (String × Json)
  | [] => []
  | (key, value) :: fields => (key, sortKeys value) :: sortFields fields

end

/-- Two values that differ at most in the order of keys. -/
def SameUpToOrder (a b : Json) : Prop := a.sortKeys = b.sortKeys

/-- Agreement up to order is symmetric. -/
theorem SameUpToOrder.symm {a b : Json} (h : SameUpToOrder a b) : SameUpToOrder b a := Eq.symm h

/-- Sorting entries by key does not move the first entry of a key. -/
theorem dictGet_mergeSort (fields : List (String × Json)) (key : String) :
    dictGet (fields.mergeSort keyLe) key = dictGet fields key := by
  let same := fun entry : String × Json => entry.1 == key
  have htrans : ∀ a b c : String × Json, keyLe a b = true → keyLe b c = true →
      keyLe a c = true := by
    intro a b c hab hbc
    simp only [keyLe, decide_eq_true_eq] at *
    exact le_trans hab hbc
  have htotal : ∀ a b : String × Json, (keyLe a b || keyLe b a) = true := by
    intro a b
    simp only [keyLe, Bool.or_eq_true, decide_eq_true_eq]
    exact le_total a.1 b.1
  -- The entries of one key are sorted among themselves, and the sort is stable.
  have hpairwise : (fields.filter same).Pairwise (fun a b => keyLe a b = true) := by
    refine List.pairwise_of_forall_mem_list ?_
    intro a ha b hb
    have hkeys : a.1 = key ∧ b.1 = key := by
      simpa [same] using And.intro (List.of_mem_filter ha) (List.of_mem_filter hb)
    simp [keyLe, hkeys.1, hkeys.2]
  have hsub : (fields.filter same).Sublist ((fields.mergeSort keyLe).filter same) := by
    have h := (List.sublist_mergeSort htrans htotal hpairwise List.filter_sublist).filter same
    simpa [List.filter_filter] using h
  have hperm : ((fields.mergeSort keyLe).filter same).Perm (fields.filter same) :=
    (List.mergeSort_perm fields keyLe).filter same
  have hfilter := hsub.eq_of_length hperm.length_eq.symm
  rw [dictGet, dictGet, ← List.head?_filter, ← List.head?_filter, ← hfilter]

/-- Reading a key commutes with sorting. -/
theorem get_sort (fields : List (String × Json)) (key : String) :
    get ((sortFields fields).mergeSort keyLe) key = (get fields key).sortKeys := by
  rw [get, get, dictGet_mergeSort]
  induction fields with
  | nil => simp [sortFields, dictGet, sortKeys]
  | cons entry fields ih =>
    obtain ⟨k, value⟩ := entry
    by_cases hk : k = key
    · simp [sortFields, dictGet, hk]
    · simpa [sortFields, dictGet, hk] using ih

/-- A value other than `None` that `get` returns is stored under the key. -/
theorem dictGet_of_get {fields : List (String × Json)} {key : String} {v : Json}
    (h : get fields key = v) (hv : v ≠ .null) : dictGet fields key = some v := by
  cases hdict : dictGet fields key with
  | none => exact absurd (by simpa [get, hdict] using h.symm) hv
  | some found => simpa [get, hdict] using h

/-- Objects that agree up to order agree up to order at every key. -/
theorem SameUpToOrder.get {f g : List (String × Json)} (h : SameUpToOrder (.obj f) (.obj g))
    (key : String) : SameUpToOrder (Json.get f key) (Json.get g key) := by
  have hfields : (sortFields f).mergeSort keyLe = (sortFields g).mergeSort keyLe := by
    simpa [SameUpToOrder, sortKeys] using h
  rw [SameUpToOrder, ← get_sort, ← get_sort, hfields]

/-- A text agrees up to order with itself only. -/
theorem SameUpToOrder.eq_str {v : Json} {s : String} (h : SameUpToOrder v (.str s)) :
    v = .str s := by
  cases v <;> simp_all [SameUpToOrder, sortKeys]

/-- A number agrees up to order with itself only. -/
theorem SameUpToOrder.eq_int {v : Json} {i : Int} (h : SameUpToOrder v (.int i)) :
    v = .int i := by
  cases v <;> simp_all [SameUpToOrder, sortKeys]

end Json

end Memcove
