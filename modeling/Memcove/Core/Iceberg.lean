import Memcove.Core.Folding

/-!
# Stored types

What PyIceberg makes of an Arrow type when a table is created, and the Arrow type that it reads
back. The folding of `_norm_type` prints a type by its outline, in which encodings, units and
short integers no longer show.
-/

namespace Memcove

/-- The Iceberg types of the columns that are compared. -/
inductive IcebergType where
  | boolean | int | long | float | double | string | binary | date
  | timestamp (tz : Option String)
  | list (element : IcebergType)
  | struct (fields : List (String × IcebergType))

/-- The encodings in which texts, bytes and lists are read back. -/
structure Encoding where
  largeString : Bool
  largeBinary : Bool
  largeList : Bool

mutual

/-- The Iceberg type in which an Arrow type is stored, if it is one of these. -/
def ArrowType.store : ArrowType → Option IcebergType
  | boolean => some .boolean
  | integer bits _ =>
    if bits = 8 ∨ bits = 16 ∨ bits = 32 then some .int
    else if bits = 64 then some .long
    else none
  | floating bits =>
    if bits = 32 then some .float else if bits = 64 then some .double else none
  | string _ => some .string
  | binary _ => some .binary
  | date bits => if bits = 32 then some .date else none
  | timestamp _ tz => some (.timestamp tz)
  | list _ _ item => (store item).map .list
  | struct fields => (storeFields fields).map .struct
  | other _ => none

/-- The stored columns of a schema, or the stored fields of a struct. -/
def ArrowType.storeFields : List (String × ArrowType) → Option (List (String × IcebergType))
  | [] => some []
  | (name, type) :: fields =>
    match store type, storeFields fields with
    | some stored, some columns => some ((name, stored) :: columns)
    | _, _ => none

end

mutual

/-- The Arrow type of a stored type, as `Schema.as_arrow` has it. -/
def IcebergType.readBack (encoding : Encoding) : IcebergType → ArrowType
  | boolean => .boolean
  | int => .integer 32 true
  | long => .integer 64 true
  | float => .floating 32
  | double => .floating 64
  | string => .string encoding.largeString
  | binary => .binary encoding.largeBinary
  | date => .date 32
  | timestamp tz => .timestamp .micro tz
  | list element => .list encoding.largeList "element" (readBack encoding element)
  | struct fields => .struct (readBackFields encoding fields)

/-- The schema of stored columns. -/
def IcebergType.readBackFields (encoding : Encoding) :
    List (String × IcebergType) → List (String × ArrowType)
  | [] => []
  | (name, type) :: fields => (name, readBack encoding type) :: readBackFields encoding fields

end

/-- A type that is printed as one word. -/
inductive Leaf where
  | bool | int32 | int64 | uint8 | uint16 | uint32 | uint64 | float | double | string | binary
  | date32 | timestamp
  deriving DecidableEq, Repr

/-- The word. -/
def Leaf.text : Leaf → List Char
  | bool => "bool".toList
  | int32 => "int32".toList
  | int64 => "int64".toList
  | uint8 => "uint8".toList
  | uint16 => "uint16".toList
  | uint32 => "uint32".toList
  | uint64 => "uint64".toList
  | float => "float".toList
  | double => "double".toList
  | string => "string".toList
  | binary => "binary".toList
  | date32 => "date32[day]".toList
  | timestamp => "timestamp[us]".toList

/-- The types that nothing stored is read back as. -/
def Leaf.unsigned : Leaf → Bool
  | uint8 | uint16 | uint32 | uint64 => true
  | _ => false

/-- How a timestamp with a time zone begins. -/
def zonedText : List Char := "timestamp[us, tz=".toList

/-- How a list begins. -/
def listText : List Char := "list<".toList

/-- How a struct begins. -/
def structText : List Char := "struct<".toList

/-- What is left of a type after folding. -/
inductive Outline where
  | leaf (leaf : Leaf)
  | zoned (tz : List Char)
  | list (field : List Char) (item : Outline)
  | struct (fields : List (List Char × Outline))

mutual

/-- A printed outline. -/
def Outline.chars : Outline → List Char
  | leaf l => l.text
  | zoned tz => zonedText ++ (tz ++ [']'])
  | list field item => listText ++ (field ++ ':' :: ' ' :: (chars item ++ ['>']))
  | struct fields => structText ++ ((fieldChars fields).drop 2 ++ ['>'])

/-- The printed fields of a struct, each with a comma before it. -/
def Outline.fieldChars : List (List Char × Outline) → List Char
  | [] => []
  | (name, item) :: fields =>
    ',' :: ' ' :: (name ++ ':' :: ' ' :: (chars item ++ fieldChars fields))

end

section

variable [Python]

mutual

/-- The outline of an Arrow type, if it is one of those that can be stored. -/
def ArrowType.outline : ArrowType → Option Outline
  | boolean => some (.leaf .bool)
  | integer bits signed =>
    if bits = 8 then some (.leaf (if signed then .int32 else .uint8))
    else if bits = 16 then some (.leaf (if signed then .int32 else .uint16))
    else if bits = 32 then some (.leaf (if signed then .int32 else .uint32))
    else if bits = 64 then some (.leaf (if signed then .int64 else .uint64))
    else none
  | floating bits =>
    if bits = 32 then some (.leaf .float) else if bits = 64 then some (.leaf .double) else none
  | string _ => some (.leaf .string)
  | binary _ => some (.leaf .binary)
  | date bits => if bits = 32 then some (.leaf .date32) else none
  | timestamp _ none => some (.leaf .timestamp)
  | timestamp _ (some tz) => some (.zoned (foldChars tz.toList))
  | list _ field item => (outline item).map (.list (foldChars field.toList))
  | struct fields => (outlineFields fields).map .struct
  | other _ => none

/-- The outlines of the fields of a struct. -/
def ArrowType.outlineFields : List (String × ArrowType) → Option (List (List Char × Outline))
  | [] => some []
  | (name, type) :: fields =>
    match outline type, outlineFields fields with
    | some item, some items => some ((foldChars name.toList, item) :: items)
    | _, _ => none

end

mutual

/-- The outline of a stored type. -/
def IcebergType.outline : IcebergType → Outline
  | boolean => .leaf .bool
  | int => .leaf .int32
  | long => .leaf .int64
  | float => .leaf .float
  | double => .leaf .double
  | string => .leaf .string
  | binary => .leaf .binary
  | date => .leaf .date32
  | timestamp none => .leaf .timestamp
  | timestamp (some tz) => .zoned (foldChars tz.toList)
  | list element => .list "element".toList (outline element)
  | struct fields => .struct (outlineFields fields)

/-- The outlines of stored fields. -/
def IcebergType.outlineFields : List (String × IcebergType) → List (List Char × Outline)
  | [] => []
  | (name, type) :: fields => (foldChars name.toList, outline type) :: outlineFields fields

end

end

end Memcove
