import Memcove.Sql.Syntax

/-!
# Domain models

The parts of `core/models.py` that the tools build and return. Time stamps and the never assigned
`size_bytes` are left out.
-/

namespace Memcove

/-- `SourceKind`: how an object's data first entered Memcove. -/
inductive SourceKind where
  | inline | s3Parquet | upload | stream | derived | scratch | reconciled
  deriving DecidableEq, Repr

/-- The identity of an object: its tenant namespace and its label. -/
abbrev Key := String × String

/-- `ColumnSchema`. -/
structure ColumnSchema where
  name : String
  type : String
  deriving DecidableEq, Repr

/-- `MemoryObject`, with the two fields of `Lineage`. -/
structure MemoryObject where
  tenant : String
  label : String
  tableIdent : String
  source : SourceKind
  sourceRef : Option String := none
  schema : List ColumnSchema := []
  rowCount : Option Int := none
  tags : List String := []
  parents : List String := []
  producingSql : Option (List Token) := none
  metadataPending : Bool := false

end Memcove
