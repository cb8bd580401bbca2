import Memcove.Scratch.Builder
import Memcove.Scratch.Store
import Memcove.Tools.Objects

/-!
# Ingest

`ingest_object` of `tools/ingest.py`. The source descriptor is given by what `_table_from_source`
makes of it: a table with its kind and reference, or the error.
-/

namespace Memcove

open Programs

variable [Python] [Engines] [Backend]

/-- What `_table_from_source` returns: the table, the kind of its source and a reference. -/
structure ResolvedSource where
  table : ArrowTable
  kind : SourceKind
  ref : Option String
  ingested : kind ∈ [.inline, .s3Parquet, .upload]

omit [Python] [Engines] [Backend] in
/-- Inline data is among the sources of an ingest. -/
theorem inline_ingested : SourceKind.inline ∈ [.inline, .s3Parquet, .upload] := by decide

/-- `_ingest_to_scratch`. -/
def ingestToScratch (settings : Settings) (tenant label : String) (table : ArrowTable)
    (kind : SourceKind) (mode : String) : Tool MemoryObject :=
  if kind ≠ .inline then
    .raise ⟨.ingestError, "scratch ingest supports inline sources only; use target=lakehouse " ++
      "for s3_parquet / upload_handle, or derive into scratch from a query"⟩
  else if mode ≠ "create" ∧ mode ≠ "replace" then
    .raise ⟨.ingestError, "scratch ingest supports mode create|replace only, not " ++
      Python.repr mode⟩
  else do
    let exists_ ← (if mode = "create" then scratchTableExists settings tenant label
      else .pure false)
    if exists_ then
      .raise ⟨.objectExistsError,
        s!"scratch object '{label}' already exists (use mode=replace)"⟩
    else do
      let select ← Program.lift (scratchSelect table)
      createAsSelect settings tenant label (.inline select) (mode == "replace")
      describeScratch settings tenant label

/-- The registry row of an ingested object. -/
def ingestRow (settings : Settings) (tenant label : String) (kind : SourceKind)
    (ref : Option String) : ObjectRow where
  tenant := tenant
  label := label
  tableIdent := tableIdent settings tenant label
  source := kind
  sourceRef := ref

/-- The lakehouse path of `ingest_object`. -/
def ingestToLakehouse (settings : Settings) (tenant label : String) (table : ArrowTable)
    (kind : SourceKind) (ref : Option String) (mode : String) (tags : List String) :
    Tool MemoryObject := do
  let _ ← writeArrow tenant label table (.str mode)
  let ok ← recordObjectGuarded (ingestRow settings tenant label kind ref) tags none
  if ok then describeObject settings tenant label
  else pendingObject (ingestRow settings tenant label kind ref) tags []

/-- `ingest_object`. -/
def ingestObject (settings : Settings) (tenant label : String)
    (source : PyM ResolvedSource) (mode : String)
    (tags : Option (List String)) (target : String) : Tool MemoryObject := do
  let label ← Program.lift (validateLabel label)
  if target ≠ "lakehouse" ∧ target ≠ "scratch" then
    .raise ⟨.valueError, "unknown target " ++ Python.repr target ++
      "; expected lakehouse|scratch"⟩
  else do
    let resolved ← Program.lift source
    if target = "scratch" then
      ingestToScratch settings tenant label resolved.table resolved.kind mode
    else
      ingestToLakehouse settings tenant label resolved.table resolved.kind resolved.ref mode
        (tags.getD [])

end Memcove
