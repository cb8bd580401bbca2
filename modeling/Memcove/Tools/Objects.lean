import Memcove.Core.Clients
import Memcove.Core.Naming

/-!
# Describing and dropping objects

The functions of `tools/objects.py` that touch both stores: `describe_object` with its read-repair,
the response for a write whose metadata is pending, and `drop_object`.
-/

namespace Memcove

open Programs

variable [Engines]

/-- `_row_count`: counting is best-effort. -/
def rowCount (tenant label : String) : Tool (Option Int) :=
  Program.tryCatch (call (.countRows (tenant, label))) (fun _ => .pure none)

/-- The row that read-repair and the reconciler write for a table without one. -/
def reconciledRow (settings : Settings) (tenant label : String) : ObjectRow where
  tenant := tenant
  label := label
  tableIdent := tableIdent settings tenant label
  source := .reconciled

/-- `_read_repair`. -/
def readRepair (settings : Settings) (tenant label : String) :
    Tool (Option (ObjectRow × List String)) := do
  if ← tableExists tenant label then
    recordObject (reconciledRow settings tenant label) []
    call (.getObject (tenant, label))
  else return none

/-- The response of `describe_object` for a registry row. -/
def describeRow (settings : Settings) (tenant label : String)
    (reg : Option (ObjectRow × List String)) : Tool MemoryObject :=
  match reg with
  | none => .raise (objectNotFound label)
  | some (row, tags) => do
    let schema ← loadSchema tenant label
    let parents ← call (.getParents (tenant, label))
    let rows ← rowCount tenant label
    return {
      tenant := tenant
      label := label
      tableIdent := tableIdent settings tenant label
      source := row.source
      sourceRef := row.sourceRef
      schema := schema
      rowCount := rows
      tags := tags
      parents := parents
      producingSql := row.producingSql }

/-- `describe_object`. -/
def describeObject [Python] (settings : Settings) (tenant label : String) :
    Tool MemoryObject := do
  let label ← Program.lift (validateLabel label)
  let reg ← call (.getObject (tenant, label))
  let reg ← (match reg with
    | some found => .pure (some found)
    | none => readRepair settings tenant label)
  describeRow settings tenant label reg

/-- `pending_object`, for the row that could not be recorded. -/
def pendingObject (row : ObjectRow) (tags parents : List String) : Tool MemoryObject := do
  let schema ← loadSchema row.tenant row.label
  let rows ← rowCount row.tenant row.label
  return {
    tenant := row.tenant
    label := row.label
    tableIdent := row.tableIdent
    source := row.source
    sourceRef := row.sourceRef
    schema := schema
    rowCount := rows
    tags := tags
    parents := parents
    producingSql := row.producingSql
    metadataPending := true }

/-- `drop_object`: the label that was dropped. -/
def dropObject [Python] (tenant label : String) : Tool String := do
  let label ← Program.lift (validateLabel label)
  dropTable tenant label
  call (.deleteObject (tenant, label))
  return label

end Memcove
