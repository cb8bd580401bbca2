import Memcove.Core.Calls
import Memcove.Core.Settings

/-!
# The catalog and registry modules

The functions of `core/catalog.py` and `core/registry.py` that make more than one call or handle
an error, as programs over the calls. The others are the calls themselves.
-/

namespace Memcove

open Programs

/-- The identifier `<catalog>.<tenant>.<label>` that is recorded for an object. -/
def tableIdent (settings : Settings) (tenant label : String) : String :=
  settings.trinoCatalog ++ "." ++ tenant ++ "." ++ label

/-- `catalog.table_exists`. -/
def tableExists (namespace_ label : String) : Tool Bool := call (.tableExists (namespace_, label))

/-- `catalog.list_labels`: a failed listing is an empty one. -/
def listLabels (namespace_ : String) : Tool (List String) :=
  Program.tryCatch (call (.listTables namespace_)) (fun _ => .pure [])

/-- `catalog.list_namespaces`. -/
def listNamespaces : Tool (List String) := do
  let namespaces ← call .listNamespaces
  return namespaces.filterMap (fun ns => ns.head?)

/-- The error of an operation on an object without a table. -/
def objectNotFound (label : String) : PyError :=
  ⟨.objectNotFoundError, s!"object '{label}' does not exist"⟩

/-- `catalog.drop_table`. -/
def dropTable (namespace_ label : String) : Tool PUnit := do
  if ← tableExists namespace_ label then call (.dropTable (namespace_, label))
  else .raise (objectNotFound label)

/-- `catalog.load_schema`. -/
def loadSchema [Engines] (namespace_ label : String) : Tool (List ColumnSchema) := do
  if ← tableExists namespace_ label then
    let table ← call (.loadTable (namespace_, label))
    return table.columns.map (fun column => ⟨column.1, Engines.typeText column.2⟩)
  else .raise (objectNotFound label)

/-- `cat.create_table(…)` and the first `append`. -/
def createAndAppend (k : Key) (table : ArrowTable) : Tool PUnit := do
  let iceberg ← call (.createTable k table.schema)
  call (.append iceberg table.rows)

/-- The three modes of `catalog.write_arrow`, when it is known whether the table exists. -/
def commitArrow [Python] (namespace_ label : String) (table : ArrowTable) (mode : Json)
    (exists_ : Bool) : Tool PUnit :=
  if mode.isStr "create" then
    if exists_ then
      .raise ⟨.objectExistsError,
        s!"object '{label}' already exists (use mode=replace or mode=append)"⟩
    else createAndAppend (namespace_, label) table
  else if mode.isStr "replace" then
    if exists_ then do
      let iceberg ← call (.loadTable (namespace_, label))
      Program.lift (assertSchemaCompatible iceberg.columns table.schema "replace" label)
      call (.overwrite iceberg table.rows)
    else createAndAppend (namespace_, label) table
  else if mode.isStr "append" then
    if exists_ then do
      let iceberg ← call (.loadTable (namespace_, label))
      Program.lift (assertSchemaCompatible iceberg.columns table.schema "append" label)
      call (.append iceberg table.rows)
    else createAndAppend (namespace_, label) table
  else .raise ⟨.valueError, s!"unknown write mode: {mode.repr}"⟩

/-- `catalog.write_arrow`. -/
def writeArrow [Python] (namespace_ label : String) (table : ArrowTable) (mode : Json) :
    Tool ℕ := do
  call (.createNamespace namespace_)
  let exists_ ← tableExists namespace_ label
  commitArrow namespace_ label table mode exists_
  return table.rows.length

/-- `registry.record_object`. -/
def recordObject (row : ObjectRow) (tags : List String) : Tool PUnit :=
  call (.recordObject row tags none)

/-- `registry.record_object_guarded`: an unreachable registry is reported, not raised. The backend
is opened before the `try`. -/
def recordObjectGuarded [Backend] (row : ObjectRow) (tags : List String)
    (parents : Option (List String)) : Tool Bool := do
  call .openRegistry
  Program.tryCatch (do
      call (.recordObject row tags parents)
      return true)
    (fun exc => if Backend.isConnectionDown exc then .pure false else .raise exc)

end Memcove
