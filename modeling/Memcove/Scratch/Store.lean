import Memcove.Core.Clients
import Memcove.Sql.Guard

/-!
# The scratchpad module

`core/scratch.py`: where a tenant's scratchpad is, and the statements that make it exist and fill
it.
-/

namespace Memcove

open Programs

/-- `_require_enabled`. -/
def requireEnabled (settings : Settings) : Tool PUnit :=
  if settings.scratchEnabled then .pure ⟨⟩
  else .raise ⟨.scratchError, "scratchpad is disabled; set MEMCOVE_SCRATCH_ENABLED=true (and " ++
    "configure a DuckDB scratch catalog in Trino) to use target=scratch / the " ++
    "scratch.<label> alias"⟩

/-- `catalog_for`. -/
def catalogFor (settings : Settings) (tenant : String) : String :=
  if settings.scratchCatalogMode = "per_tenant" then
    settings.scratchCatalogPrefix ++ "_" ++ tenant
  else settings.scratchCatalog

/-- `schema_for`. -/
def schemaFor (tenant : String) : String := tenant

/-- `scratch.guard_params`. -/
def scratchGuardParams (settings : Settings) (tenant : String) : Option ScratchTarget :=
  if settings.scratchEnabled then some ⟨catalogFor settings tenant, schemaFor tenant⟩ else none

/-- The `connection-url` of a tenant's own catalog. -/
def duckdbUrl (settings : Settings) (tenant : String) : String :=
  "jdbc:duckdb:" ++ rstripChar '/' settings.scratchDuckdbDir ++ "/" ++ tenant ++ ".duckdb"

/-- The part of `ensure` that depends on the catalog mode. -/
def ensureCatalog [Python] (settings : Settings) (tenant : String) : Tool PUnit :=
  if settings.scratchCatalogMode = "per_tenant" then
    call (.scratch (.createCatalog (catalogFor settings tenant) (duckdbUrl settings tenant)))
  else if settings.scratchCatalogMode ≠ "shared" then
    .raise ⟨.scratchError, "unknown MEMCOVE_SCRATCH_CATALOG_MODE " ++
      Python.repr settings.scratchCatalogMode ++ "; expected 'shared' or 'per_tenant'"⟩
  else .pure ⟨⟩

/-- `ensure`. -/
def ensureScratch [Python] (settings : Settings) (tenant : String) : Tool PUnit := do
  requireEnabled settings
  ensureCatalog settings tenant
  call (.scratch (.createSchema (catalogFor settings tenant) (schemaFor tenant)))

/-- `drop`. -/
def dropScratch (settings : Settings) (tenant label : String) : Tool PUnit := do
  requireEnabled settings
  call (.scratch (.dropTable (catalogFor settings tenant) (schemaFor tenant) label))

/-- `create_as_select`. -/
def createAsSelect [Python] (settings : Settings) (tenant label : String) (select : SelectText)
    (replace : Bool) : Tool PUnit := do
  requireEnabled settings
  ensureScratch settings tenant
  (if replace then dropScratch settings tenant label else .pure ⟨⟩)
  call (.scratch (.createTableAs (catalogFor settings tenant) (schemaFor tenant) label select))

/-- `describe`. -/
def describeScratch (settings : Settings) (tenant label : String) : Tool MemoryObject := do
  requireEnabled settings
  let rows ← call (.scratch (.describe (catalogFor settings tenant) (schemaFor tenant) label))
  let count ← call (.scratch (.count (catalogFor settings tenant) (schemaFor tenant) label))
  return {
    tenant := tenant
    label := label
    tableIdent := catalogFor settings tenant ++ "." ++ schemaFor tenant ++ "." ++ label
    source := .scratch
    schema := rows.map (fun row => ⟨row.1, row.2⟩)
    rowCount := count }

/-- `table_exists`. -/
def scratchTableExists (settings : Settings) (tenant label : String) : Tool Bool := do
  requireEnabled settings
  let rows ← call (.scratch (.tableNames (catalogFor settings tenant) (schemaFor tenant)
    (some label)))
  return !rows.isEmpty

end Memcove
