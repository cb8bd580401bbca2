import Memcove.Python
import Mathlib.Data.Rat.Defs

/-!
# Runtime configuration

The fields of `core/config.py` that the modelled functions read, with the defaults of the source.
-/

namespace Memcove

/-- `Settings.tenant_mode`. -/
inductive TenantMode where
  | autoMode | sharedMode | privateMode | mappedMode
  deriving DecidableEq, Repr

/-- `core/config.py`, `Settings`. Dictionaries are association lists; the deletion cap ratio is
the exact value of the configured float. -/
structure Settings where
  stagingBucket : String := "memcove-staging"
  artifactsBucket : String := "memcove-artifacts"
  presignTtlSeconds : Int := 3600
  inlineBytesCap : Int := 8388608
  ingestBytesCap : Int := 1073741824
  allowedS3IngestPrefixes : List String := []
  trinoCatalog : String := "iceberg"
  flightTicketSecret : String := "dev-insecure-change-me"
  flightTicketTtlSeconds : Int := 300
  reconcileMinAbsentSweeps : Int := 2
  reconcileDeletionCapRatio : ℚ := 1 / 4
  reconcileDeletionCapMin : Int := 3
  doputSingleCommitMaxRows : Int := 1000000
  previewRowCap : ℕ := 1000
  exportRowCap : ℕ := 5000000
  streamBatchRows : ℕ := 50000
  tenantMode : TenantMode := .autoMode
  tenantHeader : String := "x-memcove-tenant"
  defaultTenant : String := "default"
  sharedTenant : String := ""
  tenantSubjectHeader : String := ""
  tenantGroupHeader : String := ""
  tenantMap : List (String × String) := []
  oauthEnabled : Bool := false
  oauthTenantClaim : String := "sub"
  sharedSchemas : List String := ["ref_market"]
  scratchEnabled : Bool := false
  scratchCatalogMode : String := "shared"
  scratchCatalog : String := "scratch"
  scratchCatalogPrefix : String := "scratch"
  scratchDuckdbDir : String := "/data/scratch"

end Memcove
