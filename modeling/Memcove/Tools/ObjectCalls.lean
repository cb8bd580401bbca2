import Memcove.Core.PrivateMode
import Memcove.Identifiers
import Memcove.Lib.Grants
import Memcove.Lib.Sequential
import Memcove.Tools.Export

/-!
# The tools call by call on the object store

`request_upload`, `_table_from_source` and `export_artifact` as programs of requests to S3. A
presigned URL is a grant that whoever holds it presents to S3 itself. While nobody else calls, the
sources of an ingest are those of `Tools/Sources`.
-/

namespace Memcove

open Grants Json Programs

/-- A bucket and a key in it. -/
abbrev Location := String × String

/-- The bytes of objects with their `ContentLength`, the table that `pyarrow.parquet` reads from
them, the bytes of an exported file, and the errors after which S3 has carried out a request all
the same. -/
class ObjectBytes where
  Bytes : Type
  length : Bytes → Int
  readTable : Bytes → PyM ArrowTable
  file : ExportedFile → Bytes
  late : PyError → Bool

/-- The text of `uuid.uuid4().hex`. -/
def IsUuid (hex : String) : Prop := ∀ c ∈ hex.toList, isHexDigit c = true

section

variable [ObjectBytes]

/-- A request to S3, or for a fresh UUID. -/
abbrev S3Call := Request Location ObjectBytes.Bytes

/-- The answer to it. -/
abbrev S3Answer := Reply Location ObjectBytes.Bytes String

/-- A program of such requests. -/
abbrev S3 (α : Type) := Program S3Call S3Answer PyError α

/-- A request with its answer. -/
abbrev S3Event := StoreEvent Location ObjectBytes.Bytes String PyError

/-- S3, the UUIDs, the URLs presigned so far, and the time in seconds. -/
abbrev ObjectPlane := Store Location ObjectBytes.Bytes String

/-- The rules of the object plane. -/
def s3Rules : Rules ObjectBytes.Bytes String PyError where
  size := ObjectBytes.length
  IsToken := IsUuid
  late := ObjectBytes.late

/-- The object plane as a machine. -/
abbrev s3 : Machine S3Call S3Answer PyError ObjectPlane := s3Rules.machine

/-- One request. -/
def ask (c : S3Call) : S3 (S3Answer c) := Program.perform c

/-- `UploadTicket`, with the URL as the grant that it is. -/
structure GrantedUpload where
  uploadHandle : String
  presignedUrl : Grant Location
  expiresInSeconds : Int

/-- `ArtifactRef`, with the URL as the grant that it is. -/
structure GrantedArtifact where
  uri : String
  presignedUrl : Grant Location
  format : String
  rowCount : ℕ
  sizeBytes : Int
  expiresInSeconds : Int

variable [Python]

/-- Where an upload goes. -/
def uploadTarget (settings : Settings) (tenant label hex : String) : Location :=
  resolve settings.stagingBucket ["uploads", tenant, label ++ "-" ++ hex ++ ".parquet"]

/-- `request_upload`. -/
def requestUploadCalls (settings : Settings) (tenant label : String) : S3 GrantedUpload := do
  let label ← Program.lift (validateLabel label)
  let hex ← ask .draw
  let target := uploadTarget settings tenant label hex
  let url ← ask (.mint .store target settings.presignTtlSeconds)
  return ⟨target.2, url, settings.presignTtlSeconds⟩

/-- `_check_ingest_size`. -/
def checkIngestSizeCalls (settings : Settings) (uriOrBucket : String) (key : Option String) :
    S3 Unit := do
  let location ← Program.lift (splitUri uriOrBucket key)
  let size ← ask (.measure location)
  if size > settings.ingestBytesCap then
    .raise ⟨.ingestError, s!"parquet object is {size} bytes, over the ingest cap " ++
      s!"({settings.ingestBytesCap} bytes); split it or raise MEMCOVE_INGEST_BYTES_CAP"⟩
  else return ()

/-- `storage.read_parquet_table`. -/
def readParquetTableCalls (uriOrBucket : String) (key : Option String) : S3 ArrowTable := do
  let location ← Program.lift (splitUri uriOrBucket key)
  let body ← ask (.fetch location)
  Program.lift (ObjectBytes.readTable body)

omit [ObjectBytes] [Python] in
/-- An object of S3 is among the sources of an ingest. -/
theorem s3Parquet_ingested : SourceKind.s3Parquet ∈ [.inline, .s3Parquet, .upload] := by decide

omit [ObjectBytes] [Python] in
/-- So is an upload. -/
theorem upload_ingested : SourceKind.upload ∈ [.inline, .s3Parquet, .upload] := by decide

/-- The `s3_parquet` branch of `_table_from_source`. -/
def s3SourceCalls (settings : Settings) (uri : String) : S3 ResolvedSource := do
  Program.lift (checkS3IngestAllowed settings uri)
  checkIngestSizeCalls settings uri none
  let table ← readParquetTableCalls uri none
  return ⟨table, .s3Parquet, some uri, s3Parquet_ingested⟩

/-- The `upload_handle` branch of `_table_from_source`. -/
def uploadSourceCalls (settings : Settings) (tenant handle : String) : S3 ResolvedSource :=
  if !boundTo settings tenant handle then
    .raise ⟨.ingestError, "upload handle does not belong to this tenant"⟩
  else do
    let bucket := (uploadsOf settings tenant).1
    checkIngestSizeCalls settings bucket (some handle)
    let table ← readParquetTableCalls bucket (some handle)
    return ⟨table, .upload, some handle, upload_ingested⟩

/-- `_table_from_source`, for a descriptor whose `uri` and `handle` are texts. -/
def tableFromSourceCalls [ArrowIo] (settings : Settings) (source : Fields) (tenant : String) :
    S3 ResolvedSource :=
  let kind := get source "kind"
  if kind.isStr "inline" then Program.lift (inlineSource settings source)
  else if kind.isStr "s3_parquet" then do
    let uri ← Program.lift (requireKey source "uri")
    s3SourceCalls settings (← Program.lift (uri.expectStr "startswith"))
  else if kind.isStr "upload_handle" then do
    let handle ← Program.lift (requireKey source "handle")
    uploadSourceCalls settings tenant (← Program.lift (handle.expectStr "startswith"))
  else .raise ⟨.ingestError, s!"unknown ingest source kind {kind.repr}"⟩

/-- The `base` of `export_artifact`. -/
def exportBase (label : String) : PyM String :=
  if label = "" then .ok "query" else validateLabel label

/-- Where an export goes. -/
def exportTarget (settings : Settings) (tenant base hex fmt : String) : Location :=
  resolve settings.artifactsBucket ["exports", tenant, base ++ "-" ++ hex ++ ("." ++ fmt)]

/-- An `export_artifact` whose stream raises after it has written some bytes, which closing the
sink stores. -/
structure Interruption where
  written : ObjectBytes.Bytes
  error : PyError

/-- `export_artifact`. -/
def exportArtifactCalls [Sqlglot] (settings : Settings) (tenant fmt : String)
    (label sql : Option String) (answer : List Token → CursorAnswer)
    (interruption : Option Interruption) : S3 GrantedArtifact := do
  let artifact ← Program.lift (exportArtifact settings tenant fmt label sql answer)
  let base ← Program.lift (exportBase (label.getD ""))
  let hex ← ask .draw
  let target := exportTarget settings tenant base hex fmt
  match interruption with
  | some stream => do
    ask (.store target stream.written)
    .raise stream.error
  | none => do
    ask (.store target (ObjectBytes.file artifact.file))
    let size ← ask (.measure target)
    let url ← ask (.mint .fetch target settings.presignTtlSeconds)
    return { uri := s!"s3://{target.1}/{target.2}", presignedUrl := url, format := fmt,
             rowCount := artifact.rowCount, sizeBytes := size,
             expiresInSeconds := settings.presignTtlSeconds }

/-- The answer to a HEAD request while nothing changes the plane. -/
def contentLengthAt (s : ObjectPlane) (missing : PyError) (location : Location) : PyM Int :=
  match s.objects location with
  | some bytes => .ok (ObjectBytes.length bytes)
  | none => .error missing

/-- The table in the answer to a GET request. -/
def parquetAt (s : ObjectPlane) (missing : PyError) (location : Location) : PyM ArrowTable :=
  match s.objects location with
  | some bytes => ObjectBytes.readTable bytes
  | none => .error missing

/-- The object store of `Tools/Sources` while nothing changes the plane. -/
@[reducible] def frozenStore (s : ObjectPlane) (missing : PyError) : ObjectStore where
  contentLength bucket key := contentLengthAt s missing (bucket, key)
  parquet bucket key := parquetAt s missing (bucket, key)
  presignPut _ key _ := .ok key

/-- The program leaves the plane as it is, and returns nothing else than the computation does. -/
def Agrees {α : Type} (s : ObjectPlane) (p : S3 α) (x : PyM α) : Prop :=
  EndsIn s3 s p (fun t r => t = s ∧ ∀ a, r = .ok a → x = .ok a)

section

variable {s : ObjectPlane} {α β : Type} {missing : PyError}

omit [Python]

/-- A computation agrees with itself. -/
theorem Agrees.lift (x : PyM α) : Agrees s (Program.lift x) x := by
  rintro s₀ h rfl
  exact Sat.lift ⟨rfl, fun _ => id⟩

/-- One program after the other. -/
theorem Agrees.bind {p : S3 α} {x : PyM α} {f : α → S3 β} {g : α → PyM β} (hp : Agrees s p x)
    (hf : ∀ a, Agrees s (f a) (g a)) : Agrees s (p >>= f) (x >>= g) := by
  refine EndsIn.bind hp (fun t a ht => ?_) (fun t e ht => ⟨ht.1, nofun⟩)
  obtain ⟨rfl, hx⟩ := ht
  rw [hx a rfl]
  exact hf a

/-- A HEAD request. -/
theorem agrees_measure (location : Location) : Agrees s (ask (.measure location))
    (contentLengthAt s missing location) := by
  refine EndsIn.perform (fun r hr => ?_)
  rw [effect_measure]
  cases r with
  | error e => exact ⟨rfl, nofun⟩
  | ok size =>
    refine ⟨rfl, fun a ha => ?_⟩
    cases ha
    obtain ⟨bytes, hbytes, rfl⟩ := Option.map_eq_some_iff.mp hr
    rw [contentLengthAt, hbytes]
    rfl

/-- A GET request whose body is parsed. -/
theorem agrees_fetch (location : Location) :
    Agrees s (do
      let body ← ask (.fetch location)
      Program.lift (ObjectBytes.readTable body))
    (parquetAt s missing location) := by
  refine EndsIn.perform_bind (fun body hbody => ?_) (fun _ _ => ⟨effect_fetch _ _, nofun⟩)
  have hbytes : s.objects location = some body := hbody
  rw [effect_fetch, parquetAt, hbytes]
  exact Agrees.lift _

end

/-- The check of the size. -/
theorem agrees_checkIngestSize (settings : Settings) {s : ObjectPlane} {missing : PyError}
    (uriOrBucket : String) (key : Option String) :
    Agrees s (checkIngestSizeCalls settings uriOrBucket key)
      (@checkIngestSize _ (frozenStore s missing) settings uriOrBucket key) := by
  unfold checkIngestSizeCalls checkIngestSize objectSize
  rw [bind_assoc]
  refine (Agrees.lift _).bind (fun location => (agrees_measure location).bind (fun size => ?_))
  split
  · exact Agrees.lift (.error _)
  · exact Agrees.lift (.ok _)

/-- Reading a table. -/
theorem agrees_readParquetTable {s : ObjectPlane} {missing : PyError}
    (uriOrBucket : String) (key : Option String) :
    Agrees s (readParquetTableCalls uriOrBucket key)
      (@readParquetTable _ (frozenStore s missing) uriOrBucket key) :=
  (Agrees.lift _).bind agrees_fetch

/-- While nobody else calls, the sources of an ingest are read as from a store that stands still. -/
theorem agrees_tableFromSource [ArrowIo] (settings : Settings) (source : Fields) (tenant : String)
    {s : ObjectPlane} {missing : PyError} :
    Agrees s (tableFromSourceCalls settings source tenant)
      (@tableFromSource _ (frozenStore s missing) _ settings source tenant) := by
  unfold tableFromSourceCalls tableFromSource
  dsimp only
  split
  · exact Agrees.lift _
  · split
    · refine (Agrees.lift _).bind (fun uri => (Agrees.lift _).bind (fun uri => ?_))
      refine (Agrees.lift _).bind (fun _ => (agrees_checkIngestSize settings uri none).bind
        (fun _ => (agrees_readParquetTable uri none).bind (fun table => ?_)))
      exact Agrees.lift (.ok _)
    · split
      · refine (Agrees.lift _).bind (fun handle => (Agrees.lift _).bind (fun handle => ?_))
        unfold uploadSourceCalls uploadSource
        split
        · exact Agrees.lift (.error _)
        · refine (agrees_checkIngestSize settings _ _).bind (fun _ =>
            (agrees_readParquetTable _ _).bind (fun table => ?_))
          exact Agrees.lift (.ok _)
      · exact Agrees.lift (.error _)

end

end Memcove
