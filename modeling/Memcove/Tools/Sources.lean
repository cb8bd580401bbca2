import Memcove.Core.Locations
import Memcove.Flight.Server
import Memcove.Tools.Ingest

/-!
# The sources of an ingest

`request_upload` and `_table_from_source` of `tools/ingest.py`: which objects of the store an agent
can have read. An upload handle is bound to a tenant by the path that it starts with, and an S3 URI
is admitted by an allowlist of prefixes. Both tests compare texts, and both decide by segments.
-/

namespace Memcove

open Json

/-- `core/arrow_io.py`: the decoders of inline payloads, and the size of a table. -/
class ArrowIo where
  fromJsonRecords : Json → PyM ArrowTable
  fromArrowIpcB64 : Json → PyM ArrowTable
  estimateBytes : ArrowTable → Int

/-- `UploadTicket`. -/
structure UploadTicket where
  uploadHandle : String
  presignedUrl : String
  expiresInSeconds : Int

section

variable [Python]

/-- The test `_within` of `_check_s3_ingest_allowed`. -/
def within (uri entry : String) : Bool :=
  let entry := rstripChar '/' entry
  uri == entry || startsWith uri (entry ++ "/")

/-- `_check_s3_ingest_allowed`. -/
def checkS3IngestAllowed (settings : Settings) (uri : String) : PyM Unit :=
  if settings.allowedS3IngestPrefixes.isEmpty then
    raise .ingestError ("s3_parquet ingest is disabled; set MEMCOVE_ALLOWED_S3_INGEST_PREFIXES " ++
      "to an allowlist of permitted s3:// prefixes to enable it")
  else if !settings.allowedS3IngestPrefixes.any (within uri) then
    raise .ingestError (s!"s3 uri {Python.repr uri} is not within an allowed ingest prefix; " ++
      "permitted prefixes are configured by the operator")
  else .ok ()

variable [ObjectStore]

/-- `_check_ingest_size`. -/
def checkIngestSize (settings : Settings) (uriOrBucket : String) (key : Option String) :
    PyM Unit := do
  let size ← objectSize uriOrBucket key
  if size > settings.ingestBytesCap then
    raise .ingestError (s!"parquet object is {size} bytes, over the ingest cap " ++
      s!"({settings.ingestBytesCap} bytes); split it or raise MEMCOVE_INGEST_BYTES_CAP")
  else .ok ()

/-- Where the uploads of a tenant lie: the bucket and the path `<prefix>/uploads/<tenant>`. -/
def uploadsOf (settings : Settings) (tenant : String) : String × String :=
  resolve settings.stagingBucket ["uploads", tenant]

/-- The binding check: the handle starts with the path of the tenant and a slash. -/
def boundTo (settings : Settings) (tenant handle : String) : Bool :=
  startsWith handle ((uploadsOf settings tenant).2 ++ "/")

/-- The lookup of an uploaded object. -/
def readUpload (settings : Settings) (bucket handle : String) : PyM ResolvedSource := do
  checkIngestSize settings bucket (some handle)
  let table ← readParquetTable bucket (some handle)
  return ⟨table, .upload, some handle, by decide⟩

/-- The `inline` branch of `_table_from_source`. -/
def inlineSource [ArrowIo] (settings : Settings) (source : Fields) : PyM ResolvedSource := do
  let fmt := (dictGet source "format").getD (.str "json_records")
  let table ←
    if fmt.isStr "json_records" then
      ArrowIo.fromJsonRecords (((get source "records").orElse (get source "data")).orElse (.arr []))
    else if fmt.isStr "arrow_ipc_b64" then do
      ArrowIo.fromArrowIpcB64 (← requireKey source "data")
    else raise .ingestError s!"unknown inline format {fmt.repr}"
  if ArrowIo.estimateBytes table > settings.inlineBytesCap then
    raise .ingestError (s!"inline payload exceeds cap ({settings.inlineBytesCap} bytes); " ++
      "use request_upload + upload_handle or an s3_parquet reference")
  else .ok ⟨table, .inline, none, by decide⟩

/-- The `s3_parquet` branch of `_table_from_source`. -/
def s3Source (settings : Settings) (uri : String) : PyM ResolvedSource := do
  checkS3IngestAllowed settings uri
  checkIngestSize settings uri none
  let table ← readParquetTable uri none
  return ⟨table, .s3Parquet, some uri, by decide⟩

/-- The `upload_handle` branch of `_table_from_source`. -/
def uploadSource (settings : Settings) (tenant handle : String) : PyM ResolvedSource :=
  if !boundTo settings tenant handle then
    raise .ingestError "upload handle does not belong to this tenant"
  else readUpload settings (uploadsOf settings tenant).1 handle

/-- `_table_from_source`, for a descriptor whose `uri` and `handle` are texts. -/
def tableFromSource [ArrowIo] (settings : Settings) (source : Fields) (tenant : String) :
    PyM ResolvedSource := do
  let kind := get source "kind"
  if kind.isStr "inline" then inlineSource settings source
  else if kind.isStr "s3_parquet" then
    s3Source settings (← (← requireKey source "uri").expectStr "startswith")
  else if kind.isStr "upload_handle" then
    uploadSource settings tenant (← (← requireKey source "handle").expectStr "startswith")
  else raise .ingestError s!"unknown ingest source kind {kind.repr}"

/-- `request_upload`, where `hex` is the text of a fresh UUID. -/
def requestUpload (settings : Settings) (tenant label hex : String) : PyM UploadTicket := do
  let label ← validateLabel label
  let target := resolve settings.stagingBucket
    ["uploads", tenant, label ++ "-" ++ hex ++ ".parquet"]
  let url ← presignPut settings target.1 target.2
  return { uploadHandle := target.2, presignedUrl := url,
           expiresInSeconds := settings.presignTtlSeconds }

omit [Python] [ObjectStore] in
/-- A namespace has no slash. -/
theorem IsNamespace.not_mem_slash {tenant : String} (h : IsNamespace tenant) :
    '/' ∉ tenant.toList :=
  fun hslash => absurd (h.nameChars _ hslash) (by decide)

omit [Python] [ObjectStore] in
/-- A namespace is not empty. -/
theorem IsNamespace.ne_empty {tenant : String} (h : IsNamespace tenant) : tenant ≠ "" := by
  rintro rfl
  obtain ⟨rest, htext, _⟩ := h
  simp at htext

/-- The segments above those of the tenants: the sub-path of the location, if any, and
`uploads`. -/
def stagingPath (settings : Settings) : List (List Char) :=
  let subPath := (partitionChar '/' (stripChar '/' settings.stagingBucket)).2
  (if subPath = "" then [] else [(stripChar '/' subPath).toList]) ++ ["uploads".toList]

omit [Python] [ObjectStore] in
/-- The segments of the path of a tenant. -/
theorem keySegments_uploads {settings : Settings} {tenant : String} (h : IsNamespace tenant) :
    (keySegments settings.stagingBucket ["uploads", tenant]).map String.toList =
      stagingPath settings ++ [tenant.toList] := by
  have hkept : trimmedParts ["uploads", tenant] = ["uploads", tenant] :=
    trimmedParts_eq_self (by simp [h.ne_empty, h.not_mem_slash])
  rw [keySegments, hkept, stagingPath]
  simp only [subPath_eq_empty_iff]
  split <;> simp [subPath]

omit [Python] [ObjectStore] in
/-- The key of parts behind `uploads` and a tenant. -/
theorem resolve_uploads {settings : Settings} {tenant : String} (h : IsNamespace tenant)
    (parts : List String) :
    (resolve settings.stagingBucket ("uploads" :: tenant :: parts)).2.toList =
      ['/'].intercalate (stagingPath settings ++ [tenant.toList] ++
        ((parts.filter (· != "")).map (stripChar '/')).map String.toList) := by
  have hsplit : "uploads" :: tenant :: parts = ["uploads", tenant] ++ parts := rfl
  rw [resolve_snd_toList, hsplit, keySegments_append, List.map_append, keySegments_uploads h]
  rfl

omit [Python] [ObjectStore] in
/-- The binding check compares whole segments. -/
theorem boundTo_iff {settings : Settings} {tenant handle : String} (h : IsNamespace tenant) :
    boundTo settings tenant handle = true ↔
      Paths.terminated '/' (stagingPath settings ++ [tenant.toList]) <+: handle.toList := by
  have hkey : (uploadsOf settings tenant).2.toList =
      ['/'].intercalate (stagingPath settings ++ [tenant.toList]) := by
    rw [uploadsOf, resolve_uploads h]
    simp
  rw [boundTo, startsWith, List.isPrefixOf_iff_prefix, String.toList_append, hkey,
    ← Paths.intercalate_append_sep (by simp)]
  rfl

omit [Python] [ObjectStore] in
/-- A handle is bound to one tenant. -/
theorem boundTo_unique {settings : Settings} {tenant tenant' handle : String}
    (h : IsNamespace tenant) (h' : IsNamespace tenant')
    (hbound : boundTo settings tenant handle = true)
    (hbound' : boundTo settings tenant' handle = true) : tenant = tenant' := by
  have hsegments {name : String} (hname : IsNamespace name) :
      ∀ segment ∈ [name.toList], '/' ∉ segment := by
    simpa using hname.not_mem_slash
  rw [boundTo_iff h, Paths.terminated_append] at hbound
  rw [boundTo_iff h', Paths.terminated_append] at hbound'
  -- of two beginnings of one text, one begins the other
  rcases List.prefix_or_prefix_of_prefix hbound hbound' with hfirst | hfirst
  · rw [List.prefix_append_right_inj,
      Paths.terminated_prefix_iff (hsegments h) (hsegments h')] at hfirst
    exact String.toList_inj.mp (List.singleton_inj.mp (hfirst.eq_of_length rfl))
  · rw [List.prefix_append_right_inj,
      Paths.terminated_prefix_iff (hsegments h') (hsegments h)] at hfirst
    exact String.toList_inj.mp (List.singleton_inj.mp (hfirst.eq_of_length rfl)).symm

omit [Python] [ObjectStore] in
/-- The bucket does not depend on the parts. -/
theorem resolve_fst (location : String) (parts parts' : List String) :
    (resolve location parts).1 = (resolve location parts').1 := rfl

/-- The handle of an upload, the path of its tenant with one more segment. -/
theorem requestUpload_ok {settings : Settings} {tenant label hex : String} {ticket : UploadTicket}
    (h : IsNamespace tenant) (hticket : requestUpload settings tenant label hex = .ok ticket) :
    boundTo settings tenant ticket.uploadHandle = true ∧
      presignPut settings (uploadsOf settings tenant).1 ticket.uploadHandle =
        .ok ticket.presignedUrl := by
  obtain ⟨name, _, hticket⟩ := bind_eq_ok hticket
  generalize hfile : name ++ "-" ++ hex ++ ".parquet" = file at hticket
  have hkept : [file].filter (· != "") = [file] := by
    refine List.filter_cons_of_pos ?_
    rw [← hfile]
    simp
  have hbucket : (resolve settings.stagingBucket ["uploads", tenant, file]).1 =
      (uploadsOf settings tenant).1 := resolve_fst _ _ _
  have hkey : (resolve settings.stagingBucket ["uploads", tenant, file]).2.toList = _ :=
    resolve_uploads h [file]
  rw [hkept, List.map_singleton, List.map_singleton, Paths.intercalate_concat] at hkey
  generalize resolve settings.stagingBucket ["uploads", tenant, file] = target at *
  obtain ⟨url, hurl, hticket⟩ := bind_eq_ok hticket
  obtain rfl := Except.ok.inj hticket
  refine ⟨?_, hbucket ▸ hurl⟩
  rw [boundTo_iff h, hkey]
  exact List.prefix_append _ _

/-- The upload of a tenant: its handle passes the binding check, and the object is looked up in the
bucket for which the URL was presigned. -/
structure TenantUpload (settings : Settings) (tenant : String) (ticket : UploadTicket) : Prop where
  accepted : boundTo settings tenant ticket.uploadHandle = true
  read : ∃ bucket, presignPut settings bucket ticket.uploadHandle = .ok ticket.presignedUrl ∧
    uploadSource settings tenant ticket.uploadHandle =
      readUpload settings bucket ticket.uploadHandle

/-- Every minted handle is an upload of its tenant, and no text passes the binding check for two
tenants. -/
theorem uploads_bind {settings : Settings} {tenant tenant' : String} (h : IsNamespace tenant)
    (h' : IsNamespace tenant') (hne : tenant ≠ tenant') :
    (∀ label hex ticket, requestUpload settings tenant label hex = .ok ticket →
      TenantUpload settings tenant ticket) ∧
    ∀ handle,
      ¬ (boundTo settings tenant handle = true ∧ boundTo settings tenant' handle = true) := by
  constructor
  · intro label hex ticket hticket
    obtain ⟨hbound, hurl⟩ := requestUpload_ok h hticket
    refine ⟨hbound, _, hurl, ?_⟩
    rw [uploadSource, hbound]
    rfl
  · rintro handle ⟨hbound, hbound'⟩
    exact hne (boundTo_unique h h' hbound hbound')

end

/-- The scheme of S3 URIs. -/
def s3Scheme : List Char := "s3://".toList

/-- An entry of the allowlist, `s3://bucket[/segments]` with any number of slashes behind it. -/
structure S3Prefix where
  bucket : List Char
  path : List (List Char)
  slashes : ℕ
  bucket_ne_nil : bucket ≠ []
  bucket_plain : '/' ∉ bucket
  path_plain : ∀ segment ∈ path, '/' ∉ segment
  path_last : path.getLast? ≠ some []

/-- The text of an entry. -/
def S3Prefix.text (p : S3Prefix) : String :=
  String.ofList (s3Scheme ++ ['/'].intercalate (p.bucket :: p.path) ++
    List.replicate p.slashes '/')

/-- The object lies in the bucket and under the path of the entry. -/
def S3Prefix.Admits (p : S3Prefix) (bucket key : String) : Prop :=
  p.bucket = bucket.toList ∧ p.path <+: key.toList.splitOn '/'

/-- Slashes behind a text that does not end in one are all that `rstrip("/")` removes. -/
theorem rdropWhile_slashes {body : List Char} {c : Char} (hc : c ≠ '/') (n : ℕ) :
    (body ++ [c] ++ List.replicate n '/').rdropWhile (· == '/') = body ++ [c] := by
  induction n with
  | zero => rw [List.replicate_zero, List.append_nil, List.rdropWhile_concat_neg _ _ _ (by simpa)]
  | succ n ih =>
    rw [List.replicate_succ', ← List.append_assoc, List.rdropWhile_concat_pos _ _ _ (by simp), ih]

/-- The last segment of an entry has a last character, which is no slash. -/
theorem S3Prefix.exists_last (p : S3Prefix) :
    ∃ body c, s3Scheme ++ ['/'].intercalate (p.bucket :: p.path) = body ++ [c] ∧ c ≠ '/' := by
  obtain ⟨above, last, hsegments, hlast, hplain⟩ : ∃ above last,
      p.bucket :: p.path = above ++ [last] ∧ last ≠ [] ∧ '/' ∉ last := by
    rcases List.eq_nil_or_concat' p.path with hpath | ⟨path, last, hpath⟩
    · exact ⟨[], p.bucket, by rw [hpath]; rfl, p.bucket_ne_nil, p.bucket_plain⟩
    · refine ⟨p.bucket :: path, last, by rw [hpath]; rfl, ?_, p.path_plain last (by simp [hpath])⟩
      rintro rfl
      exact p.path_last (by simp [hpath])
  obtain ⟨front, c, rfl⟩ := (List.eq_nil_or_concat' last).resolve_left hlast
  refine ⟨s3Scheme ++ Paths.terminated '/' above ++ front, c, ?_, ?_⟩
  · rw [hsegments, Paths.intercalate_concat, List.append_assoc, List.append_assoc]
  · rintro rfl
    simp at hplain

/-- Without its last slashes an entry is its segments. -/
theorem S3Prefix.rstrip_text (p : S3Prefix) :
    (rstripChar '/' p.text).toList = s3Scheme ++ ['/'].intercalate (p.bucket :: p.path) := by
  obtain ⟨body, c, hbody, hc⟩ := p.exists_last
  rw [rstripChar, S3Prefix.text, String.toList_ofList, String.toList_ofList, hbody,
    rdropWhile_slashes hc]

/-- An S3 URI is the bucket and the segments of the key. -/
theorem splitUri_ok [Python] {uri bucket key : String} (h : splitUri uri none = .ok (bucket, key)) :
    '/' ∉ bucket.toList ∧
      uri.toList ++ ['/'] = s3Scheme ++ Paths.terminated '/'
        (bucket.toList :: key.toList.splitOn '/') := by
  unfold splitUri raise at h
  dsimp only at h
  split at h
  · cases h
  · rename_i hscheme
    split at h
    · cases h
    · rename_i hkey
      rw [Except.ok.injEq, Prod.mk.injEq] at h
      obtain ⟨rfl, rfl⟩ := h
      rw [Bool.not_eq_true', Bool.not_eq_false, startsWith, List.isPrefixOf_iff_prefix] at hscheme
      obtain ⟨rest, hrest⟩ := hscheme
      have hdrop : uri.toList.drop 5 = rest := by
        rw [← hrest]
        rfl
      obtain ⟨hbucket, hparts⟩ := partitionChar_toList hkey
      refine ⟨hbucket, ?_⟩
      rw [String.toList_ofList] at hparts
      rw [Paths.terminated_cons, Paths.terminated_splitOn, ← hrest, ← hdrop]
      conv_lhs => rw [hparts]
      simp [s3Scheme]

/-- The test of one entry compares buckets and segments. -/
theorem within_text_iff [Python] {uri bucket key : String}
    (h : splitUri uri none = .ok (bucket, key)) (p : S3Prefix) :
    within uri p.text = true ↔ p.Admits bucket key := by
  obtain ⟨hbucket, huri⟩ := splitUri_ok h
  have hentry := p.rstrip_text
  have htest : within uri p.text = true ↔
      (uri.toList = (rstripChar '/' p.text).toList ∨
        (rstripChar '/' p.text).toList ++ ['/'] <+: uri.toList) := by
    simp only [within, startsWith, Bool.or_eq_true, beq_iff_eq, List.isPrefixOf_iff_prefix,
      String.toList_append, String.toList_inj]
    rfl
  have hplain : ∀ segment ∈ p.bucket :: p.path, '/' ∉ segment :=
    List.forall_mem_cons.mpr ⟨p.bucket_plain, p.path_plain⟩
  have hplain' : ∀ segment ∈ bucket.toList :: key.toList.splitOn '/', '/' ∉ segment :=
    List.forall_mem_cons.mpr ⟨hbucket, fun _ => Paths.not_mem_of_mem_splitOn⟩
  rw [htest, hentry, Paths.within_iff, huri, List.append_assoc,
    Paths.intercalate_append_sep (List.cons_ne_nil _ _), List.prefix_append_right_inj,
    Paths.terminated_prefix_iff hplain hplain', List.cons_prefix_cons]
  rfl

/-- The allowlist admits an object if and only if some entry names its bucket and begins its path;
otherwise the error is the same whatever the store holds, so nothing is read. -/
theorem checkS3IngestAllowed_iff [Python] {settings : Settings} {prefixes : List S3Prefix}
    (hprefixes : settings.allowedS3IngestPrefixes = prefixes.map S3Prefix.text)
    {uri bucket key : String} (h : splitUri uri none = .ok (bucket, key)) :
    (checkS3IngestAllowed settings uri = .ok () ↔ ∃ p ∈ prefixes, p.Admits bucket key) ∧
      ((¬ ∃ p ∈ prefixes, p.Admits bucket key) →
        ∃ e, ∀ _store : ObjectStore, s3Source settings uri = .error e) := by
  have hiff : checkS3IngestAllowed settings uri = .ok () ↔
      ∃ p ∈ prefixes, p.Admits bucket key := by
    rw [checkS3IngestAllowed, hprefixes]
    have hany : (prefixes.map S3Prefix.text).any (within uri) = true ↔
        ∃ p ∈ prefixes, p.Admits bucket key := by
      simp only [List.any_map, List.any_eq_true, Function.comp_apply, within_text_iff h]
    rw [← hany]
    cases prefixes with
    | nil => simp [raise]
    | cons p prefixes =>
      cases ((p :: prefixes).map S3Prefix.text).any (within uri) <;> simp [raise]
  refine ⟨hiff, fun hnone => ?_⟩
  cases hcheck : checkS3IngestAllowed settings uri with
  | error e =>
    refine ⟨e, fun store => ?_⟩
    rw [s3Source, hcheck]
    rfl
  | ok admitted => exact absurd (hiff.mp hcheck) hnone

/-- Every text with the scheme and the beginning of a bucket is an entry. -/
theorem S3Prefix.exists_text {entry : String} {c : Char} {rest : List Char} (hc : c ≠ '/')
    (h : entry.toList = s3Scheme ++ c :: rest) : ∃ p : S3Prefix, p.text = entry := by
  obtain ⟨body, slashes, hbody, hlast⟩ := Paths.exists_stripped '/' (c :: rest)
  have hplain : ∀ segment ∈ body.splitOn '/', '/' ∉ segment :=
    fun _ hsegment => Paths.not_mem_of_mem_splitOn hsegment
  cases hsegments : body.splitOn '/' with
  | nil => exact absurd hsegments (List.splitOn_ne_nil '/' body)
  | cons bucket path =>
    have hjoin : ['/'].intercalate (bucket :: path) = body := by
      rw [← hsegments, List.intercalate_splitOn]
    rw [hsegments, List.forall_mem_cons] at hplain
    -- otherwise the text is empty or begins with a slash
    have hbucket : bucket ≠ [] := by
      rintro rfl
      cases path with
      | nil =>
        rw [List.intercalate_singleton] at hjoin
        rw [← hjoin, List.nil_append] at hbody
        have hslash : c ∈ List.replicate slashes '/' := hbody ▸ List.mem_cons_self
        exact hc (List.eq_of_mem_replicate hslash)
      | cons next path =>
        rw [List.intercalate_cons_cons] at hjoin
        rw [← hjoin] at hbody
        exact hc (List.cons.inj hbody).1
    -- otherwise it ends in a slash
    have hpath : path.getLast? ≠ some [] := by
      intro hempty
      obtain ⟨above, habove⟩ := List.getLast?_eq_some_iff.mp hempty
      rw [habove, ← List.cons_append, Paths.intercalate_concat, List.append_nil,
        ← Paths.intercalate_append_sep (List.cons_ne_nil _ _)] at hjoin
      rw [← hjoin, List.getLast?_concat] at hlast
      exact hlast rfl
    refine ⟨⟨bucket, path, slashes, hbucket, hplain.1, hplain.2, hpath⟩, ?_⟩
    change String.ofList (s3Scheme ++ ['/'].intercalate (bucket :: path) ++ _) = entry
    rw [hjoin, List.append_assoc, ← hbody, ← h, String.ofList_toList]

/-- A store of empty tables, whose URLs are the keys. -/
@[reducible] def emptyStore : ObjectStore where
  contentLength _ _ := .ok 0
  parquet _ _ := .ok ⟨[], [], by simp⟩
  presignPut _ key _ := .ok key

section

attribute [local instance] asciiPython emptyStore

/-- A staging location with a sub-path. -/
def teamSettings : Settings :=
  { stagingBucket := "/memory//team/", allowedS3IngestPrefixes := ["s3://memory/team//"] }

/-- Handles of a tenant are not bound to one whose name begins with the name of the former. -/
theorem uploads_bind_acme :
    (∃ ticket, requestUpload teamSettings "t_acme" "Prices" "0f" = .ok ticket ∧
      ticket.uploadHandle = "team/uploads/t_acme/prices-0f.parquet" ∧
      TenantUpload teamSettings "t_acme" ticket) ∧
    ¬ (boundTo teamSettings "t_acme" "team/uploads/t_acme/prices-0f.parquet" = true ∧
      boundTo teamSettings "t_acmeco" "team/uploads/t_acme/prices-0f.parquet" = true) := by
  have hacme : IsNamespace "t_acme" := ⟨"acme".toList, rfl, List.all_eq_true.mp (by decide),
    by decide⟩
  have hacmeco : IsNamespace "t_acmeco" := ⟨"acmeco".toList, rfl, List.all_eq_true.mp (by decide),
    by decide⟩
  obtain ⟨hminted, hforeign⟩ := uploads_bind hacme hacmeco (by decide)
  have hticket : requestUpload teamSettings "t_acme" "Prices" "0f" = .ok
      ⟨"team/uploads/t_acme/prices-0f.parquet", "team/uploads/t_acme/prices-0f.parquet", 3600⟩ := by
    rfl
  exact ⟨⟨_, hticket, rfl, hminted _ _ _ hticket⟩, hforeign _⟩

/-- The entry of that allowlist. -/
def teamPrefix : S3Prefix where
  bucket := "memory".toList
  path := ["team".toList]
  slashes := 2
  bucket_ne_nil := by decide
  bucket_plain := by decide
  path_plain := by decide
  path_last := by decide

/-- An object under the path of the entry is admitted. -/
theorem checkS3IngestAllowed_team :
    checkS3IngestAllowed teamSettings "s3://memory/team/prices.parquet" = .ok () := by
  have hprefixes : teamSettings.allowedS3IngestPrefixes = [teamPrefix].map S3Prefix.text := by
    decide
  have huri : splitUri "s3://memory/team/prices.parquet" none =
      .ok ("memory", "team/prices.parquet") := by rfl
  refine (checkS3IngestAllowed_iff hprefixes huri).1.mpr ⟨teamPrefix, by simp, by decide, ?_⟩
  exact ⟨["prices.parquet".toList], by decide⟩

end

end Memcove
