import Memcove.Tools.ObjectCalls
import Mathlib.Algebra.Order.BigOperators.Group.List

/-!
# The object plane over whole runs

Any number of `request_upload`, ingest and export calls of all tenants run at the same time as
clients that present presigned URLs to S3, one request at a time.
-/

namespace Memcove

open Grants Json Paths Programs

/-- A UUID has no other characters. -/
theorem IsUuid.not_mem {hex : String} (h : IsUuid hex) {c : Char} (hc : isHexDigit c = false) :
    c ∉ hex.toList := by
  intro hmem
  rw [h c hmem] at hc
  cases hc

/-- The base of an export is `query` or a label. -/
theorem exportBase_ok [Python] {label base : String} (h : exportBase label = .ok base) :
    base = "query" ∨ IsLabel base := by
  unfold exportBase at h
  split at h
  · cases h
    exact Or.inl rfl
  · exact Or.inr (validateLabel_ok h)

/-- It is made of name characters. -/
theorem exportBase_not_mem [Python] {label base : String} (h : exportBase label = .ok base)
    {c : Char} (hc : isNameChar c = false) : c ∉ base.toList := by
  rcases exportBase_ok h with rfl | hlabel
  · have hall : "query".toList.all isNameChar = true := by decide
    exact not_mem_of_nameChars hc (List.all_eq_true.mp hall)
  · exact hlabel.not_mem hc

section

variable {settings : Settings} {tenant tenant' : String}

/-- The segments of the key of an upload. -/
theorem uploadTarget_splitOn [Python] {raw label hex : String} (h : IsNamespace tenant)
    (hlabel : validateLabel raw = .ok label) (hhex : IsUuid hex) :
    (uploadTarget settings tenant label hex).2.toList.splitOn '/' =
      subPathSegments settings.stagingBucket ++
        ["uploads".toList, tenant.toList, (label ++ "-" ++ hex ++ ".parquet").toList] :=
  uploadKey_splitOn h (validateLabel_ok hlabel) (hhex.not_mem (by decide))

/-- The segments of the key of an export. -/
theorem exportTarget_splitOn [Python] {label base hex fmt : String} (h : IsNamespace tenant)
    (hbase : exportBase label = .ok base) (hhex : IsUuid hex) (hfmt : fmt ∈ exportFormats) :
    (exportTarget settings tenant base hex fmt).2.toList.splitOn '/' =
      subPathSegments settings.artifactsBucket ++
        ["exports".toList, tenant.toList, (base ++ "-" ++ hex ++ ("." ++ fmt)).toList] :=
  exportKey_splitOn h (exportBase_not_mem hbase (by decide)) (hhex.not_mem (by decide)) hfmt

/-- The segments of a sub-path have no slash. -/
theorem subPathSegments_plain (location : String) :
    ∀ segment ∈ subPathSegments location, '/' ∉ segment := by
  rw [subPathSegments]
  split
  · simp
  · exact fun _ => not_mem_of_mem_splitOn

/-- A path that ends in `uploads` and a tenant, and begins that of an export, begins the location of
the exports. -/
theorem prefix_of_exports {path location : List (List Char)} {uploads exports file : List Char}
    {owner exporter : List Char} (hdirectories : uploads ≠ exports) (howner : owner ≠ exports)
    (hexporter : uploads ≠ exporter)
    (h : path ++ [uploads, owner] <+: location ++ [exports, exporter, file]) :
    path ++ [uploads, owner] <+: location := by
  have hends : location ++ [exports, exporter, file] =
      ((location ++ [exports]) ++ [exporter]) ++ [file] := by simp
  have hpath : path ++ [uploads, owner] = (path ++ [uploads]) ++ [owner] := by simp
  rw [hends, List.prefix_concat_iff, List.prefix_concat_iff, List.prefix_concat_iff, hpath] at h
  rw [hpath]
  rcases h with h | h | h | h
  · exact absurd (List.append_inj_right' (List.append_inj_left' h rfl) rfl) (by simpa)
  · exact absurd (List.append_inj_right' (List.append_inj_left' h rfl) rfl) (by simpa)
  · exact absurd (List.append_inj_right' h rfl) (by simpa)
  · exact h

/-- The path of a tenant's uploads, in segments. -/
def uploadsPath (settings : Settings) (tenant : String) : List (List Char) :=
  subPathSegments settings.stagingBucket ++ ["uploads".toList, tenant.toList]

/-- The segments above the tenants, with those of the sub-path told apart. -/
theorem terminated_stagingPath :
    terminated '/' (stagingPath settings) =
      terminated '/' (subPathSegments settings.stagingBucket ++ ["uploads".toList]) := by
  have hstaging : stagingPath settings =
      (if subPath settings.stagingBucket = "" then []
        else [(subPath settings.stagingBucket).toList]) ++ ["uploads".toList] := by
    rw [stagingPath]
    simp only [subPath_eq_empty_iff]
    split <;> simp [subPath]
  rw [hstaging, subPathSegments]
  split
  · rfl
  · rw [terminated_append, terminated_append, terminated_splitOn, terminated_cons, terminated_nil]

/-- The binding check compares segments. -/
theorem boundTo_iff_segments {handle : String} (h : IsNamespace tenant) :
    boundTo settings tenant handle = true ↔
      terminated '/' (uploadsPath settings tenant) <+: handle.toList := by
  have hpath : uploadsPath settings tenant =
      (subPathSegments settings.stagingBucket ++ ["uploads".toList]) ++ [tenant.toList] := by
    rw [uploadsPath, List.append_assoc]
    rfl
  rw [boundTo_iff h, hpath, terminated_append, terminated_append _ [tenant.toList],
    terminated_stagingPath]

/-- A key is the path above its last segment, and that segment. -/
theorem key_of_splitOn {key : String} {path : List (List Char)} {file : List Char}
    (h : key.toList.splitOn '/' = path ++ [file]) : key.toList = terminated '/' path ++ file := by
  rw [← intercalate_concat, ← h, List.intercalate_splitOn]

/-- An upload is bound to its tenant. -/
theorem boundTo_uploadTarget [Python] {raw label hex : String} (h : IsNamespace tenant)
    (hlabel : validateLabel raw = .ok label) (hhex : IsUuid hex) :
    boundTo settings tenant (uploadTarget settings tenant label hex).2 = true := by
  have hsegments := @uploadTarget_splitOn settings tenant _ raw label hex h hlabel hhex
  generalize label ++ "-" ++ hex ++ ".parquet" = file at hsegments
  generalize (uploadTarget settings tenant label hex).2 = key at hsegments ⊢
  have hkey : key.toList = terminated '/' (uploadsPath settings tenant) ++ file.toList := by
    refine key_of_splitOn ?_
    rw [hsegments, uploadsPath, List.append_assoc]
    rfl
  rw [boundTo_iff_segments h, hkey]
  exact List.prefix_append _ _

/-- An upload and an export never have the same key. -/
theorem uploadTarget_ne_exportTarget [Python] {raw label label' base hex hex' fmt : String}
    (h : IsNamespace tenant) (h' : IsNamespace tenant') (hlabel : validateLabel raw = .ok label)
    (hbase : exportBase label' = .ok base) (hhex : IsUuid hex) (hhex' : IsUuid hex')
    (hfmt : fmt ∈ exportFormats) :
    uploadTarget settings tenant label hex ≠ exportTarget settings tenant' base hex' fmt := by
  intro heq
  have hsegments := congrArg (fun location : Location => location.2.toList.splitOn '/') heq
  change (uploadTarget settings tenant label hex).2.toList.splitOn '/' =
    (exportTarget settings tenant' base hex' fmt).2.toList.splitOn '/' at hsegments
  rw [uploadTarget_splitOn h hlabel hhex, exportTarget_splitOn h' hbase hhex' hfmt] at hsegments
  have hdirectory := (List.append_inj' hsegments rfl).2
  exact absurd (List.cons.inj hdirectory).1 (by decide)

/-- Exports with different UUIDs have different keys. -/
theorem exportTarget_inj [Python] {label label' base base' hex hex' fmt fmt' : String}
    (h : IsNamespace tenant) (h' : IsNamespace tenant') (hbase : exportBase label = .ok base)
    (hbase' : exportBase label' = .ok base') (hhex : IsUuid hex) (hhex' : IsUuid hex')
    (hfmt : fmt ∈ exportFormats) (hfmt' : fmt' ∈ exportFormats)
    (heq : exportTarget settings tenant base hex fmt =
      exportTarget settings tenant' base' hex' fmt') : hex = hex' := by
  have hsegments := congrArg (fun location : Location => location.2.toList.splitOn '/') heq
  change (exportTarget settings tenant base hex fmt).2.toList.splitOn '/' =
    (exportTarget settings tenant' base' hex' fmt').2.toList.splitOn '/' at hsegments
  rw [exportTarget_splitOn h hbase hhex hfmt, exportTarget_splitOn h' hbase' hhex' hfmt']
    at hsegments
  have hfile : base.toList ++ '-' :: (hex.toList ++ '.' :: fmt.toList) =
      base'.toList ++ '-' :: (hex'.toList ++ '.' :: fmt'.toList) := by
    have hlast := (List.append_inj' hsegments rfl).2
    rw [List.cons.injEq, List.cons.injEq, List.cons.injEq] at hlast
    simpa using hlast.2.2.1
  obtain ⟨_, hrest⟩ := (segment_inj (exportBase_not_mem hbase (by decide))
    (exportBase_not_mem hbase' (by decide))).mp hfile
  obtain ⟨hhexes, _⟩ := (segment_inj (hhex.not_mem (by decide))
    (hhex'.not_mem (by decide))).mp hrest
  exact String.toList_inj.mp hhexes

/-- An export lies among the uploads of a tenant exactly when the location of all exports does. -/
theorem boundTo_exportTarget_iff [Python] {label base hex fmt : String} (h : IsNamespace tenant)
    (h' : IsNamespace tenant') (hbase : exportBase label = .ok base) (hhex : IsUuid hex)
    (hfmt : fmt ∈ exportFormats) :
    boundTo settings tenant (exportTarget settings tenant' base hex fmt).2 = true ↔
      uploadsPath settings tenant <+: subPathSegments settings.artifactsBucket := by
  have hsegments := @exportTarget_splitOn settings tenant' _ label base hex fmt h' hbase hhex hfmt
  generalize base ++ "-" ++ hex ++ ("." ++ fmt) = file at hsegments
  generalize (exportTarget settings tenant' base hex fmt).2 = key at hsegments ⊢
  have hexports : tenant.toList ≠ "exports".toList := by
    obtain ⟨rest, htext, _⟩ := h
    simp [htext]
  have huploads : "uploads".toList ≠ tenant'.toList := by
    obtain ⟨rest, htext, _⟩ := h'
    simp [htext]
  have hplain : ∀ segment ∈ uploadsPath settings tenant, '/' ∉ segment := by
    have hsubPath : ∀ segment ∈ subPathSegments settings.stagingBucket, '/' ∉ segment :=
      subPathSegments_plain _
    rw [uploadsPath, List.forall_mem_append, List.forall_mem_cons, List.forall_mem_singleton]
    exact ⟨hsubPath, by decide, h.not_mem_slash⟩
  rw [boundTo_iff_segments h]
  constructor
  · intro hbound
    have hprefix : uploadsPath settings tenant <+: key.toList.splitOn '/' := by
      rw [← terminated_prefix_iff hplain (fun _ => not_mem_of_mem_splitOn), terminated_splitOn]
      exact hbound.trans (List.prefix_append _ _)
    rw [hsegments] at hprefix
    exact prefix_of_exports (by decide) hexports huploads hprefix
  · intro hprefix
    have hkey : key.toList = terminated '/' (subPathSegments settings.artifactsBucket ++
        ["exports".toList, tenant'.toList]) ++ file.toList := by
      refine key_of_splitOn ?_
      rw [hsegments, List.append_assoc]
      rfl
    rw [hkey, terminated_append, List.append_assoc]
    refine List.IsPrefix.trans ?_ (List.prefix_append _ _)
    exact (terminated_prefix_iff hplain (subPathSegments_plain _)).mpr hprefix

end

/-- A tenant that normalisation returns. -/
abbrev Namespace := {name : String // IsNamespace name}

section

variable [Python] [ObjectBytes]

/-- What a client of the object plane asks S3: it presents URLs, and lets time pass. -/
def ByUrl : S3Call → Prop
  | .fetchBy _ | .storeBy _ _ | .wait _ => True
  | _ => False

/-- What runs on the object plane: the calls of the tools, each for a tenant, and clients, which
present whatever URLs they have. -/
inductive ObjectOperation where
  | requestUpload (tenant : Namespace) (label : String)
  | readSource (tenant : Namespace) (source : Fields)
  | exportArtifact (tenant : Namespace) (fmt : String) (label sql : Option String)
      (answer : List Token → CursorAnswer) (interruption : Option Interruption)
  | client (program : S3 Unit) (byUrl : Only ByUrl program)

namespace ObjectOperation

/-- The program of an operation, whose result is of no interest here. -/
def program [ArrowIo] [Sqlglot] (settings : Settings) : ObjectOperation → S3 Unit
  | requestUpload tenant label => do
    let _ ← requestUploadCalls settings tenant.1 label
  | readSource tenant source => do
    let _ ← tableFromSourceCalls settings source tenant.1
  | exportArtifact tenant fmt label sql answer interruption => do
    let _ ← exportArtifactCalls settings tenant.1 fmt label sql answer interruption
  | client program _ => program

end ObjectOperation

/-- The location lies among the uploads of the tenant. -/
def IsUpload (settings : Settings) (tenant : Namespace) (location : Location) : Prop :=
  location.1 = (uploadsOf settings tenant.1).1 ∧ boundTo settings tenant.1 location.2 = true

/-- The allowlist admits the location. -/
def Allowlisted (settings : Settings) (location : Location) : Prop :=
  ∃ uri, checkS3IngestAllowed settings uri = .ok () ∧ splitUri uri none = .ok location

/-- The location of an upload of the tenant, for a UUID that the call has drawn. -/
def UploadDrawn (settings : Settings) (tenant : Namespace) (label : String) (h : List S3Event)
    (location : Location) : Prop :=
  ∃ name hex, validateLabel label = .ok name ∧ ⟨.draw, .ok hex⟩ ∈ h ∧
    location = uploadTarget settings tenant.1 name hex

/-- The location of an export of the tenant, for a UUID that the call has drawn. -/
def ExportDrawn (settings : Settings) (tenant : Namespace) (fmt : String) (label : Option String)
    (h : List S3Event) (location : Location) : Prop :=
  fmt ∈ exportFormats ∧ ∃ base hex, exportBase (label.getD "") = .ok base ∧
    ⟨.draw, .ok hex⟩ ∈ h ∧ location = exportTarget settings tenant.1 base hex fmt

/-- What an operation may ask after its own earlier requests. -/
def ObjectOperation.MayAsk [Sqlglot] (settings : Settings) (h : List S3Event) :
    ObjectOperation → S3Call → Prop
  | requestUpload _ _, .draw => True
  | requestUpload tenant label, .mint verb location lifetime =>
    verb = .store ∧ lifetime = settings.presignTtlSeconds ∧
      UploadDrawn settings tenant label h location
  | readSource tenant _, .measure location =>
    IsUpload settings tenant location ∨ Allowlisted settings location
  | readSource tenant _, .fetch location =>
    (IsUpload settings tenant location ∨ Allowlisted settings location) ∧
      ∃ size ≤ settings.ingestBytesCap, ⟨.measure location, .ok size⟩ ∈ h
  | exportArtifact .., .draw => True
  | exportArtifact tenant fmt label _ _ _, .store location _ =>
    ExportDrawn settings tenant fmt label h location ∧ ∀ event ∈ h, s3Rules.stored event = none
  | exportArtifact .., .measure _ => True
  | exportArtifact tenant fmt label sql answer _, .mint verb location lifetime =>
    verb = .fetch ∧ lifetime = settings.presignTtlSeconds ∧
      ExportDrawn settings tenant fmt label h location ∧
      ∃ artifact, Memcove.exportArtifact settings tenant.1 fmt label sql answer = .ok artifact ∧
        ⟨.store location (ObjectBytes.file artifact.file), .ok ()⟩ ∈ h
  | client _ _, c => ByUrl c
  | _, _ => False

/-- The contract of an operation, which relies on nothing. -/
def ObjectOperation.contract [Sqlglot] (settings : Settings) (op : ObjectOperation) :
    Contract S3Call S3Answer PyError where
  guarantee h c := op.MayAsk settings h c
  assume _ _ := True

variable {settings : Settings}

-- what a program asks next is not to be found by computing keys
attribute [local irreducible] boundTo

/-- `request_upload`. -/
theorem requestUpload_sat [Sqlglot] (tenant : Namespace) (label : String) :
    Sat (ObjectOperation.contract settings (.requestUpload tenant label)) (fun _ _ => True) []
      (requestUploadCalls settings tenant.1 label) := by
  refine Sat.lift_bind (fun name hname => ?_) (fun _ _ => trivial)
  refine Sat.perform_bind trivial (fun hex _ => ?_) (fun _ _ => trivial)
  refine Sat.perform_bind ⟨rfl, rfl, name, hex, hname, List.mem_cons_self, rfl⟩ (fun _ _ => ?_)
    (fun _ _ => trivial)
  exact trivial

section

variable [Sqlglot] {tenant : Namespace} {source : Fields} {h : List S3Event}

/-- The size of the location has been found to be within the cap. -/
def Measured (settings : Settings) (location : Location) (h : List S3Event) : Prop :=
  ∃ size ≤ settings.ingestBytesCap, (⟨.measure location, .ok size⟩ : S3Event) ∈ h

/-- The check of the size, for a location that may be read. -/
theorem checkIngestSize_sat {uriOrBucket : String} {key : Option String}
    (hlocation : ∀ location, splitUri uriOrBucket key = .ok location →
      IsUpload settings tenant location ∨ Allowlisted settings location) :
    Sat (ObjectOperation.contract settings (.readSource tenant source))
      (fun h r => r = .ok () → ∀ location, splitUri uriOrBucket key = .ok location →
        Measured settings location h) h (checkIngestSizeCalls settings uriOrBucket key) := by
  refine Sat.lift_bind (fun location hsplit => ?_) (fun _ _ => nofun)
  refine Sat.perform_bind (hlocation location hsplit) (fun size _ => ?_) (fun _ _ => nofun)
  split
  · exact nofun
  · rename_i hsize
    intro _ location' hsplit'
    rw [hsplit, Except.ok.injEq] at hsplit'
    subst hsplit'
    exact ⟨size, not_lt.mp hsize, List.mem_cons_self⟩

/-- Reading a table that was measured. -/
theorem readParquetTable_sat {uriOrBucket : String} {key : Option String}
    (hlocation : ∀ location, splitUri uriOrBucket key = .ok location →
      (IsUpload settings tenant location ∨ Allowlisted settings location) ∧
        Measured settings location h) :
    Sat (ObjectOperation.contract settings (.readSource tenant source)) (fun _ _ => True) h
      (readParquetTableCalls uriOrBucket key) := by
  refine Sat.lift_bind (fun location hsplit => ?_) (fun _ _ => trivial)
  refine Sat.perform_bind (hlocation location hsplit) (fun body _ => ?_) (fun _ _ => trivial)
  exact Sat.lift trivial

/-- The two checked reads of `_table_from_source`. -/
theorem checkedRead_sat {uriOrBucket : String} {key : Option String}
    {resolve : ArrowTable → ResolvedSource}
    (hlocation : ∀ location, splitUri uriOrBucket key = .ok location →
      IsUpload settings tenant location ∨ Allowlisted settings location) :
    Sat (ObjectOperation.contract settings (.readSource tenant source)) (fun _ _ => True) h (do
      checkIngestSizeCalls settings uriOrBucket key
      let table ← readParquetTableCalls uriOrBucket key
      return resolve table) := by
  refine (checkIngestSize_sat hlocation).bind (fun h _ hmeasured => ?_) (fun _ _ _ => trivial)
  refine (readParquetTable_sat (fun location hsplit => ?_)).bind (fun _ _ _ => ?_)
    (fun _ _ _ => trivial)
  · exact ⟨hlocation location hsplit, hmeasured rfl location hsplit⟩
  · exact trivial

omit [ObjectBytes] [Sqlglot] in
/-- A key that is given is taken as it is. -/
theorem splitUri_some (bucket key : String) : splitUri bucket (some key) = .ok (bucket, key) := rfl

/-- The `upload_handle` branch of `_table_from_source`. -/
theorem uploadSource_sat (handle : String) :
    Sat (ObjectOperation.contract settings (.readSource tenant source)) (fun _ _ => True) h
      (uploadSourceCalls settings tenant.1 handle) := by
  unfold uploadSourceCalls
  by_cases hbound : boundTo settings tenant.1 handle = true
  · rw [hbound]
    refine checkedRead_sat (fun location hsplit => Or.inl ?_)
    rw [splitUri_some, Except.ok.injEq] at hsplit
    rw [← hsplit]
    exact ⟨rfl, hbound⟩
  · rw [Bool.not_eq_true] at hbound
    rw [hbound]
    exact trivial

/-- `_table_from_source`. -/
theorem tableFromSource_sat [ArrowIo] (tenant : Namespace) (source : Fields) :
    Sat (ObjectOperation.contract settings (.readSource tenant source)) (fun _ _ => True) []
      (tableFromSourceCalls settings source tenant.1) := by
  unfold tableFromSourceCalls
  dsimp only
  split
  · exact Sat.lift trivial
  · split
    · refine Sat.lift_bind (fun uri _ => ?_) (fun _ _ => trivial)
      refine Sat.lift_bind (fun uri _ => ?_) (fun _ _ => trivial)
      refine Sat.lift_bind (fun _ hallowed => ?_) (fun _ _ => trivial)
      exact checkedRead_sat (fun location hsplit => Or.inr ⟨uri, hallowed, hsplit⟩)
    · split
      · refine Sat.lift_bind (fun handle _ => ?_) (fun _ _ => trivial)
        refine Sat.lift_bind (fun handle _ => ?_) (fun _ _ => trivial)
        exact uploadSource_sat handle
      · exact trivial

end

omit [ObjectBytes] in
/-- `export_artifact` exports in one of the formats. -/
theorem exportArtifact_format [Sqlglot] {tenant fmt : String} {label sql : Option String}
    {answer : List Token → CursorAnswer} {artifact : ArtifactRef}
    (h : exportArtifact settings tenant fmt label sql answer = .ok artifact) :
    fmt ∈ exportFormats := by
  by_contra hfmt
  rw [exportArtifact, if_pos hfmt] at h
  cases h

/-- `export_artifact`. -/
theorem exportArtifact_sat [Sqlglot] (tenant : Namespace) (fmt : String)
    (label sql : Option String) (answer : List Token → CursorAnswer)
    (interruption : Option Interruption) :
    Sat (ObjectOperation.contract settings
        (.exportArtifact tenant fmt label sql answer interruption)) (fun _ _ => True) []
      (exportArtifactCalls settings tenant.1 fmt label sql answer interruption) := by
  refine Sat.lift_bind (fun artifact hartifact => ?_) (fun _ _ => trivial)
  refine Sat.lift_bind (fun base hbase => ?_) (fun _ _ => trivial)
  refine Sat.perform_bind trivial (fun hex _ => ?_) (fun _ _ => trivial)
  have hfmt := exportArtifact_format hartifact
  cases interruption with
  | some stream =>
    refine Sat.perform_bind ⟨⟨hfmt, base, hex, hbase, List.mem_cons_self, rfl⟩, ?_⟩
      (fun _ _ => trivial) (fun _ _ => trivial)
    simp [Rules.stored]
  | none =>
    refine Sat.perform_bind ⟨⟨hfmt, base, hex, hbase, List.mem_cons_self, rfl⟩, ?_⟩
      (fun _ _ => ?_) (fun _ _ => trivial)
    · simp [Rules.stored]
    refine Sat.perform_bind trivial (fun size _ => ?_) (fun _ _ => trivial)
    refine Sat.perform_bind ⟨rfl, rfl, ⟨hfmt, base, hex, hbase, ?_, rfl⟩, artifact, hartifact, ?_⟩
      (fun _ _ => trivial) (fun _ _ => trivial)
    · simp
    · simp

/-- Every operation keeps its contract. -/
theorem objectOperation_sat [ArrowIo] [Sqlglot] (op : ObjectOperation) :
    Sat (op.contract settings) (fun _ _ => True) [] (op.program settings) := by
  cases op with
  | requestUpload tenant label =>
    exact (requestUpload_sat tenant label).bind (fun _ _ _ => trivial) (fun _ _ _ => trivial)
  | readSource tenant source =>
    exact (tableFromSource_sat tenant source).bind (fun _ _ _ => trivial) (fun _ _ _ => trivial)
  | exportArtifact tenant fmt label sql answer interruption =>
    exact (exportArtifact_sat tenant fmt label sql answer interruption).bind
      (fun _ _ _ => trivial) (fun _ _ _ => trivial)
  | client program byUrl =>
    exact (byUrl.sat (I := fun _ => True) (fun _ _ _ hc => hc) (fun _ _ _ _ _ => trivial)
      trivial).mono (fun _ _ _ => trivial)

section

variable [ArrowIo] [Sqlglot] {ι : Type} [DecidableEq ι] {ops : ι → ObjectOperation}
  {s : ObjectPlane} {log : Log S3Call S3Answer PyError ι} {threads : ι → S3 Unit}

/-- In every run each request is one that its operation may make. -/
theorem mayAsk_along (h : Run s3 (fun i => (ops i).program settings) s log threads) :
    Along (fun older entry =>
      (ops entry.1).MayAsk settings (history entry.1 older) entry.2.call) log :=
  (h.sat (fun i => objectOperation_sat (ops i)) (h.possible.imp (fun _ _ _ _ => trivial))).2

/-- What every run of the object plane keeps to, where no URL is out before it. -/
structure Kept (settings : Settings) (ops : ι → ObjectOperation) (s : ObjectPlane)
    (log : Log S3Call S3Answer PyError ι) : Prop where
  fresh : s.grants = []
  asked : Along (fun older entry =>
    (ops entry.1).MayAsk settings (history entry.1 older) entry.2.call) log
  answered : s3Rules.Answered s log

/-- So does every run. -/
theorem kept_of_run (h : Run s3 (fun i => (ops i).program settings) s log threads)
    (hfresh : s.grants = []) : Kept settings ops s log := ⟨hfresh, mayAsk_along h, h.possible⟩

omit [ArrowIo] in
/-- An older part of a run. -/
theorem Kept.older {newer older : Log S3Call S3Answer PyError ι}
    (h : Kept settings ops s (newer ++ older)) : Kept settings ops s older :=
  ⟨h.fresh, h.asked.older, h.answered.older⟩

omit [ArrowIo] in
/-- The part of a run before an entry. -/
theorem Kept.before {entry : ι × S3Event} {newer before : Log S3Call S3Answer PyError ι}
    (h : Kept settings ops s (newer ++ entry :: before)) : Kept settings ops s before :=
  ⟨h.fresh, h.older.asked.2, h.older.answered.2⟩

omit [ArrowIo] in
/-- What follows for every entry holds along the run. -/
theorem Kept.along {Q : Log S3Call S3Answer PyError ι → ι × S3Event → Prop}
    (h : Kept settings ops s log)
    (hstep : ∀ entry older, Kept settings ops s (entry :: older) → Q older entry) :
    Along Q log := by
  induction log with
  | nil => trivial
  | cons entry log ih => exact ⟨hstep entry log h, ih ⟨h.fresh, h.asked.2, h.answered.2⟩⟩

omit [ArrowIo] in
/-- A UUID that a call has drawn. -/
theorem Kept.isUuid {i : ι} {hex : String} (h : Kept settings ops s log)
    (hdrawn : ⟨.draw, .ok hex⟩ ∈ history i log) : IsUuid hex :=
  isToken_of_mem h.answered (mem_history.mp hdrawn)

omit [ArrowIo] in
/-- Every URL was presigned by a call that may do so, with the configured lifetime. -/
theorem Kept.presigned {url : Grant Location} (h : Kept settings ops s log)
    (hurl : url ∈ (s3.after s log).grants) :
    ∃ since i before, log = since ++
        (i, ⟨.mint url.verb url.key settings.presignTtlSeconds, .ok url⟩) :: before ∧
      url.deadline = (s3.after s before).now + settings.presignTtlSeconds ∧
      (ops i).MayAsk settings (history i before)
        (.mint url.verb url.key settings.presignTtlSeconds) := by
  rcases minted_of_grants h.answered hurl with hstart | ⟨since, i, lifetime, before, rfl, hdeadline⟩
  · rw [h.fresh] at hstart
    cases hstart
  · have hasked : (ops i).MayAsk settings (history i before) (.mint url.verb url.key lifetime) :=
      h.older.asked.1
    obtain rfl : lifetime = settings.presignTtlSeconds := by
      cases hop : ops i with
      | requestUpload tenant label =>
        rw [hop] at hasked
        exact hasked.2.1
      | readSource tenant source =>
        rw [hop] at hasked
        exact hasked.elim
      | exportArtifact tenant fmt label sql answer interruption =>
        rw [hop] at hasked
        exact hasked.2.1
      | client program byUrl =>
        rw [hop] at hasked
        exact hasked.elim
    exact ⟨since, i, before, rfl, hdeadline, hasked⟩

omit [ArrowIo] in
/-- A URL to send an upload to was presigned by `request_upload`. -/
theorem Kept.presignedPut {url : Grant Location} (h : Kept settings ops s log)
    (hurl : (s3.after s log).Permits .store url) :
    ∃ since i tenant label before, log = since ++
        (i, ⟨.mint .store url.key settings.presignTtlSeconds, .ok url⟩) :: before ∧
      ops i = .requestUpload tenant label ∧
      UploadDrawn settings tenant label (history i before) url.key ∧
      (s3.after s log).now ≤ (s3.after s before).now + settings.presignTtlSeconds := by
  obtain ⟨hmem, hverb, hnow⟩ := hurl
  obtain ⟨since, i, before, rfl, hdeadline, hasked⟩ := h.presigned hmem
  rw [hdeadline] at hnow
  rw [hverb] at hasked
  cases hop : ops i with
  | requestUpload tenant label =>
    rw [hop] at hasked
    exact ⟨since, i, tenant, label, before, by rw [hverb], hop, hasked.2.2, hnow⟩
  | exportArtifact tenant fmt label sql answer interruption =>
    rw [hop] at hasked
    cases hasked.1
  | readSource tenant source =>
    rw [hop] at hasked
    exact hasked.elim
  | client program byUrl =>
    rw [hop] at hasked
    exact hasked.elim

omit [ArrowIo] in
/-- A URL to get an object from was presigned by `export_artifact` after it had written the whole
file. -/
theorem Kept.presignedGet {url : Grant Location} (h : Kept settings ops s log)
    (hurl : (s3.after s log).Permits .fetch url) :
    ∃ since i tenant fmt label sql answer interruption artifact before, log = since ++
        (i, ⟨.mint .fetch url.key settings.presignTtlSeconds, .ok url⟩) :: before ∧
      ops i = .exportArtifact tenant fmt label sql answer interruption ∧
      exportArtifact settings tenant.1 fmt label sql answer = .ok artifact ∧
      (i, ⟨.store url.key (ObjectBytes.file artifact.file), .ok ()⟩) ∈ before ∧
      (s3.after s log).now ≤ (s3.after s before).now + settings.presignTtlSeconds := by
  obtain ⟨hmem, hverb, hnow⟩ := hurl
  obtain ⟨since, i, before, rfl, hdeadline, hasked⟩ := h.presigned hmem
  rw [hdeadline] at hnow
  rw [hverb] at hasked
  cases hop : ops i with
  | exportArtifact tenant fmt label sql answer interruption =>
    rw [hop] at hasked
    obtain ⟨_, _, _, artifact, hartifact, hwritten⟩ := hasked
    exact ⟨since, i, tenant, fmt, label, sql, answer, interruption, artifact, before,
      by rw [hverb], hop, hartifact, mem_history.mp hwritten, hnow⟩
  | requestUpload tenant label =>
    rw [hop] at hasked
    cases hasked.1
  | readSource tenant source =>
    rw [hop] at hasked
    exact hasked.elim
  | client program byUrl =>
    rw [hop] at hasked
    exact hasked.elim

omit [ArrowIo] in
/-- An object is stored by an export, as the first one of that call, or by a URL. -/
theorem Kept.stored_cases {i : ι} {event : S3Event} {location : Location}
    {bytes : ObjectBytes.Bytes} (h : Kept settings ops s ((i, event) :: log))
    (hstored : s3Rules.stored event = some (location, bytes)) :
    (∃ tenant fmt label, (∃ sql answer interruption,
        ops i = .exportArtifact tenant fmt label sql answer interruption) ∧
      ExportDrawn settings tenant fmt label (history i log) location ∧
      ∀ earlier ∈ history i log, s3Rules.stored earlier = none) ∨
    ∃ url r, event = ⟨.storeBy url bytes, r⟩ ∧ url.key = location ∧
      s3Rules.carriedOut r = true ∧ (s3.after s log).Permits .store url := by
  have hasked : (ops i).MayAsk settings (history i log) event.call := h.asked.1
  have hanswered : s3.possible (s3.after s log) event := h.answered.1
  unfold Rules.stored at hstored
  split at hstored
  · split at hstored
    · cases hstored
      cases hop : ops i with
      | exportArtifact tenant fmt label sql answer interruption =>
        rw [hop] at hasked
        exact Or.inl ⟨tenant, fmt, label, ⟨sql, answer, interruption, rfl⟩, hasked⟩
      | requestUpload tenant label | readSource tenant source | client program byUrl =>
        rw [hop] at hasked
        exact hasked.elim
    · cases hstored
  · rename_i url bytes' r
    split at hstored
    · rename_i hcarried
      cases hstored
      exact Or.inr ⟨url, r, rfl, rfl, hcarried, hanswered hcarried⟩
    · cases hstored
  · cases hstored

/-- A URL for the location that `request_upload` presigned for the tenant, and that is good at the
end of the log. -/
def PresignedFor (settings : Settings) (ops : ι → ObjectOperation) (s : ObjectPlane)
    (tenant : Namespace) (location : Location) (url : Grant Location)
    (log : Log S3Call S3Answer PyError ι) : Prop :=
  ∃ since i label before, log = since ++
      (i, ⟨.mint .store location settings.presignTtlSeconds, .ok url⟩) :: before ∧
    ops i = .requestUpload tenant label ∧
    (s3.after s log).now ≤ (s3.after s before).now + settings.presignTtlSeconds

/-- The bytes were the last ones to be sent to the location, by a URL for it that was presigned for
the tenant. -/
def SentTo (settings : Settings) (ops : ι → ObjectOperation) (s : ObjectPlane)
    (tenant : Namespace) (location : Location) (bytes : ObjectBytes.Bytes)
    (log : Log S3Call S3Answer PyError ι) : Prop :=
  ∃ since i url r before, log = since ++ (i, ⟨.storeBy url bytes, r⟩) :: before ∧
    s3Rules.carriedOut r = true ∧ s3Rules.Untouched location since ∧
    PresignedFor settings ops s tenant location url before

/-- The exports do not lie among the uploads of a tenant. -/
def ExportsElsewhere (settings : Settings) : Prop :=
  ∀ tenant : Namespace, ¬ ((exportsOf settings tenant.1).1 = (uploadsOf settings tenant.1).1 ∧
    uploadsPath settings tenant.1 <+: subPathSegments settings.artifactsBucket)

/-- What a read of an ingest relies on: it is permitted to its tenant, the size of the object was
within the cap when it was checked, and what lies among the uploads of a tenant was there from the
start or has been sent there by a URL of that tenant. -/
structure HonestRead (settings : Settings) (ops : ι → ObjectOperation) (s : ObjectPlane) (i : ι)
    (location : Location) (bytes : ObjectBytes.Bytes) (log : Log S3Call S3Answer PyError ι) :
    Prop where
  permitted : ∃ tenant source, ops i = .readSource tenant source ∧
    (IsUpload settings tenant location ∨ Allowlisted settings location)
  measured : ∃ since size before, log = since ++ (i, ⟨.measure location, .ok size⟩) :: before ∧
    size ≤ settings.ingestBytesCap ∧
    (ObjectBytes.length bytes = size ∨
      ∃ entry ∈ since, s3Rules.stored entry.2 = some (location, bytes))
  sent : ∀ tenant : Namespace, IsUpload settings tenant location →
    (s.objects location = some bytes ∧ s3Rules.Untouched location log) ∨
      SentTo settings ops s tenant location bytes log

omit [ArrowIo] in
/-- The tenant of a URL for one of its uploads. -/
theorem Kept.presignedFor {tenant : Namespace} {url : Grant Location}
    (h : Kept settings ops s log) (hurl : (s3.after s log).Permits .store url)
    (hupload : IsUpload settings tenant url.key) :
    PresignedFor settings ops s tenant url.key url log := by
  obtain ⟨since, i, tenant', label, before, rfl, hop, ⟨name, hex, hname, hdrawn, hlocation⟩,
    hnow⟩ := h.presignedPut hurl
  have hbound : boundTo settings tenant'.1 url.key.2 = true := by
    rw [hlocation]
    exact boundTo_uploadTarget tenant'.2 hname (h.before.isUuid hdrawn)
  obtain rfl : tenant = tenant' :=
    Subtype.ext (boundTo_unique tenant.2 tenant'.2 hupload.2 hbound)
  exact ⟨since, i, label, before, rfl, hop, hnow⟩

omit [ArrowIo] in
/-- What lies among the uploads of a tenant, away from the exports, comes from a URL of that
tenant. -/
theorem Kept.sentTo {tenant : Namespace} {location : Location} {bytes : ObjectBytes.Bytes}
    (h : Kept settings ops s log) (hbytes : (s3.after s log).objects location = some bytes)
    (hupload : IsUpload settings tenant location) (helsewhere : ExportsElsewhere settings) :
    (s.objects location = some bytes ∧ s3Rules.Untouched location log) ∨
      SentTo settings ops s tenant location bytes log := by
  rcases stored_of_objects hbytes with hstart | ⟨since, entry, before, rfl, hstored, hsince⟩
  · exact Or.inl hstart
  · obtain ⟨i, event⟩ := entry
    rcases h.older.stored_cases hstored with
      ⟨tenant', fmt, label, _, ⟨hfmt, base, hex, hbase, hdrawn, rfl⟩, _⟩ |
      ⟨url, r, rfl, rfl, hcarried, hpermits⟩
    · -- the export would lie among the uploads
      refine absurd ⟨hupload.1, ?_⟩ (helsewhere tenant)
      exact (boundTo_exportTarget_iff tenant.2 tenant'.2 hbase (h.before.isUuid hdrawn) hfmt).mp
        hupload.2
    · exact Or.inr ⟨since, i, url, r, before, rfl, hcarried, hsince,
        h.before.presignedFor hpermits hupload⟩

/-- In every run of the object plane, whatever clients do with the URLs that are presigned in it,
an ingest reads what is permitted to its tenant, and finds among the uploads of a tenant only what
was sent there by a URL of that tenant in its lifetime. -/
theorem ingest_honest (h : Run s3 (fun i => (ops i).program settings) s log threads)
    (hfresh : s.grants = []) (helsewhere : ExportsElsewhere settings) :
    Along (fun older entry => ∀ location bytes, entry.2 = ⟨.fetch location, .ok bytes⟩ →
      HonestRead settings ops s entry.1 location bytes older) log := by
  refine (kept_of_run h hfresh).along (fun entry older hkept location bytes hentry => ?_)
  obtain ⟨i, event⟩ := entry
  subst hentry
  have hasked : (ops i).MayAsk settings (history i older) (.fetch location) := hkept.asked.1
  have hbytes : (s3.after s older).objects location = some bytes := hkept.answered.1
  have hbefore : Kept settings ops s older := ⟨hfresh, hkept.asked.2, hkept.answered.2⟩
  cases hop : ops i with
  | readSource tenant source =>
    rw [hop] at hasked
    obtain ⟨hpermitted, size, hsize, hmeasured⟩ := hasked
    refine ⟨⟨tenant, source, hop, hpermitted⟩, ?_,
      fun tenant hupload => hbefore.sentTo hbytes hupload helsewhere⟩
    obtain ⟨since, before, rfl⟩ := List.append_of_mem (mem_history.mp hmeasured)
    exact ⟨since, size, before, rfl, hsize, size_of_measured hbefore.older.answered.1 hbytes⟩
  | requestUpload tenant label | client program byUrl =>
    rw [hop] at hasked
    exact hasked.elim
  | exportArtifact tenant fmt label sql answer interruption =>
    rw [hop] at hasked
    exact hasked.elim

omit [ArrowIo] in
/-- What an export has written stays as it is: the key has the UUID of that call. -/
theorem Kept.exported {i : ι} {location : Location} {bytes : ObjectBytes.Bytes}
    (h : Kept settings ops s log) (hwritten : (i, ⟨.store location bytes, .ok ()⟩) ∈ log) :
    (s3.after s log).objects location = some bytes := by
  obtain ⟨since, before, rfl⟩ := List.append_of_mem hwritten
  obtain ⟨tenant, fmt, label, _, ⟨hfmt, base, hex, hbase, hdrawn, rfl⟩, _⟩ :=
    (h.older.stored_cases rfl).resolve_right nofun
  have hhex := h.before.isUuid hdrawn
  refine objects_stored rfl (fun entry hentry bytes' hstored => ?_)
  obtain ⟨newer, older, rfl⟩ := List.append_of_mem hentry
  obtain ⟨j, event⟩ := entry
  rw [List.append_assoc, List.cons_append] at h
  rcases h.older.stored_cases hstored with
    ⟨tenant', fmt', label', _, ⟨hfmt', base', hex', hbase', hdrawn', hlocation⟩, hfirst⟩ |
    ⟨url, r, rfl, hkey, _, hpermits⟩
  · have hdrawer : (i, (⟨.draw, .ok hex⟩ : S3Event)) ∈
        older ++ (i, ⟨.store (exportTarget settings tenant.1 base hex fmt) bytes, .ok ()⟩) ::
          before := by
      simp [mem_history.mp hdrawn]
    obtain rfl : hex = hex' := exportTarget_inj tenant.2 tenant'.2 hbase hbase' hhex
      (h.before.isUuid hdrawn') hfmt hfmt' hlocation
    obtain rfl : i = j := token_unique h.before.answered hdrawer (mem_history.mp hdrawn')
    -- the call has stored before
    have hnone := hfirst ⟨.store (exportTarget settings tenant.1 base hex fmt) bytes, .ok ()⟩
      (mem_history.mpr (by simp))
    cases hnone
  · obtain ⟨since, j', tenant', label', before', hlog, _,
      ⟨name, hex', hname, hdrawn', hupload⟩, _⟩ := h.before.presignedPut hpermits
    have hhex' : IsUuid hex' := by
      have hkept := h.before
      rw [hlog] at hkept
      exact hkept.before.isUuid hdrawn'
    exact uploadTarget_ne_exportTarget tenant'.2 tenant.2 hname hbase hhex' hhex hfmt
      (hupload.symm.trans hkey)

/-- What a download by a presigned URL gets: the whole file of the export whose call presigned it,
in the lifetime of the URL. -/
def HonestDownload (settings : Settings) (ops : ι → ObjectOperation) (s : ObjectPlane)
    (url : Grant Location) (bytes : ObjectBytes.Bytes) (log : Log S3Call S3Answer PyError ι) :
    Prop :=
  ∃ since i tenant fmt label sql answer interruption artifact before, log = since ++
      (i, ⟨.mint .fetch url.key settings.presignTtlSeconds, .ok url⟩) :: before ∧
    ops i = .exportArtifact tenant fmt label sql answer interruption ∧
    exportArtifact settings tenant.1 fmt label sql answer = .ok artifact ∧
    bytes = ObjectBytes.file artifact.file ∧
    (s3.after s log).now ≤ (s3.after s before).now + settings.presignTtlSeconds

/-- In every run of the object plane a download gets the whole file that its URL was presigned for,
whatever else is uploaded and exported at the same time, and however many exports were given up. -/
theorem download_honest (h : Run s3 (fun i => (ops i).program settings) s log threads)
    (hfresh : s.grants = []) :
    Along (fun older entry => ∀ url bytes, entry.2 = ⟨.fetchBy url, .ok bytes⟩ →
      HonestDownload settings ops s url bytes older) log := by
  refine (kept_of_run h hfresh).along (fun entry older hkept url bytes hentry => ?_)
  obtain ⟨i, event⟩ := entry
  subst hentry
  obtain ⟨hpermits, hbytes⟩ : (s3.after s older).Permits .fetch url ∧
      (s3.after s older).objects url.key = some bytes := hkept.answered.1
  have hbefore : Kept settings ops s older := ⟨hfresh, hkept.asked.2, hkept.answered.2⟩
  obtain ⟨since, j, tenant, fmt, label, sql, answer, interruption, artifact, before, rfl, hop,
    hartifact, hwritten, hnow⟩ := hbefore.presignedGet hpermits
  have hfile := hbefore.exported (List.mem_append_right since (List.mem_cons_of_mem _ hwritten))
  rw [hbytes, Option.some.injEq] at hfile
  exact ⟨since, j, tenant, fmt, label, sql, answer, interruption, artifact, before, rfl, hop,
    hartifact, hfile, hnow⟩

end

end

/-- The table without columns and rows. -/
theorem noRows_fit : ∀ row ∈ ([] : List (List Cell)),
    List.Forall₂ (fun field : String × ArrowType => fun cell => cell.Fits field.2) [] row :=
  List.forall_mem_nil _

/-- Objects of which only the length counts. -/
@[reducible] def countedBytes : ObjectBytes where
  Bytes := ℕ
  length n := n
  readTable _ := .ok ⟨[], [], noRows_fit⟩
  file _ := 1
  late _ := false

/-- No inline payload is read. -/
@[reducible] def noPayloads : ArrowIo where
  fromJsonRecords _ := raise .external "no payload"
  fromArrowIpcB64 _ := raise .external "no payload"
  estimateBytes _ := 0

/-- A text of zeros that is longer than all that were drawn. -/
def freshHex (drawn : List String) : String :=
  String.ofList (List.replicate ((drawn.map String.length).sum + 1) '0')

/-- It is a UUID's text, and fresh. -/
theorem freshHex_fresh (drawn : List String) :
    IsUuid (freshHex drawn) ∧ freshHex drawn ∉ drawn := by
  constructor
  · intro c hc
    rw [freshHex, String.toList_ofList] at hc
    rw [List.eq_of_mem_replicate hc]
    decide
  · intro hmem
    have hle : (freshHex drawn).length ≤ (drawn.map String.length).sum :=
      List.single_le_sum (fun _ _ => Nat.zero_le _) _ (List.mem_map_of_mem hmem)
    rw [freshHex, String.length_ofList, List.length_replicate] at hle
    exact absurd hle (Nat.not_succ_le_self _)

section

attribute [local instance] asciiPython countedBytes noPayloads orderSqlglot

/-- The plane before any call. -/
def emptyPlane : ObjectPlane := ⟨fun _ => none, [], [], 0⟩

/-- The run that a schedule of calls plays. -/
def playPlane {ι : Type} [DecidableEq ι] (settings : Settings) (ops : ι → ObjectOperation)
    (schedule : List ι) : Log S3Call S3Answer PyError ι × (ι → S3 Unit) :=
  play s3 (s3Rules.answer freshHex ⟨.external, "AccessDenied"⟩) emptyPlane
    (schedule.map (fun i => (i, none))) [] (fun i => (ops i).program settings)

/-- What is played is a run. -/
theorem playPlane_run {ι : Type} [DecidableEq ι] (settings : Settings) (ops : ι → ObjectOperation)
    (schedule : List ι) : Run s3 (fun i => (ops i).program settings) emptyPlane
      (playPlane settings ops schedule).1 (playPlane settings ops schedule).2 :=
  play_run (fun _ c => answer_possible freshHex_fresh rfl c)
    (fun _ c e => by cases c <;> first | trivial | nofun) .start

/-- The tenant of the examples. -/
def acmeNamespace : Namespace :=
  ⟨"t_acme", "acme".toList, rfl, List.all_eq_true.mp (by decide), by decide⟩

/-- The URL that is presigned first. -/
def eventsUrl : Grant Location :=
  ⟨.store, ("memcove-staging", "uploads/t_acme/events-0.parquet"), 3600⟩

/-- A client that presents it twice. -/
def sendTwice : S3 Unit := do
  ask (.storeBy eventsUrl (5 : ℕ))
  ask (.storeBy eventsUrl (11 : ℕ))

/-- An upload is requested, sent by one URL, and ingested. -/
def replacedUpload : Fin 3 → ObjectOperation
  | 0 => .requestUpload acmeNamespace "events"
  | 1 => .client sendTwice (Only.bind (Only.perform trivial) (fun _ => Only.perform trivial))
  | 2 => .readSource acmeNamespace
    [("kind", .str "upload_handle"), ("handle", .str "uploads/t_acme/events-0.parquet")]

/-- The client sends a second object after the size of the first one was checked, and the ingest
reads one that is larger than the cap. -/
theorem replacedUpload_honest : ∃ log threads,
    Run s3 (fun i => (replacedUpload i).program { ingestBytesCap := 10 }) emptyPlane log threads ∧
      ∃ older, log = (2, ⟨.fetch eventsUrl.key, .ok (11 : ℕ)⟩) :: older ∧
        HonestRead { ingestBytesCap := 10 } replacedUpload emptyPlane 2 eventsUrl.key (11 : ℕ)
          older := by
  have hrun := playPlane_run { ingestBytesCap := 10 } replacedUpload [0, 0, 1, 2, 1, 2]
  have hlog : (playPlane { ingestBytesCap := 10 } replacedUpload [0, 0, 1, 2, 1, 2]).1 =
      (2, ⟨.fetch eventsUrl.key, .ok (11 : ℕ)⟩) ::
        (playPlane { ingestBytesCap := 10 } replacedUpload [0, 0, 1, 2, 1]).1 := by rfl
  have hbuckets : "memcove-artifacts" ≠ "memcove-staging" := by decide
  have hhonest := ingest_honest hrun rfl (fun tenant h => hbuckets h.1)
  refine ⟨_, _, hrun, _, hlog, ?_⟩
  rw [hlog] at hhonest
  exact hhonest.1 _ _ rfl

/-- The URL of an export. -/
def exportUrl : Grant Location :=
  ⟨.fetch, ("memcove-artifacts", "exports/t_acme/query-0.csv"), 3600⟩

/-- The answer of the query engine to it. -/
def oneEventAnswer : CursorAnswer := ⟨[("v", "varchar")], [[.str "a"]]⟩

/-- An export is given up, another one is downloaded. -/
def downloadedExport : Fin 3 → ObjectOperation
  | 0 => .exportArtifact acmeNamespace "csv" none (some "SELECT * FROM events ORDER BY v")
    (fun _ => oneEventAnswer) none
  | 1 => .client (do let _ ← ask (.fetchBy exportUrl)) (Only.bind (Only.perform trivial)
    (fun _ => trivial))
  | 2 => .exportArtifact acmeNamespace "csv" none (some "SELECT * FROM events ORDER BY v")
    (fun _ => oneEventAnswer) (some ⟨(0 : ℕ), ⟨.external, "SlowDown"⟩⟩)

/-- The download gets the whole file. -/
theorem downloadedExport_honest : ∃ log threads,
    Run s3 (fun i => (downloadedExport i).program {}) emptyPlane log threads ∧
      ∃ older, log = (1, ⟨.fetchBy exportUrl, .ok (1 : ℕ)⟩) :: older ∧
        HonestDownload {} downloadedExport emptyPlane exportUrl (1 : ℕ) older := by
  have hrun := playPlane_run {} downloadedExport [0, 2, 0, 2, 0, 0, 1]
  have hlog : (playPlane {} downloadedExport [0, 2, 0, 2, 0, 0, 1]).1 =
      (1, ⟨.fetchBy exportUrl, .ok (1 : ℕ)⟩) ::
        (playPlane {} downloadedExport [0, 2, 0, 2, 0, 0]).1 := by rfl
  have hhonest := download_honest hrun rfl
  refine ⟨_, _, hrun, _, hlog, ?_⟩
  rw [hlog] at hhonest
  exact hhonest.1 _ _ rfl

end

end Memcove
