import Memcove.Core.Locations
import Memcove.Scratch.Texts
import Memcove.Tools.Sources
import Mathlib.Data.Set.Function

/-!
# Tenants and labels in identifiers

Every plane keeps the tenants apart by texts that are put together from a tenant and a label: the
identifiers of PyIceberg and Trino, and the keys of the object storage. What `normalize_tenant` and
`validate_label` let through has none of the marks that hold these texts together, so that a text
determines its parts and none of them ends early.
-/

namespace Memcove

open Paths Quoting SqlLexer

/-- The identifier by which `core/catalog.py` asks PyIceberg for a table. -/
def icebergIdent (namespace_ label : String) : String := namespace_ ++ "." ++ label

/-- The identifier by which `scratch.describe` presents a dataset. -/
def scratchTableIdent (settings : Settings) (tenant label : String) : String :=
  catalogFor settings tenant ++ "." ++ schemaFor tenant ++ "." ++ label

/-- The key that `request_upload` presigns, where `hex` is the text of a fresh UUID. -/
def uploadKey (settings : Settings) (tenant label hex : String) : String :=
  (resolve settings.stagingBucket ["uploads", tenant, label ++ "-" ++ hex ++ ".parquet"]).2

/-- Where the exports of a tenant lie: the bucket and the path `<prefix>/exports/<tenant>`. -/
def exportsOf (settings : Settings) (tenant : String) : String × String :=
  resolve settings.artifactsBucket ["exports", tenant]

/-- The values of `_EXT` in `tools/artifacts.py`. -/
def exportExtensions : List String := ["parquet", "csv", "json"]

/-- The key of an exported file, where `base` is a label or `query`. -/
def exportKey (settings : Settings) (tenant base hex extension : String) : String :=
  (resolve settings.artifactsBucket
    ["exports", tenant, base ++ "-" ++ hex ++ ("." ++ extension)]).2

/-- What the operator has put into the name of a scratchpad catalog. -/
def operatorCatalog (settings : Settings) : String :=
  if settings.scratchCatalogMode = "per_tenant" then settings.scratchCatalogPrefix
  else settings.scratchCatalog

section

variable [Python]

/-- A tenant that normalisation returns. -/
def AcceptedTenant (settings : Settings) (tenant : String) : Prop :=
  ∃ raw, normalizeTenant settings raw = .ok tenant

/-- A label that validation returns. -/
def AcceptedLabel (label : String) : Prop := ∃ raw, validateLabel raw = .ok label

/-- The accepted tenants are the namespaces. -/
theorem acceptedTenant_iff {settings : Settings} {tenant : String} :
    AcceptedTenant settings tenant ↔ IsNamespace tenant :=
  ⟨fun ⟨_, hraw⟩ => normalizeTenant_ok hraw, fun h => ⟨_, normalizeTenant_namespace h⟩⟩

/-- The accepted labels. -/
theorem acceptedLabel_iff {label : String} : AcceptedLabel label ↔ IsLabel label :=
  ⟨fun ⟨_, hraw⟩ => validateLabel_ok hraw, fun h => ⟨_, validateLabel_label h⟩⟩

/-- The tenants with their labels. -/
def acceptedKeys (settings : Settings) : Set Key :=
  {k | AcceptedTenant settings k.1 ∧ AcceptedLabel k.2}

end

/-- A character that is none of `[a-z0-9_]` does not occur in a text of name characters. -/
theorem not_mem_of_nameChars {name : String} {c : Char} (hc : isNameChar c = false)
    (h : ∀ d ∈ name.toList, isNameChar d = true) : c ∉ name.toList := by
  intro hmem
  rw [h c hmem] at hc
  exact Bool.noConfusion hc

/-- No such character occurs in a namespace. -/
theorem IsNamespace.not_mem {tenant : String} (h : IsNamespace tenant) {c : Char}
    (hc : isNameChar c = false) : c ∉ tenant.toList :=
  not_mem_of_nameChars hc h.nameChars

/-- No such character occurs in a label. -/
theorem IsLabel.not_mem {label : String} (h : IsLabel label) {c : Char}
    (hc : isNameChar c = false) : c ∉ label.toList :=
  not_mem_of_nameChars hc h.nameChars

/-- The identifier of an Iceberg table determines its namespace and its label. -/
theorem icebergIdent_inj {tenant tenant' label label' : String} (h : IsNamespace tenant)
    (h' : IsNamespace tenant') (heq : icebergIdent tenant label = icebergIdent tenant' label') :
    tenant = tenant' ∧ label = label' := by
  have htext : tenant.toList ++ '.' :: label.toList = tenant'.toList ++ '.' :: label'.toList := by
    simpa [icebergIdent] using congrArg String.toList heq
  obtain ⟨htenant, hlabel⟩ :=
    (segment_inj (h.not_mem (by decide)) (h'.not_mem (by decide))).mp htext
  exact ⟨String.toList_inj.mp htenant, String.toList_inj.mp hlabel⟩

/-- So does the recorded identifier, behind the catalog. -/
theorem tableIdent_inj {settings : Settings} {tenant tenant' label label' : String}
    (h : IsNamespace tenant) (h' : IsNamespace tenant')
    (heq : tableIdent settings tenant label = tableIdent settings tenant' label') :
    tenant = tenant' ∧ label = label' := by
  refine icebergIdent_inj h h' ?_
  have htext := congrArg String.toList heq
  simpa [tableIdent, icebergIdent, ← String.toList_inj] using htext

/-- A catalog and a schema of the scratchpad determine the tenant, in both catalog modes, where
each of them ends in a mark that no tenant has. -/
theorem scratchSchema_inj {settings : Settings} {tenant tenant' : String} (h : IsNamespace tenant)
    (h' : IsNamespace tenant') (mark : Char) (hmark : isNameChar mark = false)
    (between : List Char) {rest rest' : List Char}
    (heq : (catalogFor settings tenant).toList ++ mark ::
        (between ++ ((schemaFor tenant).toList ++ mark :: rest)) =
      (catalogFor settings tenant').toList ++ mark ::
        (between ++ ((schemaFor tenant').toList ++ mark :: rest'))) :
    tenant = tenant' ∧ rest = rest' := by
  have hplain : mark ∉ tenant.toList := h.not_mem hmark
  have hplain' : mark ∉ tenant'.toList := h'.not_mem hmark
  have htenant : tenant.toList = tenant'.toList := by
    -- the tenant stands in the name of its own catalog, or behind that of the shared one
    by_cases hmode : settings.scratchCatalogMode = "per_tenant"
    · have hcatalog (name : String) : (catalogFor settings name).toList =
          settings.scratchCatalogPrefix.toList ++ '_' :: name.toList := by
        simp [catalogFor, hmode]
      rw [hcatalog, hcatalog, List.append_assoc, List.append_assoc,
        List.append_cancel_left_eq, List.cons_append, List.cons_append, List.cons.injEq] at heq
      exact ((segment_inj hplain hplain').mp heq.2).1
    · have hcatalog (name : String) : catalogFor settings name = settings.scratchCatalog :=
        if_neg hmode
      rw [hcatalog, hcatalog, List.append_cancel_left_eq, List.cons.injEq,
        List.append_cancel_left_eq] at heq
      exact ((segment_inj hplain hplain').mp heq.2).1
  obtain rfl := String.toList_inj.mp htenant
  simpa using heq

/-- The name of a scratchpad table determines the tenant and the label. -/
theorem qualified_inj {settings : Settings} {tenant tenant' label label' : String}
    (h : IsNamespace tenant) (h' : IsNamespace tenant')
    (heq : qualified settings tenant label = qualified settings tenant' label') :
    tenant = tenant' ∧ label = label' := by
  have htext := congrArg String.toList heq
  rw [qualified, qualified, quotedName_toList, quotedName_toList, List.cons.injEq] at htext
  obtain ⟨htenant, hrest⟩ := scratchSchema_inj h h' '"' (by decide) ['.', '"'] htext.2
  exact ⟨htenant, by simpa [String.toList_inj] using hrest⟩

/-- So does the identifier under which `describe` presents it. -/
theorem scratchTableIdent_inj {settings : Settings} {tenant tenant' label label' : String}
    (h : IsNamespace tenant) (h' : IsNamespace tenant')
    (heq : scratchTableIdent settings tenant label = scratchTableIdent settings tenant' label') :
    tenant = tenant' ∧ label = label' := by
  have htext : (catalogFor settings tenant).toList ++ '.' ::
      ([] ++ ((schemaFor tenant).toList ++ '.' :: label.toList)) =
        (catalogFor settings tenant').toList ++ '.' ::
          ([] ++ ((schemaFor tenant').toList ++ '.' :: label'.toList)) := by
    simpa [scratchTableIdent] using congrArg String.toList heq
  obtain ⟨htenant, hlabel⟩ := scratchSchema_inj h h' '.' (by decide) [] htext
  exact ⟨htenant, String.toList_inj.mp hlabel⟩

/-- The path of a tenant behind fixed parts determines the tenant. -/
theorem resolve_tenant_inj {location : String} (above : List String) {tenant tenant' : String}
    (h : IsNamespace tenant) (h' : IsNamespace tenant')
    (heq : (resolve location (above ++ [tenant])).2 = (resolve location (above ++ [tenant'])).2) :
    tenant = tenant' := by
  have htext := congrArg String.toList heq
  rw [resolve_concat location above h.ne_empty h.not_mem_slash,
    resolve_concat location above h'.ne_empty h'.not_mem_slash] at htext
  exact String.toList_inj.mp (List.append_cancel_left htext)

/-- No two accepted tenants or labels meet in a text that is put together from them. -/
structure NamesApart [Python] (settings : Settings) : Prop where
  iceberg : Set.InjOn (fun k : Key => icebergIdent k.1 k.2) (acceptedKeys settings)
  recorded : Set.InjOn (fun k : Key => tableIdent settings k.1 k.2) (acceptedKeys settings)
  scratch : Set.InjOn (fun k : Key => qualified settings k.1 k.2) (acceptedKeys settings)
  described : Set.InjOn (fun k : Key => scratchTableIdent settings k.1 k.2) (acceptedKeys settings)
  uploads : Set.InjOn (fun tenant => (uploadsOf settings tenant).2)
    {tenant | AcceptedTenant settings tenant}
  exports : Set.InjOn (fun tenant => (exportsOf settings tenant).2)
    {tenant | AcceptedTenant settings tenant}

/-- So it is under all settings. -/
theorem namesApart [Python] (settings : Settings) : NamesApart settings := by
  have htenant {k : Key} (hk : k ∈ acceptedKeys settings) : IsNamespace k.1 :=
    acceptedTenant_iff.mp hk.1
  refine ⟨?_, ?_, ?_, ?_, ?_, ?_⟩
  · intro k hk k' hk' heq
    exact Prod.ext_iff.mpr (icebergIdent_inj (htenant hk) (htenant hk') heq)
  · intro k hk k' hk' heq
    exact Prod.ext_iff.mpr (tableIdent_inj (htenant hk) (htenant hk') heq)
  · intro k hk k' hk' heq
    exact Prod.ext_iff.mpr (qualified_inj (htenant hk) (htenant hk') heq)
  · intro k hk k' hk' heq
    exact Prod.ext_iff.mpr (scratchTableIdent_inj (htenant hk) (htenant hk') heq)
  · intro tenant h tenant' h' heq
    exact resolve_tenant_inj ["uploads"] (acceptedTenant_iff.mp h)
      (acceptedTenant_iff.mp h') heq
  · intro tenant h tenant' h' heq
    exact resolve_tenant_inj ["exports"] (acceptedTenant_iff.mp h)
      (acceptedTenant_iff.mp h') heq

/-- The name of a scratchpad catalog has a quotation mark exactly when the operator's part of it
has one. -/
theorem catalogFor_plain_iff {settings : Settings} {tenant : String} (h : IsNamespace tenant) :
    '"' ∉ (catalogFor settings tenant).toList ↔ '"' ∉ (operatorCatalog settings).toList := by
  have hquote : '"' ∉ tenant.toList := h.not_mem (by decide)
  rw [catalogFor, operatorCatalog]
  split
  · simp [hquote]
  · rfl

/-- The name of a scratchpad table is read as its three parts exactly when the operator's part of
the catalog has no quotation mark. -/
theorem lexemes_qualified_iff {settings : Settings} {tenant label : String}
    (h : IsNamespace tenant) (hlabel : IsLabel label) :
    lexemes (qualified settings tenant label).toList =
        some (nameLexemes (catalogFor settings tenant) tenant label) ↔
      '"' ∉ (operatorCatalog settings).toList := by
  have hname := reads_quotedName (catalogFor settings tenant) tenant label readsTo_nil (by simp)
  rw [List.append_nil, List.append_nil] at hname
  refine Iff.trans hname ?_
  simp [catalogFor_plain_iff h, h.not_mem, hlabel.not_mem, isNameChar]

/-- So is the query of `table_exists`, with the tenant and the label as one string each. -/
theorem lexemes_tableExists_iff {settings : Settings} {tenant label : String}
    (h : IsNamespace tenant) (hlabel : IsLabel label) :
    lexemes (tableExistsText (catalogFor settings tenant) (schemaFor tenant) label).toList =
        some (tableNamesLexemes (catalogFor settings tenant) ++
          [.str tenant.toList, keyword "AND", keyword "table_name", .sym '=',
            .str label.toList]) ↔
      '"' ∉ (operatorCatalog settings).toList := by
  refine Iff.trans (reads_tableExists (catalogFor settings tenant) tenant label) ?_
  simp [catalogFor_plain_iff h, h.not_mem, hlabel.not_mem, isNameChar]

/-- The parts of a key behind the location, for a directory and the file of a name. -/
theorem keyParts_plain {directory tenant base hex suffix : String} (hdirectory : directory ≠ "")
    (hplain : '/' ∉ directory.toList) (h : IsNamespace tenant) (hbase : '/' ∉ base.toList)
    (hhex : '/' ∉ hex.toList) (hsuffix : '/' ∉ suffix.toList) :
    ∀ part ∈ [directory, tenant, base ++ "-" ++ hex ++ suffix],
      part ≠ "" ∧ '/' ∉ part.toList := by
  rw [List.forall_mem_cons, List.forall_mem_cons, List.forall_mem_singleton]
  refine ⟨⟨hdirectory, hplain⟩, ⟨h.ne_empty, h.not_mem_slash⟩, by simp, ?_⟩
  simp [hbase, hhex, hsuffix]

/-- The segments of an upload's key. -/
theorem uploadKey_splitOn {settings : Settings} {tenant label hex : String}
    (h : IsNamespace tenant) (hlabel : IsLabel label) (hhex : '/' ∉ hex.toList) :
    (uploadKey settings tenant label hex).toList.splitOn '/' =
      subPathSegments settings.stagingBucket ++
        ["uploads".toList, tenant.toList, (label ++ "-" ++ hex ++ ".parquet").toList] :=
  resolve_splitOn _ (by simp) (keyParts_plain (by decide) (by decide) h
    (hlabel.not_mem (by decide)) hhex (by decide))

/-- The segments of an export's key. -/
theorem exportKey_splitOn {settings : Settings} {tenant base hex extension : String}
    (h : IsNamespace tenant) (hbase : '/' ∉ base.toList) (hhex : '/' ∉ hex.toList)
    (hextension : extension ∈ exportExtensions) :
    (exportKey settings tenant base hex extension).toList.splitOn '/' =
      subPathSegments settings.artifactsBucket ++
        ["exports".toList, tenant.toList, (base ++ "-" ++ hex ++ ("." ++ extension)).toList] := by
  have hsuffix : ∀ extension ∈ exportExtensions, '/' ∉ ("." ++ extension).toList := by decide
  exact resolve_splitOn _ (by simp) (keyParts_plain (by decide) (by decide) h hbase hhex
    (hsuffix extension hextension))

/-- The last segment of the path to a tenant's database. -/
theorem duckdbUrl_splitOn {settings : Settings} {tenant : String} (h : IsNamespace tenant) :
    (duckdbUrl settings tenant).toList.splitOn '/' =
      ("jdbc:duckdb:" ++ rstripChar '/' settings.scratchDuckdbDir).toList.splitOn '/' ++
        [(tenant ++ ".duckdb").toList] := by
  have hfile : '/' ∉ (tenant ++ ".duckdb").toList := by simp [h.not_mem_slash]
  have htext : (duckdbUrl settings tenant).toList =
      ("jdbc:duckdb:" ++ rstripChar '/' settings.scratchDuckdbDir).toList ++
        '/' :: (tenant ++ ".duckdb").toList := by
    simp [duckdbUrl]
  rw [htext, List.splitOn_append_cons_self, List.splitOn_eq_singleton hfile]

/-- The tenant and the label end none of the texts that they are put into. Where the operator's
part of a catalog name has a quotation mark, its quotes are ended by that one. -/
structure NamesContained (settings : Settings) (tenant label : String) : Prop where
  identifier : Inert '"' tenant.toList ∧ Inert '"' label.toList
  literal : Inert '\'' tenant.toList ∧ Inert '\'' label.toList
  scratch : lexemes (qualified settings tenant label).toList =
      some (nameLexemes (catalogFor settings tenant) tenant label) ↔
    '"' ∉ (operatorCatalog settings).toList
  tableExists :
    lexemes (tableExistsText (catalogFor settings tenant) (schemaFor tenant) label).toList =
      some (tableNamesLexemes (catalogFor settings tenant) ++
        [.str tenant.toList, keyword "AND", keyword "table_name", .sym '=', .str label.toList]) ↔
    '"' ∉ (operatorCatalog settings).toList
  upload : ∀ hex : String, '/' ∉ hex.toList →
    (uploadKey settings tenant label hex).toList.splitOn '/' =
      subPathSegments settings.stagingBucket ++
        ["uploads".toList, tenant.toList, (label ++ "-" ++ hex ++ ".parquet").toList]
  export_ : ∀ base ∈ ["query", label], ∀ hex : String, '/' ∉ hex.toList →
    ∀ extension ∈ exportExtensions,
      (exportKey settings tenant base hex extension).toList.splitOn '/' =
        subPathSegments settings.artifactsBucket ++
          ["exports".toList, tenant.toList, (base ++ "-" ++ hex ++ ("." ++ extension)).toList]
  database : (duckdbUrl settings tenant).toList.splitOn '/' =
    ("jdbc:duckdb:" ++ rstripChar '/' settings.scratchDuckdbDir).toList.splitOn '/' ++
      [(tenant ++ ".duckdb").toList]

/-- So it is for every namespace and label. -/
theorem namesContained {settings : Settings} {tenant label : String} (h : IsNamespace tenant)
    (hlabel : IsLabel label) : NamesContained settings tenant label where
  identifier := ⟨inert_iff.mpr (h.not_mem (by decide)), inert_iff.mpr (hlabel.not_mem (by decide))⟩
  literal := ⟨inert_iff.mpr (h.not_mem (by decide)), inert_iff.mpr (hlabel.not_mem (by decide))⟩
  scratch := lexemes_qualified_iff h hlabel
  tableExists := lexemes_tableExists_iff h hlabel
  upload _ hhex := uploadKey_splitOn h hlabel hhex
  export_ base hbase _ hhex _ hextension := by
    refine exportKey_splitOn h ?_ hhex hextension
    rw [List.mem_cons, List.mem_singleton] at hbase
    rcases hbase with rfl | rfl
    · decide
    · exact hlabel.not_mem (by decide)
  database := duckdbUrl_splitOn h

/-- What normalisation and validation return is kept by them and made of `[a-z0-9_]`; it is told
apart in every text that it is put into, and ends none of them. -/
theorem identifiers_safe [Python] (settings : Settings) :
    (∀ raw tenant, normalizeTenant settings raw = .ok tenant →
      normalizeTenant settings (some tenant) = .ok tenant ∧ IsNamespace tenant) ∧
    (∀ raw label, validateLabel raw = .ok label →
      validateLabel label = .ok label ∧ IsLabel label) ∧
    NamesApart settings ∧
    ∀ tenant label, AcceptedTenant settings tenant → AcceptedLabel label →
      NamesContained settings tenant label := by
  refine ⟨fun raw tenant hraw => ?_, fun raw label hraw => ?_, namesApart settings,
    fun tenant label h hlabel => namesContained (acceptedTenant_iff.mp h)
      (acceptedLabel_iff.mp hlabel)⟩
  · have h := normalizeTenant_ok hraw
    exact ⟨normalizeTenant_namespace h, h⟩
  · have h := validateLabel_ok hraw
    exact ⟨validateLabel_label h, h⟩

attribute [local instance] asciiPython

/-- The tenant `Acme` and its dataset `Events`. -/
theorem acmeEvents_safe :
    (normalizeTenant {} (some "t_acme") = .ok "t_acme" ∧ IsNamespace "t_acme") ∧
      (validateLabel "events" = .ok "events" ∧ IsLabel "events") ∧
      NamesContained {} "t_acme" "events" := by
  obtain ⟨htenants, hlabels, _, hcontained⟩ := identifiers_safe {}
  have htenant : normalizeTenant {} (some " Acme ") = .ok "t_acme" := by rfl
  have hlabel : validateLabel "Events" = .ok "events" := by rfl
  exact ⟨htenants _ _ htenant, hlabels _ _ hlabel, hcontained _ _ ⟨_, htenant⟩ ⟨_, hlabel⟩⟩

end Memcove
