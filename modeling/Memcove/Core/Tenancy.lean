import Memcove.Json
import Memcove.Core.Naming
import Memcove.Core.Settings

/-!
# Tenant resolution

The seam of `core/tenancy.py` where a caller's identity becomes an internal namespace `t_<id>`:
normalisation, the header path `resolveTenant` and the claims path `resolveTenantFromClaims`.
Both entry points dispatch on `tenant_mode`.
-/

namespace Memcove

/-- `^[a-z][a-z0-9_]{1,62}$`, the pattern `_TENANT_RE`. -/
def matchesTenantRe (namespaceName : String) : Bool :=
  match beforeDollar namespaceName.toList with
  | [] => false
  | c :: rest => isLowerLetter c && rest.all isNameChar && 1 ≤ rest.length && rest.length ≤ 62

/-- `re.sub(r"[^a-z0-9_]", "_", s)`. -/
def substituteName (s : String) : String :=
  String.ofList (s.toList.map (fun c => if isNameChar c then c else '_'))

/-- `candidate if candidate.startswith("t_") else f"t_{candidate}"`. -/
def prefixTenant (candidate : String) : String :=
  if ['t', '_'].isPrefixOf candidate.toList then candidate else "t_" ++ candidate

/-- The shape of a normalised tenant: `t_` followed by at most 61 characters of `[a-z0-9_]`. -/
def IsNamespace (name : String) : Prop :=
  ∃ rest, name.toList = 't' :: '_' :: rest ∧ (∀ c ∈ rest, isNameChar c = true) ∧
    rest.length ≤ 61

/-- A namespace is made of name characters. -/
theorem IsNamespace.nameChars {name : String} (h : IsNamespace name) :
    ∀ c ∈ name.toList, isNameChar c = true := by
  obtain ⟨rest, htext, hrest, _⟩ := h
  rw [htext, List.forall_mem_cons, List.forall_mem_cons]
  exact ⟨by decide, by decide, hrest⟩

/-- The pattern `_TENANT_RE` accepts a text free of newlines exactly when it is one lower-case
letter followed by one to 62 name characters. -/
theorem matchesTenantRe_cons {name : String} {c : Char} {rest : List Char}
    (hname : name.toList = c :: rest) (hrest : ∀ d ∈ c :: rest, isNameChar d = true) :
    matchesTenantRe name = (isLowerLetter c && decide (1 ≤ rest.length ∧ rest.length ≤ 62)) := by
  have hdollar : beforeDollar name.toList = c :: rest := by
    rw [hname, beforeDollar_nameChars hrest]
  have hall : rest.all isNameChar = true :=
    List.all_eq_true.mpr (fun d hd => hrest d (List.mem_cons_of_mem c hd))
  simp only [matchesTenantRe, hdollar, hall, Bool.and_true, Bool.decide_and, Bool.and_assoc]

/-- Every character that `re.sub` leaves behind is a name character. -/
theorem substituteName_chars (s : String) :
    ∀ c ∈ (substituteName s).toList, isNameChar c = true := by
  intro c hc
  rw [substituteName, String.toList_ofList] at hc
  obtain ⟨d, _, rfl⟩ := List.mem_map.mp hc
  split
  · assumption
  · decide

/-- A text of name characters is not changed by `re.sub`. -/
theorem substituteName_eq_self {s : String} (h : ∀ c ∈ s.toList, isNameChar c = true) :
    substituteName s = s := by
  have hmap : s.toList.map (fun c => if isNameChar c then c else '_') = s.toList := by
    conv_rhs => rw [← List.map_id s.toList]
    exact List.map_congr_left (fun c hc => if_pos (h c hc))
  rw [substituteName, hmap, String.ofList_toList]

variable [Python]

/-- `(raw or settings.default_tenant).strip().lower()` with every other character replaced. -/
def tenantCandidate (settings : Settings) (raw : Option String) : String :=
  let chosen := raw.getD ""
  substituteName (lower (strip (if chosen = "" then settings.defaultTenant else chosen)))

/-- `raise TenancyError(f"invalid tenant id: {raw!r}")`. -/
def invalidTenant (raw : Option String) : PyM String :=
  let shown := raw.elim "None" Python.repr
  raise .tenancyError s!"invalid tenant id: {shown}"

/-- `tenancy.normalize_tenant`. -/
def normalizeTenant (settings : Settings) (raw : Option String) : PyM String :=
  let candidate := tenantCandidate settings raw
  if !candidate.toList.any (fun c => isLowerLetter c || ('0' ≤ c && c ≤ '9')) then
    invalidTenant raw
  else
    let namespaceName := prefixTenant candidate
    if !matchesTenantRe namespaceName then invalidTenant raw else .ok namespaceName

/-- `tenancy._header`: case-insensitive lookup, the first matching header wins. -/
def header (headers : List (String × String)) (name : String) : Option String :=
  if name = "" then none
  else (headers.find? (fun h => lower h.1 == lower name)).map (·.2)

/-- `tenancy._groups`. -/
def groups (value : Option String) : List String :=
  (splitComma (value.getD "")).map strip |>.filter (· != "")

/-- `tenancy._shared_tenant`. -/
def sharedTenant (settings : Settings) : PyM String :=
  normalizeTenant settings
    (some (if settings.sharedTenant = "" then settings.defaultTenant else settings.sharedTenant))

/-- The first 16 hexadecimal digits of a SHA-256 digest,
`hashlib.sha256(identity.encode("utf-8")).hexdigest()[:16]`,
as an arbitrary function. -/
class Sha256 where
  digest16 : String → String

/-- A digest for settings that never reach `private` mode. -/
@[reducible] def constantSha256 : Sha256 := ⟨fun _ => "0000000000000000"⟩

/-- `tenancy._private_tenant`. -/
def privateTenant [Sha256] (settings : Settings) (identity : String) : PyM String :=
  normalizeTenant settings (some ("u" ++ Sha256.digest16 identity))

/-- The `for group in groups` loop of `tenancy._mapped_tenant`. -/
def mappedGroup (settings : Settings) : List Json → PyM String
  | [] => raise .tenancyError "caller identity is not provisioned to any tenant"
  | group :: rest => do
    match ← group.lookupIn settings.tenantMap with
    | some tenant => normalizeTenant settings (some tenant)
    | none => mappedGroup settings rest

/-- `tenancy._mapped_tenant`: the subject first, then the first matching group. -/
def mappedTenant (subject groups : Json) (settings : Settings) : PyM String := do
  let bySubject ← if subject.truthy then subject.lookupIn settings.tenantMap else .ok none
  match bySubject with
  | some tenant => normalizeTenant settings (some tenant)
  | none => mappedGroup settings (← groups.elements)

/-- `[v] if isinstance(v, str) else v`. -/
def Json.listOfStr : Json → Json
  | .str s => .arr [.str s]
  | v => v

/-- The `groups` of a claims dictionary: `claims["groups"]`, else `claims["roles"]`, else nothing;
a bare string is one group. -/
def claimedGroups (claims : List (String × Json)) : Json :=
  (((Json.get claims "groups").orElse (Json.get claims "roles")).orElse (.arr [])).listOfStr

/-- `tenancy.resolve_tenant_from_claims`. -/
def resolveTenantFromClaims [Sha256] (settings : Settings) (claims : List (String × Json)) :
    PyM String :=
  let mode := settings.tenantMode
  let subject := Json.get claims "sub"
  if mode = .sharedMode then sharedTenant settings
  else if mode = .privateMode then
    let identity := (Json.get claims settings.oauthTenantClaim).orElse subject
    if identity.truthy then privateTenant settings identity.toStr
    else raise .tenancyError
      s!"private tenant mode: token has no {Python.repr settings.oauthTenantClaim} claim"
  else if mode = .mappedMode ∨ (mode = .autoMode ∧ settings.tenantMap ≠ []) then
    mappedTenant subject (claimedGroups claims) settings
  else
    let value := Json.get claims settings.oauthTenantClaim
    if value.truthy then normalizeTenant settings (some value.toStr)
    else raise .tenancyError
      s!"token has no {Python.repr settings.oauthTenantClaim} claim for tenant"

/-- `None` or a string, as a Python value. -/
def optionalStr : Option String → Json
  | none => .null
  | some s => .str s

/-- `tenancy.resolve_tenant`. -/
def resolveTenant [Sha256] (settings : Settings) (headers : List (String × String)) :
    PyM String :=
  let mode := settings.tenantMode
  if mode = .sharedMode then sharedTenant settings
  else if mode = .privateMode then
    match header headers settings.tenantSubjectHeader with
    | some subject =>
      if subject = "" then raise .tenancyError
        ("private tenant mode needs a trusted identity: set tenant_subject_header " ++
          "so the auth proxy supplies a verified subject")
      else privateTenant settings subject
    | none => raise .tenancyError
        ("private tenant mode needs a trusted identity: set tenant_subject_header " ++
          "so the auth proxy supplies a verified subject")
  else if mode = .mappedMode ∨ (mode = .autoMode ∧ settings.tenantSubjectHeader ≠ "") then
    let subject := header headers settings.tenantSubjectHeader
    let memberOf := groups (header headers settings.tenantGroupHeader)
    mappedTenant (optionalStr subject) (.arr (memberOf.map .str)) settings
  else normalizeTenant settings (header headers settings.tenantHeader)

/-- A tenant candidate is made of name characters. -/
theorem tenantCandidate_chars (settings : Settings) (raw : Option String) :
    ∀ c ∈ (tenantCandidate settings raw).toList, isNameChar c = true :=
  substituteName_chars _

/-- Normalisation fails with `TenancyError` only. -/
theorem normalizeTenant_error {settings : Settings} {raw : Option String} {e : PyError}
    (h : normalizeTenant settings raw = .error e) : e.cls = .tenancyError := by
  unfold normalizeTenant invalidTenant raise at h
  dsimp only at h
  split at h
  · cases h
    rfl
  · split at h
    · cases h
      rfl
    · cases h

/-- Every tenant that normalisation returns has the shape of a namespace. -/
theorem normalizeTenant_ok {settings : Settings} {raw : Option String} {name : String}
    (h : normalizeTenant settings raw = .ok name) : IsNamespace name := by
  have hchars := tenantCandidate_chars settings raw
  unfold normalizeTenant invalidTenant raise at h
  dsimp only at h
  generalize tenantCandidate settings raw = candidate at h hchars
  split at h
  · cases h
  · split at h
    · cases h
    · rename_i hre
      cases h
      simp only [Bool.not_eq_true', Bool.not_eq_false] at hre
      unfold prefixTenant at hre ⊢
      by_cases hprefix : ['t', '_'].isPrefixOf candidate.toList
      · rw [if_pos hprefix] at hre ⊢
        obtain ⟨rest, hrest⟩ := List.isPrefixOf_iff_prefix.mp hprefix
        have htext : candidate.toList = 't' :: '_' :: rest := by simpa using hrest.symm
        rw [matchesTenantRe_cons htext (by rw [← htext]; exact hchars)] at hre
        simp only [List.length_cons, Bool.and_eq_true, decide_eq_true_eq] at hre
        exact ⟨rest, htext, fun c hc => hchars c (by simp [htext, hc]), by omega⟩
      · rw [if_neg hprefix] at hre ⊢
        have htext : ("t_" ++ candidate).toList = 't' :: '_' :: candidate.toList := by
          rw [String.toList_append]
          rfl
        have hall : ∀ c ∈ 't' :: '_' :: candidate.toList, isNameChar c = true := by
          intro c hc
          rcases List.mem_cons.mp hc with rfl | hc
          · decide
          · rcases List.mem_cons.mp hc with rfl | hc
            · decide
            · exact hchars c hc
        rw [matchesTenantRe_cons htext hall] at hre
        simp only [List.length_cons, Bool.and_eq_true, decide_eq_true_eq] at hre
        exact ⟨candidate.toList, htext, hchars, by omega⟩

/-- A text of name characters is its own candidate. -/
theorem tenantCandidate_eq_self {settings : Settings} {name : String} (hne : name ≠ "")
    (hname : ∀ c ∈ name.toList, isNameChar c = true) :
    tenantCandidate settings (some name) = name := by
  have hstrip : strip name = name := strip_eq_self (fun c hc => (isNameChar_plain (hname c hc)).2)
  have hlower : lower name = name := lower_eq_self (fun c hc => (isNameChar_plain (hname c hc)).1)
  simp only [tenantCandidate, Option.getD_some, if_neg hne, hstrip, hlower,
    substituteName_eq_self hname]

/-- A namespace is its own normalisation: re-normalising a resolved tenant never moves it. -/
theorem normalizeTenant_namespace {settings : Settings} {name : String} (h : IsNamespace name) :
    normalizeTenant settings (some name) = .ok name := by
  have hname := h.nameChars
  obtain ⟨rest, htext, _, hlength⟩ := h
  have hchars : ∀ c ∈ 't' :: '_' :: rest, isNameChar c = true := by rwa [htext] at hname
  have hne : name ≠ "" := by
    rintro rfl
    simp at htext
  have hre : matchesTenantRe name = true := by
    rw [matchesTenantRe_cons htext hchars]
    simp only [List.length_cons, Bool.and_eq_true, decide_eq_true_eq]
    exact ⟨by decide, by omega⟩
  have hcand : tenantCandidate settings (some name) = name := tenantCandidate_eq_self hne hname
  have hletter : name.toList.any (fun c => isLowerLetter c || ('0' ≤ c && c ≤ '9')) = true := by
    rw [htext]
    rfl
  have hprefix : prefixTenant name = name := by
    rw [prefixTenant, htext]
    rfl
  simp only [normalizeTenant, hcand, hletter, hprefix, hre, Bool.not_true, Bool.false_eq_true,
    if_false]

/-- The group loop returns namespaces only. -/
theorem mappedGroup_ok {settings : Settings} {items : List Json} {name : String}
    (h : mappedGroup settings items = .ok name) : IsNamespace name := by
  induction items with
  | nil => cases h
  | cons group rest ih =>
    obtain ⟨mapped, _, hrest⟩ := bind_eq_ok h
    cases mapped with
    | some tenant => exact normalizeTenant_ok hrest
    | none => exact ih hrest

/-- The map lookup returns namespaces only. -/
theorem mappedTenant_ok {subject memberOf : Json} {settings : Settings} {name : String}
    (h : mappedTenant subject memberOf settings = .ok name) : IsNamespace name := by
  have hgroups (hrest : memberOf.elements >>= mappedGroup settings = .ok name) :
      IsNamespace name := by
    obtain ⟨items, _, hitems⟩ := bind_eq_ok hrest
    exact mappedGroup_ok hitems
  unfold mappedTenant at h
  split at h
  · obtain ⟨bySubject, _, hrest⟩ := bind_eq_ok h
    cases bySubject with
    | some tenant => exact normalizeTenant_ok hrest
    | none => exact hgroups hrest
  · exact hgroups h

/-- The claims path returns namespaces only. -/
theorem resolveTenantFromClaims_ok [Sha256] {settings : Settings} {claims : List (String × Json)}
    {name : String} (h : resolveTenantFromClaims settings claims = .ok name) :
    IsNamespace name := by
  unfold resolveTenantFromClaims raise at h
  dsimp only at h
  split at h
  · exact normalizeTenant_ok h
  · split at h
    · split at h
      · exact normalizeTenant_ok h
      · cases h
    · split at h
      · exact mappedTenant_ok h
      · split at h
        · exact normalizeTenant_ok h
        · cases h

/-- The header path returns namespaces only. -/
theorem resolveTenant_ok [Sha256] {settings : Settings} {headers : List (String × String)}
    {name : String} (h : resolveTenant settings headers = .ok name) : IsNamespace name := by
  unfold resolveTenant raise at h
  dsimp only at h
  split at h
  · exact normalizeTenant_ok h
  · split at h
    · split at h
      · split at h
        · cases h
        · exact normalizeTenant_ok h
      · cases h
    · split at h
      · exact mappedTenant_ok h
      · exact normalizeTenant_ok h

end Memcove
