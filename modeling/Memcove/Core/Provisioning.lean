import Memcove.Core.Tenancy

/-!
# Provisioned deployments fail closed

With an explicit map (`mapped`, or `auto` with a map or a subject header configured) a caller must
end in a tenant that the map assigns to the presented identity, or be rejected. Both entry points
are compared with that rule. The claims path follows it for every claim set it can read; the
header path does not consult the map in `auto` mode when no subject header is configured.
-/

namespace Memcove

/-- The settings under which `auto` is documented to behave as `mapped` on the header path. -/
def HeaderProvisioned (s : Settings) : Prop :=
  s.tenantMode = .mappedMode ∨
    (s.tenantMode = .autoMode ∧ (s.tenantMap ≠ [] ∨ s.tenantSubjectHeader ≠ ""))

/-- The settings under which the claims path goes through the map. -/
def ClaimsProvisioned (s : Settings) : Prop :=
  s.tenantMode = .mappedMode ∨ (s.tenantMode = .autoMode ∧ s.tenantMap ≠ [])

/-- A `groups` or `roles` claim names `k`: it is `k`, a list with `k`, or an object with key `k`. -/
def Names (k : String) : Json → Prop
  | .str s => s = k
  | .arr items => .str k ∈ items
  | .obj fields => k ∈ fields.map (·.1)
  | _ => False

/-- The identities that a claims dictionary presents: its `sub`, its `groups` and its `roles`. -/
def PresentedByClaims (claims : List (String × Json)) (k : String) : Prop :=
  Json.get claims "sub" = .str k ∨ Names k (Json.get claims "groups") ∨
    Names k (Json.get claims "roles")

/-- Two claims dictionaries that agree on `sub`, `groups` and `roles`. -/
def SameIdentityClaims (c c' : List (String × Json)) : Prop :=
  ∀ key ∈ ["sub", "groups", "roles"], Json.get c key = Json.get c' key

/-- A value that Python can hash. -/
def Json.hashable : Json → Bool
  | .arr _ | .obj _ => false
  | _ => true

/-- Every group that the loop tests, up to the first mapped one, can be hashed. -/
def groupsHashable (s : Settings) : List Json → Bool
  | [] => true
  | group :: rest =>
    group.hashable && (match group with
      | .str k => (dictGet s.tenantMap k).isSome || groupsHashable s rest
      | _ => groupsHashable s rest)

/-- The subject, when one is presented, is a mapped string. -/
def mappedSubject (s : Settings) : Json → Bool
  | .str k => k != "" && (dictGet s.tenantMap k).isSome
  | _ => false

/-- The subject and the groups that the map lookup can read: the subject can be hashed and,
unless it is mapped, the groups can be iterated and hashed. -/
def MapReadable (s : Settings) (subject memberOf : Json) : Prop :=
  (subject.truthy = true → subject.hashable = true) ∧
    (mappedSubject s subject = false →
      ∃ items, memberOf.elements = .ok items ∧ groupsHashable s items = true)

/-- The claims that the map lookup can read. -/
def ClaimsReadable (s : Settings) (c : List (String × Json)) : Prop :=
  MapReadable s (Json.get c "sub") (claimedGroups c)

/-- A subject header and group names, being strings, can always be looked up. -/
theorem mapReadable_headers (s : Settings) (subject : Option String) (memberOf : List String) :
    MapReadable s (optionalStr subject) (.arr (memberOf.map .str)) := by
  refine ⟨fun _ => by cases subject <;> rfl, fun _ => ⟨_, rfl, ?_⟩⟩
  induction memberOf with
  | nil => rfl
  | cons k rest ih => simp [groupsHashable, Json.hashable, ih]

/-- Iterating over a claim yields strings that the claim names. -/
theorem names_of_elements {v : Json} {items : List Json} {k : String}
    (h : v.listOfStr.elements = .ok items) (hmem : Json.str k ∈ items) : Names k v := by
  cases v with
  | str s =>
    cases h
    simpa [Names, eq_comm] using hmem
  | arr values =>
    cases h
    exact hmem
  | obj fields =>
    cases h
    simpa [Names] using hmem
  | null | bool | int | float => cases h

/-- `a or b` names what `a` or `b` names. -/
theorem names_orElse {a b : Json} {k : String} (h : Names k (a.orElse b)) :
    Names k a ∨ Names k b := by
  unfold Json.orElse at h
  split at h
  · exact Or.inl h
  · exact Or.inr h

/-- The groups that the lookup iterates over are groups or roles that the claims present. -/
theorem names_of_claimedGroups {c : List (String × Json)} {items : List Json} {k : String}
    (helements : (claimedGroups c).elements = .ok items) (hmem : Json.str k ∈ items) :
    Names k (Json.get c "groups") ∨ Names k (Json.get c "roles") := by
  rcases names_orElse (names_of_elements helements hmem) with hnames | hnone
  · exact names_orElse hnames
  · cases hnone

/-- No header, or an empty header name, presents no group. -/
theorem groups_none : groups none = [] := by decide

section

variable [Python]

/-- The identities that a header dictionary presents: its subject and its groups. -/
def PresentedByHeaders (s : Settings) (headers : List (String × String)) (k : String) : Prop :=
  header headers s.tenantSubjectHeader = some k ∨
    k ∈ groups (header headers s.tenantGroupHeader)

/-- A resolution is a rejection, or the namespace the map assigns to a presented identity. -/
def FromMap (s : Settings) (presented : String → Prop) (result : PyM String) : Prop :=
  (∃ message, result = .error ⟨.tenancyError, message⟩) ∨
    ∃ k tenant, presented k ∧ dictGet s.tenantMap k = some tenant ∧
      result = normalizeTenant s (some tenant)

/-- The client-settable tenant header is neither the subject header nor the group header. -/
def TenantHeaderSeparate (s : Settings) : Prop :=
  (s.tenantSubjectHeader = "" ∨ lower s.tenantSubjectHeader ≠ lower s.tenantHeader) ∧
    (s.tenantGroupHeader = "" ∨ lower s.tenantGroupHeader ≠ lower s.tenantHeader)

/-- Two header dictionaries that differ at most in the raw tenant header. -/
def SameOffTenantHeader (s : Settings) (h h' : List (String × String)) : Prop :=
  h.filter (fun e => lower e.1 != lower s.tenantHeader) =
    h'.filter (fun e => lower e.1 != lower s.tenantHeader)

/-- Fail-closed provisioning on the header path. -/
def HeaderFailClosed [Sha256] (s : Settings) : Prop :=
  ∀ h, FromMap s (PresentedByHeaders s h) (resolveTenant s h) ∧
    ∀ h', TenantHeaderSeparate s → SameOffTenantHeader s h h' →
      resolveTenant s h' = resolveTenant s h

/-- Fail-closed provisioning on the claims path, for one claims dictionary. -/
def ClaimsFailClosed [Sha256] (s : Settings) (c : List (String × Json)) : Prop :=
  FromMap s (PresentedByClaims c) (resolveTenantFromClaims s c) ∧
    ∀ c', SameIdentityClaims c c' → resolveTenantFromClaims s c' = resolveTenantFromClaims s c

/-- The header path consults the map, or the raw tenant header is not configured and the default
tenant is not a valid one, so that every request is rejected. -/
def HeaderConsultsMap (s : Settings) : Prop :=
  s.tenantMode = .mappedMode ∨ s.tenantSubjectHeader ≠ "" ∨
    (s.tenantHeader = "" ∧ ∃ e, normalizeTenant s none = .error e)

/-- The group loop over readable groups rejects, or maps one of the groups. -/
theorem mappedGroup_fromMap {s : Settings} {items : List Json}
    (h : groupsHashable s items = true) :
    FromMap s (fun k => .str k ∈ items) (mappedGroup s items) := by
  induction items with
  | nil => exact Or.inl ⟨_, rfl⟩
  | cons group rest ih =>
    simp only [groupsHashable, Bool.and_eq_true] at h
    obtain ⟨hhash, hrest⟩ := h
    have hlater (hgroup : mappedGroup s (group :: rest) = mappedGroup s rest)
        (hok : groupsHashable s rest = true) :
        FromMap s (fun k => .str k ∈ group :: rest) (mappedGroup s (group :: rest)) := by
      rw [hgroup]
      rcases ih hok with herror | ⟨k, tenant, hmem, hget, hresult⟩
      · exact Or.inl herror
      · exact Or.inr ⟨k, tenant, List.mem_cons_of_mem _ hmem, hget, hresult⟩
    cases group with
    | str k =>
      cases hget : dictGet s.tenantMap k with
      | some tenant =>
        refine Or.inr ⟨k, tenant, List.mem_cons_self, hget, ?_⟩
        simp [mappedGroup, Json.lookupIn, hget, Bind.bind, Except.bind]
      | none =>
        apply hlater
        · simp [mappedGroup, Json.lookupIn, hget, Bind.bind, Except.bind]
        · simpa [hget] using hrest
    | arr _ => simp [Json.hashable] at hhash
    | obj _ => simp [Json.hashable] at hhash
    | null => exact hlater rfl hrest
    | bool _ => exact hlater rfl hrest
    | int _ => exact hlater rfl hrest
    | float _ => exact hlater rfl hrest

/-- The group loop over other groups raises `TypeError`. -/
theorem mappedGroup_typeError {s : Settings} {items : List Json}
    (h : groupsHashable s items = false) :
    ∃ message, mappedGroup s items = .error ⟨.typeError, message⟩ := by
  induction items with
  | nil => simp [groupsHashable] at h
  | cons group rest ih =>
    cases group with
    | str k =>
      simp only [groupsHashable, Json.hashable, Bool.true_and, Bool.or_eq_false_iff,
        Option.isSome_eq_false_iff, Option.isNone_iff_eq_none] at h
      obtain ⟨message, hmessage⟩ := ih h.2
      refine ⟨message, ?_⟩
      simp [mappedGroup, Json.lookupIn, h.1, Bind.bind, Except.bind, hmessage]
    | arr _ => exact ⟨_, rfl⟩
    | obj _ => exact ⟨_, rfl⟩
    | null => exact ih h
    | bool _ => exact ih h
    | int _ => exact ih h
    | float _ => exact ih h

/-- How `tenancy._mapped_tenant` proceeds once the subject is known not to be mapped. -/
theorem mappedTenant_of_unmapped {s : Settings} {subject memberOf : Json}
    (hhash : subject.truthy = true → subject.hashable = true)
    (hsubject : mappedSubject s subject = false) :
    mappedTenant subject memberOf s = memberOf.elements.bind (mappedGroup s) := by
  cases subject with
  | str k =>
    by_cases hk : k = ""
    · subst hk
      rfl
    · have hget : dictGet s.tenantMap k = none := by simpa [mappedSubject, hk] using hsubject
      simp [mappedTenant, Json.truthy, hk, Json.lookupIn, hget, Bind.bind, Except.bind]
  | arr items =>
    cases items with
    | nil => rfl
    | cons item items => simp [Json.truthy, Json.hashable] at hhash
  | obj fields =>
    cases fields with
    | nil => rfl
    | cons field fields => simp [Json.truthy, Json.hashable] at hhash
  | null => rfl
  | bool b => cases b <;> rfl
  | int i => unfold mappedTenant; split <;> rfl
  | float r => unfold mappedTenant; split <;> rfl

/-- The map lookup over readable identities rejects, or maps the subject or one of the groups. -/
theorem mappedTenant_fromMap {s : Settings} {subject memberOf : Json}
    (h : MapReadable s subject memberOf) :
    FromMap s (fun k => subject = .str k ∨ ∃ items, memberOf.elements = .ok items ∧ .str k ∈ items)
      (mappedTenant subject memberOf s) := by
  obtain ⟨hhash, hgroups⟩ := h
  cases hsubject : mappedSubject s subject with
  | true =>
    cases subject with
    | str k =>
      simp only [mappedSubject, Bool.and_eq_true, bne_iff_ne, Option.isSome_iff_exists] at hsubject
      obtain ⟨hk, tenant, hget⟩ := hsubject
      refine Or.inr ⟨k, tenant, Or.inl rfl, hget, ?_⟩
      simp [mappedTenant, Json.truthy, hk, Json.lookupIn, hget, Bind.bind, Except.bind]
    | null | bool | int | float | arr | obj => simp [mappedSubject] at hsubject
  | false =>
    obtain ⟨items, helements, hitems⟩ := hgroups hsubject
    rw [mappedTenant_of_unmapped hhash hsubject, helements]
    rcases mappedGroup_fromMap hitems with herror | ⟨k, tenant, hmem, hget, hresult⟩
    · exact Or.inl herror
    · exact Or.inr ⟨k, tenant, Or.inr ⟨items, rfl, hmem⟩, hget, hresult⟩

/-- The map lookup over other identities raises `TypeError`. -/
theorem mappedTenant_typeError {s : Settings} {subject memberOf : Json}
    (h : ¬ MapReadable s subject memberOf) :
    ∃ message, mappedTenant subject memberOf s = .error ⟨.typeError, message⟩ := by
  by_cases hhash : subject.truthy = true → subject.hashable = true
  · have hgroups : ¬ (mappedSubject s subject = false →
        ∃ items, memberOf.elements = .ok items ∧ groupsHashable s items = true) :=
      fun hgroups => h ⟨hhash, hgroups⟩
    simp only [Classical.not_imp, not_exists, not_and, Bool.not_eq_true] at hgroups
    obtain ⟨hsubject, hitems⟩ := hgroups
    rw [mappedTenant_of_unmapped hhash hsubject]
    cases helements : memberOf.elements with
    | ok items => exact mappedGroup_typeError (hitems items helements)
    | error e =>
      obtain ⟨cls, message⟩ := e
      have hcls : cls = .typeError := Json.elements_error helements
      exact ⟨message, by rw [hcls]; rfl⟩
  · simp only [Classical.not_imp, Bool.not_eq_true] at hhash
    obtain ⟨htruthy, hhash⟩ := hhash
    cases subject with
    | arr items => exact ⟨_, by simp [mappedTenant, htruthy, Json.lookupIn]; rfl⟩
    | obj fields => exact ⟨_, by simp [mappedTenant, htruthy, Json.lookupIn]; rfl⟩
    | null | bool | int | float | str => simp [Json.hashable] at hhash

/-- Under a map, the claims path is the map lookup of `sub` and the groups. -/
theorem resolveTenantFromClaims_provisioned [Sha256] {s : Settings} (hs : ClaimsProvisioned s)
    (c : List (String × Json)) :
    resolveTenantFromClaims s c = mappedTenant (Json.get c "sub") (claimedGroups c) s := by
  have hshared : s.tenantMode ≠ .sharedMode := by
    rcases hs with h | ⟨h, _⟩ <;> simp [h]
  have hprivate : s.tenantMode ≠ .privateMode := by
    rcases hs with h | ⟨h, _⟩ <;> simp [h]
  simp only [resolveTenantFromClaims, if_neg hshared, if_neg hprivate]
  exact if_pos hs

/-- Under a map, the claims path fails closed on exactly the claims that the lookup can read; on
any other it raises `TypeError`. -/
theorem claimsFailClosed_iff [Sha256] {s : Settings} (hs : ClaimsProvisioned s)
    (c : List (String × Json)) : ClaimsFailClosed s c ↔ ClaimsReadable s c := by
  constructor
  · rintro ⟨hmap, _⟩
    by_contra hreadable
    obtain ⟨message, herror⟩ := mappedTenant_typeError hreadable
    rw [resolveTenantFromClaims_provisioned hs, herror] at hmap
    rcases hmap with ⟨message', h⟩ | ⟨k, tenant, _, _, h⟩
    · simp at h
    · have hcls := normalizeTenant_error h.symm
      simp at hcls
  · intro hreadable
    constructor
    · rw [resolveTenantFromClaims_provisioned hs]
      rcases mappedTenant_fromMap hreadable with herror | ⟨k, tenant, hk, hget, hresult⟩
      · exact Or.inl herror
      · refine Or.inr ⟨k, tenant, ?_, hget, hresult⟩
        rcases hk with hsub | ⟨items, helements, hmem⟩
        · exact Or.inl hsub
        · exact Or.inr (names_of_claimedGroups helements hmem)
    · intro c' hsame
      have hsub : Json.get c "sub" = Json.get c' "sub" := hsame _ (by simp)
      have hgroups : Json.get c "groups" = Json.get c' "groups" := hsame _ (by simp)
      have hroles : Json.get c "roles" = Json.get c' "roles" := hsame _ (by simp)
      simp only [resolveTenantFromClaims_provisioned hs, claimedGroups, hsub, hgroups, hroles]

/-- A header other than the tenant header reads the same from dictionaries that agree off it. -/
theorem header_of_same {s : Settings} {h h' : List (String × String)}
    (hsame : SameOffTenantHeader s h h') {name : String}
    (hname : name = "" ∨ lower name ≠ lower s.tenantHeader) : header h' name = header h name := by
  rcases hname with rfl | hname
  · rfl
  · have hfind (l : List (String × String)) : l.find? (fun e => lower e.1 == lower name) =
        (l.filter (fun e => lower e.1 != lower s.tenantHeader)).find?
          (fun e => lower e.1 == lower name) := by
      rw [List.find?_filter]
      congr 1
      funext e
      by_cases he : lower e.1 = lower name
      · simp [he, hname]
      · simp [he]
    simp only [header]
    rw [hfind h, hfind h', hsame]

/-- Where the header path consults the map, it is the map lookup of the two identity headers. -/
theorem resolveTenant_consults [Sha256] {s : Settings} (hs : HeaderProvisioned s)
    (hmap : s.tenantMode = .mappedMode ∨ s.tenantSubjectHeader ≠ "")
    (h : List (String × String)) :
    resolveTenant s h = mappedTenant (optionalStr (header h s.tenantSubjectHeader))
      (.arr ((groups (header h s.tenantGroupHeader)).map .str)) s := by
  have hmode : s.tenantMode = .mappedMode ∨
      (s.tenantMode = .autoMode ∧ s.tenantSubjectHeader ≠ "") := by
    rcases hs with h₁ | ⟨h₁, _⟩
    · exact Or.inl h₁
    · exact hmap.imp_right (fun h₂ => ⟨h₁, h₂⟩)
  have hshared : s.tenantMode ≠ .sharedMode := by
    rcases hs with h | ⟨h, _⟩ <;> simp [h]
  have hprivate : s.tenantMode ≠ .privateMode := by
    rcases hs with h | ⟨h, _⟩ <;> simp [h]
  simp only [resolveTenant, if_neg hshared, if_neg hprivate, if_pos hmode]

/-- In `auto` mode without a subject header, the header path trusts the raw tenant header. -/
theorem resolveTenant_raw [Sha256] {s : Settings} (hmode : s.tenantMode = .autoMode)
    (hsubject : s.tenantSubjectHeader = "") (h : List (String × String)) :
    resolveTenant s h = normalizeTenant s (header h s.tenantHeader) := by
  simp [resolveTenant, hmode, hsubject]

/-- Consulting the map is enough for the header path to fail closed. -/
theorem headerFailClosed_of_consults [Sha256] {s : Settings} (hs : HeaderProvisioned s)
    (hmap : s.tenantMode = .mappedMode ∨ s.tenantSubjectHeader ≠ "") : HeaderFailClosed s := by
  intro h
  constructor
  · rw [resolveTenant_consults hs hmap]
    rcases mappedTenant_fromMap (mapReadable_headers s _ _) with
      herror | ⟨k, tenant, hk, hget, hresult⟩
    · exact Or.inl herror
    · refine Or.inr ⟨k, tenant, ?_, hget, hresult⟩
      rcases hk with hsub | ⟨items, helements, hmem⟩
      · left
        cases hheader : header h s.tenantSubjectHeader with
        | none => simp [hheader, optionalStr] at hsub
        | some subject =>
          rw [hheader, optionalStr, Json.str.injEq] at hsub
          rw [hsub]
      · right
        cases helements
        simpa using hmem
  · intro h' hseparate hsame
    rw [resolveTenant_consults hs hmap, resolveTenant_consults hs hmap,
      header_of_same hsame hseparate.1, header_of_same hsame hseparate.2]

/-- The raw tenant header decides: two values that name the same groups but normalise apart. -/
theorem raw_header_values (s : Settings) :
    normalizeTenant s (some "a,") = .ok "t_a_" ∧ normalizeTenant s (some "a,,") = .ok "t_a__" ∧
      groups (some "a,") = ["a"] ∧ groups (some "a,,") = ["a"] := by
  have hlower₁ : lower "a," = "a," := lower_of_isLowerAscii (by decide)
  have hlower₂ : lower "a,," = "a,," := lower_of_isLowerAscii (by decide)
  have hstrip₁ : strip "a," = "a," := by decide
  have hstrip₂ : strip "a,," = "a,," := by decide
  refine ⟨?_, ?_, by decide, by decide⟩
  · have hcand : tenantCandidate s (some "a,") = "a_" := by
      simp only [tenantCandidate, Option.getD_some, if_neg (by decide : ("a," : String) ≠ ""),
        hstrip₁, hlower₁]
      decide
    simp only [normalizeTenant, hcand]
    rfl
  · have hcand : tenantCandidate s (some "a,,") = "a__" := by
      simp only [tenantCandidate, Option.getD_some, if_neg (by decide : ("a,," : String) ≠ ""),
        hstrip₂, hlower₂]
      decide
    simp only [normalizeTenant, hcand]
    rfl

/-- A caller who sends only a header that names the group `a` presents at most the group `a`. -/
theorem presented_single {s : Settings} (hsubject : s.tenantSubjectHeader = "")
    {name value k : String} (hgroups : groups (some value) = ["a"])
    (hk : PresentedByHeaders s [(name, value)] k) : k = "a" := by
  rcases hk with hnone | hgroup
  · simp [header, hsubject] at hnone
  · unfold header at hgroup
    split at hgroup
    · simp [groups_none] at hgroup
    · by_cases hlower : lower name = lower s.tenantGroupHeader
      · simpa [hlower, hgroups] using hgroup
      · simp [hlower, groups_none] at hgroup

/-- In `auto` mode without a subject header, failing closed means that no request is served. -/
theorem rejects_of_headerFailClosed [Sha256] {s : Settings} (hmode : s.tenantMode = .autoMode)
    (hsubject : s.tenantSubjectHeader = "") (hclosed : HeaderFailClosed s) :
    s.tenantHeader = "" ∧ ∃ e, normalizeTenant s none = .error e := by
  have hserved (h : List (String × String)) := (hclosed h).1
  simp only [resolveTenant_raw hmode hsubject] at hserved
  by_cases hraw : s.tenantHeader = ""
  · refine ⟨hraw, ?_⟩
    rcases hserved [] with ⟨message, herror⟩ | ⟨k, _, hk, _⟩
    · exact ⟨_, by simpa [header, hraw] using herror⟩
    · exfalso
      rcases hk with hnone | hgroup
      · simp [header] at hnone
      · simp [header, groups_none] at hgroup
  · exfalso
    obtain ⟨hone, htwo, hgroups₁, hgroups₂⟩ := raw_header_values s
    -- With the raw value as only header, the caller presents the group `a` or nothing at all.
    have hmapped {value result : String} (hgroups : groups (some value) = ["a"])
        (hresult : normalizeTenant s (some value) = .ok result) :
        ∃ tenant, dictGet s.tenantMap "a" = some tenant ∧
          normalizeTenant s (some tenant) = .ok result := by
      have hheader : header [(s.tenantHeader, value)] s.tenantHeader = some value := by
        simp [header, hraw]
      have hfrom := hserved [(s.tenantHeader, value)]
      rw [hheader, hresult] at hfrom
      rcases hfrom with ⟨message, herror⟩ | ⟨k, tenant, hk, hget, heq⟩
      · cases herror
      · rw [presented_single hsubject hgroups hk] at hget
        exact ⟨tenant, hget, heq.symm⟩
    obtain ⟨tenant₁, hget₁, hresult₁⟩ := hmapped hgroups₁ hone
    obtain ⟨tenant₂, hget₂, hresult₂⟩ := hmapped hgroups₂ htwo
    rw [hget₁, Option.some.injEq] at hget₂
    rw [hget₂, hresult₂] at hresult₁
    exact absurd hresult₁ (by decide)

/-- Under a map, the header path fails closed exactly when it consults the map (or serves no
request at all), and the claims path on exactly the claims that the lookup can read. -/
theorem provisioning_fails_closed_iff [Sha256] (s : Settings) :
    (HeaderProvisioned s → (HeaderFailClosed s ↔ HeaderConsultsMap s)) ∧
      (ClaimsProvisioned s → ∀ c, ClaimsFailClosed s c ↔ ClaimsReadable s c) := by
  refine ⟨fun hs => ⟨fun hclosed => ?_, ?_⟩, fun hs c => claimsFailClosed_iff hs c⟩
  · rcases hs with hmode | ⟨hmode, _⟩
    · exact Or.inl hmode
    · by_cases hsubject : s.tenantSubjectHeader = ""
      · exact Or.inr (Or.inr (rejects_of_headerFailClosed hmode hsubject hclosed))
      · exact Or.inr (Or.inl hsubject)
  · rintro (hmode | hsubject | ⟨hraw, e, herror⟩)
    · exact headerFailClosed_of_consults hs (Or.inl hmode)
    · exact headerFailClosed_of_consults hs (Or.inr hsubject)
    · by_cases hmap : s.tenantMode = .mappedMode ∨ s.tenantSubjectHeader ≠ ""
      · exact headerFailClosed_of_consults hs hmap
      · simp only [not_or, not_not] at hmap
        have hmode : s.tenantMode = .autoMode := by
          rcases hs with h | ⟨h, _⟩
          · exact absurd h hmap.1
          · exact h
        have hresolve (h : List (String × String)) : resolveTenant s h = .error e := by
          rw [resolveTenant_raw hmode hmap.2, hraw]
          exact herror
        intro h
        have hcls := normalizeTenant_error herror
        obtain ⟨cls, message⟩ := e
        simp only at hcls
        subst hcls
        exact ⟨Or.inl ⟨message, hresolve h⟩, fun h' _ _ => by rw [hresolve, hresolve]⟩

end

section

attribute [local instance] asciiPython constantSha256

/-- An `auto` deployment with a map of groups and a group header, and no subject header. -/
def groupHeaderOnly : Settings where
  tenantMap := [("team", "acme")]
  tenantGroupHeader := "x-groups"

/-- A caller in the mapped group `team` picks another tenant with the raw tenant header. -/
theorem groupHeaderOnly_not_failClosed :
    HeaderProvisioned groupHeaderOnly ∧
      resolveTenant groupHeaderOnly
        [("x-groups", "team"), ("x-memcove-tenant", "victim")] = .ok "t_victim" ∧
      ¬ HeaderFailClosed groupHeaderOnly := by
  have hprovisioned : HeaderProvisioned groupHeaderOnly := Or.inr ⟨rfl, Or.inl (by decide)⟩
  have hvictim : resolveTenant groupHeaderOnly
      [("x-groups", "team"), ("x-memcove-tenant", "victim")] = .ok "t_victim" := by rfl
  refine ⟨hprovisioned, hvictim, fun hclosed => ?_⟩
  have hfrom := (hclosed [("x-groups", "team"), ("x-memcove-tenant", "victim")]).1
  rw [hvictim] at hfrom
  rcases hfrom with ⟨message, herror⟩ | ⟨k, tenant, _, hget, heq⟩
  · cases herror
  · have hentry := dictGet_mem hget
    simp only [groupHeaderOnly, List.mem_singleton, Prod.mk.injEq] at hentry
    rw [hentry.2] at heq
    exact absurd heq (by decide)

/-- With a subject header configured the same deployment fails closed, on both paths. -/
theorem subjectHeader_failClosed :
    HeaderFailClosed
        { groupHeaderOnly with tenantSubjectHeader := "x-user" } ∧
      ClaimsFailClosed
        { groupHeaderOnly with tenantSubjectHeader := "x-user" } [("sub", .str "alice")] := by
  obtain ⟨hheader, hclaims⟩ := provisioning_fails_closed_iff
    { groupHeaderOnly with tenantSubjectHeader := "x-user" }
  constructor
  · refine (hheader (Or.inr ⟨rfl, Or.inr (by decide)⟩)).mpr (Or.inr (Or.inl (by decide)))
  · refine (hclaims (Or.inr ⟨rfl, by decide⟩) _).mpr ⟨fun _ => rfl, fun _ => ⟨[], rfl, rfl⟩⟩

end

end Memcove
