import Memcove.Core.PrivateMode
import Memcove.Core.Provisioning

/-!
# One rule behind two entry points

A caller is known by a subject and by groups, which arrive as two request headers or as two token
claims. The groups of a header are joined by commas. In the modes that look at no other header or
claim both entry points end in the same namespace, or both reject the caller.
-/

namespace Memcove

open Json

/-- A subject, and group names that a comma-separated header can carry. -/
structure Profile where
  subject : String
  memberOf : List String
  named : ∀ group ∈ memberOf, group ≠ "" ∧ ',' ∉ group.toList ∧ strip group = group

/-- The claims hold the subject and the groups; an empty list of groups is not made up for by
`roles`. -/
structure Profile.InClaims (p : Profile) (claims : List (String × Json)) : Prop where
  subject : get claims "sub" = .str p.subject
  memberOf : get claims "groups" = .arr (p.memberOf.map .str)
  roles : p.memberOf = [] → (get claims "roles").truthy = false

/-- Splitting undoes joining. -/
theorem splitComma_intercalate {names : List String} (hnames : names ≠ [])
    (h : ∀ name ∈ names, ',' ∉ name.toList) : splitComma (",".intercalate names) = names := by
  have hjoin : (",".intercalate names).toList = [','].intercalate (names.map String.toList) := by
    rw [String.toList_intercalate]
    rfl
  have hsplit : ([','].intercalate (names.map String.toList)).splitOn ',' =
      names.map String.toList := by
    refine List.splitOn_intercalate ',' ?_ (by simpa using hnames)
    intro text htext
    obtain ⟨name, hname, rfl⟩ := List.mem_map.mp htext
    exact h name hname
  rw [splitComma, hjoin, hsplit, List.map_map]
  exact (List.map_congr_left (fun name _ => String.ofList_toList)).trans (List.map_id _)

/-- The groups of a header are those that were joined. -/
theorem Profile.groups_header (p : Profile) :
    groups (some (",".intercalate p.memberOf)) = p.memberOf := by
  by_cases hnone : p.memberOf = []
  · rw [hnone]
    decide
  · rw [groups, Option.getD_some,
      splitComma_intercalate hnone (fun group hgroup => (p.named group hgroup).2.1)]
    have hstrip : p.memberOf.map strip = p.memberOf := by
      conv_rhs => rw [← List.map_id p.memberOf]
      exact List.map_congr_left (fun group hgroup => (p.named group hgroup).2.2)
    rw [hstrip]
    exact List.filter_eq_self.mpr (fun group hgroup => by simpa using (p.named group hgroup).1)

/-- The groups of the claims are those of the profile. -/
theorem Profile.InClaims.claimedGroups {p : Profile} {claims : List (String × Json)}
    (h : p.InClaims claims) : claimedGroups claims = .arr (p.memberOf.map .str) := by
  rw [Memcove.claimedGroups, h.memberOf]
  by_cases hnone : p.memberOf = []
  · have hroles := h.roles hnone
    have hempty : (Json.arr []).truthy = false := rfl
    rw [hnone]
    simp only [orElse, List.map_nil, hempty, hroles, Bool.false_eq_true, if_false, listOfStr]
  · simp [orElse, truthy, hnone, listOfStr]

section

variable [Python]

/-- The first header of the name has the value. -/
def HoldsHeader (headers : List (String × String)) (name value : String) : Prop :=
  ∃ before key after, headers = before ++ (key, value) :: after ∧ lower key = lower name ∧
    ∀ h ∈ before, lower h.1 ≠ lower name

/-- The headers hold the subject and the joined groups under the configured names. -/
structure Profile.InHeaders (p : Profile) (settings : Settings)
    (headers : List (String × String)) : Prop where
  subject : HoldsHeader headers settings.tenantSubjectHeader p.subject
  memberOf : HoldsHeader headers settings.tenantGroupHeader (",".intercalate p.memberOf)

/-- The lookup finds the first header of the name. -/
theorem HoldsHeader.header_eq {headers : List (String × String)} {name value : String}
    (h : HoldsHeader headers name value) (hname : name ≠ "") :
    header headers name = some value := by
  obtain ⟨before, key, after, rfl, hkey, hbefore⟩ := h
  have hnone : before.find? (fun h => lower h.1 == lower name) = none := by
    simpa [List.find?_eq_none] using hbefore
  rw [header, if_neg hname, List.find?_append, hnone, Option.none_or,
    List.find?_cons_of_pos (by simpa using hkey)]
  rfl

omit [Python] in
/-- A request and itself have one outcome, when it fails with `TenancyError` only. -/
theorem same_outcome_self {r : PyM String} (h : ∀ e, r = .error e → e.cls = .tenancyError) :
    SameNamespace r r ∨ (Rejected r ∧ Rejected r) := by
  cases hr : r with
  | ok name => exact Or.inl ⟨name, rfl, rfl⟩
  | error e => exact Or.inr ⟨⟨e, rfl, h e hr⟩, ⟨e, rfl, h e hr⟩⟩

/-- The map lookup of texts fails with `TenancyError` only. -/
theorem mappedTenant_texts_error {settings : Settings} {subject : Option String}
    {memberOf : List String} {e : PyError}
    (h : mappedTenant (optionalStr subject) (.arr (memberOf.map .str)) settings = .error e) :
    e.cls = .tenancyError := by
  rcases mappedTenant_fromMap (mapReadable_headers settings subject memberOf) with
    ⟨message, herror⟩ | ⟨k, tenant, _, _, hresult⟩
  · rw [herror] at h
    cases h
    rfl
  · rw [hresult] at h
    exact normalizeTenant_error h

/-- Both entry points resolve a caller to the same namespace, or both reject it. -/
theorem entryPoints_agree [Sha256] {settings : Settings}
    (hmode : settings.tenantMode = .sharedMode ∨ settings.tenantMode = .mappedMode ∨
      (settings.tenantMode = .privateMode ∧ settings.oauthTenantClaim = "sub"))
    (hsubject : settings.tenantSubjectHeader ≠ "") (hgroup : settings.tenantGroupHeader ≠ "")
    {p : Profile} {headers : List (String × String)} {claims : List (String × Json)}
    (hheaders : p.InHeaders settings headers) (hclaims : p.InClaims claims) :
    SameNamespace (resolveTenant settings headers) (resolveTenantFromClaims settings claims) ∨
      (Rejected (resolveTenant settings headers) ∧
        Rejected (resolveTenantFromClaims settings claims)) := by
  have hsubjectHeader := hheaders.subject.header_eq hsubject
  have hgroupHeader := hheaders.memberOf.header_eq hgroup
  rcases hmode with hshared | hmapped | ⟨hprivate, hclaim⟩
  · simp only [resolveTenant, resolveTenantFromClaims, hshared, if_true]
    exact same_outcome_self (fun e he => normalizeTenant_error he)
  · have hpath : resolveTenant settings headers =
        mappedTenant (optionalStr (some p.subject)) (.arr (p.memberOf.map .str)) settings := by
      simp only [resolveTenant, hmapped, reduceCtorEq, if_false, hsubjectHeader, hgroupHeader,
        p.groups_header, true_or, if_true]
    have hpath' : resolveTenantFromClaims settings claims =
        mappedTenant (optionalStr (some p.subject)) (.arr (p.memberOf.map .str)) settings := by
      rw [resolveTenantFromClaims_provisioned (Or.inl hmapped), hclaims.claimedGroups,
        hclaims.subject]
      rfl
    rw [hpath, hpath']
    exact same_outcome_self (fun e he => mappedTenant_texts_error he)
  · by_cases hempty : p.subject = ""
    · refine Or.inr ⟨?_, ?_⟩
      · simp only [resolveTenant, hprivate, reduceCtorEq, if_false, if_true, hsubjectHeader, hempty]
        exact ⟨_, rfl, rfl⟩
      · simp only [resolveTenantFromClaims, hprivate, reduceCtorEq, if_false, if_true, hclaim,
          hclaims.subject, hempty]
        exact ⟨_, rfl, rfl⟩
    · have htruthy : (Json.str p.subject).truthy = true := by simpa [truthy] using hempty
      have hpath : resolveTenant settings headers = privateTenant settings p.subject := by
        simp only [resolveTenant, hprivate, reduceCtorEq, if_false, if_true, hsubjectHeader,
          hempty]
      have hpath' : resolveTenantFromClaims settings claims = privateTenant settings p.subject := by
        simp only [resolveTenantFromClaims, hprivate, reduceCtorEq, if_false, if_true, hclaim,
          hclaims.subject, orElse, htruthy, toStr]
      rw [hpath, hpath']
      exact same_outcome_self (fun e he => normalizeTenant_error he)

end

section

attribute [local instance] asciiPython constantSha256

/-- A map of one group. -/
def teamMapSettings : Settings where
  tenantMode := .mappedMode
  tenantSubjectHeader := "x-auth-subject"
  tenantGroupHeader := "x-auth-groups"
  tenantMap := [("research", "Lab")]

/-- A subject that is not mapped, in two groups. -/
def ada : Profile where
  subject := "ada"
  memberOf := ["staff", "research"]
  named := by decide

/-- The caller ends in the namespace of the mapped group on both paths. -/
theorem ada_agrees :
    SameNamespace
        (resolveTenant teamMapSettings
          [("X-Auth-Subject", "ada"), ("X-Auth-Groups", "staff,research")])
        (resolveTenantFromClaims teamMapSettings
          [("sub", .str "ada"), ("groups", .arr [.str "staff", .str "research"])]) ∨
      (Rejected (resolveTenant teamMapSettings
          [("X-Auth-Subject", "ada"), ("X-Auth-Groups", "staff,research")]) ∧
        Rejected (resolveTenantFromClaims teamMapSettings
          [("sub", .str "ada"), ("groups", .arr [.str "staff", .str "research"])])) := by
  refine entryPoints_agree (Or.inr (Or.inl rfl)) (by decide) (by decide) (p := ada) ⟨?_, ?_⟩
    ⟨rfl, rfl, fun h => by cases h⟩
  · exact ⟨[], "X-Auth-Subject", _, rfl, by decide, by simp⟩
  · exact ⟨[("X-Auth-Subject", "ada")], "X-Auth-Groups", [], rfl, by decide, by decide⟩

end

end Memcove
