import Memcove.Core.Tenancy
import Mathlib.Data.Set.Function

/-!
# Private mode

In `private` mode every identity gets the namespace `t_u<digest>`. The header path hashes the
subject header, and the claims path the printed value of the tenant claim or, when that is empty,
of `sub`. What separates two users of the claims path is therefore the printed value alone.
-/

namespace Memcove

/-- A lower-case hexadecimal digit. -/
def isHexDigit (c : Char) : Bool := ('0' ≤ c && c ≤ '9') || ('a' ≤ c && c ≤ 'f')

/-- What `hexdigest()[:16]` is documented to return: 16 lower-case hexadecimal digits. -/
def HexDigests [Sha256] : Prop :=
  ∀ s, (∀ c ∈ (Sha256.digest16 s).toList, isHexDigit c = true) ∧
    (Sha256.digest16 s).toList.length = 16

/-- Two requests that resolve to the same namespace. -/
def SameNamespace (r r' : PyM String) : Prop := ∃ name, r = .ok name ∧ r' = .ok name

/-- A request that is rejected. -/
def Rejected (r : PyM String) : Prop := ∃ e, r = .error e ∧ e.cls = .tenancyError

/-- A verified identity: the claim that supplied it, and its value. -/
structure Identity where
  claim : String
  value : Json

/-- Two identities from the same claim whose values differ at most in the order of keys. -/
def Identity.Same (i i' : Identity) : Prop := i.claim = i'.claim ∧ i.value.SameUpToOrder i'.value

/-- The identity of a claims dictionary: the configured tenant claim, else `sub`. -/
def claimsIdentity (settings : Settings) (claims : List (String × Json)) : Option Identity :=
  let value := Json.get claims settings.oauthTenantClaim
  let subject := Json.get claims "sub"
  if value.truthy then some ⟨settings.oauthTenantClaim, value⟩
  else if subject.truthy then some ⟨"sub", subject⟩
  else none

/-- A hexadecimal digit is a name character. -/
theorem isNameChar_of_isHexDigit {c : Char} (h : isHexDigit c = true) : isNameChar c = true := by
  simp only [isHexDigit, Bool.or_eq_true, Bool.and_eq_true, decide_eq_true_eq] at h
  simp only [isNameChar, Bool.or_eq_true, Bool.and_eq_true, decide_eq_true_eq]
  rcases h with h | h
  · exact Or.inl (Or.inr h)
  · exact Or.inl (Or.inl ⟨h.1, le_trans h.2 (by decide)⟩)

/-- A rejected request shares no namespace. -/
theorem Rejected.not_same {r r' : PyM String} (h : Rejected r) : ¬ SameNamespace r r' := by
  rintro ⟨name, hok, _⟩
  obtain ⟨e, herror, _⟩ := h
  rw [herror] at hok
  cases hok

/-- Sharing a namespace is symmetric. -/
theorem SameNamespace.symm {r r' : PyM String} (h : SameNamespace r r') : SameNamespace r' r := by
  obtain ⟨name, hr, hr'⟩ := h
  exact ⟨name, hr', hr⟩

section

variable [Python]

/-- The subject header of a request; an empty one is none. -/
def headerIdentity (settings : Settings) (headers : List (String × String)) : Option String :=
  (header headers settings.tenantSubjectHeader).filter (· != "")

variable [Sha256]

/-- Two requests on the header path share a namespace exactly when their subjects are equal, and
one without a subject is rejected. -/
def HeadersIsolated (settings : Settings) (headers headers' : List (String × String)) : Prop :=
  (SameNamespace (resolveTenant settings headers) (resolveTenant settings headers') ↔
    ∃ subject, headerIdentity settings headers = some subject ∧
      headerIdentity settings headers' = some subject) ∧
  (headerIdentity settings headers = none → Rejected (resolveTenant settings headers))

/-- Two requests on the claims path share a namespace exactly when their identities are the same,
and one without an identity is rejected. -/
def ClaimsIsolated (settings : Settings) (claims claims' : List (String × Json)) : Prop :=
  (SameNamespace (resolveTenantFromClaims settings claims)
      (resolveTenantFromClaims settings claims') ↔
    ∃ i i', claimsIdentity settings claims = some i ∧ claimsIdentity settings claims' = some i' ∧
      i.Same i') ∧
  (claimsIdentity settings claims = none → Rejected (resolveTenantFromClaims settings claims))

/-- The namespace of an identity in private mode. -/
theorem privateTenant_eq (hhex : HexDigests) (settings : Settings) (identity : String) :
    privateTenant settings identity = .ok ("t_u" ++ Sha256.digest16 identity) := by
  obtain ⟨hdigits, hlength⟩ := hhex identity
  have htext : ("t_u" ++ Sha256.digest16 identity).toList =
      't' :: '_' :: 'u' :: (Sha256.digest16 identity).toList := by
    rw [String.toList_append]
    rfl
  have hchars : ∀ c ∈ 'u' :: (Sha256.digest16 identity).toList, isNameChar c = true := by
    intro c hc
    rcases List.mem_cons.mp hc with rfl | hc
    · decide
    · exact isNameChar_of_isHexDigit (hdigits c hc)
  have hcandidate : tenantCandidate settings (some ("u" ++ Sha256.digest16 identity)) =
      "u" ++ Sha256.digest16 identity := by
    refine tenantCandidate_eq_self (fun hempty => ?_) (by rwa [String.toList_append])
    have hnil := congrArg String.toList hempty
    rw [String.toList_append] at hnil
    cases hnil
  have hletter : ("u" ++ Sha256.digest16 identity).toList.any
      (fun c => isLowerLetter c || ('0' ≤ c && c ≤ '9')) = true := by
    rw [String.toList_append]
    rfl
  have hprefix : prefixTenant ("u" ++ Sha256.digest16 identity) =
      "t_u" ++ Sha256.digest16 identity := by
    have hnone : ['t', '_'].isPrefixOf ("u" ++ Sha256.digest16 identity).toList = false := by
      rw [String.toList_append]
      rfl
    rw [prefixTenant, hnone, if_neg (by decide), ← String.append_assoc]
    rfl
  have hall : ∀ c ∈ 't' :: '_' :: 'u' :: (Sha256.digest16 identity).toList,
      isNameChar c = true := by
    intro c hc
    rcases List.mem_cons.mp hc with rfl | hc
    · decide
    · rcases List.mem_cons.mp hc with rfl | hc
      · decide
      · exact hchars c hc
  have hre : matchesTenantRe ("t_u" ++ Sha256.digest16 identity) = true := by
    rw [matchesTenantRe_cons htext hall]
    simp only [List.length_cons, hlength]
    decide
  simp only [privateTenant, normalizeTenant, hcandidate, hletter, hprefix, hre, Bool.not_true,
    Bool.false_eq_true, if_false]

/-- Two identities share a namespace exactly when their digests are equal. -/
theorem sameNamespace_privateTenant (hhex : HexDigests) {settings : Settings} {a b : String} :
    SameNamespace (privateTenant settings a) (privateTenant settings b) ↔
      Sha256.digest16 a = Sha256.digest16 b := by
  rw [privateTenant_eq hhex, privateTenant_eq hhex]
  constructor
  · rintro ⟨name, ha, hb⟩
    have heq : "t_u" ++ Sha256.digest16 a = "t_u" ++ Sha256.digest16 b := by
      rw [Except.ok.inj ha, Except.ok.inj hb]
    have hlist := congrArg String.toList heq
    rw [String.toList_append, String.toList_append] at hlist
    exact String.toList_inj.mp (List.append_cancel_left hlist)
  · intro heq
    exact ⟨_, rfl, by rw [heq]⟩

/-- The header path in private mode, by the subject. -/
theorem resolveTenant_private {settings : Settings} (hmode : settings.tenantMode = .privateMode)
    (headers : List (String × String)) :
    (∃ subject, headerIdentity settings headers = some subject ∧
        resolveTenant settings headers = privateTenant settings subject) ∨
      (headerIdentity settings headers = none ∧ Rejected (resolveTenant settings headers)) := by
  simp only [resolveTenant, hmode, headerIdentity, reduceCtorEq, if_false, if_true]
  cases hheader : header headers settings.tenantSubjectHeader with
  | none => exact Or.inr ⟨rfl, _, rfl, rfl⟩
  | some subject =>
    by_cases hempty : subject = ""
    · subst hempty
      exact Or.inr ⟨rfl, _, rfl, rfl⟩
    · refine Or.inl ⟨subject, ?_, if_neg hempty⟩
      simpa using hempty

/-- The claims path in private mode, by the identity. -/
theorem resolveTenantFromClaims_private {settings : Settings}
    (hmode : settings.tenantMode = .privateMode) (claims : List (String × Json)) :
    (∃ i, claimsIdentity settings claims = some i ∧
        resolveTenantFromClaims settings claims = privateTenant settings i.value.toStr) ∨
      (claimsIdentity settings claims = none ∧
        Rejected (resolveTenantFromClaims settings claims)) := by
  simp only [resolveTenantFromClaims, hmode, claimsIdentity, Json.orElse, reduceCtorEq, if_false,
    if_true]
  by_cases hvalue : (Json.get claims settings.oauthTenantClaim).truthy = true
  · simp only [hvalue, if_true]
    exact Or.inl ⟨_, rfl, rfl⟩
  · by_cases hsubject : (Json.get claims "sub").truthy = true
    · simp only [hvalue, hsubject, if_true, Bool.false_eq_true, if_false]
      exact Or.inl ⟨_, rfl, rfl⟩
    · simp only [hvalue, hsubject, Bool.false_eq_true, if_false]
      exact Or.inr ⟨trivial, _, rfl, rfl⟩

/-- On the header path, private mode isolates subjects that the digest tells apart. -/
theorem headersIsolated (hhex : HexDigests) {settings : Settings}
    (hmode : settings.tenantMode = .privateMode) {headers headers' : List (String × String)}
    (hinj : ∀ a b, headerIdentity settings headers = some a →
      headerIdentity settings headers' = some b →
        Sha256.digest16 a = Sha256.digest16 b → a = b) :
    HeadersIsolated settings headers headers' := by
  constructor
  · rcases resolveTenant_private hmode headers with ⟨a, ha, hresult⟩ | ⟨ha, hrejected⟩
    · rcases resolveTenant_private hmode headers' with ⟨b, hb, hresult'⟩ | ⟨hb, hrejected⟩
      · rw [hresult, hresult', sameNamespace_privateTenant hhex, ha, hb]
        constructor
        · intro hdigest
          exact ⟨a, rfl, by rw [hinj a b ha hb hdigest]⟩
        · rintro ⟨subject, hsubject, hsubject'⟩
          cases hsubject
          cases hsubject'
          rfl
      · have hnot : ¬ SameNamespace (resolveTenant settings headers)
            (resolveTenant settings headers') := fun h => hrejected.not_same h.symm
        simp [hb, hnot]
    · simp [ha, hrejected.not_same]
  · intro hnone
    rcases resolveTenant_private hmode headers with ⟨a, ha, _⟩ | ⟨_, hrejected⟩
    · rw [hnone] at ha
      cases ha
    · exact hrejected

/-- On the claims path, private mode isolates two requests exactly when their identities are the
same as often as they are printed the same. -/
theorem claimsIsolated_iff (hhex : HexDigests) {settings : Settings}
    (hmode : settings.tenantMode = .privateMode) {claims claims' : List (String × Json)}
    (hinj : ∀ i i', claimsIdentity settings claims = some i →
      claimsIdentity settings claims' = some i' →
        Sha256.digest16 i.value.toStr = Sha256.digest16 i'.value.toStr →
          i.value.toStr = i'.value.toStr) :
    ClaimsIsolated settings claims claims' ↔
      ∀ i i', claimsIdentity settings claims = some i → claimsIdentity settings claims' = some i' →
        (i.value.toStr = i'.value.toStr ↔ i.Same i') := by
  have hrejects : claimsIdentity settings claims = none →
      Rejected (resolveTenantFromClaims settings claims) := by
    intro hnone
    rcases resolveTenantFromClaims_private hmode claims with ⟨i, hi, _⟩ | ⟨_, hrejected⟩
    · rw [hnone] at hi
      cases hi
    · exact hrejected
  rw [ClaimsIsolated, and_iff_left hrejects]
  rcases resolveTenantFromClaims_private hmode claims with ⟨i, hi, hresult⟩ | ⟨hi, hrejected⟩
  · rcases resolveTenantFromClaims_private hmode claims' with
      ⟨i', hi', hresult'⟩ | ⟨hi', hrejected⟩
    · have hdigest : Sha256.digest16 i.value.toStr = Sha256.digest16 i'.value.toStr ↔
          i.value.toStr = i'.value.toStr := ⟨hinj i i' hi hi', fun h => by rw [h]⟩
      rw [hresult, hresult', sameNamespace_privateTenant hhex, hdigest]
      simp [hi, hi']
    · have hnot : ¬ SameNamespace (resolveTenantFromClaims settings claims)
          (resolveTenantFromClaims settings claims') := fun h => hrejected.not_same h.symm
      simp [hi', hnot]
  · simp [hi, hrejected.not_same]

/-- Private mode isolates the users of two header requests and of two token requests exactly when
the two token identities are printed the same only if they are the same. -/
theorem private_isolates_iff (hhex : HexDigests) {settings : Settings}
    (hmode : settings.tenantMode = .privateMode) {considered : Set String}
    (hinj : Set.InjOn Sha256.digest16 considered)
    {headers headers' : List (String × String)} {claims claims' : List (String × Json)}
    (hheaders : ∀ a, headerIdentity settings headers = some a ∨
      headerIdentity settings headers' = some a → a ∈ considered)
    (hclaims : ∀ i, claimsIdentity settings claims = some i ∨
      claimsIdentity settings claims' = some i → i.value.toStr ∈ considered) :
    (HeadersIsolated settings headers headers' ∧ ClaimsIsolated settings claims claims') ↔
      ∀ i i', claimsIdentity settings claims = some i → claimsIdentity settings claims' = some i' →
        (i.value.toStr = i'.value.toStr ↔ i.Same i') := by
  have hheader : HeadersIsolated settings headers headers' :=
    headersIsolated hhex hmode (fun a b ha hb h =>
      hinj (hheaders a (Or.inl ha)) (hheaders b (Or.inr hb)) h)
  rw [and_iff_right hheader]
  exact claimsIsolated_iff hhex hmode (fun i i' hi hi' h =>
    hinj (hclaims i (Or.inl hi)) (hclaims i' (Or.inr hi')) h)

end

section

attribute [local instance] asciiPython

/-- A digest that tells `alice` from everybody else. -/
@[reducible] def aliceSha256 : Sha256 :=
  ⟨fun s => if s = "alice" then "00000000000000a1" else "00000000000000b2"⟩

attribute [local instance] aliceSha256

/-- Its digests are hexadecimal. -/
theorem aliceSha256_hex : HexDigests := by
  have hboth : ∀ digest ∈ ["00000000000000a1", "00000000000000b2"],
      digest.toList.all isHexDigit = true ∧ digest.toList.length = 16 := by decide
  intro s
  rw [← List.all_eq_true]
  apply hboth
  by_cases hs : s = "alice"
  · subst hs
    decide
  · have hdigest : Sha256.digest16 s = "00000000000000b2" := if_neg hs
    simp [hdigest]

/-- Private mode with users identified by the claim `user`. -/
def userClaimSettings : Settings where
  tenantMode := .privateMode
  tenantSubjectHeader := "x-subject"
  oauthTenantClaim := "user"

/-- A user `alice` of the tenant claim and a user whose `sub` is `alice` share a namespace. -/
theorem subFallback_not_isolated :
    Set.InjOn Sha256.digest16 {"alice"} ∧
      claimsIdentity userClaimSettings [("user", .str "alice"), ("sub", .str "1")] =
        some ⟨"user", .str "alice"⟩ ∧
      claimsIdentity userClaimSettings [("sub", .str "alice")] = some ⟨"sub", .str "alice"⟩ ∧
      ¬ ClaimsIsolated userClaimSettings [("user", .str "alice"), ("sub", .str "1")]
        [("sub", .str "alice")] := by
  refine ⟨Set.injOn_singleton _ _, rfl, rfl, fun h => ?_⟩
  have hsame : SameNamespace
      (resolveTenantFromClaims userClaimSettings [("user", .str "alice"), ("sub", .str "1")])
      (resolveTenantFromClaims userClaimSettings [("sub", .str "alice")]) :=
    ⟨"t_u00000000000000a1", by decide +kernel, by decide +kernel⟩
  obtain ⟨i, i', hi, hi', hclaim, _⟩ := h.1.mp hsame
  cases hi
  cases hi'
  exact absurd hclaim (by decide)

/-- Users whose identities come from the same claim as different texts are isolated. -/
theorem userClaim_isolated :
    HeadersIsolated userClaimSettings [("X-Subject", "alice")]
        [("x-memcove-tenant", "t_alice"), ("x-subject", "bob")] ∧
      ClaimsIsolated userClaimSettings [("user", .str "alice")]
        [("user", .str "bob"), ("sub", .str "alice")] := by
  have hinj : Set.InjOn Sha256.digest16 {"alice", "bob"} := by
    intro a ha b hb h
    rcases ha with rfl | rfl <;> rcases hb with rfl | rfl
    · rfl
    · exact absurd h (by decide)
    · exact absurd h (by decide)
    · rfl
  refine (private_isolates_iff aliceSha256_hex rfl hinj ?_ ?_).mpr ?_
  · intro a ha
    rcases ha with ha | ha
    · exact Or.inl (Option.some.inj (ha.symm.trans (by decide +kernel)))
    · exact Or.inr (Option.some.inj (ha.symm.trans (by decide +kernel)))
  · intro i hi
    rcases hi with hi | hi
    · cases hi
      exact Or.inl rfl
    · cases hi
      exact Or.inr rfl
  · intro i i' hi hi'
    cases hi
    cases hi'
    constructor
    · intro htext
      exact absurd htext (by decide)
    · rintro ⟨_, hvalue⟩
      exact absurd (Json.str.inj hvalue) (by decide)

end

end Memcove
