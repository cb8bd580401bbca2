import Memcove.Python

/-!
# Names that are safe as Iceberg identifiers

Tenant namespaces and dataset labels are both built from `[a-z0-9_]`. This file has that
alphabet and `core/naming.py`, whose `validateLabel` every tool calls before it uses a label.
-/

namespace Memcove

/-- A character of an Iceberg-safe name, `[a-z0-9_]`. -/
def isNameChar (c : Char) : Bool :=
  ('a' ≤ c && c ≤ 'z') || ('0' ≤ c && c ≤ '9') || c == '_'

/-- A character of `[a-z]`. -/
def isLowerLetter (c : Char) : Bool := 'a' ≤ c && c ≤ 'z'

/-- Name characters are ASCII, lower case and no white space. -/
theorem isNameChar_plain {c : Char} (h : isNameChar c = true) :
    (c.val < 128 ∧ c.toLower = c) ∧ isSpace c = false := by
  simp only [isNameChar, Bool.or_eq_true, Bool.and_eq_true, decide_eq_true_eq, beq_iff_eq,
    Char.le_def] at h
  have hbound : 48 ≤ c.val.toNat ∧ c.val.toNat ≤ 122 ∧ ¬ (65 ≤ c.val.toNat ∧ c.val.toNat ≤ 90) := by
    rcases h with (⟨h₁, h₂⟩ | ⟨h₁, h₂⟩) | rfl
    · have h₁' : 97 ≤ c.val.toNat := h₁
      have h₂' : c.val.toNat ≤ 122 := h₂
      omega
    · have h₁' : 48 ≤ c.val.toNat := h₁
      have h₂' : c.val.toNat ≤ 57 := h₂
      omega
    · decide
  obtain ⟨hlow, hhigh, hupper⟩ := hbound
  refine ⟨⟨?_, ?_⟩, ?_⟩
  · exact UInt32.lt_iff_toNat_lt.mpr (by change c.val.toNat < 128; omega)
  · unfold Char.toLower
    rw [dif_neg]
    intro hc
    exact hupper hc
  · have hn : c.toNat = c.val.toNat := rfl
    simp only [isSpace, hn, Bool.or_eq_false_iff, Bool.and_eq_false_iff, decide_eq_false_iff_not,
      beq_eq_false_iff_ne]
    omega

/-- Python's `$` has nothing to skip at the end of a text of name characters. -/
theorem beforeDollar_nameChars {s : List Char} (h : ∀ c ∈ s, isNameChar c = true) :
    beforeDollar s = s := by
  rw [beforeDollar, if_neg]
  intro hlast
  exact absurd (h _ (List.mem_of_getLast? hlast)) (by decide)

/-- `^[a-z][a-z0-9_]{0,127}$`, the pattern `_LABEL_RE`. -/
def matchesLabelRe (candidate : String) : Bool :=
  match beforeDollar candidate.toList with
  | [] => false
  | c :: rest => isLowerLetter c && rest.all isNameChar && rest.length ≤ 127

/-- The rejection of a label, which is shown as `repr` has it. -/
def invalidLabel (shown : String) : PyM String :=
  raise .memcoveError
    (s!"invalid label {shown}: use lowercase letters, digits and underscores, " ++
      "starting with a letter (max 128 chars)")

/-- `naming.validate_label`. -/
def validateLabel [Python] (label : String) : PyM String :=
  let candidate := lower (strip label)
  if matchesLabelRe candidate then .ok candidate else invalidLabel (Python.repr label)

/-- The shape of a validated label: a lower-case letter and at most 127 name characters. -/
def IsLabel (label : String) : Prop :=
  ∃ c rest, label.toList = c :: rest ∧ isLowerLetter c = true ∧
    (∀ d ∈ rest, isNameChar d = true) ∧ rest.length ≤ 127

/-- The letters are name characters. -/
theorem isNameChar_of_isLowerLetter {c : Char} (h : isLowerLetter c = true) :
    isNameChar c = true := by
  simp only [isLowerLetter] at h
  simp [isNameChar, h]

/-- A label is made of name characters. -/
theorem IsLabel.nameChars {label : String} (h : IsLabel label) :
    ∀ d ∈ label.toList, isNameChar d = true := by
  obtain ⟨c, rest, htext, hc, hrest, _⟩ := h
  rw [htext]
  exact List.forall_mem_cons.mpr ⟨isNameChar_of_isLowerLetter hc, hrest⟩

/-- A label is not empty. -/
theorem IsLabel.ne_empty {label : String} (h : IsLabel label) : label ≠ "" := by
  rintro rfl
  obtain ⟨c, rest, htext, _⟩ := h
  simp at htext

/-- A label is in lower case. -/
theorem IsLabel.lower_eq [Python] {label : String} (h : IsLabel label) : lower label = label :=
  lower_eq_self (fun d hd => (isNameChar_plain (h.nameChars d hd)).1)

/-- A validated label passes validation again and keeps its spelling. -/
theorem validateLabel_label [Python] {label : String} (h : IsLabel label) :
    validateLabel label = .ok label := by
  have hstrip : strip label = label :=
    strip_eq_self (fun d hd => (isNameChar_plain (h.nameChars d hd)).2)
  have hdollar : beforeDollar label.toList = label.toList := beforeDollar_nameChars h.nameChars
  have hlower := h.lower_eq
  obtain ⟨c, rest, htext, hc, hrest, hlength⟩ := h
  rw [htext] at hdollar
  have hall : rest.all isNameChar = true := List.all_eq_true.mpr hrest
  have hre : matchesLabelRe label = true := by
    simp only [matchesLabelRe, htext, hdollar, hc, hall, Bool.true_and, decide_eq_true_eq]
    exact hlength
  simp only [validateLabel, hstrip, hlower, hre, if_true]

/-- Every label that validation returns is a validated label. -/
theorem validateLabel_ok [Python] {label name : String} (h : validateLabel label = .ok name) :
    IsLabel name := by
  unfold validateLabel invalidLabel raise at h
  dsimp only at h
  split at h
  · rename_i hre
    cases h
    have hlast : (lower (strip label)).toList.getLast? ≠ some '\n' := by
      intro hnewline
      exact absurd (strip_getLast (Python.lower_newline _ hnewline)) (by decide)
    rw [matchesLabelRe, beforeDollar, if_neg hlast] at hre
    cases htext : (lower (strip label)).toList with
    | nil => simp [htext] at hre
    | cons c rest =>
      rw [htext] at hre
      simp only [Bool.and_eq_true, List.all_eq_true, decide_eq_true_eq] at hre
      exact ⟨c, rest, htext, hre.1.1, hre.1.2, hre.2⟩
  · cases h

end Memcove
