import Memcove.Core.Shape
import Mathlib.Data.List.Infix

/-!
# Where the folding of types stops

`_norm_type` substitutes in the printed type as a whole. None of its patterns contains one of the
characters that separate the parts of a printed type, so it works on each part by itself, whether
the part is a keyword, the name of a field or a time zone.
-/

namespace Memcove

/-- A character at which every substitution stops: no match contains it, what follows it is
treated like the beginning of the text, and what precedes it like the end. -/
structure Cuts (find : Option Char → List Char → Option (List Char × ℕ)) (c : Char) : Prop where
  stops : ∀ before s, find before (c :: s) = none
  restarts : ∀ s, find (some c) s = find none s
  within : ∀ before x a s, find before (x :: a ++ c :: s) = find before (x :: a)
  length : ∀ before s r n, find before s = some (r, n) → n ≤ s.length

section

variable {find : Option Char → List Char → Option (List Char × ℕ)} {c : Char}

/-- After the character a substitution starts afresh. -/
theorem Cuts.substitute_restarts (h : Cuts find c) (s : List Char) :
    substitute find 0 (some c) s = substitute find 0 none s := by
  cases s with
  | nil => rfl
  | cons x s => simp only [substitute, h.restarts]

/-- A substitution works on both sides of the character separately. -/
theorem Cuts.substitute_append (h : Cuts find c) {n : ℕ} {before : Option Char}
    {a s : List Char} (hn : n ≤ a.length) :
    substitute find n before (a ++ c :: s) =
      substitute find n before a ++ c :: substitute find 0 none s := by
  induction a generalizing n before with
  | nil =>
    obtain rfl : n = 0 := Nat.le_zero.mp hn
    simp only [List.nil_append, substitute, h.stops, h.substitute_restarts]
  | cons x a ih =>
    cases n with
    | succ n => exact ih (Nat.le_of_succ_le_succ hn)
    | zero =>
      have hwithin := h.within before x a s
      rw [List.cons_append] at hwithin
      rw [List.cons_append, substitute, substitute, hwithin]
      cases hfind : find before (x :: a) with
      | none => exact congrArg (x :: ·) (ih (Nat.zero_le _))
      | some found =>
        have hlength := h.length before (x :: a) found.1 found.2 hfind
        have hrest : found.2 - 1 ≤ a.length := Nat.sub_le_of_le_add hlength
        simp only [ih hrest, List.append_assoc]

/-- A text without a match stays as it is. -/
theorem substitute_eq_self {before : Option Char} {s : List Char}
    (h : ∀ b, ∀ tail ∈ s.tails, find b tail = none) : substitute find 0 before s = s := by
  induction s generalizing before with
  | nil => rfl
  | cons x s ih =>
    rw [substitute, h before (x :: s) (by simp)]
    exact congrArg (x :: ·) (ih (fun b tail htail => h b tail (by simp [htail])))

/-- Two patterns tried one after the other. -/
theorem Cuts.orElse {find' : Option Char → List Char → Option (List Char × ℕ)} (h : Cuts find c)
    (h' : Cuts find' c) : Cuts (fun before s => find before s <|> find' before s) c where
  stops before s := by rw [h.stops, h'.stops]; rfl
  restarts s := by rw [h.restarts, h'.restarts]
  within before x a s := by rw [h.within, h'.within]
  length before s r n hfind := by
    cases hfirst : find before s with
    | some found =>
      rw [hfirst] at hfind
      cases hfind
      exact h.length before s r n hfirst
    | none =>
      rw [hfirst] at hfind
      exact h'.length before s r n hfind

end

/-- A text without the character is not found across it. -/
theorem isPrefixOf_append_cons {pattern a s : List Char} {c : Char} (hc : c ∉ pattern) :
    pattern.isPrefixOf (a ++ c :: s) = pattern.isPrefixOf a := by
  induction pattern generalizing a with
  | nil => rfl
  | cons y pattern ih =>
    rw [List.mem_cons, not_or] at hc
    cases a with
    | nil => simp [List.isPrefixOf, Ne.symm hc.1]
    | cons z a => simp only [List.cons_append, List.isPrefixOf, ih hc.2]

/-- A fixed text is not found across a character that it does not contain. -/
theorem findText_cuts {pattern replacement : String} {c : Char} (hne : pattern ≠ "")
    (hc : c ∉ pattern.toList) : Cuts (fun _ s => findText pattern replacement s) c where
  stops _ s := by
    have hprefix : pattern.toList.isPrefixOf (c :: s) = pattern.toList.isPrefixOf [] :=
      isPrefixOf_append_cons (a := []) hc
    cases hpattern : pattern.toList with
    | nil => exact absurd (String.toList_eq_nil_iff.mp hpattern) hne
    | cons y ys =>
      rw [hpattern] at hprefix
      rw [findText, hpattern, hprefix]
      rfl
  restarts _ := rfl
  within _ x a s := by rw [findText, findText, isPrefixOf_append_cons hc]
  length _ s r n h := by
    unfold findText at h
    split at h
    · rename_i hprefix
      cases h
      exact (List.isPrefixOf_iff_prefix.mp hprefix).length_le
    · cases h

/-- The characters between the parts of a printed type. -/
def delimiters : List Char := ['<', '>', ':', ' ', ',', '=', ']']

/-- A text in which a check finds no delimiter. -/
theorem not_mem_of_delimiter {text : List Char}
    (htext : delimiters.all (fun c => !text.contains c) = true) {c : Char} (hc : c ∈ delimiters) :
    c ∉ text := by
  simpa using List.all_eq_true.mp htext c hc

/-- `large_` contains no delimiter. -/
theorem findLarge_cuts {c : Char} (hc : c ∈ delimiters) : Cuts findLarge c :=
  findText_cuts (by decide) (not_mem_of_delimiter (by decide) hc)

/-- `timestamp[` and a unit contain no delimiter. -/
theorem findTimestamp_cuts {c : Char} (hc : c ∈ delimiters) : Cuts findTimestamp c :=
  (findText_cuts (by decide) (not_mem_of_delimiter (by decide) hc)).orElse
    ((findText_cuts (by decide) (not_mem_of_delimiter (by decide) hc)).orElse
      (findText_cuts (by decide) (not_mem_of_delimiter (by decide) hc)))

section

variable [Python]

/-- A delimiter is no part of a word. -/
theorem wordAt_delimiter {c : Char} (hc : c ∈ delimiters) : wordAt (some c) = false := by
  have hascii : delimiters.all (fun c =>
      decide (c.val < 128) && (!c.isAlphanum && !(c == '_'))) = true := by decide
  have hc := List.all_eq_true.mp hascii c hc
  simp only [Bool.and_eq_true, decide_eq_true_eq, Bool.not_eq_true'] at hc
  obtain ⟨hval, halnum, hunderscore⟩ := hc
  simp only [wordAt, Option.any_some, Python.isAlnum_ascii c hval, halnum, hunderscore,
    Bool.or_self]

/-- The character after a match, when the text goes on with a delimiter. -/
theorem wordAt_append {c : Char} (hc : c ∈ delimiters) {a s : List Char} {n : ℕ}
    (hn : n ≤ a.length) : wordAt ((a ++ c :: s)[n]?) = wordAt (a[n]?) := by
  rcases Nat.lt_or_eq_of_le hn with hlt | rfl
  · rw [List.getElem?_append_left hlt]
  · rw [List.getElem?_append_right (Nat.le_refl _), Nat.sub_self, List.getElem?_cons_zero,
      List.getElem?_eq_none (Nat.le_refl _), wordAt_delimiter hc]
    rfl

/-- A keyword that ends at a word boundary, when the text goes on with a delimiter. -/
theorem findWord_append {word : String} {c : Char} (hc : c ∈ delimiters) (hword : c ∉ word.toList)
    (a s : List Char) :
    (word.toList.isPrefixOf (a ++ c :: s) && !wordAt ((a ++ c :: s)[word.length]?)) =
      (word.toList.isPrefixOf a && !wordAt (a[word.length]?)) := by
  rw [isPrefixOf_append_cons hword]
  cases hprefix : word.toList.isPrefixOf a with
  | false => rfl
  | true =>
    have hlength := (List.isPrefixOf_iff_prefix.mp hprefix).length_le
    rw [String.length_toList] at hlength
    rw [wordAt_append hc hlength]

/-- `\bint(8|16)\b` contains no delimiter, and the word ends at one. -/
theorem findInt_cuts {c : Char} (hc : c ∈ delimiters) : Cuts findInt c := by
  have h8 : c ∉ "int8".toList := not_mem_of_delimiter (by decide) hc
  have h16 : c ∉ "int16".toList := not_mem_of_delimiter (by decide) hc
  have hwithin (before : Option Char) (a s : List Char) :
      findInt before (a ++ c :: s) = findInt before a := by
    have hword8 := findWord_append hc h8 a s
    have hword16 := findWord_append hc h16 a s
    change (_ && !wordAt ((a ++ c :: s)[4]?)) = (_ && !wordAt (a[4]?)) at hword8
    change (_ && !wordAt ((a ++ c :: s)[5]?)) = (_ && !wordAt (a[5]?)) at hword16
    rw [findInt, findInt, hword8, hword16]
  constructor
  case stops =>
    intro before s
    have hnil : findInt before [] = none := by
      unfold findInt
      split <;> rfl
    exact (hwithin before [] s).trans hnil
  case restarts =>
    intro s
    rw [findInt, findInt, wordAt_delimiter hc]
    rfl
  case within => exact fun before x a s => hwithin before (x :: a) s
  case length =>
    intro before s r n h
    unfold findInt at h
    split at h
    · cases h
    · split at h
      · rename_i hprefix
        cases h
        rw [Bool.and_eq_true, List.isPrefixOf_iff_prefix] at hprefix
        exact hprefix.1.length_le
      · split at h
        · rename_i hprefix
          cases h
          rw [Bool.and_eq_true, List.isPrefixOf_iff_prefix] at hprefix
          exact hprefix.1.length_le
        · cases h

/-- The three substitutions of `_norm_type`, one after the other. -/
def foldChars (s : List Char) : List Char :=
  substitute findInt 0 none (substitute findTimestamp 0 none (substitute findLarge 0 none s))

/-- The folded text of a name. -/
def foldText (s : String) : String := String.ofList (foldChars s.toList)

/-- `_norm_type` folds the printed type. -/
theorem normType_eq (t : ArrowType) : normType t = foldText t.text := rfl

/-- The parts of a text between delimiters are folded separately. -/
theorem foldChars_append {c : Char} (hc : c ∈ delimiters) (a s : List Char) :
    foldChars (a ++ c :: s) = foldChars a ++ c :: foldChars s := by
  unfold foldChars
  rw [(findLarge_cuts hc).substitute_append (Nat.zero_le _),
    (findTimestamp_cuts hc).substitute_append (Nat.zero_le _),
    (findInt_cuts hc).substitute_append (Nat.zero_le _)]

/-- A delimiter itself stays. -/
theorem foldChars_cons {c : Char} (hc : c ∈ delimiters) (s : List Char) :
    foldChars (c :: s) = c :: foldChars s := foldChars_append hc [] s

/-- No short integer type begins in a text. -/
def NoInt (s : List Char) : Prop :=
  ∀ tail ∈ s.tails, "int8".toList.isPrefixOf tail = false ∧ "int16".toList.isPrefixOf tail = false

instance (s : List Char) : Decidable (NoInt s) := by
  unfold NoInt
  infer_instance

/-- A text without a short integer type stays as it is. -/
theorem substitute_findInt_eq_self {before : Option Char} {s : List Char} (h : NoInt s) :
    substitute findInt 0 before s = s := by
  refine substitute_eq_self (fun b tail htail => ?_)
  unfold findInt
  rw [(h tail htail).1, (h tail htail).2]
  split <;> rfl

/-- A text whose first two foldings leave no short integer type. -/
theorem foldChars_eq {s s' : List Char}
    (h : substitute findTimestamp 0 none (substitute findLarge 0 none s) = s') (hint : NoInt s') :
    foldChars s = s' := by
  unfold foldChars
  rw [h, substitute_findInt_eq_self hint]

/-- An unsigned type is not folded: the `u` before it belongs to the word. -/
theorem foldChars_unsigned {s : List Char}
    (h : substitute findTimestamp 0 none (substitute findLarge 0 none ('u' :: 'i' :: s)) =
      'u' :: 'i' :: s) (hint : NoInt s) : foldChars ('u' :: 'i' :: s) = 'u' :: 'i' :: s := by
  have hword : wordAt (some 'u') = true := by
    rw [wordAt, Option.any_some, Python.isAlnum_ascii 'u' (by decide)]
    rfl
  have hstart : findInt none ('u' :: 'i' :: s) = none := rfl
  have hinner : findInt (some 'u') ('i' :: s) = none := by rw [findInt, if_pos hword]
  unfold foldChars
  rw [h]
  simp only [substitute, hstart, hinner, substitute_findInt_eq_self hint]

end

end Memcove
