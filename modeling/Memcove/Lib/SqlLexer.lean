import Memcove.Lib.Paths
import Memcove.Lib.Quoting
import Mathlib.Data.List.TakeWhile

/-!
# The lexical structure of SQL text

Words, delimited identifiers, string literals, numerals and single-character symbols, separated
by white space, in the way Trino reads them: quotation marks are doubled inside their own kind of
quotes. Comments are not read. The rules say how the lexemes of a text are put together from those
of its parts.
-/

namespace SqlLexer

open Paths Quoting

/-- A lexeme. A numeral without fraction and exponent is its value, any other keeps its text. -/
inductive Lexeme where
  | word (s : List Char)
  | delimited (s : List Char)
  | str (s : List Char)
  | integer (n : ℕ)
  | decimal (s : List Char)
  | sym (c : Char)
  deriving DecidableEq, Repr

/-- The first character of a word. -/
def isWordStart (c : Char) : Bool := c.isAlpha || c == '_'

/-- The further characters of a word. -/
def isWordChar (c : Char) : Bool := c.isAlphanum || c == '_'

/-- White space between lexemes. -/
def isWhite (c : Char) : Bool := c == ' ' || c == '\n' || c == '\r' || c == '\t'

/-- The characters that end a word or a numeral in front of them and are no part of a quote. -/
def isBreak (c : Char) : Bool := c == ' ' || c == '(' || c == ')' || c == ','

/-- A point and digits. -/
def readFraction : List Char → List Char × List Char
  | [] => ([], [])
  | c :: s => if c = '.' then ('.' :: s.takeWhile Char.isDigit, s.dropWhile Char.isDigit)
    else ([], c :: s)

/-- An optional sign. -/
def readSign : List Char → List Char × List Char
  | [] => ([], [])
  | c :: s => if c = '+' ∨ c = '-' then ([c], s) else ([], c :: s)

/-- The letter `e`, an optional sign and at least one digit. -/
def readExponent : List Char → List Char × List Char
  | [] => ([], [])
  | c :: s =>
    if (c = 'e' ∨ c = 'E') ∧ (readSign s).2.takeWhile Char.isDigit ≠ [] then
      (c :: (readSign s).1 ++ (readSign s).2.takeWhile Char.isDigit,
        (readSign s).2.dropWhile Char.isDigit)
    else ([], c :: s)

/-- A numeral that opens with a digit. -/
def readNumber (s : List Char) : Lexeme × List Char :=
  let whole := s.takeWhile Char.isDigit
  let fraction := readFraction (s.dropWhile Char.isDigit)
  let exponent := readExponent fraction.2
  (if fraction.1 = [] ∧ exponent.1 = [] then .integer (Nat.ofDigitChars 10 whole 0)
    else .decimal (whole ++ fraction.1 ++ exponent.1), exponent.2)

/-- The next lexeme of a text that does not open with white space, and the text behind it. -/
def nextLexeme : List Char → Option (Lexeme × List Char)
  | [] => none
  | c :: s =>
    if c = '\'' then (readQuoted '\'' s).map (fun r => (.str r.1, r.2))
    else if c = '"' then (readQuoted '"' s).map (fun r => (.delimited r.1, r.2))
    else if isWordStart c then
      some (.word (c :: s.takeWhile isWordChar), s.dropWhile isWordChar)
    else if c.isDigit then some (readNumber (c :: s))
    else if (c = '-' ∧ s.head? = some '-') ∨ (c = '/' ∧ s.head? = some '*') then none
    else some (.sym c, s)

/-- At most `n` steps of the loop that skips white space and takes the next lexeme. -/
def lexUpTo : ℕ → List Char → Option (List Lexeme)
  | _, [] => some []
  | 0, _ => none
  | n + 1, c :: s =>
    if isWhite c then lexUpTo n s
    else (nextLexeme (c :: s)).bind (fun r => (lexUpTo n r.2).map (r.1 :: ·))

/-- The lexemes of a text, when it has an end in every quote and no comment. -/
def lexemes (s : List Char) : Option (List Lexeme) := lexUpTo s.length s

/-- Dropping a run of characters does not lengthen a text. -/
theorem length_dropWhile_le (p : Char → Bool) (s : List Char) :
    (s.dropWhile p).length ≤ s.length := (List.dropWhile_sublist p).length_le

/-- A fraction is no longer than the text it is read from. -/
theorem readFraction_length (s : List Char) : (readFraction s).2.length ≤ s.length := by
  cases s with
  | nil => exact Nat.le_refl _
  | cons c s =>
    by_cases hc : c = '.'
    · simpa [readFraction, hc] using Nat.le_succ_of_le (length_dropWhile_le Char.isDigit s)
    · simp [readFraction, hc]

/-- A sign is no longer than the text it is read from. -/
theorem readSign_length (s : List Char) : (readSign s).2.length ≤ s.length := by
  cases s with
  | nil => exact Nat.le_refl _
  | cons c s => by_cases hc : c = '+' ∨ c = '-' <;> simp [readSign, hc]

/-- An exponent is no longer than the text it is read from. -/
theorem readExponent_length (s : List Char) : (readExponent s).2.length ≤ s.length := by
  cases s with
  | nil => exact Nat.le_refl _
  | cons c s =>
    unfold readExponent
    dsimp only
    split
    · have hdigits := length_dropWhile_le Char.isDigit (readSign s).2
      have hsign := readSign_length s
      simp only [List.length_cons]
      omega
    · exact Nat.le_refl _

/-- Every lexeme takes at least one character. -/
theorem nextLexeme_length {c : Char} {s r : List Char} {t : Lexeme}
    (h : nextLexeme (c :: s) = some (t, r)) : r.length ≤ s.length := by
  have hquoted {q : Char} {f : List Char → Lexeme}
      (hread : (readQuoted q s).map (fun p => (f p.1, p.2)) = some (t, r)) :
      r.length ≤ s.length := by
    obtain ⟨⟨d, r'⟩, hsome, heq⟩ := Option.map_eq_some_iff.mp hread
    cases heq
    have hlength := congrArg List.length (readQuoted_sound hsome).1
    simp only [List.length_append, List.length_cons] at hlength ⊢
    omega
  unfold nextLexeme at h
  dsimp only at h
  split at h
  · exact hquoted h
  · split at h
    · exact hquoted h
    · split at h
      · cases h
        exact length_dropWhile_le isWordChar s
      · split at h
        · rename_i hdigit
          rw [Option.some.injEq] at h
          have hrest := congrArg Prod.snd h
          simp only [readNumber, List.dropWhile_cons_of_pos hdigit] at hrest
          rw [← hrest]
          have hwhole := length_dropWhile_le Char.isDigit s
          have hfraction := readFraction_length (s.dropWhile Char.isDigit)
          have hexponent := readExponent_length (readFraction (s.dropWhile Char.isDigit)).2
          omega
        · split at h
          · cases h
          · cases h
            exact Nat.le_refl _

/-- More steps than characters change nothing. -/
theorem lexUpTo_eq {n m : ℕ} {s : List Char} (hn : s.length ≤ n) (hm : s.length ≤ m) :
    lexUpTo n s = lexUpTo m s := by
  induction n generalizing m s with
  | zero =>
    cases s with
    | nil => cases m <;> rfl
    | cons c s => simp at hn
  | succ n ih =>
    cases s with
    | nil => cases m <;> rfl
    | cons c s =>
      cases m with
      | zero => simp at hm
      | succ m =>
        simp only [List.length_cons, Nat.add_le_add_iff_right] at hn hm
        unfold lexUpTo
        split
        · exact ih hn hm
        · cases hnext : nextLexeme (c :: s) with
          | none => rfl
          | some r =>
            have hlength := nextLexeme_length (t := r.1) (r := r.2) hnext
            simp only [Option.bind_some, ih (hlength.trans hn) (hlength.trans hm)]

/-- White space in front of a text is skipped. -/
theorem lexemes_white {c : Char} (hc : isWhite c = true) (s : List Char) :
    lexemes (c :: s) = lexemes s := by
  rw [lexemes, List.length_cons, lexUpTo, if_pos hc, lexemes]

/-- Any other text consists of its next lexeme and those of the rest. -/
theorem lexemes_next {c : Char} (hc : isWhite c = false) (s : List Char) :
    lexemes (c :: s) =
      (nextLexeme (c :: s)).bind (fun r => (lexemes r.2).map (r.1 :: ·)) := by
  rw [lexemes, List.length_cons, lexUpTo, if_neg (by simp [hc])]
  cases hnext : nextLexeme (c :: s) with
  | none => rfl
  | some r =>
    have hlength := nextLexeme_length (t := r.1) (r := r.2) hnext
    simp only [Option.bind_some, lexemes, lexUpTo_eq hlength (Nat.le_refl _)]

/-- The same, when the next lexeme is known. -/
theorem lexemes_of_next {c : Char} {s rest : List Char} {t : Lexeme} (hc : isWhite c = false)
    (h : nextLexeme (c :: s) = some (t, rest)) :
    lexemes (c :: s) = (lexemes rest).map (t :: ·) := by
  rw [lexemes_next hc, h, Option.bind_some]

/-- The text is empty or opens with a character that ends words and numerals. -/
def BreakFirst (s : List Char) : Prop := ∀ c ∈ s.head?, isBreak c = true

/-- A text that opens with a break is of that kind. -/
theorem breakFirst_cons {c : Char} (hc : isBreak c = true) (s : List Char) :
    BreakFirst (c :: s) := by
  intro d hd
  rw [List.head?_cons, Option.mem_some_iff] at hd
  rwa [← hd]

/-- A run that the next character ends is taken whole, and nothing behind it. -/
theorem run_end {p : Char → Bool} {w s : List Char} (hw : ∀ c ∈ w, p c = true)
    (hs : ∀ c ∈ s.head?, p c = false) :
    (w ++ s).takeWhile p = w ∧ (w ++ s).dropWhile p = s := by
  rw [List.takeWhile_append_of_pos hw, List.dropWhile_append_of_pos hw]
  cases s with
  | nil => simp
  | cons c s =>
    have hc : p c = false := hs c rfl
    simp [hc]

/-- A break ends a run without breaks. -/
theorem run_break {p : Char → Bool} (hp : ∀ c, isBreak c = true → p c = false) {w s : List Char}
    (hw : ∀ c ∈ w, p c = true) (hs : BreakFirst s) :
    (w ++ s).takeWhile p = w ∧ (w ++ s).dropWhile p = s :=
  run_end hw (fun c hc => hp c (hs c hc))

/-- Breaks are the blank, the two parentheses and the comma. -/
theorem isBreak_cases {c : Char} (h : isBreak c = true) :
    c = ' ' ∨ c = '(' ∨ c = ')' ∨ c = ',' := by
  simpa [isBreak, or_assoc] using h

/-- A break is no character of a word. -/
theorem isWordChar_of_break {c : Char} (h : isBreak c = true) : isWordChar c = false := by
  rcases isBreak_cases h with rfl | rfl | rfl | rfl <;> decide

/-- A break is no digit. -/
theorem isDigit_of_break {c : Char} (h : isBreak c = true) : c.isDigit = false := by
  rcases isBreak_cases h with rfl | rfl | rfl | rfl <;> decide

/-- A text that can stand as a word. -/
def IsWord (w : List Char) : Prop :=
  ∃ c rest, w = c :: rest ∧ isWordStart c = true ∧ ∀ d ∈ rest, isWordChar d = true

/-- The first character of a word is neither white space nor a quotation mark. -/
theorem isWordStart_plain {c : Char} (h : isWordStart c = true) :
    isWhite c = false ∧ c ≠ '\'' ∧ c ≠ '"' := by
  refine ⟨?_, ?_, ?_⟩
  · simp only [isWhite, Bool.or_eq_false_iff, beq_eq_false_iff_ne]
    refine ⟨⟨⟨?_, ?_⟩, ?_⟩, ?_⟩ <;> rintro rfl <;> exact absurd h (by decide)
  · rintro rfl
    exact absurd h (by decide)
  · rintro rfl
    exact absurd h (by decide)

/-- A word in front of a character that is no part of it is one lexeme. -/
theorem lexemes_word_end {w s : List Char} (hw : IsWord w)
    (hs : ∀ c ∈ s.head?, isWordChar c = false) :
    lexemes (w ++ s) = (lexemes s).map (.word w :: ·) := by
  obtain ⟨c, rest, rfl, hc, hrest⟩ := hw
  obtain ⟨hwhite, hsingle, hdouble⟩ := isWordStart_plain hc
  obtain ⟨htake, hdrop⟩ := run_end (p := isWordChar) hrest hs
  refine lexemes_of_next hwhite ?_
  unfold nextLexeme
  simp only [List.append_eq, if_neg hsingle, if_neg hdouble, if_pos hc, htake, hdrop]

/-- A word in front of a break is one lexeme. -/
theorem lexemes_word {w s : List Char} (hw : IsWord w) (hs : BreakFirst s) :
    lexemes (w ++ s) = (lexemes s).map (.word w :: ·) :=
  lexemes_word_end hw (fun c hc => isWordChar_of_break (hs c hc))

/-- Words with a blank behind each of them are one lexeme each. -/
theorem lexemes_words {ws : List (List Char)} (hws : ∀ w ∈ ws, IsWord w) (s : List Char) :
    lexemes (terminated ' ' ws ++ s) = (lexemes s).map (ws.map .word ++ ·) := by
  induction ws with
  | nil => simp
  | cons w ws ih =>
    rw [List.forall_mem_cons] at hws
    rw [terminated_cons, List.append_assoc, List.cons_append,
      lexemes_word hws.1 (breakFirst_cons (by decide) _), lexemes_white (by decide), ih hws.2,
      Option.map_map]
    rfl

/-- The characters that are a lexeme of their own whatever follows. -/
def isSymbol (c : Char) : Bool :=
  !(isWhite c || c == '\'' || c == '"' || isWordStart c || c.isDigit || c == '-' || c == '/')

/-- Such a character is one lexeme. -/
theorem lexemes_symbol {c : Char} (hc : isSymbol c = true) (s : List Char) :
    lexemes (c :: s) = (lexemes s).map (.sym c :: ·) := by
  simp only [isSymbol, Bool.not_eq_true', Bool.or_eq_false_iff, beq_eq_false_iff_ne] at hc
  obtain ⟨⟨⟨⟨⟨⟨hwhite, hsingle⟩, hdouble⟩, hword⟩, hdigit⟩, hminus⟩, hslash⟩ := hc
  refine lexemes_of_next hwhite ?_
  unfold nextLexeme
  simp [hsingle, hdouble, hword, hdigit, hminus, hslash]

/-- A parenthesis or a comma is one lexeme, whatever follows. -/
theorem lexemes_sym {c : Char} (hc : c = '(' ∨ c = ')' ∨ c = ',') (s : List Char) :
    lexemes (c :: s) = (lexemes s).map (.sym c :: ·) :=
  lexemes_symbol (by rcases hc with rfl | rfl | rfl <;> decide) s

/-- An escaped string literal in front of a break is one lexeme with the original text. -/
theorem lexemes_str (d : List Char) {s : List Char} (hs : BreakFirst s) :
    lexemes ('\'' :: (escape '\'' d ++ '\'' :: s)) = (lexemes s).map (.str d :: ·) := by
  refine lexemes_of_next (by decide) ?_
  have hhead : s.head? ≠ some '\'' := fun h => absurd (hs _ h) (by decide)
  unfold nextLexeme
  simp only [if_true, readQuoted_escape d hhead, Option.map_some]

/-- A text that is put between marks unescaped, in front of something else than a mark, is one
lexeme with the text exactly when it has no mark. -/
theorem lexemes_quoted_iff {q : Char} {f : List Char → Lexeme} (hwhite : isWhite q = false)
    (hnext : ∀ t, nextLexeme (q :: t) = (readQuoted q t).map (fun r => (f r.1, r.2)))
    (hf : ∀ d d', f d = f d' → d = d') {d s : List Char} {ts : List Lexeme}
    (hs : s.head? ≠ some q) :
    lexemes (q :: (d ++ q :: s)) = some (f d :: ts) ↔ q ∉ d ∧ lexemes s = some ts := by
  rw [lexemes_next hwhite, hnext]
  constructor
  · intro h
    obtain ⟨r, hr, hrest⟩ := Option.bind_eq_some_iff.mp h
    obtain ⟨⟨d', rest⟩, hread, rfl⟩ := Option.map_eq_some_iff.mp hr
    obtain ⟨us, hus, heq⟩ := Option.map_eq_some_iff.mp hrest
    rw [List.cons.injEq] at heq
    obtain rfl := hf _ _ heq.1
    obtain rfl := heq.2
    obtain ⟨hfree, rfl⟩ := (readQuoted_plain_iff hs).mp hread
    exact ⟨hfree, hus⟩
  · rintro ⟨hfree, hus⟩
    rw [(readQuoted_plain_iff hs).mpr ⟨hfree, rfl⟩]
    simp only [Option.map_some, Option.bind_some, hus]

/-- An identifier that is put between marks unescaped. -/
theorem lexemes_delimited_iff {d s : List Char} {ts : List Lexeme} (hs : s.head? ≠ some '"') :
    lexemes ('"' :: (d ++ '"' :: s)) = some (.delimited d :: ts) ↔
      '"' ∉ d ∧ lexemes s = some ts :=
  lexemes_quoted_iff (by decide) (fun _ => rfl) (fun _ _ => Lexeme.delimited.inj) hs

/-- A string that is put between marks unescaped. -/
theorem lexemes_str_iff {d s : List Char} {ts : List Lexeme} (hs : s.head? ≠ some '\'') :
    lexemes ('\'' :: (d ++ '\'' :: s)) = some (.str d :: ts) ↔
      '\'' ∉ d ∧ lexemes s = some ts :=
  lexemes_quoted_iff (by decide) (fun _ => rfl) (fun _ _ => Lexeme.str.inj) hs

/-- A digit is neither white space, nor a quotation mark, nor the start of a word. -/
theorem isDigit_plain {c : Char} (h : c.isDigit = true) :
    isWhite c = false ∧ c ≠ '\'' ∧ c ≠ '"' ∧ isWordStart c = false := by
  have hrange : 48 ≤ c.val.toNat ∧ c.val.toNat ≤ 57 := by
    simp only [Char.isDigit, Bool.and_eq_true, decide_eq_true_eq] at h
    exact ⟨h.1, h.2⟩
  have hne {d : Char} (hd : d.val.toNat < 48 ∨ 57 < d.val.toNat) : c ≠ d := by
    rintro rfl
    omega
  refine ⟨?_, hne (by decide), hne (by decide), ?_⟩
  · simp [isWhite, hne (d := ' ') (by decide), hne (d := '\n') (by decide),
      hne (d := '\r') (by decide), hne (d := '\t') (by decide)]
  · have hunder : c ≠ '_' := hne (by decide)
    have hbelow (d : Char) (hd : 57 < d.val.toNat) : ¬ c.val ≥ d.val := by
      rw [ge_iff_le, UInt32.le_iff_toNat_le]
      omega
    have hupper : c.isUpper = false := decide_eq_false (fun h => hbelow 'A' (by decide) h.1)
    have hlower : c.isLower = false :=
      Bool.and_eq_false_iff.mpr (Or.inl (decide_eq_false (hbelow 'a' (by decide))))
    have halpha : c.isAlpha = false := Bool.or_eq_false_iff.mpr ⟨hupper, hlower⟩
    simp [isWordStart, halpha, hunder]

/-- The next lexeme of a text that opens with a digit is a numeral. -/
theorem nextLexeme_digit {c : Char} (hc : c.isDigit = true) (s : List Char) :
    nextLexeme (c :: s) = some (readNumber (c :: s)) := by
  obtain ⟨_, hsingle, hdouble, hword⟩ := isDigit_plain hc
  unfold nextLexeme
  simp [hsingle, hdouble, hword, hc]

/-- A minus sign in front of a digit is a lexeme of its own. -/
theorem lexemes_minus {c : Char} (hc : c.isDigit = true) (s : List Char) :
    lexemes ('-' :: c :: s) = (lexemes (c :: s)).map (.sym '-' :: ·) := by
  refine lexemes_of_next (by decide) ?_
  have hne : c ≠ '-' := by
    rintro rfl
    exact absurd hc (by decide)
  unfold nextLexeme
  simp [hne, isWordStart]

/-- A break ends a numeral: it opens neither a fraction nor an exponent. -/
theorem readNumber_break {s : List Char} (hs : BreakFirst s) :
    readFraction s = ([], s) ∧ readExponent s = ([], s) := by
  cases s with
  | nil => exact ⟨rfl, rfl⟩
  | cons c s =>
    rcases isBreak_cases (hs c rfl) with rfl | rfl | rfl | rfl <;>
      simp [readFraction, readExponent]

/-- Decimal digits in front of a break are one lexeme with their value. -/
theorem lexemes_integer (n : ℕ) {s : List Char} (hs : BreakFirst s) :
    lexemes (Nat.toDigits 10 n ++ s) = (lexemes s).map (.integer n :: ·) := by
  have hdigits : ∀ c ∈ Nat.toDigits 10 n, c.isDigit = true :=
    fun c hc => Nat.isDigit_of_mem_toDigits (by decide) (by decide) hc
  obtain ⟨htake, hdrop⟩ := run_break (p := Char.isDigit) (fun _ => isDigit_of_break) hdigits hs
  obtain ⟨hfraction, hexponent⟩ := readNumber_break hs
  have hread : readNumber (Nat.toDigits 10 n ++ s) = (.integer n, s) := by
    simp only [readNumber, htake, hdrop, hfraction, hexponent, and_self, if_true,
      Nat.ofDigitChars_ten_toDigits]
  cases hcase : Nat.toDigits 10 n with
  | nil => exact absurd hcase Nat.toDigits_ne_nil
  | cons c rest =>
    rw [hcase] at hdigits hread
    have hc := hdigits c List.mem_cons_self
    refine lexemes_of_next (isDigit_plain hc).1 ?_
    rw [← hread]
    exact nextLexeme_digit hc _

/-- A numeral with digits before its fraction or exponent, and at least one of the two. -/
structure Numeral where
  whole : List Char
  fraction : List Char
  exponent : List Char
  whole_ne : whole ≠ []
  whole_digits : ∀ c ∈ whole, c.isDigit = true
  fraction_shape : fraction = [] ∨ ∃ digits, fraction = '.' :: digits ∧
    ∀ c ∈ digits, c.isDigit = true
  exponent_shape : exponent = [] ∨ ∃ sign digits, exponent = 'e' :: sign :: digits ∧
    (sign = '+' ∨ sign = '-') ∧ digits ≠ [] ∧ ∀ c ∈ digits, c.isDigit = true
  not_integer : fraction ≠ [] ∨ exponent ≠ []

/-- The text of a numeral. -/
def Numeral.text (n : Numeral) : List Char := n.whole ++ n.fraction ++ n.exponent

/-- A fraction in front of a text that does not open with a digit is read whole. -/
theorem readFraction_append {fraction s : List Char}
    (h : fraction = [] ∨ ∃ digits, fraction = '.' :: digits ∧ ∀ c ∈ digits, c.isDigit = true)
    (hdigit : ∀ c ∈ s.head?, c.isDigit = false) (hpoint : s.head? ≠ some '.') :
    readFraction (fraction ++ s) = (fraction, s) := by
  rcases h with rfl | ⟨digits, rfl, hdigits⟩
  · cases s with
    | nil => rfl
    | cons c s =>
      have hc : c ≠ '.' := by simpa using hpoint
      simp [readFraction, hc]
  · have hrest : s.takeWhile Char.isDigit = [] ∧ s.dropWhile Char.isDigit = s := by
      cases s with
      | nil => exact ⟨rfl, rfl⟩
      | cons c s =>
        have hc : c.isDigit = false := hdigit c rfl
        simp [hc]
    simp only [readFraction, List.cons_append, if_true, List.takeWhile_append_of_pos hdigits,
      List.dropWhile_append_of_pos hdigits, hrest, List.append_nil]

/-- An exponent in front of a break is read whole. -/
theorem readExponent_append {exponent s : List Char}
    (h : exponent = [] ∨ ∃ sign digits, exponent = 'e' :: sign :: digits ∧
      (sign = '+' ∨ sign = '-') ∧ digits ≠ [] ∧ ∀ c ∈ digits, c.isDigit = true)
    (hs : BreakFirst s) : readExponent (exponent ++ s) = (exponent, s) := by
  rcases h with rfl | ⟨sign, digits, rfl, hsign, hne, hdigits⟩
  · exact (readNumber_break hs).2
  · obtain ⟨htake, hdrop⟩ := run_break (p := Char.isDigit) (fun _ => isDigit_of_break) hdigits hs
    have hread : readSign (sign :: (digits ++ s)) = ([sign], digits ++ s) := by
      simp [readSign, hsign]
    simp [readExponent, hread, htake, hdrop, hne]

/-- The part of a numeral behind its digits opens with no digit and, behind its fraction, with no
point. -/
theorem Numeral.heads (n : Numeral) {s : List Char} (hs : BreakFirst s) :
    (∀ c ∈ (n.exponent ++ s).head?, c.isDigit = false) ∧
      (n.exponent ++ s).head? ≠ some '.' ∧
      ∀ c ∈ (n.fraction ++ (n.exponent ++ s)).head?, c.isDigit = false := by
  have hbreak : ∀ c ∈ s.head?, c.isDigit = false := fun c hc => isDigit_of_break (hs c hc)
  have hpoint : s.head? ≠ some '.' := fun h => absurd (hs _ h) (by decide)
  have hexponent : (∀ c ∈ (n.exponent ++ s).head?, c.isDigit = false) ∧
      (n.exponent ++ s).head? ≠ some '.' := by
    rcases n.exponent_shape with h | ⟨sign, digits, h, _⟩
    · rw [h]
      exact ⟨hbreak, hpoint⟩
    · rw [h]
      simp
  refine ⟨hexponent.1, hexponent.2, ?_⟩
  rcases n.fraction_shape with h | ⟨digits, h, _⟩
  · rw [h]
    exact hexponent.1
  · rw [h]
    simp

/-- A numeral with a fraction or an exponent, in front of a break, is one lexeme. -/
theorem lexemes_decimal (n : Numeral) {s : List Char} (hs : BreakFirst s) :
    lexemes (n.text ++ s) = (lexemes s).map (.decimal n.text :: ·) := by
  obtain ⟨hdigit, hpoint, hwhole⟩ := n.heads hs
  have htext : n.text ++ s = n.whole ++ (n.fraction ++ (n.exponent ++ s)) := by
    simp [Numeral.text]
  have hrun : (n.text ++ s).takeWhile Char.isDigit = n.whole ∧
      (n.text ++ s).dropWhile Char.isDigit = n.fraction ++ (n.exponent ++ s) := by
    rw [htext, List.takeWhile_append_of_pos n.whole_digits,
      List.dropWhile_append_of_pos n.whole_digits]
    cases hrest : n.fraction ++ (n.exponent ++ s) with
    | nil => simp
    | cons c rest =>
      have hc : c.isDigit = false := hwhole c (by simp [hrest])
      simp [hc]
  have hread : readNumber (n.text ++ s) = (.decimal n.text, s) := by
    have hnot : ¬ (n.fraction = [] ∧ n.exponent = []) := by
      rintro ⟨h₁, h₂⟩
      exact n.not_integer.elim (fun h => h h₁) (fun h => h h₂)
    simp only [readNumber, hrun, readFraction_append n.fraction_shape hdigit hpoint,
      readExponent_append n.exponent_shape hs, if_neg hnot]
    rfl
  cases hcase : n.text with
  | nil => simp [Numeral.text, n.whole_ne] at hcase
  | cons c rest =>
    have hc : c.isDigit = true := by
      obtain ⟨d, ds, hds⟩ := List.exists_cons_of_ne_nil n.whole_ne
      have hfirst : c = d := by
        simp only [Numeral.text, hds, List.cons_append, List.cons.injEq] at hcase
        exact hcase.1.symm
      rw [hfirst]
      exact n.whole_digits d (by simp [hds])
    rw [hcase] at hread
    refine lexemes_of_next (isDigit_plain hc).1 ?_
    rw [← hread]
    exact nextLexeme_digit hc _

end SqlLexer
