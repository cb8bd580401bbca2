import Memcove.Lib.SqlLexer
import Mathlib.Data.List.Forall2

/-!
# Reading a printed text piece by piece

A printer puts a text together from words, symbols, quoted texts and numerals. `Reads` says which
lexemes a piece should be read as, in front of any break, and under which condition it is; the
rules compose it along the way in which the pieces are put together.
-/

namespace SqlLexer

/-- In front of every break the text is read as the lexemes exactly when the condition holds. -/
def Reads (text : List Char) (toks : List Lexeme) (cond : Prop) : Prop :=
  ∀ (c : Char) (s : List Char), isBreak c = true → ∀ ts,
    (lexemes (text ++ c :: s) = some (toks ++ ts) ↔ cond ∧ lexemes (c :: s) = some ts)

/-- The condition can be replaced by an equivalent one. -/
theorem Reads.congr {text : List Char} {toks : List Lexeme} {a b : Prop} (h : Reads text toks a)
    (hab : a ↔ b) : Reads text toks b := by
  intro c s hc ts
  rw [h c s hc ts, hab]

/-- An empty text has no lexemes. -/
theorem reads_nil : Reads [] [] True := by
  intro c s _ ts
  simp

/-- A text in front of another one that opens with a break. -/
theorem Reads.append {c : Char} {t₁ t₂ : List Char} {k₁ k₂ : List Lexeme} {a b : Prop}
    (h₁ : Reads t₁ k₁ a) (hc : isBreak c = true) (h₂ : Reads (c :: t₂) k₂ b) :
    Reads (t₁ ++ c :: t₂) (k₁ ++ k₂) (a ∧ b) := by
  intro d s hd ts
  have hfirst := h₁ c (t₂ ++ d :: s) hc (k₂ ++ ts)
  have hsecond := h₂ d s hd ts
  rw [List.cons_append] at hsecond
  rw [List.append_assoc, List.cons_append, List.append_assoc, hfirst, hsecond, and_assoc]

/-- White space in front of a text does not count. -/
theorem Reads.white {c : Char} {text : List Char} {toks : List Lexeme} {a : Prop}
    (h : Reads text toks a) (hc : isWhite c = true) : Reads (c :: text) toks a := by
  intro d s hd ts
  rw [List.cons_append, lexemes_white hc]
  exact h d s hd ts

/-- A parenthesis or a comma in front of a text. -/
theorem Reads.sym {c : Char} {text : List Char} {toks : List Lexeme} {a : Prop}
    (h : Reads text toks a) (hc : c = '(' ∨ c = ')' ∨ c = ',') :
    Reads (c :: text) (.sym c :: toks) a := by
  intro d s hd ts
  have htext := h d s hd ts
  rw [List.cons_append, lexemes_sym hc, List.cons_append, ← htext]
  simp

/-- A text that is always read as the lexemes `k`, whatever break follows. -/
def Lexes (text : List Char) (k : List Lexeme) : Prop :=
  ∀ (c : Char) (s : List Char), isBreak c = true →
    lexemes (text ++ c :: s) = (lexemes (c :: s)).map (k ++ ·)

/-- Such a text is read as these lexemes, without condition. -/
theorem Lexes.reads {text : List Char} {k : List Lexeme} (h : Lexes text k) :
    Reads text k True := by
  intro c s hc ts
  rw [h c s hc]
  simp

/-- A word. -/
theorem lexes_word {w : List Char} (hw : IsWord w) : Lexes w [.word w] :=
  fun _ s hc => lexemes_word hw (breakFirst_cons hc s)

/-- A word in front of a text that opens with a break. -/
theorem Reads.word {c : Char} {w text : List Char} {toks : List Lexeme} {a : Prop}
    (h : Reads (c :: text) toks a) (hc : isBreak c = true) (hw : IsWord w) :
    Reads (w ++ c :: text) (.word w :: toks) a :=
  ((lexes_word hw).reads.append hc h).congr (by simp)

/-- An escaped string literal. -/
theorem lexes_str (d : List Char) :
    Lexes ('\'' :: (Quoting.escape '\'' d ++ ['\''])) [.str d] := by
  intro c s hc
  have hstr := lexemes_str d (breakFirst_cons hc s)
  simpa using hstr

/-- The decimal digits of a natural number. -/
theorem lexes_integer (n : ℕ) : Lexes (Nat.toDigits 10 n) [.integer n] :=
  fun _ s hc => lexemes_integer n (breakFirst_cons hc s)

/-- A numeral with a fraction or an exponent. -/
theorem lexes_decimal (n : Numeral) : Lexes n.text [.decimal n.text] :=
  fun _ s hc => lexemes_decimal n (breakFirst_cons hc s)

/-- A minus sign in front of a text that opens with a digit. -/
theorem Lexes.minus {c : Char} {text : List Char} {k : List Lexeme} (h : Lexes (c :: text) k)
    (hc : c.isDigit = true) : Lexes ('-' :: c :: text) (.sym '-' :: k) := by
  intro d s hd
  have htext := h d s hd
  rw [List.cons_append] at htext
  rw [List.cons_append, List.cons_append, lexemes_minus hc, htext]
  simp [Function.comp_def]

/-- An identifier that is put between marks unescaped. -/
theorem reads_delimited (d : List Char) :
    Reads ('"' :: (d ++ ['"'])) [.delimited d] ('"' ∉ d) := by
  intro c s hc ts
  have hiff : lexemes ('"' :: (d ++ '"' :: c :: s)) = some (.delimited d :: ts) ↔
      '"' ∉ d ∧ lexemes (c :: s) = some ts := by
    refine lexemes_delimited_iff ?_
    rintro ⟨⟩
    exact absurd hc (by decide)
  simpa using hiff

/-- The lexemes of a constant: one lexeme, or two of which the first is a minus sign. -/
def IsConstant (k : List Lexeme) : Prop :=
  (∃ t, k = [t] ∧ t ≠ .sym '-') ∨ ∃ t, k = [.sym '-', t]

/-- A constant is told from what follows it. -/
theorem constant_append_inj {a b us ts : List Lexeme} (ha : IsConstant a) (hb : IsConstant b) :
    a ++ us = b ++ ts ↔ a = b ∧ us = ts := by
  constructor
  · intro h
    rcases ha with ⟨t, rfl, ht⟩ | ⟨t, rfl⟩ <;> rcases hb with ⟨u, rfl, hu⟩ | ⟨u, rfl⟩ <;>
      simp_all
  · rintro ⟨rfl, rfl⟩
    rfl

/-- A printed constant is read as the expected one exactly when it is that one. -/
theorem Lexes.reads_constant {text : List Char} {a b : List Lexeme} (h : Lexes text a)
    (ha : IsConstant a) (hb : IsConstant b) : Reads text b (a = b) := by
  intro c s hc ts
  rw [h c s hc]
  cases lexemes (c :: s) with
  | none => simp
  | some us => simp [constant_append_inj ha hb]

/-- The lexemes of a quoted text open with a string or a delimited identifier. -/
theorem lexemes_quoted {q : Char} {s : List Char} {ts : List Lexeme} (hq : q = '\'' ∨ q = '"')
    (h : lexemes (q :: s) = some ts) :
    ∃ d us, ts = .str d :: us ∨ ts = .delimited d :: us := by
  have hwhite : isWhite q = false := by rcases hq with rfl | rfl <;> decide
  rw [lexemes_next hwhite] at h
  obtain ⟨r, hr, hrest⟩ := Option.bind_eq_some_iff.mp h
  obtain ⟨us, _, rfl⟩ := Option.map_eq_some_iff.mp hrest
  rcases hq with rfl | rfl
  · have hnext : nextLexeme ('\'' :: s) =
        (Quoting.readQuoted '\'' s).map (fun r => (.str r.1, r.2)) := rfl
    rw [hnext] at hr
    obtain ⟨d, _, rfl⟩ := Option.map_eq_some_iff.mp hr
    exact ⟨d.1, us, Or.inl rfl⟩
  · have hnext : nextLexeme ('"' :: s) =
        (Quoting.readQuoted '"' s).map (fun r => (.delimited r.1, r.2)) := rfl
    rw [hnext] at hr
    obtain ⟨d, _, rfl⟩ := Option.map_eq_some_iff.mp hr
    exact ⟨d.1, us, Or.inr rfl⟩

/-- Texts that are joined by a comma and a blank are read one after the other. -/
theorem reads_join {ι : Type*} {items : List ι} {texts : List (List Char)}
    {toks : ι → List Lexeme} {cond : ι → Prop}
    (h : List.Forall₂ (fun x text => Reads text (toks x) (cond x)) items texts) :
    Reads ([',', ' '].intercalate texts) ([.sym ','].intercalate (items.map toks))
      (∀ x ∈ items, cond x) := by
  induction h with
  | nil => exact reads_nil.congr (by simp)
  | @cons x text items texts hx hrest ih =>
    cases hrest with
    | nil => simpa using hx.congr (by simp)
    | @cons y text' items texts hy hrest =>
      have htail := (ih.white (c := ' ') (by decide)).sym (c := ',') (by decide)
      have hall := hx.append (by decide) htail
      simp only [List.map_cons, List.intercalate_cons_cons] at hall ⊢
      simpa using hall.congr (by simp)

/-- A parenthesised text. -/
theorem Reads.parens {text : List Char} {toks : List Lexeme} {a : Prop} (h : Reads text toks a) :
    Reads ('(' :: (text ++ [')'])) (.sym '(' :: (toks ++ [.sym ')'])) a := by
  have hclose := reads_nil.sym (c := ')') (by decide)
  exact ((h.append (by decide) hclose).congr (by simp)).sym (by decide)

/-- The text, to its end, is read as the lexemes exactly when the condition holds. -/
def ReadsTo (text : List Char) (toks : List Lexeme) (cond : Prop) : Prop :=
  lexemes text = some toks ↔ cond

/-- The condition can be replaced by an equivalent one. -/
theorem ReadsTo.congr {text : List Char} {toks : List Lexeme} {a b : Prop}
    (h : ReadsTo text toks a) (hab : a ↔ b) : ReadsTo text toks b :=
  Iff.trans h hab

/-- The empty text. -/
theorem readsTo_nil : ReadsTo [] [] True := by simp [ReadsTo, lexemes, lexUpTo]

section

variable {text : List Char} {toks : List Lexeme} {a : Prop}

/-- A text that puts known lexemes in front of those of another text. -/
theorem ReadsTo.of_map (h : ReadsTo text toks a) (front : List Char) (k : List Lexeme)
    (hfront : lexemes (front ++ text) = (lexemes text).map (k ++ ·)) :
    ReadsTo (front ++ text) (k ++ toks) a := by
  refine Iff.trans ?_ h
  rw [hfront, Option.map_eq_some_iff]
  constructor
  · rintro ⟨ts, hts, heq⟩
    rw [hts, List.append_cancel_left heq]
  · intro hts
    exact ⟨toks, hts, rfl⟩

/-- White space in front of a text. -/
theorem ReadsTo.white (h : ReadsTo text toks a) (c : Char) (hc : isWhite c = true) :
    ReadsTo (c :: text) toks a := by
  rw [ReadsTo, lexemes_white hc]
  exact h

/-- A symbol in front of a text. -/
theorem ReadsTo.symbol (h : ReadsTo text toks a) (c : Char) (hc : isSymbol c = true) :
    ReadsTo (c :: text) (.sym c :: toks) a :=
  h.of_map [c] [.sym c] (lexemes_symbol hc text)

/-- A word in front of a text that does not go on with it. -/
theorem ReadsTo.word (h : ReadsTo text toks a) {w : List Char} (hw : IsWord w)
    (hend : ∀ c ∈ text.head?, isWordChar c = false) : ReadsTo (w ++ text) (.word w :: toks) a :=
  h.of_map w [.word w] (lexemes_word_end hw hend)

/-- Words with blanks behind them in front of a text. -/
theorem ReadsTo.words (h : ReadsTo text toks a) {ws : List (List Char)}
    (hws : ∀ w ∈ ws, IsWord w) :
    ReadsTo (Paths.terminated ' ' ws ++ text) (ws.map .word ++ toks) a :=
  h.of_map _ _ (lexemes_words hws text)

/-- An identifier that is put between marks unescaped, in front of a text. -/
theorem ReadsTo.delimited (h : ReadsTo text toks a) (d : List Char)
    (hend : text.head? ≠ some '"') :
    ReadsTo ('"' :: (d ++ '"' :: text)) (.delimited d :: toks) ('"' ∉ d ∧ a) :=
  (lexemes_delimited_iff hend).trans (and_congr_right (fun _ => h))

/-- A string that is put between marks unescaped, in front of a text. -/
theorem ReadsTo.str (h : ReadsTo text toks a) (d : List Char) (hend : text.head? ≠ some '\'') :
    ReadsTo ('\'' :: (d ++ '\'' :: text)) (.str d :: toks) ('\'' ∉ d ∧ a) :=
  (lexemes_str_iff hend).trans (and_congr_right (fun _ => h))

end

end SqlLexer
