import Mathlib.Data.Nat.Notation

/-!
# Quoting by doubling

A quoted text stands between two quotation marks, and two marks inside it stand for one. This
file has the escaping, the reader, and the fact that the reader accepts a text that was written
without escaping only when there was nothing to escape. The alphabet is arbitrary.
-/

namespace Quoting

variable {α : Type*} [DecidableEq α] {q : α}

/-- Every quotation mark doubled. -/
def escape (q : α) : List α → List α
  | [] => []
  | c :: s => if c = q then q :: q :: escape q s else c :: escape q s

/-- Read behind the opening mark: the text up to the first mark that is not doubled, and what
follows that mark. -/
def readQuoted (q : α) : List α → Option (List α × List α)
  | [] => none
  | c :: s =>
    if c = q then
      match s with
      | [] => some ([], [])
      | d :: rest =>
        if d = q then (readQuoted q rest).map (fun r => (q :: r.1, r.2)) else some ([], d :: rest)
    else (readQuoted q s).map (fun r => (c :: r.1, r.2))

/-- A text without quotation marks needs no escaping. -/
theorem escape_eq_self {d : List α} (h : q ∉ d) : escape q d = d := by
  induction d with
  | nil => rfl
  | cons c d ih =>
    rw [List.mem_cons, not_or] at h
    rw [escape, if_neg (Ne.symm h.1), ih h.2]

/-- A character other than the mark is read as itself. -/
theorem readQuoted_cons_of_ne {c : α} (hc : c ≠ q) (s : List α) :
    readQuoted q (c :: s) = (readQuoted q s).map (fun r => (c :: r.1, r.2)) := by
  rw [readQuoted.eq_def]
  exact if_neg hc

/-- Reading an escaped text returns the text, when no further mark follows the closing one. -/
theorem readQuoted_escape (d : List α) {r : List α} (h : r.head? ≠ some q) :
    readQuoted q (escape q d ++ q :: r) = some (d, r) := by
  induction d with
  | nil =>
    cases r with
    | nil => simp [escape, readQuoted]
    | cons c r =>
      have hc : c ≠ q := by simpa using h
      simp [escape, readQuoted, hc]
  | cons c d ih =>
    by_cases hc : c = q
    · simp [escape, readQuoted, hc, ih]
    · rw [escape, if_neg hc, List.cons_append, readQuoted_cons_of_ne hc, ih]
      rfl

/-- What is read is an escaped text, its closing mark, and a rest that opens with no mark. -/
theorem readQuoted_sound {s d rest : List α} (h : readQuoted q s = some (d, rest)) :
    s = escape q d ++ q :: rest ∧ rest.head? ≠ some q := by
  fun_induction readQuoted q s generalizing d with
  | case1 => cases h
  | case2 =>
    cases h
    exact ⟨rfl, by simp⟩
  | case3 s ih =>
    obtain ⟨⟨d', rest'⟩, hread, heq⟩ := Option.map_eq_some_iff.mp h
    cases heq
    obtain ⟨rfl, hrest⟩ := ih hread
    exact ⟨by simp [escape], hrest⟩
  | case4 c s hc =>
    cases h
    exact ⟨rfl, by simpa using hc⟩
  | case5 c s hc ih =>
    obtain ⟨⟨d', rest'⟩, hread, heq⟩ := Option.map_eq_some_iff.mp h
    cases heq
    obtain ⟨rfl, hrest⟩ := ih hread
    exact ⟨by simp [escape, hc], hrest⟩

/-- A text that is written unescaped, closed, and followed by something else than a mark cannot
be read as a run of marks and its own escaping. -/
theorem unescaped_ne_escape {d rest rest' : List α} {c : α} (hc : c ≠ q) {n : ℕ} (hn : 0 < n) :
    d ++ q :: c :: rest ≠ List.replicate n q ++ (escape q d ++ q :: rest') := by
  induction d generalizing n with
  | nil =>
    obtain ⟨m, rfl⟩ := Nat.exists_eq_succ_of_ne_zero (Nat.pos_iff_ne_zero.mp hn)
    intro h
    cases m with
    | zero => simp [escape, List.replicate_succ, hc] at h
    | succ m => simp [escape, List.replicate_succ, hc] at h
  | cons x d ih =>
    obtain ⟨m, rfl⟩ := Nat.exists_eq_succ_of_ne_zero (Nat.pos_iff_ne_zero.mp hn)
    intro h
    simp only [List.replicate_succ, List.cons_append, List.cons.injEq] at h
    obtain ⟨rfl, h⟩ := h
    -- The first mark of the text is one mark of the run; its doubling makes the run longer.
    refine ih (n := m + 2) (by omega) ?_
    rw [h, escape, if_pos rfl]
    simp [List.replicate_succ', List.append_assoc]

/-- A text that is its own escaping, in front of a mark that is not doubled, has no mark. -/
theorem quote_free_of_eq_escape {d rest rest' : List α} {c : α} (hc : c ≠ q)
    (h : d ++ q :: c :: rest = escape q d ++ q :: rest') : q ∉ d := by
  induction d with
  | nil => exact List.not_mem_nil
  | cons x d ih =>
    by_cases hx : x = q
    · exfalso
      subst hx
      rw [escape, if_pos rfl, List.cons_append, List.cons_append, List.cons.injEq] at h
      exact unescaped_ne_escape hc (n := 1) (by omega) h.2
    · rw [escape, if_neg hx, List.cons_append, List.cons_append, List.cons.injEq] at h
      rw [List.mem_cons, not_or]
      exact ⟨Ne.symm hx, ih h.2⟩

/-- A text that was written without escaping reads back as itself exactly when it has no mark. -/
theorem readQuoted_unescaped_iff {d rest rest' : List α} {c : α} (hc : c ≠ q) :
    readQuoted q (d ++ q :: c :: rest) = some (d, rest') ↔ q ∉ d ∧ rest' = c :: rest := by
  constructor
  · intro h
    have hfree := quote_free_of_eq_escape hc (readQuoted_sound h).1
    refine ⟨hfree, ?_⟩
    have hread := readQuoted_escape (q := q) d (r := c :: rest) (by simpa using hc)
    rw [escape_eq_self hfree, h, Option.some.injEq, Prod.mk.injEq] at hread
    exact hread.2
  · rintro ⟨hfree, rfl⟩
    have hread := readQuoted_escape (q := q) d (r := c :: rest) (by simpa using hc)
    rwa [escape_eq_self hfree] at hread

/-- The text does not end the quotation it stands in: what is read of anything behind the text is
read behind it as well. -/
def Inert (q : α) (d : List α) : Prop :=
  ∀ s, readQuoted q (d ++ s) = (readQuoted q s).map (fun r => (d ++ r.1, r.2))

/-- Escaping adds one character for each mark. -/
theorem escape_length (d : List α) : (escape q d).length = d.length + d.count q := by
  induction d with
  | nil => rfl
  | cons c d ih =>
    by_cases hc : c = q
    · subst hc
      rw [escape, if_pos rfl, List.count_cons_self, List.length_cons, List.length_cons, ih,
        List.length_cons]
      omega
    · rw [escape, if_neg hc, List.count_cons_of_ne hc, List.length_cons, List.length_cons, ih]
      omega

/-- A text that was written without escaping, and is not followed by a further mark, reads back as
itself exactly when it has no mark. -/
theorem readQuoted_plain_iff {d rest rest' : List α} (h : rest.head? ≠ some q) :
    readQuoted q (d ++ q :: rest) = some (d, rest') ↔ q ∉ d ∧ rest' = rest := by
  cases rest with
  | cons c rest => exact readQuoted_unescaped_iff (by simpa using h)
  | nil =>
    constructor
    · intro hread
      have hlength := congrArg List.length (readQuoted_sound hread).1
      simp only [List.length_append, List.length_cons, List.length_nil, escape_length] at hlength
      exact ⟨List.count_eq_zero.mp (by omega), List.length_eq_zero_iff.mp (by omega)⟩
    · rintro ⟨hfree, rfl⟩
      have hread := readQuoted_escape d h
      rwa [escape_eq_self hfree] at hread

/-- The inert texts are those without a mark. -/
theorem inert_iff {d : List α} : Inert q d ↔ q ∉ d := by
  constructor
  · intro h
    have hclosed : readQuoted q [q] = some ([], []) := by simp [readQuoted]
    have hread := h [q]
    rw [hclosed, Option.map_some, List.append_nil] at hread
    exact ((readQuoted_plain_iff (by simp)).mp hread).1
  · intro hfree s
    induction d with
    | nil => simp
    | cons c d ih =>
      rw [List.mem_cons, not_or] at hfree
      rw [List.cons_append, readQuoted_cons_of_ne (Ne.symm hfree.1), ih hfree.2, Option.map_map]
      rfl

end Quoting
