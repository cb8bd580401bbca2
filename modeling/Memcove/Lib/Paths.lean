import Mathlib.Data.List.DropRight
import Mathlib.Data.List.Infix

/-!
# Paths as lists of segments

A path is written by putting a separator between its segments. Over any alphabet, with the
separator after every segment, one text is a beginning of another exactly when the segments are:
names that merely share their first characters are told apart. A text has no separator too many
exactly when none of its segments is empty.
-/

namespace Paths

variable {α : Type} (sep : α)

/-- The segments, each followed by the separator. -/
def terminated (path : List (List α)) : List α := path.flatMap (· ++ [sep])

variable {sep}

@[simp]
theorem terminated_nil : terminated sep [] = [] := rfl

@[simp]
theorem terminated_cons (segment : List α) (path : List (List α)) :
    terminated sep (segment :: path) = segment ++ sep :: terminated sep path := by
  simp [terminated]

@[simp]
theorem terminated_append (path path' : List (List α)) :
    terminated sep (path ++ path') = terminated sep path ++ terminated sep path' :=
  List.flatMap_append

/-- A joined path with one more separator is terminated. -/
theorem intercalate_append_sep {path : List (List α)} (h : path ≠ []) :
    [sep].intercalate path ++ [sep] = terminated sep path := by
  induction path with
  | nil => exact absurd rfl h
  | cons segment path ih =>
    cases path with
    | nil => simp
    | cons next path =>
      rw [List.intercalate_cons_cons, terminated_cons, ← ih (by simp)]
      simp

/-- Nothing is left of a path only when there is at most one segment, and that one is empty. -/
theorem intercalate_eq_nil_iff {path : List (List α)} :
    [sep].intercalate path = [] ↔ path = [] ∨ path = [[]] := by
  cases path with
  | nil => simp
  | cons segment path =>
    cases path with
    | nil => simp
    | cons next path => simp [List.intercalate_cons_cons]

/-- A joined path goes on behind its first segments, terminated. -/
theorem intercalate_append {path path' : List (List α)} (h : path' ≠ []) :
    [sep].intercalate (path ++ path') = terminated sep path ++ [sep].intercalate path' := by
  have hjoin : [sep].intercalate (path ++ path') ++ [sep] = terminated sep (path ++ path') :=
    intercalate_append_sep (by simp [h])
  rw [terminated_append, ← intercalate_append_sep h, ← List.append_assoc] at hjoin
  exact List.append_cancel_right hjoin

/-- The last segment of a joined path stands behind the terminated others. -/
theorem intercalate_concat (path : List (List α)) (last : List α) :
    [sep].intercalate (path ++ [last]) = terminated sep path ++ last := by
  rw [intercalate_append (by simp), List.intercalate_singleton]

/-- Two joined paths make up a joined path, with a separator between them, exactly when neither is
empty. -/
theorem intercalate_append_iff {path path' : List (List α)} :
    [sep].intercalate (path ++ path') = [sep].intercalate path ++ sep :: [sep].intercalate path' ↔
      path ≠ [] ∧ path' ≠ [] := by
  constructor
  · intro hjoin
    constructor
    · rintro rfl
      have hlength := congrArg List.length hjoin
      simp at hlength
    · rintro rfl
      have hlength := congrArg List.length hjoin
      simp at hlength
  · rintro ⟨h, h'⟩
    rw [intercalate_append h', ← intercalate_append_sep h, List.append_assoc,
      List.singleton_append]

/-- Segments free of the separator are read off the front of a text. -/
theorem segment_prefix {a b s t : List α} (ha : sep ∉ a) (hb : sep ∉ b)
    (h : a ++ sep :: s <+: b ++ sep :: t) : a = b ∧ s <+: t := by
  induction a generalizing b with
  | nil =>
    cases b with
    | nil => exact ⟨rfl, (List.cons_prefix_cons.mp h).2⟩
    | cons c b =>
      obtain ⟨rfl, _⟩ := List.cons_prefix_cons.mp h
      exact absurd List.mem_cons_self hb
  | cons d a ih =>
    cases b with
    | nil =>
      obtain ⟨rfl, _⟩ := List.cons_prefix_cons.mp h
      exact absurd List.mem_cons_self ha
    | cons c b =>
      obtain ⟨rfl, hrest⟩ := List.cons_prefix_cons.mp h
      rw [List.mem_cons, not_or] at ha hb
      obtain ⟨rfl, hst⟩ := ih ha.2 hb.2 hrest
      exact ⟨rfl, hst⟩

/-- A segment and what follows it are determined by the text. -/
theorem segment_inj {a b s t : List α} (ha : sep ∉ a) (hb : sep ∉ b) :
    a ++ sep :: s = b ++ sep :: t ↔ a = b ∧ s = t := by
  constructor
  · intro h
    have hprefix : a ++ sep :: s <+: b ++ sep :: t := by rw [h]
    obtain ⟨rfl, _⟩ := segment_prefix ha hb hprefix
    exact ⟨rfl, List.tail_eq_of_cons_eq (List.append_cancel_left h)⟩
  · rintro ⟨rfl, rfl⟩
    rfl

/-- A terminated path begins another exactly when its segments do. -/
theorem terminated_prefix_iff {path path' : List (List α)} (h : ∀ segment ∈ path, sep ∉ segment)
    (h' : ∀ segment ∈ path', sep ∉ segment) :
    terminated sep path <+: terminated sep path' ↔ path <+: path' := by
  constructor
  · intro hprefix
    induction path generalizing path' with
    | nil => exact List.nil_prefix
    | cons a path ih =>
      cases path' with
      | nil => simp at hprefix
      | cons b path' =>
        rw [terminated_cons, terminated_cons] at hprefix
        rw [List.forall_mem_cons] at h h'
        obtain ⟨rfl, hrest⟩ := segment_prefix h.1 h'.1 hprefix
        exact List.cons_prefix_cons.mpr ⟨rfl, ih h.2 h'.2 hrest⟩
  · rintro ⟨rest, rfl⟩
    rw [terminated_append]
    exact List.prefix_append _ _

/-- A text is within a path when it is the path itself or goes on behind a separator. -/
theorem within_iff (path text : List α) :
    (text = path ∨ path ++ [sep] <+: text) ↔ path ++ [sep] <+: text ++ [sep] := by
  rw [List.prefix_concat_iff, List.append_cancel_right_eq, eq_comm]

variable [BEq α] [LawfulBEq α]

/-- Splitting a text and terminating the segments adds one separator. -/
theorem terminated_splitOn (text : List α) : terminated sep (text.splitOn sep) = text ++ [sep] := by
  rw [← intercalate_append_sep (List.splitOn_ne_nil sep text), List.intercalate_splitOn]

/-- The segments of a split text are free of the separator. -/
theorem not_mem_of_mem_splitOn {text segment : List α} (h : segment ∈ text.splitOn sep) :
    sep ∉ segment := by
  induction text generalizing segment with
  | nil =>
    rw [List.splitOn_nil, List.mem_singleton] at h
    subst h
    simp
  | cons c text ih =>
    rw [List.splitOn_cons_eq_if_modifyHead] at h
    split at h
    · rcases List.mem_cons.mp h with rfl | htail
      · simp
      · exact ih htail
    · rename_i hc
      cases hsplit : text.splitOn sep with
      | nil => exact absurd hsplit (List.splitOn_ne_nil sep text)
      | cons first others =>
        rw [hsplit, List.modifyHead_cons] at h
        rw [hsplit] at ih
        rcases List.mem_cons.mp h with rfl | htail
        · have hfirst := ih List.mem_cons_self
          rw [List.mem_cons, not_or]
          exact ⟨fun hsep => hc (by simp [hsep]), hfirst⟩
        · exact ih (List.mem_cons_of_mem _ htail)

/-- Every text is one that does not end in the separator, followed by separators. -/
theorem exists_stripped [DecidableEq α] (sep : α) (text : List α) :
    ∃ body n, text = body ++ List.replicate n sep ∧ body.getLast? ≠ some sep := by
  refine ⟨text.rdropWhile (· == sep), (text.rtakeWhile (· == sep)).length, ?_, ?_⟩
  · have htake : text.rtakeWhile (· == sep) =
        List.replicate (text.rtakeWhile (· == sep)).length sep := by
      refine List.eq_replicate_iff.mpr ⟨rfl, fun d hd => ?_⟩
      simpa using List.mem_rtakeWhile_imp hd
    rw [← htake, List.rdropWhile_append_rtakeWhile]
  · intro hlast
    obtain ⟨hne, hget⟩ := List.mem_getLast?_eq_getLast hlast
    have hnot := List.rdropWhile_last_not (· == sep) text hne
    rw [← hget] at hnot
    simp at hnot

/-- A text without a separator at its beginning, at its end, or next to another one. -/
structure Normalized (sep : α) (text : List α) : Prop where
  head : text.head? ≠ some sep
  last : text.getLast? ≠ some sep
  doubled : ¬ [sep, sep] <:+: text

omit [BEq α] [LawfulBEq α] in
/-- The empty text is normalised. -/
theorem normalized_nil : Normalized sep [] := ⟨by simp, by simp, by simp⟩

/-- A joined path has the segments of its parts. -/
theorem splitOn_intercalate {path : List (List α)} (h : path ≠ []) :
    ([sep].intercalate path).splitOn sep = path.flatMap (fun part => part.splitOn sep) := by
  induction path with
  | nil => exact absurd rfl h
  | cons part path ih =>
    cases path with
    | nil => simp
    | cons next path =>
      rw [List.intercalate_cons_cons, List.append_assoc, List.singleton_append,
        List.splitOn_append_cons_self, ih (by simp)]
      rfl

/-- The first segment of a text is empty when there is nothing, or a separator, to begin with. -/
theorem head_splitOn_eq_nil {text first : List α} {others : List (List α)}
    (h : text.splitOn sep = first :: others) :
    first = [] ↔ text = [] ∨ text.head? = some sep := by
  cases text with
  | nil =>
    obtain ⟨rfl, _⟩ := List.cons.inj h
    simp
  | cons c text =>
    rw [List.splitOn_cons_eq_if_modifyHead] at h
    by_cases hc : c = sep
    · subst hc
      rw [if_pos (by simp)] at h
      obtain ⟨rfl, _⟩ := List.cons.inj h
      simp
    · rw [if_neg (by simpa using hc)] at h
      cases hsplit : text.splitOn sep with
      | nil => exact absurd hsplit (List.splitOn_ne_nil sep text)
      | cons next rest =>
        rw [hsplit, List.modifyHead_cons] at h
        obtain ⟨rfl, _⟩ := List.cons.inj h
        simp [hc]

/-- No further segment of a text is empty exactly when no separator is its last character or
stands in front of another one. -/
theorem tail_splitOn_ne_nil_iff {text : List α} :
    (∀ segment ∈ (text.splitOn sep).tail, segment ≠ []) ↔
      text.getLast? ≠ some sep ∧ ¬ [sep, sep] <:+: text := by
  induction text with
  | nil => simp
  | cons c text ih =>
    cases hsplit : text.splitOn sep with
    | nil => exact absurd hsplit (List.splitOn_ne_nil sep text)
    | cons first others =>
      have hfirst := head_splitOn_eq_nil hsplit
      rw [hsplit, List.tail_cons] at ih
      rw [List.splitOn_cons_eq_if_modifyHead, hsplit, List.infix_cons_iff]
      by_cases hc : c = sep
      · subst hc
        rw [if_pos (by simp), List.tail_cons, List.forall_mem_cons, ih, ne_eq, hfirst]
        cases text with
        | nil => simp
        | cons d text =>
          have hpair : [c, c] <+: c :: d :: text ↔ d = c := by
            simp [List.cons_prefix_cons, eq_comm]
          rw [hpair, List.getLast?_cons_cons, not_or]
          simp [and_left_comm]
      · have hpair : ¬ [sep, sep] <+: c :: text := fun h => hc (List.cons_prefix_cons.mp h).1.symm
        rw [if_neg (by simpa using hc), List.modifyHead_cons, List.tail_cons, ih,
          or_iff_right hpair]
        cases text with
        | nil => simp [hc]
        | cons d text => rw [List.getLast?_cons_cons]

/-- A text that is not empty is normalised exactly when none of its segments is empty. -/
theorem segments_ne_nil_iff {text : List α} :
    (∀ segment ∈ text.splitOn sep, segment ≠ []) ↔ text ≠ [] ∧ Normalized sep text := by
  cases hsplit : text.splitOn sep with
  | nil => exact absurd hsplit (List.splitOn_ne_nil sep text)
  | cons first others =>
    have htail : (∀ segment ∈ (text.splitOn sep).tail, segment ≠ []) ↔
        text.getLast? ≠ some sep ∧ ¬ [sep, sep] <:+: text := tail_splitOn_ne_nil_iff
    rw [hsplit, List.tail_cons] at htail
    rw [List.forall_mem_cons, htail, ne_eq, head_splitOn_eq_nil hsplit, not_or]
    constructor
    · rintro ⟨⟨hne, hhead⟩, hlast, hdoubled⟩
      exact ⟨hne, hhead, hlast, hdoubled⟩
    · rintro ⟨hne, hhead, hlast, hdoubled⟩
      exact ⟨⟨hne, hhead⟩, hlast, hdoubled⟩

/-- A joined path is normalised, and not empty, exactly when all its parts are. -/
theorem normalized_intercalate_iff {path : List (List α)} (h : path ≠ []) :
    [sep].intercalate path ≠ [] ∧ Normalized sep ([sep].intercalate path) ↔
      ∀ part ∈ path, part ≠ [] ∧ Normalized sep part := by
  rw [← segments_ne_nil_iff, splitOn_intercalate h]
  constructor
  · intro hsegments part hpart
    rw [← segments_ne_nil_iff]
    exact fun segment hsegment =>
      hsegments segment (List.mem_flatMap.mpr ⟨part, hpart, hsegment⟩)
  · intro hparts segment hsegment
    obtain ⟨part, hpart, hmem⟩ := List.mem_flatMap.mp hsegment
    exact segments_ne_nil_iff.mpr (hparts part hpart) segment hmem

end Paths
