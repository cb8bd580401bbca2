import Memcove.Core.Storage
import Memcove.Lib.Paths

/-!
# The keys of a location

What `resolve` of `core/storage.py` makes of a location and its parts. Slashes are trimmed from
both ends of the location, of its sub-path and of every part, and nowhere else: a key has no slash
too many exactly when the location and the parts have none inside.
-/

namespace Memcove

open Paths

/-- The sub-path of a location. -/
def subPath (location : String) : String :=
  stripChar '/' (partitionChar '/' (stripChar '/' location)).2

/-- `[p.strip("/") for p in parts if p]`. -/
def trimmedParts (parts : List String) : List String :=
  (parts.filter (· != "")).map (stripChar '/')

/-- What the parts contribute to a key. -/
def keyPart (parts : List String) : String := "/".intercalate (trimmedParts parts)

/-- The `segments` of `resolve`. -/
def keySegments (location : String) (parts : List String) : List String :=
  (if subPath location = "" then [] else [subPath location]) ++ trimmedParts parts

/-- A trimmed text neither begins nor ends in what was trimmed. -/
theorem stripChar_ends (c : Char) (s : String) :
    (stripChar c s).toList.head? ≠ some c ∧ (stripChar c s).toList.getLast? ≠ some c := by
  rw [stripChar, String.toList_ofList, stripChars]
  constructor
  · intro hhead
    obtain ⟨dropped, hdropped⟩ := List.rdropWhile_prefix (· == c) (l := s.toList.dropWhile (· == c))
    have hnot := List.head?_dropWhile_not (· == c) s.toList
    rw [← hdropped, List.head?_append, hhead] at hnot
    simp at hnot
  · intro hlast
    obtain ⟨hne, hget⟩ := List.mem_getLast?_eq_getLast hlast
    have hnot := List.rdropWhile_last_not (· == c) _ hne
    rw [← hget] at hnot
    simp at hnot

/-- Nothing is left exactly when there is no other character. -/
theorem stripChar_eq_empty_iff {c : Char} {s : String} :
    stripChar c s = "" ↔ ∀ d ∈ s.toList, d = c := by
  rw [← String.toList_eq_nil_iff, stripChar, String.toList_ofList, stripChars,
    List.rdropWhile_eq_nil_iff]
  constructor
  · intro hgone
    cases hrest : s.toList.dropWhile (· == c) with
    | nil =>
      intro d hd
      simpa using List.dropWhile_eq_nil_iff.mp hrest d hd
    | cons e rest =>
      have hnot := List.head?_dropWhile_not (· == c) s.toList
      rw [hrest] at hnot hgone
      have heq : e = c := by simpa using hgone e List.mem_cons_self
      simp [heq] at hnot
  · intro hall
    have hnone : s.toList.dropWhile (· == c) = [] :=
      List.dropWhile_eq_nil_iff.mpr (fun d hd => by simp [hall d hd])
    simp [hnone]

/-- Behind the bucket of a trimmed location there is nothing, or more than slashes. -/
theorem subPath_eq_empty_iff (location : String) :
    subPath location = "" ↔ (partitionChar '/' (stripChar '/' location)).2 = "" := by
  constructor
  · intro hempty
    by_contra hne
    obtain ⟨_, htext⟩ := partitionChar_toList hne
    obtain ⟨front, d, hsub⟩ := (List.eq_nil_or_concat' _).resolve_left
      (String.toList_eq_nil_iff.not.mpr hne)
    have hlast := (stripChar_ends '/' location).2
    have hend : (stripChar '/' location).toList.getLast? = some d := by
      rw [htext, hsub, ← List.cons_append, ← List.append_assoc, List.getLast?_concat]
    have hd : d = '/' := stripChar_eq_empty_iff.mp hempty d (by simp [hsub])
    rw [hend, hd] at hlast
    exact hlast rfl
  · intro hempty
    rw [subPath, hempty]
    rfl

/-- The key is the segments, joined. -/
theorem resolve_snd (location : String) (parts : List String) :
    (resolve location parts).2 = "/".intercalate (keySegments location parts) := by
  simp only [resolve, keySegments, trimmedParts, subPath_eq_empty_iff]
  rfl

/-- The characters of a key. -/
theorem resolve_snd_toList (location : String) (parts : List String) :
    (resolve location parts).2.toList =
      ['/'].intercalate ((keySegments location parts).map String.toList) := by
  rw [resolve_snd, String.toList_intercalate]
  rfl

/-- The segments grow with the parts. -/
theorem keySegments_append (location : String) (parts parts' : List String) :
    keySegments location (parts ++ parts') = keySegments location parts ++ trimmedParts parts' := by
  simp [keySegments, trimmedParts]

/-- Parts that are not empty are all kept. -/
theorem trimmedParts_eq {parts : List String} (h : ∀ part ∈ parts, part ≠ "") :
    trimmedParts parts = parts.map (stripChar '/') := by
  have hkept : parts.filter (· != "") = parts :=
    List.filter_eq_self.mpr (fun part hpart => by simpa using h part hpart)
  rw [trimmedParts, hkept]

/-- Parts that are not empty and have no slash are kept as they are. -/
theorem trimmedParts_eq_self {parts : List String}
    (h : ∀ part ∈ parts, part ≠ "" ∧ '/' ∉ part.toList) : trimmedParts parts = parts := by
  have hmap : parts.map (stripChar '/') = parts.map id :=
    List.map_congr_left (fun part hpart => stripChar_eq_self (h part hpart).2)
  rw [trimmedParts_eq (fun part hpart => (h part hpart).1), hmap, List.map_id]

/-- The last part of a key stands behind the terminated segments above it. -/
theorem resolve_concat (location : String) (above : List String) {part : String}
    (hne : part ≠ "") (hplain : '/' ∉ part.toList) :
    (resolve location (above ++ [part])).2.toList =
      terminated '/' ((keySegments location above).map String.toList) ++ part.toList := by
  have hpart : trimmedParts [part] = [part] := trimmedParts_eq_self (by simp [hne, hplain])
  rw [resolve_snd_toList, keySegments_append, hpart, List.map_append, List.map_singleton,
    intercalate_concat]

/-- The segments of a sub-path. -/
def subPathSegments (location : String) : List (List Char) :=
  if subPath location = "" then [] else (subPath location).toList.splitOn '/'

/-- Parts that are not empty and have no slash are segments of the key. -/
theorem resolve_splitOn (location : String) {parts : List String} (hne : parts ≠ [])
    (h : ∀ part ∈ parts, part ≠ "" ∧ '/' ∉ part.toList) :
    (resolve location parts).2.toList.splitOn '/' =
      subPathSegments location ++ parts.map String.toList := by
  have hsegments : (parts.map String.toList).flatMap (fun part => part.splitOn '/') =
      (parts.map String.toList).flatMap (fun part => [part]) := by
    refine List.flatMap_congr (List.forall_mem_map.mpr (fun part hpart => ?_))
    exact List.splitOn_eq_singleton (h part hpart).2
  rw [resolve_snd_toList, keySegments, trimmedParts_eq_self h, splitOn_intercalate (by simp [hne]),
    List.map_append, List.flatMap_append, hsegments, List.flatMap_singleton', subPathSegments]
  split <;> simp

/-- The bucket has no slash. -/
theorem resolve_bucket (location : String) (parts : List String) :
    '/' ∉ (resolve location parts).1.toList := by
  intro hslash
  rw [resolve, partitionChar, String.toList_ofList] at hslash
  simpa using List.mem_takeWhile_imp hslash

/-- The parts are resolved to a bucket without slashes and a key without a slash too many. -/
structure ResolvedCleanly (location : String) (parts : List String) : Prop where
  bucket : '/' ∉ (resolve location parts).1.toList
  key : Normalized '/' (resolve location parts).2.toList

/-- A part that is a piece of a path: it is not made of slashes alone, and has no run of them
inside. -/
structure IsPathPart (part : String) : Prop where
  other : ∃ c ∈ part.toList, c ≠ '/'
  inside : ¬ ['/', '/'] <:+: (stripChar '/' part).toList

/-- Neither the location behind its bucket nor a part has slashes where they are not trimmed. -/
structure SlashesOutside (location : String) (parts : List String) : Prop where
  inside : ¬ ['/', '/'] <:+: (subPath location).toList
  parts : ∀ part ∈ parts, IsPathPart part

/-- A part leaves a non-empty piece of a path exactly when it is one. -/
theorem isPathPart_iff (part : String) :
    (stripChar '/' part).toList ≠ [] ∧ Normalized '/' (stripChar '/' part).toList ↔
      IsPathPart part := by
  have hother : (stripChar '/' part).toList ≠ [] ↔ ∃ c ∈ part.toList, c ≠ '/' := by
    rw [ne_eq, String.toList_eq_nil_iff, stripChar_eq_empty_iff]
    push Not
    rfl
  rw [hother]
  obtain ⟨hhead, hlast⟩ := stripChar_ends '/' part
  constructor
  · rintro ⟨hother, hnormal⟩
    exact ⟨hother, hnormal.doubled⟩
  · rintro ⟨hother, hinside⟩
    exact ⟨hother, hhead, hlast, hinside⟩

/-- There are no segments exactly when there are neither a sub-path nor parts. -/
theorem keySegments_ne_nil_iff {location : String} {parts : List String}
    (h : ∀ part ∈ parts, part ≠ "") :
    keySegments location parts ≠ [] ↔ subPath location ≠ "" ∨ parts ≠ [] := by
  rw [keySegments, trimmedParts_eq h]
  split <;> simp [*]

/-- A key that is not empty is normalised exactly when slashes are only where they are trimmed. -/
theorem key_normalized_iff {location : String} {parts : List String}
    (hparts : ∀ part ∈ parts, part ≠ "") (h : keySegments location parts ≠ []) :
    (resolve location parts).2.toList ≠ [] ∧ Normalized '/' (resolve location parts).2.toList ↔
      SlashesOutside location parts := by
  have hsubPath : (∀ segment ∈ (if subPath location = "" then [] else [subPath location]),
      segment.toList ≠ [] ∧ Normalized '/' segment.toList) ↔
        ¬ ['/', '/'] <:+: (subPath location).toList := by
    obtain ⟨hhead, hlast⟩ := stripChar_ends '/' (partitionChar '/' (stripChar '/' location)).2
    split
    · rename_i hempty
      simp [hempty]
    · rename_i hne
      have hnil : (subPath location).toList ≠ [] := String.toList_eq_nil_iff.not.mpr hne
      rw [List.forall_mem_singleton]
      exact ⟨fun hnormal => hnormal.2.doubled, fun hinside => ⟨hnil, hhead, hlast, hinside⟩⟩
  rw [resolve_snd_toList, normalized_intercalate_iff (by simpa using h), keySegments,
    trimmedParts_eq hparts, List.forall_mem_map, List.forall_mem_append, hsubPath,
    List.forall_mem_map]
  simp only [isPathPart_iff]
  exact ⟨fun ⟨hinside, hpart⟩ => ⟨hinside, hpart⟩, fun ⟨hinside, hpart⟩ => ⟨hinside, hpart⟩⟩

/-- The key is empty exactly when there is nothing to put in it: no sub-path, and at most one
part, which is made of slashes alone. -/
theorem key_eq_nil_iff {location : String} {parts : List String}
    (hparts : ∀ part ∈ parts, part ≠ "") :
    (resolve location parts).2.toList = [] ↔
      subPath location = "" ∧
        (parts = [] ∨ ∃ part, parts = [part] ∧ ∀ c ∈ part.toList, c = '/') := by
  rw [resolve_snd_toList, intercalate_eq_nil_iff, keySegments, trimmedParts_eq hparts]
  by_cases hempty : subPath location = ""
  · have hsegment (part : String) :
        (stripChar '/' part).toList = [] ↔ ∀ c ∈ part.toList, c = '/' := by
      rw [String.toList_eq_nil_iff, stripChar_eq_empty_iff]
    rw [if_pos hempty, List.nil_append, List.map_map, List.map_eq_nil_iff,
      List.map_eq_singleton_iff]
    simp only [Function.comp_apply, hsegment, hempty, true_and]
  · simp [hempty]

/-- A key goes on behind a slash exactly when there is something on both sides of it. -/
theorem resolve_append_iff {location : String} {a b : List String}
    (hparts : ∀ part ∈ a ++ b, part ≠ "") :
    (resolve location (a ++ b)).2 = (resolve location a).2 ++ "/" ++ keyPart b ↔
      (subPath location ≠ "" ∨ a ≠ []) ∧ b ≠ [] := by
  rw [List.forall_mem_append] at hparts
  have hkeyPart : (keyPart b).toList = ['/'].intercalate ((trimmedParts b).map String.toList) := by
    rw [keyPart, String.toList_intercalate]
    rfl
  have hslash : "/".toList = ['/'] := rfl
  rw [← String.toList_inj, String.toList_append, String.toList_append, resolve_snd_toList,
    resolve_snd_toList, hkeyPart, hslash, keySegments_append, List.map_append, List.append_assoc,
    List.singleton_append, intercalate_append_iff]
  refine and_congr ?_ ?_
  · rw [← keySegments_ne_nil_iff hparts.1]
    simp
  · simp [trimmedParts_eq hparts.2]

/-- A location and parts are resolved cleanly exactly when slashes are only where they are
trimmed, or when the key is empty because the bucket is bare and the only part is made of slashes.
A key goes on behind a slash exactly when there is something on both sides of it. -/
theorem resolve_slashes (location : String) :
    (∀ parts, (∀ part ∈ parts, part ≠ "") →
      (ResolvedCleanly location parts ↔ SlashesOutside location parts ∨
        subPath location = "" ∧ ∃ part, parts = [part] ∧ ∀ c ∈ part.toList, c = '/')) ∧
    ∀ a b, (∀ part ∈ a ++ b, part ≠ "") →
      ((resolve location (a ++ b)).2 = (resolve location a).2 ++ "/" ++ keyPart b ↔
        (subPath location ≠ "" ∨ a ≠ []) ∧ b ≠ []) := by
  refine ⟨fun parts hparts => ⟨?_, fun h => ⟨resolve_bucket location parts, ?_⟩⟩,
    fun a b => resolve_append_iff⟩
  · rintro ⟨_, hkey⟩
    by_cases hempty : (resolve location parts).2.toList = []
    · obtain ⟨hsub, rfl | hpart⟩ := (key_eq_nil_iff hparts).mp hempty
      · exact Or.inl ⟨by simp [hsub], by simp⟩
      · exact Or.inr ⟨hsub, hpart⟩
    · refine Or.inl ((key_normalized_iff hparts ?_).mp ⟨hempty, hkey⟩)
      intro hnone
      exact hempty (by rw [resolve_snd_toList, hnone]; rfl)
  · rcases h with houtside | ⟨hsub, hpart⟩
    · by_cases hnone : keySegments location parts = []
      · rw [resolve_snd_toList, hnone]
        exact normalized_nil
      · exact ((key_normalized_iff hparts hnone).mpr houtside).2
    · rw [(key_eq_nil_iff hparts).mpr ⟨hsub, Or.inr hpart⟩]
      exact normalized_nil

/-- An upload below a sub-path with a slash behind it: the slashes are trimmed, and the file's name
stands behind those of the tenant. -/
theorem resolve_team :
    ResolvedCleanly "my-bucket/team/" ["uploads", "t_acme", "x.parquet"] ∧
      (resolve "my-bucket/team/" (["uploads", "t_acme"] ++ ["x.parquet"])).2 =
        (resolve "my-bucket/team/" ["uploads", "t_acme"]).2 ++ "/" ++ keyPart ["x.parquet"] := by
  obtain ⟨hclean, happend⟩ := resolve_slashes "my-bucket/team/"
  have hpart : ∀ part ∈ ["uploads", "t_acme", "x.parquet"], IsPathPart part := by
    rw [List.forall_mem_cons, List.forall_mem_cons, List.forall_mem_singleton]
    exact ⟨⟨⟨'u', by decide, by decide⟩, by decide⟩, ⟨⟨'t', by decide, by decide⟩, by decide⟩,
      ⟨⟨'x', by decide, by decide⟩, by decide⟩⟩
  exact ⟨(hclean _ (by decide)).mpr (Or.inl ⟨by decide, hpart⟩),
    (happend _ _ (by decide)).mpr ⟨Or.inr (by decide), by decide⟩⟩

/-- A run of slashes inside the sub-path doubles a slash in every key, and a part of slashes puts
one at the beginning. -/
theorem resolve_keeps_slashes :
    resolve "my-bucket/teams//data-eng" ["uploads", "t_acme", "x.parquet"] =
        ("my-bucket", "teams//data-eng/uploads/t_acme/x.parquet") ∧
      ¬ ResolvedCleanly "my-bucket/teams//data-eng" ["uploads", "t_acme", "x.parquet"] ∧
      resolve "my-bucket" ["/", "x.parquet"] = ("my-bucket", "/x.parquet") ∧
      ¬ ResolvedCleanly "my-bucket" ["/", "x.parquet"] := by
  refine ⟨by decide, fun h => h.key.doubled ?_, by decide, fun h => h.key.head ?_⟩
  · decide
  · decide

end Memcove
