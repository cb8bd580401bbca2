import Mathlib.Data.List.DropRight
import Mathlib.Data.List.Forall2
import Mathlib.Data.List.Nodup

/-!
# The Python runtime underneath the service

The modules of Memcove lean on a few built-in string methods. Those that depend on no table are
defined here; the Unicode case mapping, `repr` and the numeric conversions of the interpreter are
the fields of `Python`, with the part of their documentation that the proofs use.
-/

namespace Memcove

/-- The class of a raised exception: the hierarchy of `core/errors.py`, the built-in exceptions
the code can raise itself, `FlightError`, and every exception of a package called from it. -/
inductive ErrorClass where
  | memcoveError | sqlGuardError | objectNotFoundError | objectExistsError | schemaMismatchError
  | ingestError | tenancyError | ticketError | scratchError
  | typeError | valueError | keyError | attributeError | flightError | external
  deriving DecidableEq, Repr

/-- A raised exception, as its handler sees it. -/
structure PyError where
  cls : ErrorClass
  message : String
  deriving DecidableEq, Repr

/-- A function of the source that may raise. -/
abbrev PyM (α : Type) := Except PyError α

/-- `raise cls(message)`. -/
def raise {α : Type} (cls : ErrorClass) (message : String) : PyM α := .error ⟨cls, message⟩

/-- A sequence of steps that does not raise: the first step returns a value, and so does the rest
on that value. -/
theorem bind_eq_ok {α β : Type} {x : PyM α} {f : α → PyM β} {b : β} (h : x >>= f = .ok b) :
    ∃ a, x = .ok a ∧ f a = .ok b := by
  cases x with
  | error e => cases h
  | ok a => exact ⟨a, rfl, h⟩

/-- The results of a loop that does not raise. -/
theorem mapM_ok {α β : Type} {f : α → PyM β} {l : List α} {bs : List β}
    (h : l.mapM f = .ok bs) : List.Forall₂ (fun a b => f a = .ok b) l bs := by
  induction l generalizing bs with
  | nil =>
    cases h
    exact List.Forall₂.nil
  | cons a l ih =>
    rw [List.mapM_cons] at h
    obtain ⟨b, hb, hrest⟩ := bind_eq_ok h
    obtain ⟨bs', hbs', hpure⟩ := bind_eq_ok hrest
    cases hpure
    exact List.Forall₂.cons hb (ih hbs')

/-- A loop all of whose steps return a value does not raise. -/
theorem mapM_ok_of_forall {α β : Type} {f : α → PyM β} {l : List α}
    (h : ∀ a ∈ l, ∃ b, f a = .ok b) : ∃ bs, l.mapM f = .ok bs := by
  induction l with
  | nil => exact ⟨[], rfl⟩
  | cons a l ih =>
    obtain ⟨b, hb⟩ := h a List.mem_cons_self
    obtain ⟨bs, hbs⟩ := ih (fun a ha => h a (List.mem_cons_of_mem _ ha))
    refine ⟨b :: bs, ?_⟩
    rw [List.mapM_cons, hb, hbs]
    rfl

/-- The interpreter services whose tables are not embedded: case mapping, printing of strings,
and the conversions `int(str)` and `int(float)`. A finite float is identified with its `repr`, the
shortest text that reads back as it. -/
class Python where
  /-- `str.lower`. -/
  lower : String → String
  /-- On ASCII text `str.lower` is the ASCII case mapping. -/
  lower_ascii : ∀ s : String, (∀ c ∈ s.toList, c.val < 128) →
    lower s = String.ofList (s.toList.map Char.toLower)
  /-- Case mapping leaves a lower-case text alone. -/
  lower_lower : ∀ s : String, lower (lower s) = lower s
  /-- Case mapping never deletes a character. -/
  lower_eq_empty : ∀ s : String, lower s = "" → s = ""
  /-- Case mapping ends a text with a line feed only where there was one. -/
  lower_newline : ∀ s : String, (lower s).toList.getLast? = some '\n' →
    s.toList.getLast? = some '\n'
  /-- `str.isalnum` on one character. -/
  isAlnum : Char → Bool
  /-- On ASCII characters it is the ASCII test. -/
  isAlnum_ascii : ∀ c : Char, c.val < 128 → isAlnum c = c.isAlphanum
  /-- `repr` of a `str`. -/
  repr : String → String
  /-- The `repr` of a `str` opens with a quotation mark, single or double. -/
  repr_quoted : ∀ s : String, (repr s).toList.head? = some '\'' ∨ (repr s).toList.head? = some '"'
  /-- `int(s)` of a `str`, when it is accepted. -/
  intOfStr : String → Option Int
  /-- `int(x)` of a finite float with the given `repr`. -/
  intOfFloat : String → Int

/-- The ASCII case mapping yields a line feed only on a line feed. -/
theorem toLower_eq_newline {c : Char} (h : c.toLower = '\n') : c = '\n' := by
  unfold Char.toLower at h
  split at h
  · rename_i hupper
    have hval := congrArg (fun c : Char => c.val.toNat) h
    have hlow : 65 ≤ c.val.toNat := hupper.1
    have hhigh : c.val.toNat ≤ 90 := hupper.2
    simp only [UInt32.toNat_add] at hval
    change (c.val.toNat + 32) % 4294967296 = 10 at hval
    omega
  · exact h

/-- The ASCII case mapping leaves its own results alone. -/
theorem toLower_idempotent (c : Char) : c.toLower.toLower = c.toLower := by
  by_cases hupper : c.val ≥ 'A'.val ∧ c.val ≤ 'Z'.val
  · have hlow : 65 ≤ c.val.toNat := hupper.1
    have hhigh : c.val.toNat ≤ 90 := hupper.2
    have hval : c.toLower.val.toNat = c.val.toNat + 32 := by
      unfold Char.toLower
      rw [dif_pos hupper]
      change (c.val.toNat + 32) % 4294967296 = c.val.toNat + 32
      omega
    refine dif_neg (fun hagain => ?_)
    have hbound : c.toLower.val.toNat ≤ 90 := hagain.2
    omega
  · have hsame : c.toLower = c := dif_neg hupper
    rw [hsame, hsame]

/-- An interpreter that agrees with the real one on printable ASCII text without quotation marks
and backslashes, for evaluating the model on concrete inputs. -/
@[reducible] def asciiPython : Python where
  lower s := String.ofList (s.toList.map Char.toLower)
  lower_ascii _ _ := rfl
  lower_lower s := by
    rw [String.toList_ofList, List.map_map]
    exact congrArg String.ofList (List.map_congr_left (fun c _ => toLower_idempotent c))
  lower_eq_empty s h := by
    have hmap : s.toList.map Char.toLower = [] := by
      rw [← String.toList_ofList (l := s.toList.map Char.toLower), h, String.toList_empty]
    rwa [List.map_eq_nil_iff, String.toList_eq_nil_iff] at hmap
  lower_newline s h := by
    rw [String.toList_ofList, List.getLast?_map] at h
    obtain ⟨c, hc, heq⟩ := Option.map_eq_some_iff.mp h
    rw [hc, toLower_eq_newline heq]
  isAlnum c := c.isAlphanum
  isAlnum_ascii _ _ := rfl
  repr s := "'" ++ s ++ "'"
  repr_quoted s := Or.inl (by simp)
  intOfStr s := s.toInt?
  intOfFloat r := ((r.splitOn ".").headD "").toInt?.getD 0

/-- `str.lower`. -/
def lower [Python] (s : String) : String := Python.lower s

/-- `str.isspace` on one character; `str.strip` removes exactly these. -/
def isSpace (c : Char) : Bool :=
  let n := c.toNat
  (0x09 ≤ n && n ≤ 0x0d) || (0x1c ≤ n && n ≤ 0x20) || n == 0x85 || n == 0xa0 || n == 0x1680 ||
    (0x2000 ≤ n && n ≤ 0x200a) || n == 0x2028 || n == 0x2029 || n == 0x202f || n == 0x205f ||
    n == 0x3000

/-- Removal of the characters that satisfy `p` from both ends of a text. -/
def stripChars (p : Char → Bool) (s : List Char) : List Char := (s.dropWhile p).rdropWhile p

/-- `str.strip` without an argument. -/
def strip (s : String) : String := String.ofList (stripChars isSpace s.toList)

/-- `str.rstrip` with a one-character argument. -/
def rstripChar (c : Char) (s : String) : String := String.ofList (s.toList.rdropWhile (· == c))

/-- `str.strip` with a one-character argument. -/
def stripChar (c : Char) (s : String) : String := String.ofList (stripChars (· == c) s.toList)

/-- `str.partition` with a one-character argument, without the separator in the middle. -/
def partitionChar (c : Char) (s : String) : String × String :=
  (String.ofList (s.toList.takeWhile (· != c)),
    String.ofList ((s.toList.dropWhile (· != c)).drop 1))

/-- `str.startswith`. -/
def startsWith (s start : String) : Bool := start.toList.isPrefixOf s.toList

/-- The text that a regular expression ending in `$` has to consume: Python's `$` also matches
just before one final newline. -/
def beforeDollar (s : List Char) : List Char :=
  if s.getLast? = some '\n' then s.dropLast else s

/-- `str.split(",")`. -/
def splitComma (s : String) : List String := (s.toList.splitOn ',').map String.ofList

/-- `key in d` and `d[key]` of a `dict[str, β]`: dictionaries are association lists without
repeated keys, and the first entry of a key is the entry. -/
def dictGet {β : Type} (d : List (String × β)) (key : String) : Option β :=
  (d.find? (fun entry => entry.1 == key)).map (·.2)

/-- A key with a value is one of the keys. -/
theorem mem_keys_of_dictGet {β : Type} {d : List (String × β)} {key : String} {value : β}
    (h : dictGet d key = some value) : key ∈ d.map (·.1) := by
  obtain ⟨entry, hentry, _⟩ := Option.map_eq_some_iff.mp h
  have hkey : entry.1 = key := by simpa using List.find?_some hentry
  exact List.mem_map.mpr ⟨entry, List.mem_of_find?_eq_some hentry, hkey⟩

/-- The keys are those with a value. -/
theorem dictGet_ne_none {β : Type} {d : List (String × β)} {key : String} :
    dictGet d key ≠ none ↔ key ∈ d.map (·.1) := by
  simp [dictGet, List.find?_eq_none]

/-- A text made only of ASCII characters that `Char.toLower` fixes is fixed by `str.lower`. -/
theorem lower_eq_self [Python] {s : String}
    (h : ∀ c ∈ s.toList, c.val < 128 ∧ c.toLower = c) : lower s = s := by
  have hmap : s.toList.map Char.toLower = s.toList := by
    conv_rhs => rw [← List.map_id s.toList]
    exact List.map_congr_left (fun c hc => (h c hc).2)
  rw [lower, Python.lower_ascii s (fun c hc => (h c hc).1), hmap, String.ofList_toList]

/-- The check that a text is ASCII and has no character that `Char.toLower` changes. -/
def isLowerAscii (s : String) : Bool := s.toList.all (fun c => c.val < 128 && c.toLower == c)

/-- A checked text is fixed by `str.lower`. -/
theorem lower_of_isLowerAscii [Python] {s : String} (h : isLowerAscii s = true) : lower s = s := by
  refine lower_eq_self (fun c hc => ?_)
  simpa using List.all_eq_true.mp h c hc

/-- Only the empty text is mapped to the empty text. -/
theorem lower_eq_empty_iff [Python] {s : String} : lower s = "" ↔ s = "" := by
  refine ⟨Python.lower_eq_empty s, ?_⟩
  rintro rfl
  exact lower_of_isLowerAscii (by decide)

/-- Stripping leaves a text alone when neither end is to be removed. -/
theorem stripChars_of_ends {p : Char → Bool} {s : List Char}
    (hhead : ∀ c, s.head? = some c → p c = false)
    (hlast : ∀ c, s.getLast? = some c → p c = false) : stripChars p s = s := by
  have hdrop : s.dropWhile p = s := by
    cases s with
    | nil => rfl
    | cons c s => rw [List.dropWhile_cons_of_neg (by simp [hhead c rfl])]
  rw [stripChars, hdrop, List.rdropWhile_eq_self_iff]
  intro hne hp
  simp [hlast _ (List.getLast?_eq_some_getLast hne)] at hp

/-- Stripping leaves a text alone that has nothing to be removed. -/
theorem stripChars_eq_self {p : Char → Bool} {s : List Char} (h : ∀ c ∈ s, p c = false) :
    stripChars p s = s :=
  stripChars_of_ends (fun c hc => h c (List.mem_of_head? hc))
    (fun c hc => h c (List.mem_of_getLast? hc))

/-- A text free of white space is its own `strip`. -/
theorem strip_eq_self {s : String} (h : ∀ c ∈ s.toList, isSpace c = false) : strip s = s := by
  rw [strip, stripChars_eq_self h, String.ofList_toList]

/-- A stripped text does not end in white space. -/
theorem strip_getLast {s : String} {c : Char} (h : (strip s).toList.getLast? = some c) :
    isSpace c = false := by
  rw [strip, String.toList_ofList, stripChars] at h
  obtain ⟨hne, hlast⟩ := List.mem_getLast?_eq_getLast h
  have := List.rdropWhile_last_not isSpace (s.toList.dropWhile isSpace) hne
  simpa [hlast] using this

/-- A looked-up value is the value of one of the entries. -/
theorem dictGet_mem {β : Type} {d : List (String × β)} {key : String} {value : β}
    (h : dictGet d key = some value) : (key, value) ∈ d := by
  obtain ⟨entry, hfind, hvalue⟩ := Option.map_eq_some_iff.mp h
  have hkey : entry.1 = key := by simpa using List.find?_some hfind
  have hmem := List.mem_of_find?_eq_some hfind
  rwa [← hkey, ← hvalue]

/-- In a dictionary without repeated keys every entry is looked up. -/
theorem dictGet_of_mem {β : Type} {d : List (String × β)} {key : String} {value : β}
    (hkeys : (d.map Prod.fst).Nodup) (h : (key, value) ∈ d) : dictGet d key = some value := by
  have hkey : key ∈ d.map (·.1) := List.mem_map_of_mem h
  obtain ⟨value', hvalue'⟩ := Option.ne_none_iff_exists'.mp (dictGet_ne_none.mpr hkey)
  have hentry := List.inj_on_of_nodup_map hkeys (dictGet_mem hvalue') h rfl
  rw [hvalue', (Prod.mk.inj hentry).2]

end Memcove
