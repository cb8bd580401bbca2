import Memcove.Core.Iceberg

/-!
# Outlines of types

A folded type is its printed outline. What is stored of a type is read back with the outline of the
type itself exactly when the type converges, and outlines with plain names are told apart by their
text.
-/

namespace Memcove

/-- The fields of a printed struct, each with a comma before it. -/
def commaChars (texts : List String) : List Char :=
  texts.flatMap (fun s => ',' :: ' ' :: s.toList)

/-- Texts joined with a comma. -/
theorem toList_intercalate_comma (texts : List String) :
    (", ".intercalate texts).toList = (commaChars texts).drop 2 := by
  unfold commaChars
  induction texts with
  | nil => simp
  | cons s texts ih =>
    cases texts with
    | nil => simp
    | cons s' texts =>
      rw [String.intercalate_cons_cons, String.toList_append, String.toList_append, ih]
      simp

section

variable [Python]

/-- The comma before the first field is not printed. -/
theorem foldChars_drop (texts : List String) :
    foldChars ((commaChars texts).drop 2) = (foldChars (commaChars texts)).drop 2 := by
  cases texts with
  | nil => rfl
  | cons s texts =>
    simp only [commaChars, List.flatMap_cons, List.cons_append]
    rw [foldChars_cons (by decide), foldChars_cons (by decide)]
    rfl

/-- What precedes the fields of a struct is folded by itself. -/
theorem foldChars_append_comma (s : List Char) (texts : List String) :
    foldChars (s ++ commaChars texts) = foldChars s ++ foldChars (commaChars texts) := by
  cases texts with
  | nil => simp [commaChars, foldChars, substitute]
  | cons text texts =>
    simp only [commaChars, List.flatMap_cons, List.cons_append]
    have hcomma := foldChars_append (by decide : ',' ∈ delimiters) s
    have hcons := foldChars_cons (by decide : ',' ∈ delimiters)
    rw [hcomma, hcons]

/-- A name in front of a type, and the rest. -/
theorem foldChars_named {c : Char} (hc : c ∈ delimiters) (name type rest : List Char) :
    foldChars (name ++ ':' :: ' ' :: (type ++ c :: rest)) =
      foldChars name ++ ':' :: ' ' :: (foldChars type ++ c :: foldChars rest) := by
  rw [foldChars_append (by decide), foldChars_cons (by decide), foldChars_append hc]

/-- A timestamp with a time zone. -/
theorem foldChars_zoned (unit : TimeUnit) (tz : String) :
    foldChars (ArrowType.timestamp unit (some tz)).text.toList =
      (Outline.zoned (foldChars tz.toList)).chars := by
  have hunit : foldChars ("timestamp[" ++ unit.text).toList = "timestamp[us".toList := by
    cases unit
    all_goals exact foldChars_eq rfl (by decide)
  have htz : foldChars ['t', 'z'] = ['t', 'z'] := foldChars_eq rfl (by decide)
  have htext : (ArrowType.timestamp unit (some tz)).text.toList =
      ("timestamp[" ++ unit.text).toList ++
        ',' :: ' ' :: (['t', 'z'] ++ '=' :: (tz.toList ++ ']' :: [])) := by
    simp only [ArrowType.text, String.toList_append]
    simp
  rw [htext, foldChars_append (by decide), foldChars_cons (by decide), foldChars_append (by decide),
    foldChars_append (by decide), hunit, htz]
  rfl

/-- The integer types. -/
theorem foldChars_integer {bits : ℕ} {signed : Bool} {o : Outline}
    (h : (ArrowType.integer bits signed).outline = some o) :
    foldChars (ArrowType.integer bits signed).text.toList = o.chars := by
  have hbits : bits = 8 ∨ bits = 16 ∨ bits = 32 ∨ bits = 64 := by
    by_contra hbits
    simp only [not_or] at hbits
    rw [ArrowType.outline, if_neg hbits.1, if_neg hbits.2.1, if_neg hbits.2.2.1,
      if_neg hbits.2.2.2] at h
    cases h
  rcases hbits with rfl | rfl | rfl | rfl
  all_goals
    cases signed with
    | true =>
      cases h
      first
      | rfl
      | exact foldChars_eq rfl (by decide)
    | false =>
      cases h
      exact foldChars_unsigned rfl (by decide)

/-- The floating-point types. -/
theorem foldChars_floating {bits : ℕ} {o : Outline}
    (h : (ArrowType.floating bits).outline = some o) :
    foldChars (ArrowType.floating bits).text.toList = o.chars := by
  rw [ArrowType.outline] at h
  split at h
  · rename_i hbits
    cases h
    rw [hbits]
    exact foldChars_eq rfl (by decide)
  · split at h
    · rename_i hbits
      cases h
      rw [hbits]
      exact foldChars_eq rfl (by decide)
    · cases h

/-- A list of items with an outline. -/
theorem foldChars_list (large : Bool) (field : String) {item : ArrowType} {o : Outline}
    (h : foldChars item.text.toList = o.chars) :
    foldChars (ArrowType.list large field item).text.toList =
      (Outline.list (foldChars field.toList) o).chars := by
  have hword : foldChars (if large then "large_list" else "list").toList = "list".toList := by
    cases large
    all_goals exact foldChars_eq rfl (by decide)
  have htext : (ArrowType.list large field item).text.toList =
      (if large then "large_list" else "list").toList ++
        '<' :: (field.toList ++ ':' :: ' ' :: (item.text.toList ++ '>' :: [])) := by
    cases large
    all_goals simp [ArrowType.text]
  rw [htext, foldChars_append (by decide), foldChars_named (by decide), hword, h]
  rfl

/-- A struct of fields with outlines. -/
theorem foldChars_struct {fields : List (String × ArrowType)} {os : List (List Char × Outline)}
    (h : foldChars (commaChars (ArrowType.fieldTexts fields)) = Outline.fieldChars os) :
    foldChars (ArrowType.struct fields).text.toList = (Outline.struct os).chars := by
  have hword : foldChars "struct".toList = "struct".toList := foldChars_eq rfl (by decide)
  have htext : (ArrowType.struct fields).text.toList = "struct".toList ++
      '<' :: ((", ".intercalate (ArrowType.fieldTexts fields)).toList ++ '>' :: []) := by
    simp only [ArrowType.text, String.toList_append]
    rfl
  rw [htext, foldChars_append (by decide), foldChars_append (by decide), hword,
    toList_intercalate_comma, foldChars_drop, h]
  rfl

mutual

/-- `_norm_type` prints the outline of a type. -/
theorem foldChars_text : ∀ (t : ArrowType) (o : Outline), t.outline = some o →
    foldChars t.text.toList = o.chars
  | .boolean, _, h => by
    cases h
    exact foldChars_eq rfl (by decide)
  | .integer bits signed, o, h => foldChars_integer h
  | .floating bits, o, h => foldChars_floating h
  | .string large, _, h => by
    cases h
    cases large
    all_goals exact foldChars_eq rfl (by decide)
  | .binary large, _, h => by
    cases h
    cases large
    all_goals exact foldChars_eq rfl (by decide)
  | .date bits, o, h => by
    rw [ArrowType.outline] at h
    split at h
    · rename_i hbits
      cases h
      rw [hbits]
      exact foldChars_eq rfl (by decide)
    · cases h
  | .timestamp unit none, _, h => by
    cases h
    cases unit
    all_goals exact foldChars_eq rfl (by decide)
  | .timestamp unit (some tz), _, h => by
    cases h
    exact foldChars_zoned unit tz
  | .list large field item, o, h => by
    rw [ArrowType.outline, Option.map_eq_some_iff] at h
    obtain ⟨o, ho, rfl⟩ := h
    exact foldChars_list large field (foldChars_text item o ho)
  | .struct fields, o, h => by
    rw [ArrowType.outline, Option.map_eq_some_iff] at h
    obtain ⟨os, hos, rfl⟩ := h
    exact foldChars_struct (foldChars_fieldTexts fields os hos)
  | .other name, o, h => by cases h

/-- The fields of a struct. -/
theorem foldChars_fieldTexts : ∀ (fields : List (String × ArrowType))
    (os : List (List Char × Outline)), ArrowType.outlineFields fields = some os →
      foldChars (commaChars (ArrowType.fieldTexts fields)) = Outline.fieldChars os
  | [], _, h => by
    cases h
    rfl
  | (name, type) :: fields, os, h => by
    rw [ArrowType.outlineFields] at h
    split at h
    case h_1 item items hitem hitems =>
      cases h
      have htext : commaChars (ArrowType.fieldTexts ((name, type) :: fields)) =
          ',' :: ' ' :: (name.toList ++ ':' :: ' ' :: (type.text.toList ++
            commaChars (ArrowType.fieldTexts fields))) := by
        simp [ArrowType.fieldTexts, commaChars]
      rw [htext, foldChars_cons (by decide), foldChars_cons (by decide),
        foldChars_append (by decide), foldChars_cons (by decide), foldChars_append_comma,
        foldChars_text type item hitem, foldChars_fieldTexts fields items hitems]
      rfl
    case h_2 => cases h

end

/-- The folded type, when it has an outline. -/
theorem normType_outline {t : ArrowType} {o : Outline} (h : t.outline = some o) :
    normType t = String.ofList o.chars := by
  rw [normType_eq, foldText, foldChars_text t o h]

mutual

/-- A type that `_norm_type` folds like what is read back of it: its integers are signed, and the
folded names of its list children are `element`. -/
def ArrowType.Converges : ArrowType → Prop
  | integer _ signed => signed = true
  | list _ field item => foldChars field.toList = "element".toList ∧ Converges item
  | struct fields => ConvergesFields fields
  | _ => True

/-- All fields of a struct are of this kind. -/
def ArrowType.ConvergesFields : List (String × ArrowType) → Prop
  | [] => True
  | (_, type) :: fields => Converges type ∧ ConvergesFields fields

end

mutual

/-- A type, the type that it is stored in, and its outline. -/
inductive StoredAs : ArrowType → IcebergType → Outline → Prop
  | leaf {t i l l'} : t.outline = some (.leaf l) → i.outline = .leaf l' →
      (t.Converges ↔ l = l') → (l ≠ l' → l.unsigned = true) → StoredAs t i (.leaf l)
  | zoned {unit tz} : StoredAs (.timestamp unit (some tz)) (.timestamp (some tz))
      (.zoned (foldChars tz.toList))
  | list {large field item i o} : StoredAs item i o →
      StoredAs (.list large field item) (.list i) (.list (foldChars field.toList) o)
  | struct {fields is os} : StoredFields fields is os →
      StoredAs (.struct fields) (.struct is) (.struct os)

/-- Fields, the fields that they are stored in, and their outlines. -/
inductive StoredFields : List (String × ArrowType) → List (String × IcebergType) →
    List (List Char × Outline) → Prop
  | nil : StoredFields [] [] []
  | cons {name t i o fields is os} : StoredAs t i o → StoredFields fields is os →
      StoredFields ((name, t) :: fields) ((name, i) :: is) ((foldChars name.toList, o) :: os)

end

/-- The integer types. -/
theorem storedAs_integer {bits : ℕ} {signed : Bool} {i : IcebergType}
    (h : (ArrowType.integer bits signed).store = some i) :
    ∃ o, StoredAs (.integer bits signed) i o := by
  rw [ArrowType.store] at h
  split at h
  · rename_i hbits
    cases h
    rcases hbits with rfl | rfl | rfl
    all_goals
      cases signed
      all_goals exact ⟨_, .leaf rfl rfl (by simp [ArrowType.Converges]) (by decide)⟩
  · split at h
    · rename_i hbits
      cases h
      rw [hbits]
      cases signed
      all_goals exact ⟨_, .leaf rfl rfl (by simp [ArrowType.Converges]) (by decide)⟩
    · cases h

/-- The floating-point types. -/
theorem storedAs_floating {bits : ℕ} {i : IcebergType}
    (h : (ArrowType.floating bits).store = some i) : ∃ o, StoredAs (.floating bits) i o := by
  rw [ArrowType.store] at h
  split at h
  · rename_i hbits
    cases h
    rw [hbits]
    exact ⟨_, .leaf rfl rfl (by simp [ArrowType.Converges]) (by decide)⟩
  · split at h
    · rename_i hbits
      cases h
      rw [hbits]
      exact ⟨_, .leaf rfl rfl (by simp [ArrowType.Converges]) (by decide)⟩
    · cases h

mutual

/-- A type that can be stored has an outline. -/
theorem storedAs_of_store : ∀ (t : ArrowType) (i : IcebergType), t.store = some i →
    ∃ o, StoredAs t i o
  | .boolean, _, h | .string _, _, h | .binary _, _, h | .timestamp _ none, _, h => by
    cases h
    exact ⟨_, .leaf rfl rfl (by simp [ArrowType.Converges]) (by decide)⟩
  | .integer _ _, _, h => storedAs_integer h
  | .floating _, _, h => storedAs_floating h
  | .date bits, i, h => by
    rw [ArrowType.store] at h
    split at h
    · rename_i hbits
      cases h
      rw [hbits]
      exact ⟨_, .leaf rfl rfl (by simp [ArrowType.Converges]) (by decide)⟩
    · cases h
  | .timestamp _ (some _), _, h => by
    cases h
    exact ⟨_, .zoned⟩
  | .list large field item, i, h => by
    rw [ArrowType.store, Option.map_eq_some_iff] at h
    obtain ⟨i, hi, rfl⟩ := h
    obtain ⟨o, ho⟩ := storedAs_of_store item i hi
    exact ⟨_, .list ho⟩
  | .struct fields, i, h => by
    rw [ArrowType.store, Option.map_eq_some_iff] at h
    obtain ⟨is, his, rfl⟩ := h
    obtain ⟨os, hos⟩ := storedFields_of_store fields is his
    exact ⟨_, .struct hos⟩
  | .other _, _, h => by cases h

/-- Fields that can be stored have outlines. -/
theorem storedFields_of_store : ∀ (fields : List (String × ArrowType))
    (is : List (String × IcebergType)), ArrowType.storeFields fields = some is →
      ∃ os, StoredFields fields is os
  | [], _, h => by
    cases h
    exact ⟨_, .nil⟩
  | (name, type) :: fields, is, h => by
    rw [ArrowType.storeFields] at h
    split at h
    case h_1 i is hi his =>
      cases h
      obtain ⟨o, ho⟩ := storedAs_of_store type i hi
      obtain ⟨os, hos⟩ := storedFields_of_store fields is his
      exact ⟨_, .cons ho hos⟩
    case h_2 => cases h

end

mutual

/-- The outline is the one of the type. -/
theorem StoredAs.outline_eq : ∀ {t i o}, StoredAs t i o → t.outline = some o
  | _, _, _, .leaf h _ _ _ => h
  | _, _, _, .zoned => rfl
  | _, _, _, .list h => by
    rw [ArrowType.outline, h.outline_eq]
    rfl
  | _, _, _, .struct h => by
    rw [ArrowType.outline, h.outline_eq]
    rfl

/-- The outlines are those of the fields. -/
theorem StoredFields.outline_eq : ∀ {fields is os}, StoredFields fields is os →
    ArrowType.outlineFields fields = some os
  | _, _, _, .nil => rfl
  | _, _, _, .cons h hs => by rw [ArrowType.outlineFields, h.outline_eq, hs.outline_eq]

end

/-- Stored columns keep their names. -/
theorem StoredFields.names_eq : ∀ {fields is os}, StoredFields fields is os →
    is.map Prod.fst = fields.map Prod.fst
  | _, _, _, .nil => rfl
  | _, _, _, .cons _ hitems => by rw [List.map_cons, List.map_cons, hitems.names_eq]

/-- Every column is stored. -/
theorem StoredFields.mem : ∀ {fields is os}, StoredFields fields is os → ∀ {name t},
    (name, t) ∈ fields → ∃ i o, (name, i) ∈ is ∧ StoredAs t i o
  | _, _, _, .nil, _, _, h => absurd h List.not_mem_nil
  | _, _, _, .cons hitem hitems, name, t, h => by
    rcases List.mem_cons.mp h with heq | h
    · cases heq
      exact ⟨_, _, List.mem_cons_self, hitem⟩
    · obtain ⟨i, o, hi, hstores⟩ := hitems.mem h
      exact ⟨i, o, List.mem_cons_of_mem _ hi, hstores⟩

/-- Everything that is stored comes from a column. -/
theorem StoredFields.of_mem : ∀ {fields is os}, StoredFields fields is os → ∀ {name i},
    (name, i) ∈ is → ∃ t o, (name, t) ∈ fields ∧ StoredAs t i o
  | _, _, _, .nil, _, _, h => absurd h List.not_mem_nil
  | _, _, _, .cons hitem hitems, name, i, h => by
    rcases List.mem_cons.mp h with heq | h
    · cases heq
      exact ⟨_, _, List.mem_cons_self, hitem⟩
    · obtain ⟨t, o, ht, hstores⟩ := hitems.of_mem h
      exact ⟨t, o, List.mem_cons_of_mem _ ht, hstores⟩

mutual

/-- A type that converges has the outline of what is read back. -/
theorem StoredAs.eq_outline : ∀ {t i o}, StoredAs t i o → t.Converges → o = i.outline
  | _, _, _, .leaf _ hi hiff _, h => by rw [hi, hiff.mp h]
  | _, _, _, .zoned, _ => rfl
  | _, _, _, .list hitem, h => by rw [IcebergType.outline, h.1, hitem.eq_outline h.2]
  | _, _, _, .struct hfields, h => by rw [IcebergType.outline, hfields.eq_outline h]

/-- Fields that converge have the outlines of what is read back. -/
theorem StoredFields.eq_outline : ∀ {fields is os}, StoredFields fields is os →
    ArrowType.ConvergesFields fields → os = IcebergType.outlineFields is
  | _, _, _, .nil, _ => rfl
  | _, _, _, .cons hitem hitems, h => by
    rw [IcebergType.outlineFields, hitem.eq_outline h.1, hitems.eq_outline h.2]

end

mutual

/-- What is read back has the outline of the stored type, in every encoding. -/
theorem outline_readBack (encoding : Encoding) : ∀ i : IcebergType,
    (i.readBack encoding).outline = some i.outline
  | .boolean | .int | .long | .float | .double | .string | .binary | .date => rfl
  | .timestamp none | .timestamp (some _) => rfl
  | .list element => by
    have helement : foldChars "element".toList = "element".toList := foldChars_eq rfl (by decide)
    rw [IcebergType.readBack, ArrowType.outline, outline_readBack encoding element, helement]
    rfl
  | .struct fields => by
    rw [IcebergType.readBack, ArrowType.outline, outlineFields_readBack encoding fields]
    rfl

/-- The outlines of fields that are read back. -/
theorem outlineFields_readBack (encoding : Encoding) : ∀ fields : List (String × IcebergType),
    ArrowType.outlineFields (IcebergType.readBackFields encoding fields) =
      some (IcebergType.outlineFields fields)
  | [] => rfl
  | (name, type) :: fields => by
    rw [IcebergType.readBackFields, ArrowType.outlineFields, outline_readBack encoding type,
      outlineFields_readBack encoding fields]
    rfl

end

end

mutual

/-- The colons in the names of list children. -/
def Outline.childColons : Outline → ℕ
  | leaf _ => 0
  | zoned _ => 0
  | list field item => field.count ':' + childColons item
  | struct fields => childColonsFields fields

/-- The colons in the names of list children within the fields of a struct. -/
def Outline.childColonsFields : List (List Char × Outline) → ℕ
  | [] => 0
  | (_, item) :: fields => childColons item + childColonsFields fields

end

/-- A word has no colon. -/
theorem Leaf.count_colon (l : Leaf) : l.text.count ':' = 0 := by
  cases l <;> rfl

/-- The comma that is dropped before the first field is no colon. -/
theorem count_drop_fieldChars (fields : List (List Char × Outline)) :
    ((Outline.fieldChars fields).drop 2).count ':' = (Outline.fieldChars fields).count ':' := by
  cases fields with
  | nil => rfl
  | cons field fields => simp [Outline.fieldChars]

section

variable [Python]

mutual

/-- A printed type has as many colons as what is read back, and those in the names of its list
children. -/
theorem StoredAs.count_colons : ∀ {t i o}, StoredAs t i o →
    o.chars.count ':' = i.outline.chars.count ':' + o.childColons
  | _, _, _, .leaf _ hi _ _ => by
    rw [hi, Outline.chars, Outline.chars, Leaf.count_colon, Leaf.count_colon]
    rfl
  | _, _, _, .zoned => by rw [IcebergType.outline, Outline.childColons, Nat.add_zero]
  | _, _, _, .list hitem => by
    have ih := hitem.count_colons
    simp only [IcebergType.outline, Outline.chars, Outline.childColons, List.count_append,
      List.count_cons, ih]
    have helement : "element".toList.count ':' = 0 := rfl
    omega
  | _, _, _, .struct hfields => by
    have ih := hfields.count_colons
    simp only [IcebergType.outline, Outline.chars, Outline.childColons, List.count_append,
      count_drop_fieldChars, ih]
    omega

/-- The same for the fields of a struct. -/
theorem StoredFields.count_colons : ∀ {fields is os}, StoredFields fields is os →
    (Outline.fieldChars os).count ':' =
      (Outline.fieldChars (IcebergType.outlineFields is)).count ':' +
        Outline.childColonsFields os
  | _, _, _, .nil => rfl
  | _, _, _, .cons hitem hitems => by
    have ih := hitem.count_colons
    have ihs := hitems.count_colons
    simp only [IcebergType.outlineFields, Outline.fieldChars, Outline.childColonsFields,
      List.count_append, List.count_cons, ih, ihs]
    omega

end

end

/-- Two texts up to the first occurrence of a character. -/
theorem append_cons_inj_left {c : Char} {a a' s s' : List Char} (ha : c ∉ a) (ha' : c ∉ a')
    (h : a ++ c :: s = a' ++ c :: s') : a = a' ∧ s = s' := by
  induction a generalizing a' with
  | nil =>
    cases a' with
    | nil => exact ⟨rfl, (List.cons.inj h).2⟩
    | cons x a' => exact absurd (List.cons.inj h).1 (List.ne_of_not_mem_cons ha')
  | cons x a ih =>
    cases a' with
    | nil => exact absurd (List.cons.inj h).1.symm (List.ne_of_not_mem_cons ha)
    | cons x' a' =>
      obtain ⟨rfl, hrest⟩ := List.cons.inj h
      obtain ⟨rfl, rfl⟩ := ih (List.not_mem_of_not_mem_cons ha) (List.not_mem_of_not_mem_cons ha')
        hrest
      exact ⟨rfl, rfl⟩

/-- The word with which a printed outline begins. -/
def Outline.word : Outline → List Char
  | leaf l => l.text
  | zoned _ => zonedText
  | list _ _ => listText
  | struct _ => structText

/-- The words with which an outline can begin. -/
def words : List (List Char) :=
  [Leaf.bool, .int32, .int64, .uint8, .uint16, .uint32, .uint64, .float, .double, .string, .binary,
    .date32, .timestamp].map Leaf.text ++ [zonedText, listText, structText]

/-- Every outline begins with one of them. -/
theorem Outline.word_mem (o : Outline) : o.word ∈ words := by
  cases o with
  | leaf l => cases l <;> decide
  | zoned tz => simp [word, words]
  | list field item => simp [word, words]
  | struct fields => simp [word, words]

/-- A printed outline is its word and the rest. -/
theorem Outline.chars_eq_word (o : Outline) : ∃ rest, o.chars = o.word ++ rest := by
  cases o with
  | leaf l => exact ⟨[], (List.append_nil _).symm⟩
  | zoned tz | list field item | struct fields => exact ⟨_, rfl⟩

/-- No word is the beginning of another one. -/
theorem words_prefixFree : ∀ a ∈ words, ∀ b ∈ words, a <+: b → a = b := by decide

/-- The three longer words are different. -/
theorem openings_ne :
    zonedText ≠ listText ∧ zonedText ≠ structText ∧ listText ≠ structText := by decide

/-- Texts that begin with a word begin with the same word when they are the same. -/
theorem words_append_inj {a b s s' : List Char} (ha : a ∈ words) (hb : b ∈ words)
    (h : a ++ s = b ++ s') : a = b ∧ s = s' := by
  have hab : a = b := by
    rcases List.prefix_or_prefix_of_prefix (List.prefix_append a s)
      (h ▸ List.prefix_append b s') with hprefix | hprefix
    · exact words_prefixFree a ha b hb hprefix
    · exact (words_prefixFree b hb a ha hprefix).symm
  subst hab
  exact ⟨rfl, List.append_cancel_left h⟩

/-- Outlines that are printed alike begin with the same word. -/
theorem Outline.word_eq {o o' : Outline} {s s' : List Char} (h : o.chars ++ s = o'.chars ++ s') :
    o.word = o'.word := by
  obtain ⟨rest, hrest⟩ := o.chars_eq_word
  obtain ⟨rest', hrest'⟩ := o'.chars_eq_word
  rw [hrest, hrest', List.append_assoc, List.append_assoc] at h
  exact (words_append_inj o.word_mem o'.word_mem h).1

/-- Different types are different words. -/
theorem Leaf.text_injective {l l' : Leaf} (h : l.text = l'.text) : l = l' := by
  revert h
  cases l <;> cases l' <;> decide

/-- Two words that are printed alike. -/
theorem Leaf.append_inj {l l' : Leaf} {s s' : List Char} (h : l.text ++ s = l'.text ++ s') :
    l = l' ∧ s = s' := by
  obtain ⟨hl, hs⟩ := words_append_inj (Outline.leaf l).word_mem (Outline.leaf l').word_mem h
  exact ⟨Leaf.text_injective hl, hs⟩

/-- A word is not the beginning of another outline. -/
theorem Leaf.text_ne (l : Leaf) :
    l.text ≠ zonedText ∧ l.text ≠ listText ∧ l.text ≠ structText := by
  cases l <;> decide

section

variable [Python]

/-- The comma that is dropped before the first field is the same on both sides. -/
theorem StoredFields.fieldChars_eq {fields : List (String × ArrowType)}
    {is : List (String × IcebergType)} {os : List (List Char × Outline)} {s s' : List Char}
    (hfields : StoredFields fields is os) (h : (Outline.fieldChars os).drop 2 ++ s =
      (Outline.fieldChars (IcebergType.outlineFields is)).drop 2 ++ s') :
    Outline.fieldChars os ++ s = Outline.fieldChars (IcebergType.outlineFields is) ++ s' := by
  cases hfields with
  | nil => exact h
  | cons hitem hitems => exact congrArg (fun rest => ',' :: ' ' :: rest) h

mutual

/-- A type that is printed like what is read back converges, when the names of its list children
have no colon. -/
theorem StoredAs.converges : ∀ {t i o}, StoredAs t i o → o.childColons = 0 → ∀ {s s'},
    o.chars ++ s = i.outline.chars ++ s' → t.Converges ∧ s = s'
  | _, _, _, .leaf _ hi hiff _, _, _, _, h => by
    rw [hi] at h
    obtain ⟨hl, hs⟩ := Leaf.append_inj h
    exact ⟨hiff.mpr hl, hs⟩
  | _, _, _, .zoned, _, _, _, h => ⟨trivial, List.append_cancel_left h⟩
  | _, _, _, .list hitem, hcolons, _, _, h => by
    rw [Outline.childColons, Nat.add_eq_zero_iff, List.count_eq_zero] at hcolons
    simp only [IcebergType.outline, Outline.chars, List.append_assoc, List.cons_append,
      List.append_cancel_left_eq] at h
    obtain ⟨hname, hrest⟩ := append_cons_inj_left hcolons.1 (by decide) h
    obtain ⟨hconverges, hs⟩ := hitem.converges hcolons.2 (List.cons.inj hrest).2
    exact ⟨⟨hname, hconverges⟩, (List.cons.inj hs).2⟩
  | _, _, _, .struct hfields, hcolons, _, _, h => by
    simp only [IcebergType.outline, Outline.chars, List.append_assoc,
      List.append_cancel_left_eq] at h
    obtain ⟨hconverges, hs⟩ := hfields.converges hcolons (hfields.fieldChars_eq h)
    exact ⟨hconverges, (List.cons.inj hs).2⟩

/-- The same for the fields of a struct. -/
theorem StoredFields.converges : ∀ {fields is os}, StoredFields fields is os →
    Outline.childColonsFields os = 0 → ∀ {s s'},
      Outline.fieldChars os ++ s = Outline.fieldChars (IcebergType.outlineFields is) ++ s' →
        ArrowType.ConvergesFields fields ∧ s = s'
  | _, _, _, .nil, _, _, _, h => ⟨trivial, h⟩
  | _, _, _, .cons hitem hitems, hcolons, s, s', h => by
    rw [Outline.childColonsFields, Nat.add_eq_zero_iff] at hcolons
    simp only [IcebergType.outlineFields, Outline.fieldChars, List.append_assoc, List.cons_append,
      List.cons.injEq, true_and, List.append_cancel_left_eq] at h
    obtain ⟨hconverges, hrest⟩ := hitem.converges hcolons.1 h
    obtain ⟨hconverges', hs⟩ := hitems.converges hcolons.2 hrest
    exact ⟨⟨hconverges, hconverges'⟩, hs⟩

end

/-- A type that can be stored is printed like what is read back exactly when it converges. -/
theorem StoredAs.chars_eq_iff {t : ArrowType} {i : IcebergType} {o : Outline} (h : StoredAs t i o) :
    o.chars = i.outline.chars ↔ t.Converges := by
  constructor
  · intro hchars
    have hcount := h.count_colons
    rw [hchars] at hcount
    have hcolons : o.childColons = 0 := Nat.left_eq_add.mp hcount
    exact (h.converges hcolons (congrArg (· ++ []) hchars)).1
  · intro hconverges
    rw [h.eq_outline hconverges]

/-- Nothing stored is read back as an unsigned integer. -/
theorem IcebergType.outline_ne_unsigned {i : IcebergType} {l : Leaf}
    (h : Outline.leaf l = i.outline) : l.unsigned = false := by
  cases i with
  | timestamp tz =>
    cases tz with
    | none =>
      cases h
      rfl
    | some tz => cases h
  | list element => cases h
  | struct fields => cases h
  | boolean | int | long | float | double | string | binary | date =>
    cases h
    rfl

mutual

/-- A type with the outline of something stored converges. -/
theorem StoredAs.converges_of_eq : ∀ {t i o}, StoredAs t i o → ∀ {i' : IcebergType},
    o = i'.outline → t.Converges
  | _, _, _, .leaf _ _ hiff hunsigned, i', h => by
    refine hiff.mpr (by_contra (fun hne => ?_))
    have hsigned := IcebergType.outline_ne_unsigned h
    rw [hunsigned hne] at hsigned
    cases hsigned
  | _, _, _, .zoned, _, _ => trivial
  | _, _, _, .list hitem, i', h => by
    cases i' with
    | list element =>
      obtain ⟨hname, hitems⟩ := Outline.list.inj h
      exact ⟨hname, hitem.converges_of_eq hitems⟩
    | timestamp tz => cases tz <;> cases h
    | struct fields => cases h
    | boolean | int | long | float | double | string | binary | date => cases h
  | _, _, _, .struct hfields, i', h => by
    cases i' with
    | struct fields => exact hfields.converges_of_eq (Outline.struct.inj h)
    | timestamp tz => cases tz <;> cases h
    | list element => cases h
    | boolean | int | long | float | double | string | binary | date => cases h

/-- The same for the fields of a struct. -/
theorem StoredFields.converges_of_eq : ∀ {fields is os}, StoredFields fields is os →
    ∀ {is' : List (String × IcebergType)}, os = IcebergType.outlineFields is' →
      ArrowType.ConvergesFields fields
  | _, _, _, .nil, _, _ => trivial
  | _, _, _, .cons hitem hitems, is', h => by
    cases is' with
    | nil => cases h
    | cons field fields =>
      obtain ⟨hfield, hrest⟩ := List.cons.inj h
      exact ⟨hitem.converges_of_eq (Prod.mk.inj hfield).2, hitems.converges_of_eq hrest⟩

end

end

mutual

/-- An outline whose names cannot be taken for the punctuation around them: no colon, and in a
struct no closing bracket, and no bracket in a time zone. -/
def Outline.Plain : Outline → Prop
  | leaf _ => True
  | zoned tz => ']' ∉ tz
  | list field item => ':' ∉ field ∧ Plain item
  | struct fields => PlainFields fields

/-- The fields of a struct are of this kind. -/
def Outline.PlainFields : List (List Char × Outline) → Prop
  | [] => True
  | (name, item) :: fields => ':' ∉ name ∧ '>' ∉ name ∧ Plain item ∧ PlainFields fields

end

/-- The field of a struct that is not empty does not begin with the bracket that closes it. -/
theorem named_ne_close {name rest s : List Char} (hname : '>' ∉ name) :
    name ++ ':' :: rest ≠ '>' :: s := by
  intro h
  cases name with
  | nil => exact absurd (List.cons.inj h).1 (by decide)
  | cons c name => exact hname ((List.cons.inj h).1 ▸ List.mem_cons_self)

/-- The comma that is dropped before the first field is the same on both sides. -/
theorem fieldChars_eq_of_drop {fields fields' : List (List Char × Outline)} {s s' : List Char}
    (hplain : Outline.PlainFields fields) (hplain' : Outline.PlainFields fields')
    (h : (Outline.fieldChars fields).drop 2 ++ '>' :: s =
      (Outline.fieldChars fields').drop 2 ++ '>' :: s') :
    Outline.fieldChars fields ++ '>' :: s = Outline.fieldChars fields' ++ '>' :: s' := by
  cases fields with
  | nil =>
    cases fields' with
    | nil => exact h
    | cons field' fields' =>
      simp only [Outline.fieldChars, List.drop_succ_cons, List.drop_zero, List.append_assoc,
        List.cons_append] at h
      exact absurd h.symm (named_ne_close hplain'.2.1)
  | cons field fields =>
    cases fields' with
    | nil =>
      simp only [Outline.fieldChars, List.drop_succ_cons, List.drop_zero, List.append_assoc,
        List.cons_append] at h
      exact absurd h (named_ne_close hplain.2.1)
    | cons field' fields' => exact congrArg (fun rest => ',' :: ' ' :: rest) h

mutual

/-- Plain outlines that are printed alike are the same. -/
theorem Outline.eq_of_chars : ∀ {o o' : Outline}, o.Plain → o'.Plain → ∀ {s s'},
    o.chars ++ s = o'.chars ++ s' → o = o' ∧ s = s'
  | .leaf l, .leaf l', _, _, _, _, h => by
    obtain ⟨rfl, hs⟩ := Leaf.append_inj h
    exact ⟨rfl, hs⟩
  | .zoned tz, .zoned tz', hplain, hplain', _, _, h => by
    simp only [Outline.chars, List.append_assoc, List.append_cancel_left_eq] at h
    obtain ⟨rfl, hs⟩ := append_cons_inj_left hplain hplain' h
    exact ⟨rfl, hs⟩
  | .list field item, .list field' item', hplain, hplain', _, _, h => by
    simp only [Outline.chars, List.append_assoc, List.cons_append,
      List.append_cancel_left_eq] at h
    obtain ⟨rfl, hrest⟩ := append_cons_inj_left hplain.1 hplain'.1 h
    obtain ⟨rfl, hs⟩ := Outline.eq_of_chars hplain.2 hplain'.2 (List.cons.inj hrest).2
    exact ⟨rfl, (List.cons.inj hs).2⟩
  | .struct fields, .struct fields', hplain, hplain', _, _, h => by
    simp only [Outline.chars, List.append_assoc, List.append_cancel_left_eq] at h
    obtain ⟨rfl, hs⟩ := Outline.fields_eq_of_chars hplain hplain'
      (fieldChars_eq_of_drop hplain hplain' h)
    exact ⟨rfl, hs⟩
  | .leaf l, .zoned _, _, _, _, _, h => absurd (Outline.word_eq h) l.text_ne.1
  | .leaf l, .list _ _, _, _, _, _, h => absurd (Outline.word_eq h) l.text_ne.2.1
  | .leaf l, .struct _, _, _, _, _, h => absurd (Outline.word_eq h) l.text_ne.2.2
  | .zoned _, .leaf l, _, _, _, _, h => absurd (Outline.word_eq h).symm l.text_ne.1
  | .list _ _, .leaf l, _, _, _, _, h => absurd (Outline.word_eq h).symm l.text_ne.2.1
  | .struct _, .leaf l, _, _, _, _, h => absurd (Outline.word_eq h).symm l.text_ne.2.2
  | .zoned _, .list _ _, _, _, _, _, h => absurd (Outline.word_eq h) openings_ne.1
  | .zoned _, .struct _, _, _, _, _, h => absurd (Outline.word_eq h) openings_ne.2.1
  | .list _ _, .struct _, _, _, _, _, h => absurd (Outline.word_eq h) openings_ne.2.2
  | .list _ _, .zoned _, _, _, _, _, h => absurd (Outline.word_eq h).symm openings_ne.1
  | .struct _, .zoned _, _, _, _, _, h => absurd (Outline.word_eq h).symm openings_ne.2.1
  | .struct _, .list _ _, _, _, _, _, h => absurd (Outline.word_eq h).symm openings_ne.2.2

/-- Plain fields that are printed alike, up to the end of their struct, are the same. -/
theorem Outline.fields_eq_of_chars : ∀ {fields fields' : List (List Char × Outline)},
    Outline.PlainFields fields → Outline.PlainFields fields' → ∀ {s s'},
      Outline.fieldChars fields ++ '>' :: s = Outline.fieldChars fields' ++ '>' :: s' →
        fields = fields' ∧ s = s'
  | [], [], _, _, _, _, h => ⟨rfl, (List.cons.inj h).2⟩
  | [], _ :: _, _, _, _, _, h => absurd (List.cons.inj h).1 (by decide)
  | _ :: _, [], _, _, _, _, h => absurd (List.cons.inj h).1 (by decide)
  | (name, item) :: fields, (name', item') :: fields', hplain, hplain', _, _, h => by
    simp only [Outline.fieldChars, List.append_assoc, List.cons_append, List.cons.injEq,
      true_and] at h
    obtain ⟨rfl, hrest⟩ := append_cons_inj_left hplain.1 hplain'.1 h
    obtain ⟨rfl, hrest'⟩ := Outline.eq_of_chars hplain.2.2.1 hplain'.2.2.1 (List.cons.inj hrest).2
    obtain ⟨rfl, hs⟩ := Outline.fields_eq_of_chars hplain.2.2.2 hplain'.2.2.2 hrest'
    exact ⟨rfl, hs⟩

end

section

variable [Python]

/-- A type with a plain outline is printed like something stored when it converges and is stored
in a type with the same outline. -/
theorem StoredAs.plain_chars_eq_iff {t : ArrowType} {i i' : IcebergType} {o : Outline}
    (h : StoredAs t i' o) (ho : o.Plain) (hi : i.outline.Plain) :
    o.chars = i.outline.chars ↔ t.Converges ∧ i'.outline = i.outline := by
  constructor
  · intro hchars
    have heq : o = i.outline := (Outline.eq_of_chars ho hi (congrArg (· ++ []) hchars)).1
    have hconverges := h.converges_of_eq heq
    exact ⟨hconverges, (h.eq_outline hconverges).symm.trans heq⟩
  · rintro ⟨hconverges, houtline⟩
    rw [h.eq_outline hconverges, houtline]

end

end Memcove
