import Memcove.Core.Outlines

/-!
# What the schema guard decides

The guard compares what is read back of the stored columns with the schema of a write. It accepts
the writes whose columns are printed like the stored ones after folding. That is the comparison of
stored types only as long as every column of a rewrite converges, and no two stored types are
folded to one text.
-/

namespace Memcove

/-- Two schemas have the same column names. -/
def MatchingNames {α β : Type} (a : List (String × α)) (b : List (String × β)) : Prop :=
  ∀ name, name ∈ a.map Prod.fst ↔ name ∈ b.map Prod.fst

/-- Every item of one dictionary is in the other when the keys are, with the same values. -/
theorem items_mem_iff {a b : List (String × String)} (hb : (b.map Prod.fst).Nodup) :
    (∀ item ∈ a, item ∈ b) ↔ (∀ name ∈ a.map Prod.fst, name ∈ b.map Prod.fst) ∧
      ∀ name x y, (name, x) ∈ a → (name, y) ∈ b → x = y := by
  constructor
  · intro h
    refine ⟨fun name hname => ?_, fun name x y hx hy => ?_⟩
    · obtain ⟨item, hitem, rfl⟩ := List.mem_map.mp hname
      exact List.mem_map_of_mem (h item hitem)
    · exact (Prod.mk.inj (List.inj_on_of_nodup_map hb (h _ hx) hy rfl)).2
  · rintro ⟨hnames, hvalues⟩ ⟨name, x⟩ hx
    obtain ⟨⟨name', y⟩, hy, rfl⟩ := List.mem_map.mp (hnames name (List.mem_map_of_mem hx))
    rwa [hvalues name' x y hx hy]

section

variable [Python]

/-- The guard accepts compatible schemas only. -/
theorem assertSchemaCompatible_eq_ok_iff {existing incoming : List (String × ArrowType)}
    (op label : String) :
    assertSchemaCompatible existing incoming op label = .ok () ↔ Compatible existing incoming := by
  refine ⟨fun hok => by_contra (fun hnot => ?_), assertSchemaCompatible_ok op label⟩
  obtain ⟨message, herror⟩ := assertSchemaCompatible_error op label hnot
  rw [hok] at herror
  cases herror

/-- Schemas with distinct column names are compatible when their columns have the same names and
the same folded types. -/
theorem compatible_iff {existing incoming : List (String × ArrowType)}
    (hexisting : (existing.map Prod.fst).Nodup) (hincoming : (incoming.map Prod.fst).Nodup) :
    Compatible existing incoming ↔ MatchingNames existing incoming ∧
      ∀ name t t', (name, t) ∈ existing → (name, t') ∈ incoming → normType t = normType t' := by
  have hkeys (schema : List (String × ArrowType)) :
      (schema.map (fun f => (f.1, normType f.2))).map Prod.fst = schema.map Prod.fst := by
    rw [List.map_map]
    rfl
  have hmem (schema : List (String × ArrowType)) (name x : String) :
      (name, x) ∈ schema.map (fun f => (f.1, normType f.2)) ↔
        ∃ t, (name, t) ∈ schema ∧ normType t = x := by
    simp
  rw [Compatible, normMap_eq hexisting, normMap_eq hincoming,
    differing_eq_nil_iff (by rwa [hkeys]), differing_eq_nil_iff (by rwa [hkeys]),
    items_mem_iff (by rwa [hkeys]), items_mem_iff (by rwa [hkeys]), hkeys, hkeys]
  constructor
  · rintro ⟨⟨hnames, hvalues⟩, hnames', _⟩
    refine ⟨fun name => ⟨hnames name, hnames' name⟩, fun name t t' ht ht' => ?_⟩
    exact hvalues name _ _ ((hmem existing name _).mpr ⟨t, ht, rfl⟩)
      ((hmem incoming name _).mpr ⟨t', ht', rfl⟩)
  · rintro ⟨hnames, htypes⟩
    have hvalues (name x y : String) (hx : ∃ t, (name, t) ∈ existing ∧ normType t = x)
        (hy : ∃ t, (name, t) ∈ incoming ∧ normType t = y) : x = y := by
      obtain ⟨t, ht, rfl⟩ := hx
      obtain ⟨t', ht', rfl⟩ := hy
      exact htypes name t t' ht ht'
    refine ⟨⟨fun name => (hnames name).mp, fun name x y hx hy => ?_⟩,
      fun name => (hnames name).mpr, fun name x y hx hy => ?_⟩
    · exact hvalues name x y ((hmem existing name x).mp hx) ((hmem incoming name y).mp hy)
    · exact (hvalues name y x ((hmem existing name y).mp hy) ((hmem incoming name x).mp hx)).symm

/-- Two stored schemas have the same columns, in any order. -/
def SameColumns (stored stored' : List (String × IcebergType)) : Prop :=
  MatchingNames stored stored' ∧
    ∀ name i i', (name, i) ∈ stored → (name, i') ∈ stored' → i = i'

/-- Two stored schemas have the same columns up to the folding of the names within their types. -/
def SameOutlines (stored stored' : List (String × IcebergType)) : Prop :=
  MatchingNames stored stored' ∧
    ∀ name i i', (name, i) ∈ stored → (name, i') ∈ stored' → i'.outline = i.outline

/-- The columns of a schema have the names of the stored columns, and are printed like these. -/
def PrintedAlike (stored : List (String × IcebergType)) (incoming : List (String × ArrowType)) :
    Prop :=
  MatchingNames stored incoming ∧ ∀ name i t o, (name, i) ∈ stored → (name, t) ∈ incoming →
    t.outline = some o → o.chars = i.outline.chars

/-- The outlines of the columns on both sides are plain. -/
def PlainColumns (stored : List (String × IcebergType)) (incoming : List (String × ArrowType)) :
    Prop :=
  (∀ column ∈ stored, column.2.outline.Plain) ∧
    ∀ column ∈ incoming, ∀ o, column.2.outline = some o → o.Plain

omit [Python] in
/-- The columns that are read back. -/
theorem readBackFields_eq (encoding : Encoding) (stored : List (String × IcebergType)) :
    IcebergType.readBackFields encoding stored =
      stored.map (fun column => (column.1, column.2.readBack encoding)) := by
  induction stored with
  | nil => rfl
  | cons column stored ih => rw [IcebergType.readBackFields, ih, List.map_cons]

end

section

variable [Python] {stored stored' : List (String × IcebergType)}
  {incoming : List (String × ArrowType)} {os : List (List Char × Outline)}

/-- The guard accepts a write whose columns are printed like the stored ones. -/
theorem assertSchemaCompatible_readBack_iff (encoding : Encoding) (op label : String)
    (hincoming : StoredFields incoming stored' os) (hnames : (stored.map Prod.fst).Nodup)
    (hnames' : (incoming.map Prod.fst).Nodup) :
    assertSchemaCompatible (IcebergType.readBackFields encoding stored) incoming op label =
      .ok () ↔ PrintedAlike stored incoming := by
  have hkeys : (IcebergType.readBackFields encoding stored).map Prod.fst =
      stored.map Prod.fst := by
    rw [readBackFields_eq, List.map_map]
    rfl
  have hmem (name : String) (t : ArrowType) :
      (name, t) ∈ IcebergType.readBackFields encoding stored ↔
        ∃ i, (name, i) ∈ stored ∧ i.readBack encoding = t := by
    simp [readBackFields_eq]
  have hfolded {t : ArrowType} {i : IcebergType} {o : Outline} (ho : t.outline = some o) :
      normType (i.readBack encoding) = normType t ↔ o.chars = i.outline.chars := by
    rw [normType_outline (outline_readBack encoding i), normType_outline ho, String.ofList_inj,
      eq_comm]
  rw [assertSchemaCompatible_eq_ok_iff, compatible_iff (by rwa [hkeys]) hnames', PrintedAlike,
    MatchingNames, hkeys]
  refine and_congr_right (fun _ => ?_)
  constructor
  · intro h name i t o hi ht ho
    exact (hfolded ho).mp (h name _ t ((hmem name _).mpr ⟨i, hi, rfl⟩) ht)
  · intro h name t t' ht ht'
    obtain ⟨i, hi, rfl⟩ := (hmem name t).mp ht
    obtain ⟨_, o, _, hstores⟩ := hincoming.mem ht'
    exact (hfolded hstores.outline_eq).mpr (h name i t' o hi ht' hstores.outline_eq)

/-- A schema that is stored in the same columns is printed like them when its columns converge. -/
theorem SameColumns.printedAlike_iff (hsame : SameColumns stored stored')
    (hincoming : StoredFields incoming stored' os) :
    PrintedAlike stored incoming ↔ ∀ column ∈ incoming, column.2.Converges := by
  have hstored {name : String} {t : ArrowType} (ht : (name, t) ∈ incoming) :
      ∃ i o, (name, i) ∈ stored ∧ StoredAs t i o := by
    obtain ⟨i', o, hi', hstores⟩ := hincoming.mem ht
    have hname : name ∈ stored.map Prod.fst := (hsame.1 name).mpr (List.mem_map_of_mem hi')
    obtain ⟨⟨name', i⟩, hi, rfl⟩ := List.mem_map.mp hname
    rw [← hsame.2 name' i i' hi hi'] at hstores
    exact ⟨i, o, hi, hstores⟩
  constructor
  · rintro ⟨_, hprinted⟩ ⟨name, t⟩ ht
    obtain ⟨i, o, hi, hstores⟩ := hstored ht
    exact hstores.chars_eq_iff.mp (hprinted name i t o hi ht hstores.outline_eq)
  · intro hconverges
    refine ⟨fun name => (hsame.1 name).trans (by rw [hincoming.names_eq]), ?_⟩
    intro name i t o hi ht ho
    obtain ⟨i', o', hi', hstores⟩ := hincoming.mem ht
    have ho' : o = o' := Option.some.inj (ho.symm.trans hstores.outline_eq)
    rw [ho', hstores.chars_eq_iff.mpr (hconverges _ ht), hsame.2 name i i' hi hi']

/-- Plain columns are printed like the stored ones when they converge and are stored in types that
differ at most in the folding of names. -/
theorem PlainColumns.printedAlike_iff (hplain : PlainColumns stored incoming)
    (hincoming : StoredFields incoming stored' os) :
    PrintedAlike stored incoming ↔
      SameOutlines stored stored' ∧ ∀ column ∈ incoming, column.2.Converges := by
  have hnames : MatchingNames stored incoming ↔ MatchingNames stored stored' := by
    rw [MatchingNames, MatchingNames, hincoming.names_eq]
  have hcolumn {name : String} {i i' : IcebergType} {t : ArrowType} {o : Outline}
      (hi : (name, i) ∈ stored) (ht : (name, t) ∈ incoming) (hstores : StoredAs t i' o) :
      o.chars = i.outline.chars ↔ t.Converges ∧ i'.outline = i.outline :=
    hstores.plain_chars_eq_iff (hplain.2 _ ht o hstores.outline_eq) (hplain.1 _ hi)
  constructor
  · rintro ⟨hsame, hprinted⟩
    refine ⟨⟨hnames.mp hsame, fun name i i' hi hi' => ?_⟩, fun column ht => ?_⟩
    · obtain ⟨t, o, ht, hstores⟩ := hincoming.of_mem hi'
      exact ((hcolumn hi ht hstores).mp (hprinted name i t o hi ht hstores.outline_eq)).2
    · obtain ⟨name, t⟩ := column
      obtain ⟨i', o, _, hstores⟩ := hincoming.mem ht
      have hname : name ∈ stored.map Prod.fst := (hsame name).mpr (List.mem_map_of_mem ht)
      obtain ⟨⟨name', i⟩, hi, rfl⟩ := List.mem_map.mp hname
      exact ((hcolumn hi ht hstores).mp (hprinted name' i t o hi ht hstores.outline_eq)).1
  · rintro ⟨⟨hsame, houtlines⟩, hconverges⟩
    refine ⟨hnames.mpr hsame, fun name i t o hi ht ho => ?_⟩
    obtain ⟨i', o', hi', hstores⟩ := hincoming.mem ht
    have ho' : o = o' := Option.some.inj (ho.symm.trans hstores.outline_eq)
    rw [ho']
    exact (hcolumn hi ht hstores).mpr ⟨hconverges _ ht, houtlines name i i' hi hi'⟩

/-- On schemas with distinct column names, stored and incoming, the guard decides whether the
stored columns are the same exactly when all columns of a rewrite converge and no other write is
printed like what is stored. When names have no punctuation, a write is printed so when its columns
converge and are stored in types that differ at most in the folding of names. -/
theorem schemaGuard_iff {written : List (String × ArrowType)} (encoding : Encoding)
    (op label : String) (hwritten : ArrowType.storeFields written = some stored)
    (hincoming : ArrowType.storeFields incoming = some stored')
    (hnames : (written.map Prod.fst).Nodup) (hnames' : (incoming.map Prod.fst).Nodup) :
    ((assertSchemaCompatible (IcebergType.readBackFields encoding stored) incoming op label =
          .ok () ↔ SameColumns stored stored') ↔
        (SameColumns stored stored' → ∀ column ∈ incoming, column.2.Converges) ∧
          (¬ SameColumns stored stored' → ¬ PrintedAlike stored incoming)) ∧
      (PlainColumns stored incoming →
        (PrintedAlike stored incoming ↔
          SameOutlines stored stored' ∧ ∀ column ∈ incoming, column.2.Converges)) := by
  obtain ⟨_, hstores⟩ := storedFields_of_store written stored hwritten
  obtain ⟨_, hstores'⟩ := storedFields_of_store incoming stored' hincoming
  have haccepts := assertSchemaCompatible_readBack_iff encoding op label hstores'
    (by rwa [hstores.names_eq]) hnames'
  refine ⟨?_, fun hplain => hplain.printedAlike_iff hstores'⟩
  rw [haccepts]
  by_cases hsame : SameColumns stored stored'
  · rw [hsame.printedAlike_iff hstores']
    simp [hsame]
  · simp [hsame]

end

section

attribute [local instance] asciiPython

/-- A write with the columns in another order and a time in another unit is accepted, as its stored
columns are the same. -/
theorem schemaGuard_times :
    assertSchemaCompatible
        (IcebergType.readBackFields ⟨true, true, true⟩
          [("id", .long), ("at", .timestamp (some "UTC"))])
        [("at", .timestamp .nano (some "UTC")), ("id", .integer 64 true)] "append" "people" =
      .ok () ↔
    SameColumns [("id", .long), ("at", .timestamp (some "UTC"))]
      [("at", .timestamp (some "UTC")), ("id", .long)] := by
  have hsame : SameColumns [("id", .long), ("at", .timestamp (some "UTC"))]
      [("at", .timestamp (some "UTC")), ("id", .long)] := by
    refine ⟨fun name => by simp [or_comm], fun name i i' hi hi' => ?_⟩
    simp only [List.mem_cons, Prod.mk.injEq, List.not_mem_nil, or_false] at hi hi'
    rcases hi with ⟨rfl, rfl⟩ | ⟨rfl, rfl⟩
    all_goals simpa [eq_comm] using hi'
  have hiff := schemaGuard_iff ⟨true, true, true⟩ "append" "people"
    (rfl : ArrowType.storeFields
      [("id", .integer 64 true), ("at", .timestamp .second (some "UTC"))] = some _)
    (rfl : ArrowType.storeFields
      [("at", .timestamp .nano (some "UTC")), ("id", .integer 64 true)] = some _)
    (by decide) (by decide)
  refine hiff.1.mpr ⟨fun _ => ?_, fun hnot => absurd hsame hnot⟩
  simp [ArrowType.Converges]

/-- The schema that an object with a list was created with is rejected, and a struct with another
field is accepted. -/
theorem schemaGuard_lists_and_structs :
    (ArrowType.storeFields [("xs", .list false "item" (.integer 64 true))] =
        some [("xs", .list .long)] ∧
      assertSchemaCompatible
          (IcebergType.readBackFields ⟨true, true, true⟩ [("xs", .list .long)])
          [("xs", .list false "item" (.integer 64 true))] "append" "people" ≠ .ok () ∧
      SameColumns [("xs", .list .long)] [("xs", .list .long)]) ∧
    (ArrowType.storeFields [("c", .struct [("large_a", .integer 64 true)])] =
        some [("c", .struct [("large_a", .long)])] ∧
      ArrowType.storeFields [("c", .struct [("a", .integer 64 true)])] =
        some [("c", .struct [("a", .long)])] ∧
      assertSchemaCompatible
          (IcebergType.readBackFields ⟨true, true, true⟩ [("c", .struct [("large_a", .long)])])
          [("c", .struct [("a", .integer 64 true)])] "append" "people" = .ok () ∧
      ¬ SameColumns [("c", .struct [("large_a", .long)])] [("c", .struct [("a", .long)])]) := by
  refine ⟨⟨rfl, ?_, fun _ => Iff.rfl, fun name i i' hi hi' => ?_⟩, rfl, rfl, ?_, ?_⟩
  · rw [Ne, assertSchemaCompatible_eq_ok_iff]
    unfold Compatible
    decide +kernel
  · have hcolumn := Prod.mk.inj (List.mem_singleton.mp hi)
    have hcolumn' := Prod.mk.inj (List.mem_singleton.mp hi')
    rw [hcolumn.2, hcolumn'.2]
  · rw [assertSchemaCompatible_eq_ok_iff]
    unfold Compatible
    decide +kernel
  · rintro ⟨_, hsame⟩
    have heq := hsame "c" _ _ List.mem_cons_self List.mem_cons_self
    simp at heq

end

end Memcove
