import Memcove.Core.Models
import Memcove.Lib.KeyedTables
import Memcove.Python
import Mathlib.Data.List.Sort

/-!
# The registry's tables

The four tables of `core/registry_backends.py` and the transactions of `core/registry.py`, each as
one function from tables to tables. Text keys are compared exactly, as Postgres and SQLite do, and
the order of rows without an `ORDER BY` is the order of insertion.
-/

namespace Memcove

open KeyedTables

/-- A row of `memcove_objects`. -/
structure ObjectRow where
  tenant : String
  label : String
  tableIdent : String
  source : SourceKind
  sourceRef : Option String := none
  producingSql : Option (List Token) := none
  deriving DecidableEq

/-- The primary key of a row. -/
def ObjectRow.key (row : ObjectRow) : Key := (row.tenant, row.label)

/-- `memcove_objects`, `memcove_object_tags`, `memcove_lineage` (a parent for each child) and
`memcove_reconcile_tombstone` (the count for each label). -/
structure Registry where
  objects : List ObjectRow := []
  tags : List (Key × String) := []
  lineage : List (Key × String) := []
  tombstones : List (Key × Int) := []

namespace Registry

/-- `dict.fromkeys`: the first occurrence of every text, in order. -/
def fromKeys (texts : List String) : List String := texts.eraseDups

/-- Every text is a key. -/
@[simp] theorem mem_fromKeys {texts : List String} {t : String} :
    t ∈ fromKeys texts ↔ t ∈ texts := List.mem_eraseDups

/-- No key is repeated. -/
theorem nodup_fromKeys (texts : List String) : (fromKeys texts).Nodup := by
  unfold fromKeys
  induction hlength : texts.length using Nat.strong_induction_on generalizing texts with
  | _ n ih =>
    cases texts with
    | nil => exact List.nodup_nil
    | cons t texts =>
      rw [List.eraseDups_cons, List.nodup_cons, List.mem_eraseDups]
      refine ⟨by simp, ih _ ?_ _ rfl⟩
      have hfilter := List.length_filter_le (fun b => !b == t) texts
      rw [List.length_cons] at hlength
      omega

/-- The text order of `ORDER BY`. -/
def sorted (texts : List String) : List String := texts.mergeSort (fun a b => decide (a ≤ b))

/-- `_upsert_object`, with `_replace_tags`. -/
def upsertObject (R : Registry) (row : ObjectRow) (tags : List String) : Registry :=
  { R with
    objects := upsert ObjectRow.key R.objects row (fun _ => row)
    tags := replaceValues R.tags row.key (fromKeys tags) }

/-- `_set_lineage`. -/
def setLineage (R : Registry) (child : Key) (parents : List String) : Registry :=
  { R with
    lineage := replaceValues R.lineage child
      ((fromKeys parents).filter (fun parent => parent != child.2)) }

/-- The transaction of `record_object` (without parents) and of `record_object_guarded`. -/
def recordObject (R : Registry) (row : ObjectRow) (tags : List String)
    (parents : Option (List String)) : Registry :=
  match parents with
  | none => R.upsertObject row tags
  | some parents => (R.upsertObject row tags).setLineage row.key parents

/-- `delete_object`. -/
def deleteObject (R : Registry) (k : Key) : Registry :=
  { R with
    objects := remove ObjectRow.key R.objects k
    tags := remove Prod.fst R.tags k
    lineage := remove Prod.fst R.lineage k }

/-- `bump_tombstone`. -/
def bumpTombstone (R : Registry) (k : Key) : Registry :=
  { R with tombstones := upsert Prod.fst R.tombstones (k, 1) (fun t => (t.1, t.2 + 1)) }

/-- `clear_tombstone`. -/
def clearTombstone (R : Registry) (k : Key) : Registry :=
  { R with tombstones := remove Prod.fst R.tombstones k }

/-- The row of an object. -/
def row (R : Registry) (k : Key) : Option ObjectRow := lookup ObjectRow.key R.objects k

/-- `_tags_for`. -/
def tagsFor (R : Registry) (k : Key) : List String := sorted (valuesOf R.tags k)

/-- `get_object`: the row and its tags. -/
def getObject (R : Registry) (k : Key) : Option (ObjectRow × List String) :=
  (R.row k).map (fun row => (row, R.tagsFor k))

/-- The query of `list_objects`: the rows of a tenant, with a tag filter those with one of its
tags. -/
def selectObjects (R : Registry) (tenant : String) (tags : List String) : List ObjectRow :=
  R.objects.filter (fun row => row.tenant == tenant &&
    (tags.isEmpty || R.tags.any (fun t => t.1 == row.key && tags.contains t.2)))

/-- `list_objects`: the selected rows, each with its tags from one pass over the tenant's. -/
def listObjects (R : Registry) (tenant : String) (tags : List String) :
    List (ObjectRow × List String) :=
  let byLabel := (R.tags.filter (fun t => t.1.1 == tenant)).map (fun t => (t.1.2, t.2))
  (R.selectObjects tenant tags).map (fun row => (row, sorted (valuesOf byLabel row.label)))

/-- `labels_for_tenant`. -/
def labelsForTenant (R : Registry) (tenant : String) : List String :=
  (R.objects.filter (fun row => row.tenant == tenant)).map (·.label)

/-- `get_parents`. -/
def getParents (R : Registry) (k : Key) : List String := sorted (valuesOf R.lineage k)

/-- The absent-sweep count of an object. -/
def tombstone (R : Registry) (k : Key) : Option Int :=
  (lookup Prod.fst R.tombstones k).map (·.2)

/-- `tombstones_for_tenant`, as the entries of the dictionary. -/
def tombstonesForTenant (R : Registry) (tenant : String) : List (String × Int) :=
  (R.tombstones.filter (fun t => t.1.1 == tenant)).map (fun t => (t.1.2, t.2))

variable {R : Registry} {row : ObjectRow} {tags : List String} {parents : Option (List String)}
  {k k' : Key}

/-- Lineage is no part of a row. -/
theorem objects_recordObject : (R.recordObject row tags parents).objects =
    upsert ObjectRow.key R.objects row (fun _ => row) := by
  cases parents <;> rfl

/-- A recorded row is the row of its key. -/
theorem row_recordObject_self : (R.recordObject row tags parents).row row.key = some row := by
  rw [Registry.row, objects_recordObject, lookup_upsert_self (fun _ _ => rfl)]
  cases lookup ObjectRow.key R.objects row.key <;> rfl

/-- Recording leaves the rows of other keys alone. -/
theorem row_recordObject_of_ne (hk : k ≠ row.key) :
    (R.recordObject row tags parents).row k = R.row k := by
  rw [Registry.row, objects_recordObject, lookup_upsert_of_ne hk (fun _ _ => rfl), Registry.row]

/-- Recorded tags are read back sorted and without repetitions. -/
theorem tagsFor_recordObject_self :
    (R.recordObject row tags parents).tagsFor row.key = sorted (fromKeys tags) := by
  have htags : (R.recordObject row tags parents).tags =
      replaceValues R.tags row.key (fromKeys tags) := by cases parents <;> rfl
  rw [Registry.tagsFor, htags, valuesOf_replaceValues_self]

/-- Recording leaves the tags of other keys alone. -/
theorem tagsFor_recordObject_of_ne (hk : k ≠ row.key) :
    (R.recordObject row tags parents).tagsFor k = R.tagsFor k := by
  have htags : (R.recordObject row tags parents).tags =
      replaceValues R.tags row.key (fromKeys tags) := by cases parents <;> rfl
  rw [Registry.tagsFor, htags, valuesOf_replaceValues_of_ne hk, Registry.tagsFor]

/-- A deleted object has no row. -/
theorem row_deleteObject_self : (R.deleteObject k).row k = none := lookup_remove_self

/-- A deleted object has no tags. -/
theorem tagsFor_deleteObject_self : (R.deleteObject k).tagsFor k = [] := by
  simp only [tagsFor, deleteObject, remove_eq_replaceValues]
  rw [valuesOf_replaceValues_self]
  exact List.mergeSort_nil

/-- Deleting leaves the tags of other keys alone. -/
theorem tagsFor_deleteObject_of_ne (hk : k ≠ k') :
    (R.deleteObject k').tagsFor k = R.tagsFor k := by
  simp only [tagsFor, deleteObject, remove_eq_replaceValues]
  rw [valuesOf_replaceValues_of_ne hk]

/-- Deleting leaves the rows of other keys alone. -/
theorem row_deleteObject_of_ne (hk : k ≠ k') : (R.deleteObject k').row k = R.row k :=
  lookup_remove_of_ne hk

/-- Tombstones are no part of a row. -/
@[simp] theorem row_bumpTombstone : (R.bumpTombstone k').row k = R.row k := rfl

/-- Tombstones are no part of a row. -/
@[simp] theorem row_clearTombstone : (R.clearTombstone k').row k = R.row k := rfl

/-- A row that is found has the key. -/
theorem row_key (h : R.row k = some row) : row.key = k := lookup_key h

/-- The labels of a tenant are the labels of its rows. -/
theorem mem_labelsForTenant {tenant label : String} :
    label ∈ R.labelsForTenant tenant ↔ (R.row (tenant, label)).isSome = true := by
  rw [Registry.row, lookup_isSome_iff]
  simp [labelsForTenant, ObjectRow.key]
  grind

/-- An object is found exactly when it has a row. -/
theorem getObject_eq_none : R.getObject k = none ↔ R.row k = none := by
  simp [getObject]

/-- What is found is the row with its tags. -/
theorem getObject_of_row (hrow : R.row k = some row) :
    R.getObject k = some (row, R.tagsFor k) := by
  rw [getObject, hrow, Option.map_some]

/-- The pass over a tenant's tag rows finds the tags of a label. -/
theorem valuesOf_byLabel {tenant label : String} :
    valuesOf ((R.tags.filter (fun t => t.1.1 == tenant)).map (fun t => (t.1.2, t.2))) label =
      valuesOf R.tags (tenant, label) := by
  rw [valuesOf, List.filter_map, List.map_map, List.filter_filter, valuesOf]
  have hfilter : R.tags.filter (fun t =>
      ((fun r => decide (r.1 = label)) ∘ (fun t => (t.1.2, t.2))) t && t.1.1 == tenant) =
        R.tags.filter (fun t => decide (t.1 = (tenant, label))) := by
    refine List.filter_congr (fun t _ => ?_)
    obtain ⟨⟨t1, t2⟩, v⟩ := t
    by_cases htenant : t1 = tenant <;> by_cases hlabel : t2 = label <;> simp [htenant, hlabel]
  rw [hfilter]
  rfl

/-- `list_objects` lists what `get_object` finds, restricted to the objects with one of the
tags. -/
theorem mem_listObjects (hkeys : (R.objects.map ObjectRow.key).Nodup) {tenant : String}
    {found : ObjectRow × List String} : found ∈ R.listObjects tenant tags ↔
      ∃ label, R.getObject (tenant, label) = some found ∧
        (tags = [] ∨ ∃ tag ∈ tags, tag ∈ found.2) := by
  have hany (row : ObjectRow) : (R.tags.any (fun t => t.1 == row.key && tags.contains t.2)) =
      true ↔ ∃ tag ∈ tags, tag ∈ R.tagsFor row.key := by
    simp only [tagsFor, sorted, List.mem_mergeSort, valuesOf, List.any_eq_true, Bool.and_eq_true,
      beq_iff_eq, List.contains_iff_mem, List.mem_map, List.mem_filter, decide_eq_true_eq]
    constructor
    · rintro ⟨t, ht, hkey, htag⟩
      exact ⟨t.2, htag, t, ⟨ht, hkey⟩, rfl⟩
    · rintro ⟨tag, htag, t, ⟨ht, hkey⟩, rfl⟩
      exact ⟨t, ht, hkey, htag⟩
  have hrow (row : ObjectRow) (label : String) : R.row (tenant, label) = some row ↔
      row ∈ R.objects ∧ row.tenant = tenant ∧ row.label = label := by
    rw [Registry.row, lookup_eq_some_iff hkeys, ObjectRow.key, Prod.mk.injEq]
  obtain ⟨row, ts⟩ := found
  simp only [listObjects, selectObjects, valuesOf_byLabel, List.mem_map, List.mem_filter,
    Bool.and_eq_true, Bool.or_eq_true, beq_iff_eq, List.isEmpty_iff, hany, getObject,
    Option.map_eq_some_iff, hrow, Prod.mk.injEq]
  constructor
  · rintro ⟨row, ⟨hmem, rfl, htags⟩, rfl, rfl⟩
    exact ⟨row.label, ⟨row, ⟨hmem, rfl, rfl⟩, rfl, rfl⟩, htags⟩
  · rintro ⟨label, ⟨row, ⟨hmem, rfl, rfl⟩, rfl, rfl⟩, htags⟩
    exact ⟨row, ⟨hmem, rfl, htags⟩, rfl, rfl⟩

/-- An object without a row is not listed. -/
theorem not_mem_listObjects {tenant label : String} (hrow : R.row (tenant, label) = none)
    {found : ObjectRow × List String} (hfound : found ∈ R.listObjects tenant tags) :
    found.1.label ≠ label := by
  rintro rfl
  obtain ⟨row, hselected, rfl⟩ := List.mem_map.mp hfound
  obtain ⟨hmem, hcond⟩ := List.mem_filter.mp hselected
  rw [Bool.and_eq_true, beq_iff_eq] at hcond
  have hsome : (R.row (tenant, row.label)).isSome = true :=
    lookup_isSome_iff.mpr ⟨row, hmem, by rw [ObjectRow.key, hcond.1]⟩
  rw [hrow] at hsome
  cases hsome

/-- `list_objects` lists nothing twice. -/
theorem nodup_listObjects (hkeys : (R.objects.map ObjectRow.key).Nodup) (tenant : String) :
    (R.listObjects tenant tags).Nodup := by
  refine List.Nodup.map ?_ (hkeys.of_map.filter _)
  intro row row' h
  exact congrArg Prod.fst h

/-- `labels_for_tenant` lists nothing twice. -/
theorem nodup_labelsForTenant (hkeys : (R.objects.map ObjectRow.key).Nodup) (tenant : String) :
    (R.labelsForTenant tenant).Nodup := by
  refine List.Nodup.map_on ?_ (hkeys.of_map.filter _)
  intro row hrow row' hrow' hlabel
  obtain ⟨hmem, htenant⟩ := List.mem_filter.mp hrow
  obtain ⟨hmem', htenant'⟩ := List.mem_filter.mp hrow'
  refine List.inj_on_of_nodup_map hkeys hmem hmem' (Prod.ext ?_ hlabel)
  exact (beq_iff_eq.mp htenant).trans (beq_iff_eq.mp htenant').symm

/-- Recorded parents become the edges, without repetitions and without the object itself. -/
theorem lineage_recordObject_self {parents : List String} :
    valuesOf (R.recordObject row tags (some parents)).lineage row.key =
      (fromKeys parents).filter (fun parent => parent != row.key.2) := valuesOf_replaceValues_self

/-- Recording leaves the lineage of other keys alone. -/
theorem lineage_recordObject_of_ne (hk : k ≠ row.key) :
    valuesOf (R.recordObject row tags parents).lineage k = valuesOf R.lineage k := by
  cases parents with
  | none => rfl
  | some parents => exact valuesOf_replaceValues_of_ne hk

/-- A deleted object has no lineage. -/
theorem lineage_deleteObject_self : valuesOf (R.deleteObject k).lineage k = [] := by
  simp only [deleteObject, remove_eq_replaceValues]
  exact valuesOf_replaceValues_self

/-- Deleting leaves the lineage of other keys alone. -/
theorem lineage_deleteObject_of_ne (hk : k ≠ k') :
    valuesOf (R.deleteObject k').lineage k = valuesOf R.lineage k := by
  simp only [deleteObject, remove_eq_replaceValues]
  exact valuesOf_replaceValues_of_ne hk

/-- The parents are the edges. -/
theorem mem_getParents {parent : String} :
    parent ∈ R.getParents k ↔ parent ∈ valuesOf R.lineage k := by
  rw [getParents, sorted, List.mem_mergeSort]

/-- There are parents exactly when there are edges. -/
theorem getParents_eq_nil : R.getParents k = [] ↔ valuesOf R.lineage k = [] := by
  rw [getParents, sorted, ← List.length_eq_zero_iff, List.length_mergeSort,
    List.length_eq_zero_iff]

/-- The count of a key is one more after a bump. -/
theorem tombstone_bumpTombstone_self :
    (R.bumpTombstone k).tombstone k = some ((R.tombstone k).getD 0 + 1) := by
  have hupsert : lookup Prod.fst (upsert Prod.fst R.tombstones (k, (1 : Int))
      (fun t => (t.1, t.2 + 1))) k = some (((lookup Prod.fst R.tombstones k).map
        (fun t => (t.1, t.2 + 1))).getD (k, 1)) := lookup_upsert_self (fun _ h => h)
  simp only [tombstone, bumpTombstone]
  rw [hupsert]
  cases lookup Prod.fst R.tombstones k <;> simp

/-- A bump leaves other keys alone. -/
theorem tombstone_bumpTombstone_of_ne (hk : k ≠ k') :
    (R.bumpTombstone k').tombstone k = R.tombstone k := by
  have hupsert : lookup Prod.fst (upsert Prod.fst R.tombstones (k', (1 : Int))
      (fun t => (t.1, t.2 + 1))) k = lookup Prod.fst R.tombstones k :=
    lookup_upsert_of_ne hk (fun _ h => h)
  simp only [tombstone, bumpTombstone]
  rw [hupsert]

/-- A cleared key has no tombstone. -/
theorem tombstone_clearTombstone_self : (R.clearTombstone k).tombstone k = none := by
  simp [tombstone, clearTombstone, lookup_remove_self]

/-- Clearing leaves other keys alone. -/
theorem tombstone_clearTombstone_of_ne (hk : k ≠ k') :
    (R.clearTombstone k').tombstone k = R.tombstone k := by
  simp only [tombstone, clearTombstone]
  rw [lookup_remove_of_ne hk]

/-- A bump repeats no key. -/
theorem nodup_bumpTombstone (hkeys : (R.tombstones.map Prod.fst).Nodup) :
    ((R.bumpTombstone k).tombstones.map Prod.fst).Nodup := nodup_upsert hkeys (fun _ h => h)

/-- Clearing repeats no key. -/
theorem nodup_clearTombstone (hkeys : (R.tombstones.map Prod.fst).Nodup) :
    ((R.clearTombstone k).tombstones.map Prod.fst).Nodup := nodup_remove hkeys

/-- The dictionary of a tenant's tombstones has the count of every label. -/
theorem dictGet_tombstonesForTenant (hkeys : (R.tombstones.map Prod.fst).Nodup) {tenant : String}
    {counts : List (String × Int)} (hcounts : counts.Perm (R.tombstonesForTenant tenant))
    (label : String) : dictGet counts label = R.tombstone (tenant, label) := by
  have hmem (n : Int) : (label, n) ∈ counts ↔ R.tombstone (tenant, label) = some n := by
    rw [hcounts.mem_iff, tombstone, Option.map_eq_some_iff]
    simp only [lookup_eq_some_iff hkeys]
    simp only [tombstonesForTenant, List.mem_map, List.mem_filter]
    grind
  cases hcount : R.tombstone (tenant, label) with
  | none =>
    have habsent : ∀ entry ∈ counts, ¬ (entry.1 == label) = true := by
      rintro ⟨l, n⟩ hentry hl
      obtain rfl : l = label := by simpa using hl
      rw [(hmem n).mp hentry] at hcount
      cases hcount
    rw [dictGet, List.find?_eq_none.mpr habsent, Option.map_none]
  | some n =>
    have hfound : (counts.find? (fun entry => entry.1 == label)).isSome = true :=
      List.find?_isSome.mpr ⟨(label, n), (hmem n).mpr hcount, by simp⟩
    obtain ⟨⟨l, n'⟩, hentry⟩ := Option.isSome_iff_exists.mp hfound
    obtain rfl : l = label := by simpa using List.find?_some hentry
    have hn := (hmem n').mp (List.mem_of_find?_eq_some hentry)
    rw [dictGet, hentry, Option.map_some, ← hn, hcount]

/-- Recording keeps the tombstones. -/
@[simp] theorem tombstones_recordObject :
    (R.recordObject row tags parents).tombstones = R.tombstones := by
  cases parents <;> rfl

end Registry

end Memcove
