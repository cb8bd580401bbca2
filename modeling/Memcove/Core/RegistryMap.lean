import Memcove.Core.Registry
import Mathlib.Data.Set.Defs

/-!
# The registry as a map

What the registry is for: a map from keys to the metadata of an object, its lineage and its count
of absent sweeps. Each of the three is read off the calls made so far, and the four tables with
their delete-then-insert statements answer every read as the map does.
-/

namespace Memcove

open KeyedTables

/-- A writing call of the registry's API. -/
inductive RegistryCall where
  | recordObject (row : ObjectRow) (tags : List String)
  | recordObjectGuarded (row : ObjectRow) (tags : List String) (parents : Option (List String))
  | setLineage (child : Key) (parents : List String)
  | deleteObject (k : Key)
  | bumpTombstone (k : Key)
  | clearTombstone (k : Key)

namespace RegistryCall

/-- The key that a call is about. -/
def key : RegistryCall → Key
  | recordObject row _ | recordObjectGuarded row _ _ => row.key
  | setLineage k _ | deleteObject k | bumpTombstone k | clearTombstone k => k

/-- What a call does to the tables. -/
def apply (R : Registry) : RegistryCall → Registry
  | recordObject row tags => R.recordObject row tags none
  | recordObjectGuarded row tags parents => R.recordObject row tags parents
  | setLineage child parents => R.setLineage child parents
  | deleteObject k => R.deleteObject k
  | bumpTombstone k => R.bumpTombstone k
  | clearTombstone k => R.clearTombstone k

/-- The row and tags to which a call sets a key, where `none` is no object. -/
def setsRecord (k : Key) : RegistryCall → Option (Option (ObjectRow × List String))
  | recordObject row tags | recordObjectGuarded row tags _ =>
    if row.key = k then some (some (row, tags)) else none
  | deleteObject k' => if k' = k then some none else none
  | _ => none

/-- The lineage to which a call sets a key. -/
def setsLineage (k : Key) : RegistryCall → Option (List String)
  | recordObjectGuarded row _ (some parents) => if row.key = k then some parents else none
  | setLineage child parents => if child = k then some parents else none
  | deleteObject k' => if k' = k then some [] else none
  | _ => none

/-- A call about another key sets nothing of a key. -/
theorem sets_of_ne {c : RegistryCall} {k : Key} (hk : c.key ≠ k) :
    c.setsRecord k = none ∧ c.setsLineage k = none := by
  cases c with
  | recordObjectGuarded row tags parents =>
    cases parents <;> simp_all [key, setsRecord, setsLineage]
  | _ => simp_all [key, setsRecord, setsLineage]

end RegistryCall

/-- What the map holds for a key. -/
structure Entry where
  record : Option (ObjectRow × List String)
  parents : List String
  absentSweeps : ℕ

/-- The last record of a key since its last delete; the calls are newest first. -/
def lastRecord (k : Key) : List RegistryCall → Option (ObjectRow × List String)
  | [] => none
  | c :: calls => (c.setsRecord k).getD (lastRecord k calls)

/-- The last lineage of a key since its last delete. -/
def lastLineage (k : Key) : List RegistryCall → List String
  | [] => []
  | c :: calls => (c.setsLineage k).getD (lastLineage k calls)

/-- The bumps of a key since its last clear. -/
def bumpsSinceClear (k : Key) : List RegistryCall → ℕ
  | [] => 0
  | .bumpTombstone k' :: calls =>
    if k' = k then bumpsSinceClear k calls + 1 else bumpsSinceClear k calls
  | .clearTombstone k' :: calls => if k' = k then 0 else bumpsSinceClear k calls
  | _ :: calls => bumpsSinceClear k calls

/-- The map after a sequence of calls. -/
def objectMap (calls : List RegistryCall) (k : Key) : Entry where
  record := lastRecord k calls
  parents := lastLineage k calls
  absentSweeps := bumpsSinceClear k calls

/-- The four tables after a sequence of calls. -/
def registryOf : List RegistryCall → Registry
  | [] => {}
  | c :: calls => c.apply (registryOf calls)

/-- The count that is read for a number of bumps: none before the first. -/
def countOf (bumps : ℕ) : Option Int := if bumps = 0 then none else some bumps

namespace Entry

/-- The object of an entry: its row, with the tags sorted and without repetitions. -/
def object (entry : Entry) : Option (ObjectRow × List String) :=
  entry.record.map (fun record => (record.1, Registry.sorted (Registry.fromKeys record.2)))

/-- The parents of an entry, sorted, without repetitions and without the object itself. -/
def parentsOf (entry : Entry) (label : String) : List String :=
  Registry.sorted ((Registry.fromKeys entry.parents).filter (fun parent => parent != label))

/-- The count of absent sweeps, when there is one. -/
def tombstone (entry : Entry) : Option Int := countOf entry.absentSweeps

end Entry

/-- The list is the set in some order. -/
def Lists {α : Type} (l : List α) (s : Set α) : Prop := l.Nodup ∧ ∀ a, a ∈ l ↔ a ∈ s

/-- Every read of the tables answers as the map does, up to the order of rows. -/
structure Refines (R : Registry) (m : Key → Entry) : Prop where
  getObject : ∀ k, R.getObject k = (m k).object
  listObjects : ∀ tenant tags, Lists (R.listObjects tenant tags)
    { found | ∃ label, (m (tenant, label)).object = some found ∧
      (tags = [] ∨ ∃ tag ∈ tags, tag ∈ found.2) }
  labelsForTenant : ∀ tenant, Lists (R.labelsForTenant tenant)
    { label | (m (tenant, label)).object.isSome = true }
  getParents : ∀ k, R.getParents k = (m k).parentsOf k.2
  tombstonesForTenant : ∀ tenant label,
    dictGet (R.tombstonesForTenant tenant) label = (m (tenant, label)).tombstone

section

variable {R : Registry} {c : RegistryCall} {k : Key}

/-- The row of a key after a call. -/
theorem row_apply : (c.apply R).row k =
    ((c.setsRecord k).map (fun record => record.map (·.1))).getD (R.row k) := by
  have hrecord (row : ObjectRow) (tags : List String) (parents : Option (List String)) :
      (R.recordObject row tags parents).row k =
        (((if row.key = k then some (some (row, tags)) else none).map
          (fun record => record.map (·.1))).getD (R.row k)) := by
    by_cases hk : row.key = k
    · rw [if_pos hk, ← hk, Registry.row_recordObject_self]
      rfl
    · rw [if_neg hk, Registry.row_recordObject_of_ne (Ne.symm hk)]
      rfl
  cases c with
  | recordObject row tags => exact hrecord row tags none
  | recordObjectGuarded row tags parents => exact hrecord row tags parents
  | deleteObject k' =>
    simp only [RegistryCall.apply, RegistryCall.setsRecord]
    by_cases hk : k' = k
    · rw [if_pos hk, hk, Registry.row_deleteObject_self]
      rfl
    · rw [if_neg hk, Registry.row_deleteObject_of_ne (Ne.symm hk)]
      rfl
  | setLineage | bumpTombstone | clearTombstone => rfl

/-- The tag rows of a key after a call. -/
theorem tags_apply : valuesOf (c.apply R).tags k =
    ((c.setsRecord k).map (fun record => (record.map
      (fun record => Registry.fromKeys record.2)).getD [])).getD (valuesOf R.tags k) := by
  have hrecord (row : ObjectRow) (tags : List String) (parents : Option (List String)) :
      valuesOf (R.recordObject row tags parents).tags k =
        (((if row.key = k then some (some (row, tags)) else none).map
          (fun record => (record.map (fun record => Registry.fromKeys record.2)).getD [])).getD
            (valuesOf R.tags k)) := by
    have htags : (R.recordObject row tags parents).tags =
        replaceValues R.tags row.key (Registry.fromKeys tags) := by cases parents <;> rfl
    by_cases hk : row.key = k
    · rw [if_pos hk, htags, ← hk, valuesOf_replaceValues_self]
      rfl
    · rw [if_neg hk, htags, valuesOf_replaceValues_of_ne (Ne.symm hk)]
      rfl
  cases c with
  | recordObject row tags => exact hrecord row tags none
  | recordObjectGuarded row tags parents => exact hrecord row tags parents
  | deleteObject k' =>
    simp only [RegistryCall.apply, RegistryCall.setsRecord, Registry.deleteObject,
      remove_eq_replaceValues]
    by_cases hk : k' = k
    · rw [if_pos hk, hk, valuesOf_replaceValues_self]
      rfl
    · rw [if_neg hk, valuesOf_replaceValues_of_ne (Ne.symm hk)]
      rfl
  | setLineage | bumpTombstone | clearTombstone => rfl

/-- The lineage of a key after a call. -/
theorem lineage_apply : valuesOf (c.apply R).lineage k =
    ((c.setsLineage k).map (fun parents =>
      (Registry.fromKeys parents).filter (fun parent => parent != k.2))).getD
        (valuesOf R.lineage k) := by
  have hset (S : Registry) (child : Key) (parents : List String) :
      valuesOf (S.setLineage child parents).lineage k =
        (((if child = k then some parents else none).map (fun parents =>
          (Registry.fromKeys parents).filter (fun parent => parent != k.2))).getD
            (valuesOf S.lineage k)) := by
    by_cases hk : child = k
    · rw [if_pos hk, hk]
      exact valuesOf_replaceValues_self
    · rw [if_neg hk]
      exact valuesOf_replaceValues_of_ne (Ne.symm hk)
  cases c with
  | recordObjectGuarded row tags parents =>
    cases parents with
    | none => rfl
    | some parents => exact hset (R.upsertObject row tags) row.key parents
  | setLineage child parents => exact hset R child parents
  | deleteObject k' =>
    simp only [RegistryCall.apply, RegistryCall.setsLineage]
    by_cases hk : k' = k
    · rw [if_pos hk, hk, Registry.lineage_deleteObject_self]
      rfl
    · rw [if_neg hk, Registry.lineage_deleteObject_of_ne (Ne.symm hk)]
      rfl
  | recordObject | bumpTombstone | clearTombstone => rfl

/-- Bumps and clears leave the rows alone, and no call repeats a key. -/
theorem nodup_apply (hkeys : (R.objects.map ObjectRow.key).Nodup) :
    ((c.apply R).objects.map ObjectRow.key).Nodup := by
  cases c with
  | recordObject row tags | recordObjectGuarded row tags parents =>
    simp only [RegistryCall.apply, Registry.objects_recordObject]
    exact nodup_upsert hkeys (fun _ _ => rfl)
  | deleteObject k' => exact nodup_remove hkeys
  | setLineage | bumpTombstone | clearTombstone => exact hkeys

end

/-- The tables hold for every key what the map holds. -/
structure Represents (R : Registry) (m : Key → Entry) : Prop where
  row : ∀ k, R.row k = (m k).record.map (·.1)
  tags : ∀ k, valuesOf R.tags k =
    ((m k).record.map (fun record => Registry.fromKeys record.2)).getD []
  lineage : ∀ k, valuesOf R.lineage k =
    (Registry.fromKeys (m k).parents).filter (fun parent => parent != k.2)
  tombstone : ∀ k, R.tombstone k = (m k).tombstone
  objectKeys : (R.objects.map ObjectRow.key).Nodup
  tombstoneKeys : (R.tombstones.map Prod.fst).Nodup

/-- Recording and setting lineage leave the tombstones alone. -/
theorem tombstones_apply {R : Registry} {c : RegistryCall}
    (hbump : ∀ k, c ≠ .bumpTombstone k) (hclear : ∀ k, c ≠ .clearTombstone k) :
    (c.apply R).tombstones = R.tombstones := by
  cases c with
  | bumpTombstone k => exact absurd rfl (hbump k)
  | clearTombstone k => exact absurd rfl (hclear k)
  | recordObjectGuarded row tags parents => exact Registry.tombstones_recordObject
  | recordObject | setLineage | deleteObject => rfl

/-- The count of a key after a call, and no key is repeated. -/
theorem tombstone_apply {R : Registry} {calls : List RegistryCall} (c : RegistryCall)
    (hcount : ∀ k, R.tombstone k = countOf (bumpsSinceClear k calls))
    (hkeys : (R.tombstones.map Prod.fst).Nodup) :
    (∀ k, (c.apply R).tombstone k = countOf (bumpsSinceClear k (c :: calls))) ∧
      ((c.apply R).tombstones.map Prod.fst).Nodup := by
  cases c with
  | bumpTombstone k' =>
    refine ⟨fun k => ?_, Registry.nodup_bumpTombstone hkeys⟩
    rw [RegistryCall.apply, bumpsSinceClear]
    by_cases hk : k' = k
    · subst hk
      rw [Registry.tombstone_bumpTombstone_self, hcount, if_pos rfl]
      cases bumpsSinceClear k' calls <;> simp [countOf]
    · rw [Registry.tombstone_bumpTombstone_of_ne (Ne.symm hk), hcount, if_neg hk]
  | clearTombstone k' =>
    refine ⟨fun k => ?_, Registry.nodup_clearTombstone hkeys⟩
    rw [RegistryCall.apply, bumpsSinceClear]
    by_cases hk : k' = k
    · subst hk
      rw [Registry.tombstone_clearTombstone_self, if_pos rfl]
      rfl
    · rw [Registry.tombstone_clearTombstone_of_ne (Ne.symm hk), hcount, if_neg hk]
  | recordObject | recordObjectGuarded | setLineage | deleteObject =>
    simp only [Registry.tombstone]
    rw [tombstones_apply (by simp) (by simp)]
    exact ⟨hcount, hkeys⟩

/-- The tables represent the map after every sequence of calls. -/
theorem represents_registryOf (calls : List RegistryCall) :
    Represents (registryOf calls) (objectMap calls) := by
  induction calls with
  | nil => exact ⟨fun _ => rfl, fun _ => rfl, fun _ => rfl, fun _ => rfl, .nil, .nil⟩
  | cons c calls ih =>
    obtain ⟨htombstone, htombstoneKeys⟩ := tombstone_apply c ih.tombstone ih.tombstoneKeys
    refine ⟨fun k => ?_, fun k => ?_, fun k => ?_, htombstone, nodup_apply ih.objectKeys,
      htombstoneKeys⟩
    · rw [registryOf, row_apply, ih.row]
      simp only [objectMap, lastRecord]
      cases c.setsRecord k <;> rfl
    · rw [registryOf, tags_apply, ih.tags]
      simp only [objectMap, lastRecord]
      cases c.setsRecord k <;> rfl
    · rw [registryOf, lineage_apply, ih.lineage]
      simp only [objectMap, lastLineage]
      cases c.setsLineage k <;> rfl

/-- Tables that represent the map answer every read as the map does. -/
theorem Represents.refines {R : Registry} {m : Key → Entry} (h : Represents R m) :
    Refines R m := by
  have hobject (k : Key) : R.getObject k = (m k).object := by
    rw [Registry.getObject, h.row, Registry.tagsFor, h.tags, Entry.object]
    cases (m k).record <;> rfl
  constructor
  case getObject => exact hobject
  case listObjects =>
    intro tenant tags
    refine ⟨Registry.nodup_listObjects h.objectKeys tenant, fun found => ?_⟩
    rw [Registry.mem_listObjects h.objectKeys]
    simp only [hobject, Set.mem_ofPred_eq]
  case labelsForTenant =>
    intro tenant
    refine ⟨Registry.nodup_labelsForTenant h.objectKeys tenant, fun label => ?_⟩
    rw [Registry.mem_labelsForTenant, h.row, Set.mem_ofPred_eq, Entry.object, Option.isSome_map,
      Option.isSome_map]
  case getParents =>
    intro k
    rw [Registry.getParents, h.lineage, Entry.parentsOf]
  case tombstonesForTenant =>
    intro tenant label
    rw [Registry.dictGet_tombstonesForTenant h.tombstoneKeys (List.Perm.refl _), h.tombstone]

/-- An object is found under the key of its row. -/
theorem key_of_getObject {R : Registry} {k : Key} {found : ObjectRow × List String}
    (h : R.getObject k = some found) : found.1.key = k := by
  obtain ⟨row, hrow, rfl⟩ := Option.map_eq_some_iff.mp h
  exact Registry.row_key hrow

/-- A call changes the map at its own key only. -/
theorem objectMap_of_ne {c : RegistryCall} {k : Key} (hk : c.key ≠ k)
    (calls : List RegistryCall) : objectMap (c :: calls) k = objectMap calls k := by
  obtain ⟨hrecord, hlineage⟩ := RegistryCall.sets_of_ne hk
  have hbumps : bumpsSinceClear k (c :: calls) = bumpsSinceClear k calls := by
    cases c <;> simp_all [bumpsSinceClear, RegistryCall.key]
  simp only [objectMap, lastRecord, lastLineage, hrecord, hlineage, hbumps, Option.getD_none]

/-- What the reads say about a key. -/
structure SameReads (k : Key) (R R' : Registry) : Prop where
  getObject : R'.getObject k = R.getObject k
  listObjects : ∀ tags row ts, row.key = k →
    ((row, ts) ∈ R'.listObjects k.1 tags ↔ (row, ts) ∈ R.listObjects k.1 tags)
  labelsForTenant : k.2 ∈ R'.labelsForTenant k.1 ↔ k.2 ∈ R.labelsForTenant k.1
  getParents : R'.getParents k = R.getParents k
  tombstonesForTenant :
    dictGet (R'.tombstonesForTenant k.1) k.2 = dictGet (R.tombstonesForTenant k.1) k.2

/-- Tables that represent maps with one entry in common answer the reads about it alike. -/
theorem Represents.sameReads {R R' : Registry} {m m' : Key → Entry} {k : Key}
    (h : Represents R m) (h' : Represents R' m') (hentry : m' k = m k) : SameReads k R R' := by
  have hobject : R'.getObject k = R.getObject k := by
    rw [h.refines.getObject, h'.refines.getObject, hentry]
  constructor
  case getObject => exact hobject
  case listObjects =>
    intro tags row ts hkey
    rw [Registry.mem_listObjects h.objectKeys, Registry.mem_listObjects h'.objectKeys]
    constructor
    · rintro ⟨label, hfound, htags⟩
      have hk : (k.1, label) = k := (key_of_getObject hfound).symm.trans hkey
      exact ⟨label, by rw [hk, ← hobject, ← hk, hfound], htags⟩
    · rintro ⟨label, hfound, htags⟩
      have hk : (k.1, label) = k := (key_of_getObject hfound).symm.trans hkey
      exact ⟨label, by rw [hk, hobject, ← hk, hfound], htags⟩
  case labelsForTenant =>
    rw [Registry.mem_labelsForTenant, Registry.mem_labelsForTenant, h.row, h'.row, hentry]
  case getParents => rw [h.refines.getParents, h'.refines.getParents, hentry]
  case tombstonesForTenant =>
    rw [h.refines.tombstonesForTenant, h'.refines.tombstonesForTenant, hentry]

/-- After every sequence of calls the four tables answer every read as the map of last records,
last lineages and bumps does, and one more call changes no read about another key. -/
theorem registry_refines (calls : List RegistryCall) :
    Refines (registryOf calls) (objectMap calls) ∧
      ∀ c k, RegistryCall.key c ≠ k → SameReads k (registryOf calls) (registryOf (c :: calls)) := by
  refine ⟨(represents_registryOf calls).refines, fun c k hk => ?_⟩
  exact (represents_registryOf calls).sameReads (represents_registryOf (c :: calls))
    (objectMap_of_ne hk calls)

end Memcove
