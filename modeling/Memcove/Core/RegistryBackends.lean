import Memcove.Core.RegistryMap
import Mathlib.Data.Set.Function

/-!
# Interchangeable backends

The statements of `core/registry.py` on a database with its own collation: which texts are one key,
in which order `ORDER BY` returns them, and what its columns hold. SQLite compares bytes; MySQL's
default collation takes texts that differ in case for one key. Two databases answer alike as long
as the texts they see are told apart by both and ordered by both alike.
-/

namespace Memcove

open KeyedTables

/-- What the registry depends on in a database: the key that a text stands for, the order of
`ORDER BY`, and the texts and rows that its columns hold. -/
structure Database where
  fold : String → String
  le : String → String → Bool
  holdsText : String → Bool
  holdsRow : ObjectRow → Bool

namespace Database

variable (db : Database)

/-- The key that a tenant and a label stand for. -/
def foldKey (k : Key) : Key := (db.fold k.1, db.fold k.2)

/-- The primary key of a tag or of an edge. -/
def foldPair (p : Key × String) : Key × String := (db.foldKey p.1, db.fold p.2)

/-- The parameters of a statement are texts that the database holds. -/
def binds (texts : List String) : PyM Unit :=
  if texts.all db.holdsText then .ok () else raise .external "invalid text parameter"

/-- The columns of an object hold its row. -/
def bindsRow (row : ObjectRow) : PyM Unit :=
  if db.holdsRow row then .ok () else raise .external "data too long for column"

/-- `_replace_tags`: a tag that stands for the same key as an earlier one violates the primary
key. -/
def replaceTags (R : Registry) (k : Key) (tags : List String) : PyM Registry := do
  db.binds (k.1 :: k.2 :: tags)
  let rows := remove (fun t => db.foldKey t.1) R.tags (db.foldKey k)
  match ((Registry.fromKeys tags).map (fun tag => (k, tag))).foldlM
      (insertUnique db.foldPair) rows with
  | some rows => return { R with tags := rows }
  | none => raise .external "duplicate key in memcove_object_tags"

/-- `_upsert_object`: an existing row keeps its own spelling of the key. -/
def upsertObject (R : Registry) (row : ObjectRow) (tags : List String) : PyM Registry := do
  db.binds [row.tenant, row.label]
  db.bindsRow row
  let update := fun old : ObjectRow => { row with tenant := old.tenant, label := old.label }
  let objects := upsert (fun r => db.foldKey r.key) R.objects row update
  db.replaceTags { R with objects := objects } row.key tags

/-- `_set_lineage`: an edge that is there already is ignored. -/
def setLineage (R : Registry) (child : Key) (parents : List String) : PyM Registry := do
  db.binds (child.1 :: child.2 :: parents)
  let rows := remove (fun e => db.foldKey e.1) R.lineage (db.foldKey child)
  let rows := (Registry.fromKeys parents).foldl (fun rows parent =>
    if parent == child.2 then rows else insertNew db.foldPair rows (child, parent)) rows
  return { R with lineage := rows }

/-- `delete_object`. -/
def deleteObject (R : Registry) (k : Key) : PyM Registry := do
  db.binds [k.1, k.2]
  return { R with
    objects := remove (fun r => db.foldKey r.key) R.objects (db.foldKey k)
    tags := remove (fun t => db.foldKey t.1) R.tags (db.foldKey k)
    lineage := remove (fun e => db.foldKey e.1) R.lineage (db.foldKey k) }

/-- `bump_tombstone`. -/
def bumpTombstone (R : Registry) (k : Key) : PyM Registry := do
  db.binds [k.1, k.2]
  let rows := upsert (fun t => db.foldKey t.1) R.tombstones (k, 1) (fun t => (t.1, t.2 + 1))
  return { R with tombstones := rows }

/-- `clear_tombstone`. -/
def clearTombstone (R : Registry) (k : Key) : PyM Registry := do
  db.binds [k.1, k.2]
  return { R with tombstones := remove (fun t => db.foldKey t.1) R.tombstones (db.foldKey k) }

/-- The transaction of a call. -/
def apply (R : Registry) : RegistryCall → PyM Registry
  | .recordObject row tags => db.upsertObject R row tags
  | .recordObjectGuarded row tags none => db.upsertObject R row tags
  | .recordObjectGuarded row tags (some parents) => do
    let R ← db.upsertObject R row tags
    db.setLineage R row.key parents
  | .setLineage child parents => db.setLineage R child parents
  | .deleteObject k => db.deleteObject R k
  | .bumpTombstone k => db.bumpTombstone R k
  | .clearTombstone k => db.clearTombstone R k

/-- The tables after a sequence of calls, newest first. A call that raises is rolled back. -/
def tables : List RegistryCall → Registry
  | [] => {}
  | c :: calls => ((db.apply (tables calls) c).toOption).getD (tables calls)

/-- Whether each call of a sequence succeeded, newest first. -/
def outcomes : List RegistryCall → List Bool
  | [] => []
  | c :: calls => (db.apply (db.tables calls) c).isOk :: outcomes calls

/-- `_tags_for`. -/
def tagsFor (R : Registry) (k : Key) : List String :=
  ((R.tags.filter (fun t => decide (db.foldKey t.1 = db.foldKey k))).map (·.2)).mergeSort db.le

/-- `get_object`. -/
def getObject (R : Registry) (k : Key) : PyM (Option (ObjectRow × List String)) := do
  db.binds [k.1, k.2]
  return (lookup (fun r => db.foldKey r.key) R.objects (db.foldKey k)).map
    (fun row => (row, db.tagsFor R k))

/-- `list_objects`. The dictionary of tags has the labels as the rows spell them, and its tags are
sorted by the code, not by the database. -/
def listObjects (R : Registry) (tenant : String) (tags : List String) :
    PyM (List (ObjectRow × List String)) := do
  db.binds (tenant :: tags)
  let rows := R.objects.filter (fun row => db.fold row.tenant == db.fold tenant &&
    (tags.isEmpty || R.tags.any (fun t => db.foldKey t.1 == db.foldKey row.key &&
      tags.any (fun tag => db.fold t.2 == db.fold tag))))
  let byLabel := (R.tags.filter (fun t => db.fold t.1.1 == db.fold tenant)).map
    (fun t => (t.1.2, t.2))
  return rows.map (fun row => (row, Registry.sorted (valuesOf byLabel row.label)))

/-- `labels_for_tenant`. -/
def labelsForTenant (R : Registry) (tenant : String) : PyM (List String) := do
  db.binds [tenant]
  return (R.objects.filter (fun row => db.fold row.tenant == db.fold tenant)).map (·.label)

/-- `get_parents`. -/
def getParents (R : Registry) (k : Key) : PyM (List String) := do
  db.binds [k.1, k.2]
  return ((R.lineage.filter (fun e => decide (db.foldKey e.1 = db.foldKey k))).map
    (·.2)).mergeSort db.le

/-- `tombstones_for_tenant`. -/
def tombstonesForTenant (R : Registry) (tenant : String) : PyM (List (String × Int)) := do
  db.binds [tenant]
  return (R.tombstones.filter (fun t => db.fold t.1.1 == db.fold tenant)).map
    (fun t => (t.1.2, t.2))

end Database

/-- The texts of a sequence of calls by the column they are compared in, and the rows recorded. -/
structure Vocabulary where
  tenants : Set String
  labels : Set String
  tags : Set String
  parents : Set String
  rows : Set ObjectRow

/-- A key with its tenant and its label. -/
def Vocabulary.HasKey (V : Vocabulary) (k : Key) : Prop := k.1 ∈ V.tenants ∧ k.2 ∈ V.labels

/-- The texts and rows of a call. -/
def Vocabulary.Covers (V : Vocabulary) : RegistryCall → Prop
  | .recordObject row tags => V.HasKey row.key ∧ row ∈ V.rows ∧ ∀ tag ∈ tags, tag ∈ V.tags
  | .recordObjectGuarded row tags parents => V.HasKey row.key ∧ row ∈ V.rows ∧
    (∀ tag ∈ tags, tag ∈ V.tags) ∧ ∀ ps, parents = some ps → ∀ parent ∈ ps, parent ∈ V.parents
  | .setLineage child parents => V.HasKey child ∧ ∀ parent ∈ parents, parent ∈ V.parents
  | .deleteObject k | .bumpTombstone k | .clearTombstone k => V.HasKey k

/-- A database that holds the vocabulary and compares its texts exactly, column by column. -/
structure Database.Distinguishes (db : Database) (V : Vocabulary) : Prop where
  tenants : Set.InjOn db.fold V.tenants
  labels : Set.InjOn db.fold V.labels
  tags : Set.InjOn db.fold V.tags
  parents : Set.InjOn db.fold V.parents
  holdsText : ∀ s, s ∈ V.tenants ∨ s ∈ V.labels ∨ s ∈ V.tags ∨ s ∈ V.parents →
    db.holdsText s = true
  holdsRow : ∀ row ∈ V.rows, db.holdsRow row = true

/-- Two databases that order the tags and the parents of the vocabulary alike. -/
def Database.OrdersAlike (db db' : Database) (V : Vocabulary) : Prop :=
  (∀ a ∈ V.tags, ∀ b ∈ V.tags, db.le a b = db'.le a b) ∧
    ∀ a ∈ V.parents, ∀ b ∈ V.parents, db.le a b = db'.le a b

/-- Every read of one database about the vocabulary is the read of the other. -/
structure Database.SameAnswers (db db' : Database) (V : Vocabulary) (R R' : Registry) :
    Prop where
  getObject : ∀ k, V.HasKey k → db.getObject R k = db'.getObject R' k
  listObjects : ∀ tenant ∈ V.tenants, ∀ tags : List String, (∀ tag ∈ tags, tag ∈ V.tags) →
    db.listObjects R tenant tags = db'.listObjects R' tenant tags
  labelsForTenant : ∀ tenant ∈ V.tenants,
    db.labelsForTenant R tenant = db'.labelsForTenant R' tenant
  getParents : ∀ k, V.HasKey k → db.getParents R k = db'.getParents R' k
  tombstonesForTenant : ∀ tenant ∈ V.tenants,
    db.tombstonesForTenant R tenant = db'.tombstonesForTenant R' tenant

/-- Tables whose texts are in the vocabulary. -/
structure Vocabulary.Within (V : Vocabulary) (R : Registry) : Prop where
  objects : ∀ row ∈ R.objects, V.HasKey row.key
  tags : ∀ t ∈ R.tags, V.HasKey t.1 ∧ t.2 ∈ V.tags
  lineage : ∀ e ∈ R.lineage, V.HasKey e.1 ∧ e.2 ∈ V.parents
  tombstones : ∀ t ∈ R.tombstones, V.HasKey t.1

section

variable {db : Database} {V : Vocabulary} {R : Registry} {k k' : Key}

/-- Texts of the vocabulary can be bound. -/
theorem Database.Distinguishes.binds (hdb : db.Distinguishes V) {texts : List String}
    (htexts : ∀ s ∈ texts, s ∈ V.tenants ∨ s ∈ V.labels ∨ s ∈ V.tags ∨ s ∈ V.parents) :
    db.binds texts = .ok () :=
  if_pos (List.all_eq_true.mpr (fun s hs => hdb.holdsText s (htexts s hs)))

/-- A key of the vocabulary can be bound. -/
theorem Database.Distinguishes.bindsKey (hdb : db.Distinguishes V) (hk : V.HasKey k) :
    db.binds [k.1, k.2] = .ok () := by
  refine hdb.binds (fun s hs => ?_)
  rcases List.mem_cons.mp hs with rfl | hs
  · exact Or.inl hk.1
  · rw [List.mem_singleton.mp hs]
    exact Or.inr (Or.inl hk.2)

/-- Keys of the vocabulary are told apart. -/
theorem Database.Distinguishes.key (hdb : db.Distinguishes V) (hk : V.HasKey k)
    (hk' : V.HasKey k') (h : db.foldKey k = db.foldKey k') : k = k' :=
  Prod.ext (hdb.tenants hk.1 hk'.1 (congrArg Prod.fst h))
    (hdb.labels hk.2 hk'.2 (congrArg Prod.snd h))

/-- An upserted row stays within the vocabulary. -/
theorem Vocabulary.Within.upsert (hR : V.Within R) {row : ObjectRow} (hk : V.HasKey row.key) :
    ∀ r ∈ upsert ObjectRow.key R.objects row (fun _ => row), V.HasKey r.key := by
  intro r hr
  rcases mem_upsert hr with hr | rfl | ⟨_, _, _, rfl⟩
  · exact hR.objects r hr
  · exact hk
  · exact hk

/-- Replaced values stay within the vocabulary. -/
theorem within_replaceValues {rows : List (Key × String)} {values : Set String}
    (hrows : ∀ t ∈ rows, V.HasKey t.1 ∧ t.2 ∈ values) (hk : V.HasKey k) {new : List String}
    (hnew : ∀ v ∈ new, v ∈ values) :
    ∀ t ∈ replaceValues rows k new, V.HasKey t.1 ∧ t.2 ∈ values := by
  intro t ht
  rcases List.mem_append.mp ht with ht | ht
  · exact hrows t (List.mem_filter.mp ht).1
  · obtain ⟨v, hv, rfl⟩ := List.mem_map.mp ht
    exact ⟨hk, hnew v hv⟩

/-- A recorded object keeps the tables within the vocabulary. -/
theorem Vocabulary.Within.upsertObject (hR : V.Within R) {row : ObjectRow}
    (hk : V.HasKey row.key) {tags : List String} (htags : ∀ tag ∈ tags, tag ∈ V.tags) :
    V.Within (R.upsertObject row tags) where
  objects := hR.upsert hk
  tags := within_replaceValues hR.tags hk
    (fun tag htag => htags tag (Registry.mem_fromKeys.mp htag))
  lineage := hR.lineage
  tombstones := hR.tombstones

/-- A set lineage keeps the tables within the vocabulary. -/
theorem Vocabulary.Within.setLineage (hR : V.Within R) (hk : V.HasKey k) {parents : List String}
    (hparents : ∀ parent ∈ parents, parent ∈ V.parents) : V.Within (R.setLineage k parents) where
  objects := hR.objects
  tags := hR.tags
  lineage := within_replaceValues hR.lineage hk
    (fun parent hmem => hparents parent (Registry.mem_fromKeys.mp (List.mem_filter.mp hmem).1))
  tombstones := hR.tombstones

/-- A call whose texts are in the vocabulary keeps the tables within it. -/
theorem Vocabulary.Within.apply (hR : V.Within R) {c : RegistryCall} (hc : V.Covers c) :
    V.Within (c.apply R) := by
  cases c with
  | recordObject row tags => exact hR.upsertObject hc.1 hc.2.2
  | recordObjectGuarded row tags parents =>
    obtain ⟨hk, _, htags, hparents⟩ := hc
    cases parents with
    | none => exact hR.upsertObject hk htags
    | some parents => exact (hR.upsertObject hk htags).setLineage hk (hparents parents rfl)
  | setLineage child parents => exact hR.setLineage hc.1 hc.2
  | deleteObject k' =>
    exact ⟨fun r hr => hR.objects r (List.mem_filter.mp hr).1,
      fun t ht => hR.tags t (List.mem_filter.mp ht).1,
      fun e he => hR.lineage e (List.mem_filter.mp he).1, hR.tombstones⟩
  | bumpTombstone k' =>
    refine ⟨hR.objects, hR.tags, hR.lineage, fun t ht => ?_⟩
    rcases mem_upsert ht with ht | rfl | ⟨old, hold, _, rfl⟩
    · exact hR.tombstones t ht
    · exact hc
    · exact hR.tombstones old hold
  | clearTombstone k' =>
    exact ⟨hR.objects, hR.tags, hR.lineage,
      fun t ht => hR.tombstones t (List.mem_filter.mp ht).1⟩

/-- Replacing the tags of a key never violates the primary key. -/
theorem Database.Distinguishes.replaceTags (hdb : db.Distinguishes V) (hR : V.Within R)
    (hk : V.HasKey k) {tags : List String} (htags : ∀ tag ∈ tags, tag ∈ V.tags) :
    db.replaceTags R k tags =
      .ok { R with tags := replaceValues R.tags k (Registry.fromKeys tags) } := by
  have hbinds : db.binds (k.1 :: k.2 :: tags) = .ok () := by
    refine hdb.binds (fun s hs => ?_)
    simp only [List.mem_cons] at hs
    rcases hs with rfl | rfl | hs
    · exact Or.inl hk.1
    · exact Or.inr (Or.inl hk.2)
    · exact Or.inr (Or.inr (Or.inl (htags s hs)))
  have hremove : remove (fun t => db.foldKey t.1) R.tags (db.foldKey k) =
      remove Prod.fst R.tags k :=
    remove_fold (fun t ht => hdb.key (hR.tags t ht).1 hk)
  have hinsert : ((Registry.fromKeys tags).map (fun tag => (k, tag))).foldlM
      (insertUnique db.foldPair) (remove Prod.fst R.tags k) =
        some (replaceValues R.tags k (Registry.fromKeys tags)) := by
    refine foldlM_insertUnique ?_ ?_
    · rw [List.map_map]
      refine (Registry.nodup_fromKeys tags).map_on (fun a ha b hb h => ?_)
      exact hdb.tags (htags a (Registry.mem_fromKeys.mp ha))
        (htags b (Registry.mem_fromKeys.mp hb)) (congrArg Prod.snd h)
    · intro t ht t' ht' h
      obtain ⟨tag, _, rfl⟩ := List.mem_map.mp ht'
      have hmem := List.mem_filter.mp ht
      exact absurd (hdb.key (hR.tags t hmem.1).1 hk (congrArg Prod.fst h)) (by simpa using hmem.2)
  simp only [Database.replaceTags, hbinds, hremove, hinsert]
  rfl

/-- Recording an object writes its row and its tags. -/
theorem Database.Distinguishes.upsertObject (hdb : db.Distinguishes V) (hR : V.Within R)
    {row : ObjectRow} (hk : V.HasKey row.key) (hrow : row ∈ V.rows) {tags : List String}
    (htags : ∀ tag ∈ tags, tag ∈ V.tags) :
    db.upsertObject R row tags = .ok (R.upsertObject row tags) := by
  have hupsert : upsert (fun r => db.foldKey r.key) R.objects row
      (fun old => { row with tenant := old.tenant, label := old.label }) =
        upsert ObjectRow.key R.objects row (fun _ => row) := by
    refine upsert_fold (fun r hr => hdb.key (hR.objects r hr) hk) (fun r _ hkey => ?_)
    have htenant : r.tenant = row.tenant := congrArg Prod.fst hkey
    have hlabel : r.label = row.label := congrArg Prod.snd hkey
    rw [htenant, hlabel]
  have hbinds : db.binds [row.tenant, row.label] = .ok () := hdb.bindsKey hk
  have hbindsRow : db.bindsRow row = .ok () := if_pos (hdb.holdsRow row hrow)
  have hwithin : V.Within
      { R with objects := upsert ObjectRow.key R.objects row (fun _ => row) } :=
    ⟨hR.upsert hk, hR.tags, hR.lineage, hR.tombstones⟩
  simp only [Database.upsertObject, hbinds, hbindsRow, hupsert]
  exact hdb.replaceTags hwithin hk htags

/-- The loop of `_set_lineage` inserts an edge for every parent but the object itself. -/
theorem Database.foldl_insertLineage (db : Database) (k : Key) (parents : List String)
    (rows : List (Key × String)) :
    parents.foldl (fun rows parent =>
      if parent == k.2 then rows else insertNew db.foldPair rows (k, parent)) rows =
        ((parents.filter (fun parent => parent != k.2)).map (fun parent => (k, parent))).foldl
          (insertNew db.foldPair) rows := by
  rw [List.foldl_map, List.foldl_filter]
  congr 1
  funext rows parent
  by_cases hself : parent = k.2 <;> simp [hself]

/-- Setting the lineage of a key ignores no edge. -/
theorem Database.Distinguishes.setLineage (hdb : db.Distinguishes V) (hR : V.Within R)
    (hk : V.HasKey k) {parents : List String} (hparents : ∀ parent ∈ parents, parent ∈ V.parents) :
    db.setLineage R k parents = .ok (R.setLineage k parents) := by
  have hbinds : db.binds (k.1 :: k.2 :: parents) = .ok () := by
    refine hdb.binds (fun s hs => ?_)
    simp only [List.mem_cons] at hs
    rcases hs with rfl | rfl | hs
    · exact Or.inl hk.1
    · exact Or.inr (Or.inl hk.2)
    · exact Or.inr (Or.inr (Or.inr (hparents s hs)))
  have hremove : remove (fun e => db.foldKey e.1) R.lineage (db.foldKey k) =
      remove Prod.fst R.lineage k :=
    remove_fold (fun e he => hdb.key (hR.lineage e he).1 hk)
  have hinsert : (((Registry.fromKeys parents).filter (fun parent => parent != k.2)).map
      (fun parent => (k, parent))).foldl (insertNew db.foldPair) (remove Prod.fst R.lineage k) =
        (R.setLineage k parents).lineage := by
    refine foldl_insertNew ?_ ?_
    · rw [List.map_map]
      refine ((Registry.nodup_fromKeys parents).filter _).map_on (fun a ha b hb h => ?_)
      have hmem (x : String) (hx : x ∈ (Registry.fromKeys parents).filter
          (fun parent => parent != k.2)) : x ∈ V.parents :=
        hparents x (Registry.mem_fromKeys.mp (List.mem_filter.mp hx).1)
      exact hdb.parents (hmem a ha) (hmem b hb) (congrArg Prod.snd h)
    · intro e he e' he' h
      obtain ⟨parent, _, rfl⟩ := List.mem_map.mp he'
      have hmem := List.mem_filter.mp he
      exact absurd (hdb.key (hR.lineage e hmem.1).1 hk (congrArg Prod.fst h))
        (by simpa using hmem.2)
  simp only [Database.setLineage, hbinds, hremove, Database.foldl_insertLineage, hinsert]
  rfl

/-- A call whose texts are in the vocabulary succeeds and does what it does to the exact tables. -/
theorem Database.Distinguishes.apply (hdb : db.Distinguishes V) (hR : V.Within R)
    {c : RegistryCall} (hc : V.Covers c) : db.apply R c = .ok (c.apply R) := by
  cases c with
  | recordObject row tags => exact hdb.upsertObject hR hc.1 hc.2.1 hc.2.2
  | recordObjectGuarded row tags parents =>
    obtain ⟨hk, hrow, htags, hparents⟩ := hc
    cases parents with
    | none => exact hdb.upsertObject hR hk hrow htags
    | some parents =>
      simp only [Database.apply, hdb.upsertObject hR hk hrow htags]
      exact hdb.setLineage (hR.upsertObject hk htags) hk (hparents parents rfl)
  | setLineage child parents => exact hdb.setLineage hR hc.1 hc.2
  | deleteObject k' =>
    have hobjects : remove (fun r => db.foldKey r.key) R.objects (db.foldKey k') =
        remove ObjectRow.key R.objects k' :=
      remove_fold (fun r hr => hdb.key (hR.objects r hr) hc)
    have htags : remove (fun t => db.foldKey t.1) R.tags (db.foldKey k') =
        remove Prod.fst R.tags k' := remove_fold (fun t ht => hdb.key (hR.tags t ht).1 hc)
    have hlineage : remove (fun e => db.foldKey e.1) R.lineage (db.foldKey k') =
        remove Prod.fst R.lineage k' := remove_fold (fun e he => hdb.key (hR.lineage e he).1 hc)
    simp only [Database.apply, Database.deleteObject, hdb.bindsKey hc, hobjects, htags, hlineage]
    rfl
  | bumpTombstone k' =>
    have hupsert : upsert (fun t => db.foldKey t.1) R.tombstones (k', (1 : Int))
        (fun t => (t.1, t.2 + 1)) =
          upsert Prod.fst R.tombstones (k', (1 : Int)) (fun t => (t.1, t.2 + 1)) := by
      refine upsert_fold (fun t ht hfold => ?_) (fun _ _ _ => rfl)
      exact hdb.key (hR.tombstones t ht) hc hfold
    simp only [Database.apply, Database.bumpTombstone, hdb.bindsKey hc, hupsert]
    rfl
  | clearTombstone k' =>
    have hremove : remove (fun t => db.foldKey t.1) R.tombstones (db.foldKey k') =
        remove Prod.fst R.tombstones k' :=
      remove_fold (fun t ht => hdb.key (hR.tombstones t ht) hc)
    simp only [Database.apply, Database.clearTombstone, hdb.bindsKey hc, hremove]
    rfl

/-- Along a sequence of calls whose texts are in the vocabulary every call succeeds, and the tables
are those that represent the map. -/
theorem Database.Distinguishes.tables (hdb : db.Distinguishes V) {calls : List RegistryCall}
    (hcalls : ∀ c ∈ calls, V.Covers c) :
    db.tables calls = registryOf calls ∧ V.Within (registryOf calls) ∧
      db.outcomes calls = List.replicate calls.length true := by
  induction calls with
  | nil =>
    refine ⟨rfl, ⟨?_, ?_, ?_, ?_⟩, rfl⟩
    all_goals exact fun _ h => absurd h List.not_mem_nil
  | cons c calls ih =>
    obtain ⟨htables, hwithin, houtcomes⟩ := ih (fun c hc => hcalls c (List.mem_cons_of_mem _ hc))
    have hc := hcalls c List.mem_cons_self
    have happly := hdb.apply hwithin hc
    refine ⟨?_, hwithin.apply hc, ?_⟩
    · rw [Database.tables, htables, happly]
      rfl
    · rw [Database.outcomes, htables, happly, houtcomes]
      rfl

/-- A tenant of the vocabulary is compared exactly. -/
theorem Database.Distinguishes.tenant (hdb : db.Distinguishes V) {tenant tenant' : String}
    (htenant : tenant ∈ V.tenants) (htenant' : tenant' ∈ V.tenants) :
    (db.fold tenant == db.fold tenant') = (tenant == tenant') := by
  have hiff : db.fold tenant = db.fold tenant' ↔ tenant = tenant' :=
    ⟨fun h => hdb.tenants htenant htenant' h, fun h => by rw [h]⟩
  rw [Bool.eq_iff_iff, beq_iff_eq, beq_iff_eq, hiff]

/-- The values of a key of the vocabulary are those of the exact key. -/
theorem Database.Distinguishes.valuesOf (hdb : db.Distinguishes V) {rows : List (Key × String)}
    (hrows : ∀ t ∈ rows, V.HasKey t.1) (hk : V.HasKey k) :
    (rows.filter (fun t => decide (db.foldKey t.1 = db.foldKey k))).map (·.2) =
      KeyedTables.valuesOf rows k := by
  have hfilter : rows.filter (fun t => decide (db.foldKey t.1 = db.foldKey k)) =
      rows.filter (fun t => decide (t.1 = k)) := by
    refine List.filter_congr (fun t ht => ?_)
    have hiff : db.foldKey t.1 = db.foldKey k ↔ t.1 = k :=
      ⟨hdb.key (hrows t ht) hk, fun h => by rw [h]⟩
    simp only [hiff]
  rw [hfilter, KeyedTables.valuesOf]

/-- `get_object` on such a database. -/
theorem Database.Distinguishes.getObject (hdb : db.Distinguishes V) (hR : V.Within R)
    (hk : V.HasKey k) : db.getObject R k =
      .ok ((R.row k).map (fun row => (row, (KeyedTables.valuesOf R.tags k).mergeSort db.le))) := by
  have hlookup : lookup (fun r => db.foldKey r.key) R.objects (db.foldKey k) = R.row k :=
    lookup_fold (fun r hr => hdb.key (hR.objects r hr) hk)
  have htags := hdb.valuesOf (fun t ht => (hR.tags t ht).1) hk
  simp only [Database.getObject, Database.tagsFor, hdb.bindsKey hk, hlookup, htags]
  rfl

/-- `get_parents` on such a database. -/
theorem Database.Distinguishes.getParents (hdb : db.Distinguishes V) (hR : V.Within R)
    (hk : V.HasKey k) :
    db.getParents R k = .ok ((KeyedTables.valuesOf R.lineage k).mergeSort db.le) := by
  have hparents := hdb.valuesOf (fun e he => (hR.lineage e he).1) hk
  simp only [Database.getParents, hdb.bindsKey hk, hparents]
  rfl

/-- `list_objects` on such a database. -/
theorem Database.Distinguishes.listObjects (hdb : db.Distinguishes V) (hR : V.Within R)
    {tenant : String} (htenant : tenant ∈ V.tenants) {tags : List String}
    (htags : ∀ tag ∈ tags, tag ∈ V.tags) :
    db.listObjects R tenant tags = .ok (R.listObjects tenant tags) := by
  have hbinds : db.binds (tenant :: tags) = .ok () := by
    refine hdb.binds (fun s hs => ?_)
    rcases List.mem_cons.mp hs with rfl | hs
    · exact Or.inl htenant
    · exact Or.inr (Or.inr (Or.inl (htags s hs)))
  have hrows : R.objects.filter (fun row => db.fold row.tenant == db.fold tenant &&
      (tags.isEmpty || R.tags.any (fun t => db.foldKey t.1 == db.foldKey row.key &&
        tags.any (fun tag => db.fold t.2 == db.fold tag)))) = R.selectObjects tenant tags := by
    refine List.filter_congr (fun row hrow => ?_)
    have hrowKey := hR.objects row hrow
    have hfoldTenant : (db.fold row.tenant == db.fold tenant) = (row.tenant == tenant) :=
      hdb.tenant hrowKey.1 htenant
    have htag : ∀ t ∈ R.tags, ((db.foldKey t.1 == db.foldKey row.key &&
        tags.any (fun tag => db.fold t.2 == db.fold tag)) =
          (t.1 == row.key && tags.contains t.2)) := by
      intro t ht
      obtain ⟨htKey, htTag⟩ := hR.tags t ht
      have hkey : db.foldKey t.1 = db.foldKey row.key ↔ t.1 = row.key :=
        ⟨hdb.key htKey hrowKey, fun h => by rw [h]⟩
      have hany : (∃ tag ∈ tags, db.fold t.2 = db.fold tag) ↔ t.2 ∈ tags := by
        constructor
        · rintro ⟨tag, hmem, hfold⟩
          rwa [hdb.tags htTag (htags tag hmem) hfold]
        · exact fun hmem => ⟨t.2, hmem, rfl⟩
      rw [Bool.eq_iff_iff]
      simp only [Bool.and_eq_true, beq_iff_eq, List.any_eq_true, List.contains_iff_mem, hkey, hany]
    rw [hfoldTenant, any_congr_mem htag]
  have hbyLabel : R.tags.filter (fun t => db.fold t.1.1 == db.fold tenant) =
      R.tags.filter (fun t => t.1.1 == tenant) :=
    List.filter_congr (fun t ht => hdb.tenant (hR.tags t ht).1.1 htenant)
  simp only [Database.listObjects, hbinds, hrows, hbyLabel]
  rfl

/-- `labels_for_tenant` on such a database. -/
theorem Database.Distinguishes.labelsForTenant (hdb : db.Distinguishes V) (hR : V.Within R)
    {tenant : String} (htenant : tenant ∈ V.tenants) :
    db.labelsForTenant R tenant = .ok (R.labelsForTenant tenant) := by
  have hbinds : db.binds [tenant] = .ok () :=
    hdb.binds (fun s hs => Or.inl (List.mem_singleton.mp hs ▸ htenant))
  have hrows : R.objects.filter (fun row => db.fold row.tenant == db.fold tenant) =
      R.objects.filter (fun row => row.tenant == tenant) :=
    List.filter_congr (fun row hrow => hdb.tenant (hR.objects row hrow).1 htenant)
  simp only [Database.labelsForTenant, hbinds, hrows]
  rfl

/-- `tombstones_for_tenant` on such a database. -/
theorem Database.Distinguishes.tombstonesForTenant (hdb : db.Distinguishes V) (hR : V.Within R)
    {tenant : String} (htenant : tenant ∈ V.tenants) :
    db.tombstonesForTenant R tenant = .ok (R.tombstonesForTenant tenant) := by
  have hbinds : db.binds [tenant] = .ok () :=
    hdb.binds (fun s hs => Or.inl (List.mem_singleton.mp hs ▸ htenant))
  have hrows : R.tombstones.filter (fun t => db.fold t.1.1 == db.fold tenant) =
      R.tombstones.filter (fun t => t.1.1 == tenant) :=
    List.filter_congr (fun t ht => hdb.tenant (hR.tombstones t ht).1 htenant)
  simp only [Database.tombstonesForTenant, hbinds, hrows]
  rfl

/-- Sorting by orders that agree on the elements. -/
theorem mergeSort_congr {le le' : String → String → Bool} {l : List String}
    (h : ∀ a ∈ l, ∀ b ∈ l, le a b = le' a b) : l.mergeSort le = l.mergeSort le' := by
  have hmap := List.map_mergeSort (f := id) (r := le) (s := le') (l := l) h
  simpa using hmap

/-- Two databases that tell the texts of a vocabulary apart and order them alike are
interchangeable: every call succeeds on both, and every read answers the same. -/
theorem backends_interchangeable {db db' : Database} {V : Vocabulary} (hdb : db.Distinguishes V)
    (hdb' : db'.Distinguishes V) (horder : db.OrdersAlike db' V) {calls : List RegistryCall}
    (hcalls : ∀ c ∈ calls, V.Covers c) :
    db.outcomes calls = db'.outcomes calls ∧
      db.SameAnswers db' V (db.tables calls) (db'.tables calls) := by
  obtain ⟨htables, hwithin, houtcomes⟩ := hdb.tables hcalls
  obtain ⟨htables', _, houtcomes'⟩ := hdb'.tables hcalls
  rw [houtcomes, houtcomes', htables, htables']
  refine ⟨rfl, ?_⟩
  constructor
  case getObject =>
    intro k hk
    have htags : ∀ a ∈ KeyedTables.valuesOf (registryOf calls).tags k, a ∈ V.tags := by
      intro a ha
      obtain ⟨t, ht, rfl⟩ := List.mem_map.mp ha
      exact (hwithin.tags t (List.mem_filter.mp ht).1).2
    rw [hdb.getObject hwithin hk, hdb'.getObject hwithin hk,
      mergeSort_congr (fun a ha b hb => horder.1 a (htags a ha) b (htags b hb))]
  case listObjects =>
    intro tenant htenant tags htags
    rw [hdb.listObjects hwithin htenant htags, hdb'.listObjects hwithin htenant htags]
  case labelsForTenant =>
    intro tenant htenant
    rw [hdb.labelsForTenant hwithin htenant, hdb'.labelsForTenant hwithin htenant]
  case getParents =>
    intro k hk
    have hparents : ∀ a ∈ KeyedTables.valuesOf (registryOf calls).lineage k, a ∈ V.parents := by
      intro a ha
      obtain ⟨e, he, rfl⟩ := List.mem_map.mp ha
      exact (hwithin.lineage e (List.mem_filter.mp he).1).2
    rw [hdb.getParents hwithin hk, hdb'.getParents hwithin hk,
      mergeSort_congr (fun a ha b hb => horder.2 a (hparents a ha) b (hparents b hb))]
  case tombstonesForTenant =>
    intro tenant htenant
    rw [hdb.tombstonesForTenant hwithin htenant, hdb'.tombstonesForTenant hwithin htenant]

end

/-- SQLite: texts are compared and ordered exactly. -/
def sqliteDatabase : Database where
  fold s := s
  le a b := decide (a ≤ b)
  holdsText _ := true
  holdsRow _ := true

/-- MySQL on ASCII texts of moderate length: its default collation ignores case. -/
def mysqlDatabase : Database where
  fold s := String.ofList (s.toList.map Char.toUpper)
  le a b := decide (String.ofList (a.toList.map Char.toUpper) ≤
    String.ofList (b.toList.map Char.toUpper))
  holdsText _ := true
  holdsRow _ := true

/-- An object with two tags that differ in case. -/
def caseTags : RegistryCall :=
  .recordObject ⟨"t_acme", "events", "iceberg.t_acme.events", .inline, none, none⟩ ["Prod", "prod"]

/-- SQLite records it, MySQL raises. -/
theorem caseTags_not_interchangeable :
    sqliteDatabase.outcomes [caseTags] = [true] ∧ mysqlDatabase.outcomes [caseTags] = [false] := by
  decide +kernel

/-- SQLite tells all texts apart. -/
theorem sqliteDatabase_distinguishes (V : Vocabulary) : sqliteDatabase.Distinguishes V where
  tenants := Set.injOn_id _
  labels := Set.injOn_id _
  tags := Set.injOn_id _
  parents := Set.injOn_id _
  holdsText _ _ := rfl
  holdsRow _ _ := rfl

/-- A derived object with two tags and two parents. -/
def lowerCaseRow : ObjectRow :=
  ⟨"t_acme", "report", "iceberg.t_acme.report", .derived, none, some [.text "SELECT"]⟩

/-- Its texts. -/
def lowerCase : Vocabulary where
  tenants := { s | s ∈ ["t_acme"] }
  labels := { s | s ∈ ["report"] }
  tags := { s | s ∈ ["raw", "prod"] }
  parents := { s | s ∈ ["trades", "events"] }
  rows := { row | row = lowerCaseRow }

/-- MySQL tells these lower-case texts apart. -/
theorem mysqlFold_injective :
    ∀ texts ∈ [["t_acme"], ["report"], ["raw", "prod"], ["trades", "events"]],
      ∀ a ∈ texts, ∀ b ∈ texts, mysqlDatabase.fold a = mysqlDatabase.fold b → a = b := by
  decide +kernel

/-- MySQL distinguishes the lower-case vocabulary. -/
theorem mysqlDatabase_distinguishes : mysqlDatabase.Distinguishes lowerCase where
  tenants a ha b hb h := mysqlFold_injective _ (by simp) a ha b hb h
  labels a ha b hb h := mysqlFold_injective ["report"] (by simp) a ha b hb h
  tags a ha b hb h := mysqlFold_injective ["raw", "prod"] (by simp) a ha b hb h
  parents a ha b hb h := mysqlFold_injective ["trades", "events"] (by simp) a ha b hb h
  holdsText _ _ := rfl
  holdsRow _ _ := rfl

/-- On lower-case texts SQLite and MySQL are interchangeable. -/
theorem lowerCase_interchangeable :
    let calls := [RegistryCall.recordObjectGuarded lowerCaseRow ["raw", "prod"]
      (some ["trades", "events"])]
    sqliteDatabase.outcomes calls = mysqlDatabase.outcomes calls ∧
      sqliteDatabase.SameAnswers mysqlDatabase lowerCase (sqliteDatabase.tables calls)
        (mysqlDatabase.tables calls) := by
  have horder : ∀ texts ∈ [["raw", "prod"], ["trades", "events"]], ∀ a ∈ texts, ∀ b ∈ texts,
      sqliteDatabase.le a b = mysqlDatabase.le a b := by decide +kernel
  refine backends_interchangeable (sqliteDatabase_distinguishes lowerCase)
    mysqlDatabase_distinguishes ⟨horder _ (by simp), horder _ (by simp)⟩ ?_
  intro c hc
  obtain rfl := List.mem_singleton.mp hc
  refine ⟨⟨List.mem_singleton_self _, List.mem_singleton_self _⟩, rfl, fun _ h => h, ?_⟩
  rintro ps rfl' parent hparent
  cases rfl'
  exact hparent

end Memcove
