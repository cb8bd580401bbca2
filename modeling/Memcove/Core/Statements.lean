import Memcove.Core.RegistryBackends

/-!
# Statements of a guarded write

A guarded write is one transaction of several statements. Executed one after the other they do
what `Database.apply` does in one step, and afterwards the tables hold the row, its tags and,
where parents are given, its lineage.
-/

namespace Memcove

open KeyedTables

/-- The statements of a guarded write. -/
inductive RegistryStatement where
  | upsertObject (row : ObjectRow)
  | deleteTags (k : Key)
  | insertTag (k : Key) (tag : String)
  | deleteLineage (child : Key)
  | insertLineage (child : Key) (parent : String)

/-- One statement, on the tables as the open transaction sees them. -/
def Database.step (db : Database) (R : Registry) : RegistryStatement → PyM Registry
  | .upsertObject row => do
    db.binds [row.tenant, row.label]
    db.bindsRow row
    let update := fun old : ObjectRow => { row with tenant := old.tenant, label := old.label }
    return { R with objects := upsert (fun r => db.foldKey r.key) R.objects row update }
  | .deleteTags k => do
    db.binds [k.1, k.2]
    return { R with tags := remove (fun t => db.foldKey t.1) R.tags (db.foldKey k) }
  | .insertTag k tag => do
    db.binds [k.1, k.2, tag]
    match insertUnique db.foldPair R.tags (k, tag) with
    | some rows => return { R with tags := rows }
    | none => raise .external "duplicate key in memcove_object_tags"
  | .deleteLineage child => do
    db.binds [child.1, child.2]
    return { R with lineage := remove (fun e => db.foldKey e.1) R.lineage (db.foldKey child) }
  | .insertLineage child parent => do
    db.binds [child.1, child.2, parent]
    return { R with lineage := insertNew db.foldPair R.lineage (child, parent) }

/-- The statements of `_upsert_object`. -/
def objectStatements (row : ObjectRow) (tags : List String) : List RegistryStatement :=
  .upsertObject row :: .deleteTags row.key :: (Registry.fromKeys tags).map (.insertTag row.key)

/-- The statements of `_set_lineage`. -/
def lineageStatements (child : Key) (parents : List String) : List RegistryStatement :=
  .deleteLineage child ::
    ((Registry.fromKeys parents).filter (fun parent => parent != child.2)).map
      (.insertLineage child)

/-- The statements of a guarded write. -/
def writeStatements (row : ObjectRow) (tags : List String) :
    Option (List String) → List RegistryStatement
  | some parents => objectStatements row tags ++ lineageStatements row.key parents
  | none => objectStatements row tags

namespace Database

variable {db : Database} {R R' : Registry} {k : Key} {row : ObjectRow}

/-- A statement whose parameters can be bound. -/
theorem binds_bind_iff {texts : List String} {x : PyM Registry} :
    (db.binds texts >>= fun _ => x) = .ok R' ↔
      (∀ s ∈ texts, db.holdsText s = true) ∧ x = .ok R' := by
  rw [← List.all_eq_true, binds]
  cases texts.all db.holdsText with
  | true => exact ⟨fun h => ⟨rfl, h⟩, fun h => h.2⟩
  | false => exact ⟨fun h => (by cases h), fun h => (by cases h.1)⟩

/-- A row that the columns hold. -/
theorem bindsRow_bind_iff {x : PyM Registry} :
    (db.bindsRow row >>= fun _ => x) = .ok R' ↔ db.holdsRow row = true ∧ x = .ok R' := by
  rw [bindsRow]
  cases db.holdsRow row with
  | true => exact ⟨fun h => ⟨rfl, h⟩, fun h => h.2⟩
  | false => exact ⟨fun h => (by cases h), fun h => (by cases h.1)⟩

/-- A tag that is inserted. -/
theorem insertTag_bind_iff {tag : String} {f : Registry → PyM Registry} :
    (db.step R (.insertTag k tag) >>= f) = .ok R' ↔
      (∀ s ∈ [k.1, k.2, tag], db.holdsText s = true) ∧
        ∃ rows, insertUnique db.foldPair R.tags (k, tag) = some rows ∧
          f { R with tags := rows } = .ok R' := by
  rw [step, bind_assoc, binds_bind_iff]
  refine and_congr_right (fun _ => ?_)
  cases insertUnique db.foldPair R.tags (k, tag) with
  | none => exact ⟨fun h => (by cases h), fun ⟨_, h, _⟩ => (by cases h)⟩
  | some rows => exact ⟨fun h => ⟨rows, rfl, h⟩, fun ⟨_, h, hf⟩ => (by cases h; exact hf)⟩

/-- The tags of a key, inserted one by one. -/
theorem insertTags_iff {tags : List String} (hk : ∀ s ∈ [k.1, k.2], db.holdsText s = true) :
    (tags.map (RegistryStatement.insertTag k)).foldlM db.step R = .ok R' ↔
      (∀ tag ∈ tags, db.holdsText tag = true) ∧
        ∃ rows, (tags.map (fun tag => (k, tag))).foldlM (insertUnique db.foldPair) R.tags =
          some rows ∧ R' = { R with tags := rows } := by
  induction tags generalizing R with
  | nil =>
    constructor
    · intro h
      cases h
      exact ⟨fun _ h => absurd h List.not_mem_nil, _, rfl, rfl⟩
    · rintro ⟨_, rows, hrows, rfl⟩
      cases hrows
      rfl
  | cons tag tags ih =>
    rw [List.map_cons, List.map_cons, List.foldlM_cons, List.foldlM_cons, insertTag_bind_iff,
      List.forall_mem_cons]
    simp only [List.forall_mem_cons] at hk ⊢
    constructor
    · rintro ⟨⟨_, _, htag, _⟩, rows, hrows, hrest⟩
      obtain ⟨htags, rows', hrows', rfl⟩ := ih.mp hrest
      refine ⟨⟨htag, htags⟩, rows', ?_, rfl⟩
      rw [hrows]
      exact hrows'
    · rintro ⟨⟨htag, htags⟩, rows', hrows', rfl⟩
      obtain ⟨rows, hrows, hrest⟩ := Option.bind_eq_some_iff.mp hrows'
      exact ⟨⟨hk.1, hk.2.1, htag, hk.2.2⟩, rows, hrows, ih.mpr ⟨htags, rows', hrest, rfl⟩⟩

/-- The edges of a child, inserted one by one. -/
theorem insertLineage_iff {parents : List String} (hk : ∀ s ∈ [k.1, k.2], db.holdsText s = true) :
    (parents.map (RegistryStatement.insertLineage k)).foldlM db.step R = .ok R' ↔
      (∀ parent ∈ parents, db.holdsText parent = true) ∧
        R' = { R with
          lineage := (parents.map (fun parent => (k, parent))).foldl (insertNew db.foldPair)
            R.lineage } := by
  induction parents generalizing R with
  | nil =>
    constructor
    · intro h
      cases h
      exact ⟨fun _ h => absurd h List.not_mem_nil, rfl⟩
    · rintro ⟨_, rfl⟩
      rfl
  | cons parent parents ih =>
    rw [List.map_cons, List.map_cons, List.foldlM_cons, List.foldl_cons, List.forall_mem_cons,
      step, bind_assoc, binds_bind_iff]
    simp only [List.forall_mem_cons] at hk ⊢
    constructor
    · rintro ⟨⟨_, _, hparent, _⟩, hrest⟩
      obtain ⟨hparents, hR'⟩ := ih.mp hrest
      exact ⟨⟨hparent, hparents⟩, hR'⟩
    · rintro ⟨⟨hparent, hparents⟩, hR'⟩
      exact ⟨⟨hk.1, hk.2.1, hparent, hk.2.2⟩, ih.mpr ⟨hparents, hR'⟩⟩

/-- `_upsert_object`, statement by statement. -/
theorem objectStatements_iff {tags : List String} :
    (objectStatements row tags).foldlM db.step R = .ok R' ↔
      db.upsertObject R row tags = .ok R' := by
  rw [objectStatements, List.foldlM_cons, step, bind_assoc, binds_bind_iff, upsertObject,
    binds_bind_iff]
  refine and_congr_right (fun hkey => ?_)
  rw [bind_assoc, bindsRow_bind_iff, bindsRow_bind_iff]
  refine and_congr_right (fun _ => ?_)
  change List.foldlM db.step _ _ = _ ↔ replaceTags db _ _ _ = _
  rw [List.foldlM_cons, step, bind_assoc, binds_bind_iff, replaceTags, binds_bind_iff]
  change _ ∧ List.foldlM db.step _ _ = _ ↔ _
  rw [insertTags_iff hkey]
  simp only [Registry.mem_fromKeys, List.forall_mem_cons, and_assoc]
  refine and_congr_right (fun _ => and_congr_right (fun _ => ?_))
  rw [and_iff_right (fun _ h => absurd h List.not_mem_nil)]
  refine and_congr_right (fun _ => ?_)
  split
  case h_1 rows hrows =>
    rw [hrows]
    constructor
    · rintro ⟨_, hrows', rfl⟩
      cases hrows'
      rfl
    · intro h
      cases h
      exact ⟨rows, rfl, rfl⟩
  case h_2 hrows =>
    rw [hrows]
    constructor
    · rintro ⟨_, hrows', _⟩
      cases hrows'
    · intro h
      cases h

/-- `_set_lineage`, statement by statement. -/
theorem lineageStatements_iff {parents : List String} :
    (lineageStatements k parents).foldlM db.step R = .ok R' ↔
      db.setLineage R k parents = .ok R' := by
  rw [lineageStatements, List.foldlM_cons, step, bind_assoc, binds_bind_iff, setLineage,
    binds_bind_iff]
  change _ ∧ List.foldlM db.step _ _ = _ ↔ _ ∧ Except.ok _ = _
  rw [foldl_insertLineage]
  constructor
  · rintro ⟨hkey, hrest⟩
    obtain ⟨hparents, rfl⟩ := (insertLineage_iff hkey).mp hrest
    refine ⟨?_, rfl⟩
    simp only [List.forall_mem_cons, List.mem_filter, Registry.mem_fromKeys] at hkey hparents ⊢
    refine ⟨hkey.1, hkey.2.1, fun parent hparent => ?_⟩
    by_cases hself : parent = k.2
    · rw [hself]
      exact hkey.2.1
    · exact hparents parent ⟨hparent, by simpa using hself⟩
  · rintro ⟨hall, hR'⟩
    simp only [List.forall_mem_cons] at hall
    have hkey : ∀ s ∈ [k.1, k.2], db.holdsText s = true := by simp [hall.1, hall.2.1]
    refine ⟨hkey, (insertLineage_iff hkey).mpr ⟨fun parent hparent => ?_, ?_⟩⟩
    · exact hall.2.2 parent (Registry.mem_fromKeys.mp (List.mem_filter.mp hparent).1)
    · exact (Except.ok.inj hR').symm

/-- A guarded write, statement by statement. -/
theorem writeStatements_iff {tags : List String} {parents : Option (List String)} :
    (writeStatements row tags parents).foldlM db.step R = .ok R' ↔
      db.apply R (.recordObjectGuarded row tags parents) = .ok R' := by
  cases parents with
  | none => exact objectStatements_iff
  | some parents =>
    rw [writeStatements, List.foldlM_append]
    constructor
    · intro h
      obtain ⟨R₁, hobject, hlineage⟩ := bind_eq_ok h
      rw [apply, objectStatements_iff.mp hobject]
      exact lineageStatements_iff.mp hlineage
    · intro h
      obtain ⟨R₁, hobject, hlineage⟩ := bind_eq_ok h
      rw [objectStatements_iff.mpr hobject]
      exact lineageStatements_iff.mpr hlineage

/-- The tables hold a row, exactly its tags, and as edges its parents where they are given: one
for each parent up to the collation, the object itself left out. -/
structure Written (db : Database) (row : ObjectRow) (tags : List String)
    (parents : Option (List String)) (R : Registry) : Prop where
  object : ∃ r ∈ R.objects, db.foldKey r.key = db.foldKey row.key ∧
    r = { row with tenant := r.tenant, label := r.label }
  tags : ∀ tag, (∃ t ∈ R.tags, db.foldKey t.1 = db.foldKey row.key ∧ t.2 = tag) ↔ tag ∈ tags
  edges : ∀ ps, parents = some ps → ∀ p ∈ ps, p ≠ row.label →
    ∃ e ∈ R.lineage, db.foldPair e = db.foldPair (row.key, p)
  onlyEdges : ∀ ps, parents = some ps → ∀ e ∈ R.lineage, db.foldKey e.1 = db.foldKey row.key →
    e.2 ∈ ps ∧ e.2 ≠ row.label

/-- The tables after `_upsert_object`. -/
theorem upsertObject_ok {tags : List String} (h : db.upsertObject R row tags = .ok R') :
    R' = { R with
      objects := upsert (fun r => db.foldKey r.key) R.objects row
        (fun old => { row with tenant := old.tenant, label := old.label })
      tags := remove (fun t => db.foldKey t.1) R.tags (db.foldKey row.key) ++
        (Registry.fromKeys tags).map (fun tag => (row.key, tag)) } := by
  rw [upsertObject, binds_bind_iff, bindsRow_bind_iff] at h
  have hreplace := h.2.2
  change replaceTags db _ _ _ = _ at hreplace
  rw [replaceTags, binds_bind_iff] at hreplace
  have hinsert := hreplace.2
  simp only at hinsert
  split at hinsert
  case h_1 rows hrows =>
    cases hinsert
    rw [eq_append_of_insertUnique hrows]
  case h_2 => cases hinsert

/-- The tables after `_set_lineage`. -/
theorem setLineage_ok {parents : List String} (h : db.setLineage R k parents = .ok R') :
    R' = { R with
      lineage := (((Registry.fromKeys parents).filter (fun parent => parent != k.2)).map
        (fun parent => (k, parent))).foldl (insertNew db.foldPair)
          (remove (fun e => db.foldKey e.1) R.lineage (db.foldKey k)) } := by
  rw [setLineage, binds_bind_iff] at h
  have hrows := Except.ok.inj h.2
  rw [← foldl_insertLineage]
  exact hrows.symm

/-- The object and its tags are written. -/
theorem upsertObject_written {tags : List String} (h : db.upsertObject R row tags = .ok R') :
    db.Written row tags none R' := by
  rw [upsertObject_ok h]
  refine ⟨?_, fun tag => ⟨?_, fun htag => ?_⟩, nofun, nofun⟩
  · obtain ⟨r, hr, hkey, heq⟩ : ∃ r ∈ upsert (fun r : ObjectRow => db.foldKey r.key) R.objects row
        (fun old => { row with tenant := old.tenant, label := old.label }), _ :=
      exists_upsert (fun _ h => h)
    refine ⟨r, hr, hkey, ?_⟩
    rcases heq with rfl | ⟨old, rfl⟩ <;> rfl
  · rintro ⟨t, ht, hkey, rfl⟩
    rcases List.mem_append.mp ht with ht | ht
    · exact absurd hkey (by simpa using (List.mem_filter.mp ht).2)
    · obtain ⟨tag, htag, rfl⟩ := List.mem_map.mp ht
      exact Registry.mem_fromKeys.mp htag
  · refine ⟨(row.key, tag), List.mem_append_right _ ?_, rfl, rfl⟩
    exact List.mem_map_of_mem (Registry.mem_fromKeys.mpr htag)

/-- The lineage is written, and the rest is left alone. -/
theorem setLineage_written {tags parents : List String}
    (h : db.setLineage R row.key parents = .ok R') (hR : db.Written row tags none R) :
    db.Written row tags (some parents) R' := by
  rw [setLineage_ok h]
  refine ⟨hR.object, hR.tags, fun ps hps p hp hself => ?_, fun ps hps e he hkey => ?_⟩
  · cases hps
    have hother : (p != row.key.2) = true := bne_iff_ne.mpr hself
    exact insertNew_covers (List.mem_map_of_mem
      (List.mem_filter.mpr ⟨Registry.mem_fromKeys.mpr hp, hother⟩))
  · cases hps
    rcases mem_insertNew he with he | he
    · exact absurd hkey (by simpa using (List.mem_filter.mp he).2)
    · obtain ⟨p, hp, rfl⟩ := List.mem_map.mp he
      obtain ⟨hmem, hself⟩ := List.mem_filter.mp hp
      exact ⟨Registry.mem_fromKeys.mp hmem, bne_iff_ne.mp hself⟩

/-- A guarded write that succeeds has written everything. -/
theorem apply_written {tags : List String} {parents : Option (List String)}
    (h : db.apply R (.recordObjectGuarded row tags parents) = .ok R') :
    db.Written row tags parents R' := by
  cases parents with
  | none => exact upsertObject_written h
  | some parents =>
    obtain ⟨R₁, hobject, hlineage⟩ := bind_eq_ok h
    exact setLineage_written hlineage (upsertObject_written hobject)

end Database

end Memcove
