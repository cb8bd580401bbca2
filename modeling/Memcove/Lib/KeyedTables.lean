import Mathlib.Data.List.Nodup

/-!
# Tables with a key

Database tables as lists of rows: a table whose key is unique, with its insert-or-update statement,
and a table that holds any number of values for a key. Reading a table after a statement is
described by what the statement did at the key that is read.
-/

namespace KeyedTables

variable {ρ κ β : Type} [DecidableEq κ]

section

variable (key : ρ → κ)

/-- `SELECT … WHERE key = k`. -/
def lookup (rows : List ρ) (k : κ) : Option ρ := rows.find? (fun r => decide (key r = k))

/-- `INSERT … ON CONFLICT (key) DO UPDATE`. -/
def upsert (rows : List ρ) (row : ρ) (update : ρ → ρ) : List ρ :=
  if rows.any (fun r => decide (key r = key row)) then
    rows.map (fun r => if key r = key row then update r else r)
  else rows ++ [row]

/-- `DELETE … WHERE key = k`. -/
def remove (rows : List ρ) (k : κ) : List ρ := rows.filter (fun r => decide (key r ≠ k))

/-- `INSERT`, which fails on a key that is there. -/
def insertUnique (rows : List ρ) (row : ρ) : Option (List ρ) :=
  if rows.any (fun r => decide (key r = key row)) then none else some (rows ++ [row])

/-- `INSERT … ON CONFLICT DO NOTHING`. -/
def insertNew (rows : List ρ) (row : ρ) : List ρ :=
  if rows.any (fun r => decide (key r = key row)) then rows else rows ++ [row]

variable {key} {rows : List ρ} {row : ρ} {update : ρ → ρ} {k : κ}

/-- A row that is found has the key. -/
theorem lookup_key {r : ρ} (h : lookup key rows k = some r) : key r = k := by
  simpa using List.find?_some h

/-- A row that is found is a row of the table. -/
theorem lookup_mem {r : ρ} (h : lookup key rows k = some r) : r ∈ rows :=
  List.mem_of_find?_eq_some h

/-- A key is found exactly when one of the rows has it. -/
theorem lookup_isSome_iff : (lookup key rows k).isSome = true ↔ ∃ r ∈ rows, key r = k := by
  simp [lookup]

/-- Updating rows in place finds the updated row. -/
theorem lookup_map {f : ρ → ρ} (hf : ∀ r, key (f r) = key r) :
    lookup key (rows.map f) k = (lookup key rows k).map f := by
  induction rows with
  | nil => rfl
  | cons r rows ih =>
    by_cases hr : key r = k
    · simp [lookup, hf, hr]
    · simp only [lookup, List.map_cons, List.find?_cons, hf, hr, decide_false] at ih ⊢
      exact ih

/-- After an upsert the row itself is found, or what the update made of the row before. -/
theorem lookup_upsert_self (hupdate : ∀ r, key r = key row → key (update r) = key row) :
    lookup key (upsert key rows row update) (key row) =
      some (((lookup key rows (key row)).map update).getD row) := by
  have hkeys : ∀ r, key (if key r = key row then update r else r) = key r := by
    intro r
    by_cases hr : key r = key row
    · rw [if_pos hr, hupdate r hr, hr]
    · rw [if_neg hr]
  unfold upsert
  split
  · rename_i hany
    obtain ⟨r, hr, hkey⟩ := List.any_eq_true.mp hany
    have hsome : (lookup key rows (key row)).isSome = true :=
      lookup_isSome_iff.mpr ⟨r, hr, by simpa using hkey⟩
    obtain ⟨old, hold⟩ := Option.isSome_iff_exists.mp hsome
    rw [lookup_map hkeys, hold]
    simp [lookup_key hold]
  · rename_i hany
    have hnone : lookup key rows (key row) = none := by
      simp only [lookup, List.find?_eq_none]
      intro r hr hkey
      exact hany (List.any_eq_true.mpr ⟨r, hr, hkey⟩)
    rw [hnone]
    simp only [lookup] at hnone ⊢
    simp [List.find?_append, hnone]

/-- An upsert leaves the other keys alone. -/
theorem lookup_upsert_of_ne (hk : k ≠ key row)
    (hupdate : ∀ r, key r = key row → key (update r) = key row) :
    lookup key (upsert key rows row update) k = lookup key rows k := by
  have hkeys : ∀ r, key (if key r = key row then update r else r) = key r := by
    intro r
    by_cases hr : key r = key row
    · rw [if_pos hr, hupdate r hr, hr]
    · rw [if_neg hr]
  unfold upsert
  split
  · rw [lookup_map hkeys]
    cases hlookup : lookup key rows k with
    | none => rfl
    | some r =>
      have hne : key r ≠ key row := by rwa [lookup_key hlookup]
      simp [hne]
  · simp [lookup, List.find?_append, Ne.symm hk]

/-- A removed key is not found. -/
theorem lookup_remove_self : lookup key (remove key rows k) k = none := by
  simp [lookup, remove]

/-- Removing a key leaves the other keys alone. -/
theorem lookup_remove_of_ne {k' : κ} (hk : k ≠ k') :
    lookup key (remove key rows k') k = lookup key rows k := by
  rw [lookup, remove, List.find?_filter, lookup]
  congr 1
  funext r
  by_cases hr : key r = k
  · simp [hr, hk]
  · simp [hr]

/-- When no key is repeated, the row that is found is the row with the key. -/
theorem lookup_eq_some_iff (hrows : (rows.map key).Nodup) {r : ρ} :
    lookup key rows k = some r ↔ r ∈ rows ∧ key r = k := by
  constructor
  · intro h
    exact ⟨lookup_mem h, lookup_key h⟩
  · rintro ⟨hr, rfl⟩
    have hfound : (lookup key rows (key r)).isSome = true := lookup_isSome_iff.mpr ⟨r, hr, rfl⟩
    obtain ⟨r', hr'⟩ := Option.isSome_iff_exists.mp hfound
    rw [hr', List.inj_on_of_nodup_map hrows (lookup_mem hr') hr (lookup_key hr')]

/-- An upsert repeats no key. -/
theorem nodup_upsert (hrows : (rows.map key).Nodup)
    (hupdate : ∀ r, key r = key row → key (update r) = key row) :
    ((upsert key rows row update).map key).Nodup := by
  unfold upsert
  split
  · have hkeys : (rows.map (fun r => if key r = key row then update r else r)).map key =
        rows.map key := by
      rw [List.map_map]
      refine List.map_congr_left (fun r _ => ?_)
      by_cases hr : key r = key row
      · simp [hr, hupdate r hr]
      · simp [hr]
    rwa [hkeys]
  · rename_i hnew
    rw [List.map_append, List.nodup_append]
    refine ⟨hrows, List.nodup_singleton _, ?_⟩
    rintro _ hk _ hrow rfl
    obtain ⟨r, hr, hkey⟩ := List.mem_map.mp hk
    rw [List.map_singleton, List.mem_singleton] at hrow
    exact hnew (List.any_eq_true.mpr ⟨r, hr, by simpa [hkey] using hrow⟩)

/-- Deleting repeats no key. -/
theorem nodup_remove (hrows : (rows.map key).Nodup) : ((remove key rows k).map key).Nodup :=
  hrows.sublist (List.filter_sublist.map key)

/-- A row after an upsert was there before, or is the new one, or an updated one. -/
theorem mem_upsert {r : ρ} (h : r ∈ upsert key rows row update) :
    r ∈ rows ∨ r = row ∨ ∃ old ∈ rows, key old = key row ∧ r = update old := by
  unfold upsert at h
  split at h
  · obtain ⟨old, hold, rfl⟩ := List.mem_map.mp h
    by_cases hkey : key old = key row
    · rw [if_pos hkey]
      exact Or.inr (Or.inr ⟨old, hold, hkey, rfl⟩)
    · rw [if_neg hkey]
      exact Or.inl hold
  · rcases List.mem_append.mp h with h | h
    · exact Or.inl h
    · exact Or.inr (Or.inl (List.mem_singleton.mp h))

/-- After an upsert one row has the key: the row itself or an updated one. -/
theorem exists_upsert (hupdate : ∀ r, key r = key row → key (update r) = key row) :
    ∃ r ∈ upsert key rows row update, key r = key row ∧ (r = row ∨ ∃ old, r = update old) := by
  have hlookup : lookup key (upsert key rows row update) (key row) = _ :=
    lookup_upsert_self hupdate
  refine ⟨_, lookup_mem hlookup, lookup_key hlookup, ?_⟩
  cases lookup key rows (key row) with
  | none => exact Or.inl rfl
  | some old => exact Or.inr ⟨old, rfl⟩

/-- No row has the key of a row that is to be inserted. -/
theorem any_key_eq_false (h : ∀ r ∈ rows, key r ≠ key row) :
    rows.any (fun r => decide (key r = key row)) = false :=
  List.any_eq_false.mpr (fun r hr => by simpa using h r hr)

omit [DecidableEq κ] in
/-- After the first of several rows with new and different keys, the others are still new. -/
theorem ne_of_cons {new : List ρ} (hrow : key row ∉ new.map key)
    (hrows : ∀ r ∈ rows, ∀ r' ∈ row :: new, key r ≠ key r') :
    ∀ r ∈ rows ++ [row], ∀ r' ∈ new, key r ≠ key r' := by
  intro r hr r' hr'
  rcases List.mem_append.mp hr with hr | hr
  · exact hrows r hr r' (List.mem_cons_of_mem row hr')
  · rw [List.mem_singleton.mp hr]
    intro hkey
    exact hrow (hkey ▸ List.mem_map_of_mem hr')

/-- Inserting rows with new and different keys never fails. -/
theorem foldlM_insertUnique {new : List ρ} (hnew : (new.map key).Nodup)
    (hrows : ∀ r ∈ rows, ∀ r' ∈ new, key r ≠ key r') :
    new.foldlM (insertUnique key) rows = some (rows ++ new) := by
  induction new generalizing rows with
  | nil => simp
  | cons row new ih =>
    obtain ⟨hrow, hnew⟩ := List.nodup_cons.mp hnew
    have hnone := any_key_eq_false (fun r hr => hrows r hr row List.mem_cons_self)
    rw [List.foldlM_cons, insertUnique, hnone, if_neg (by decide)]
    have hrest := ih hnew (ne_of_cons hrow hrows)
    simpa using hrest

/-- Inserting rows with new and different keys ignores none of them. -/
theorem foldl_insertNew {new : List ρ} (hnew : (new.map key).Nodup)
    (hrows : ∀ r ∈ rows, ∀ r' ∈ new, key r ≠ key r') :
    new.foldl (insertNew key) rows = rows ++ new := by
  induction new generalizing rows with
  | nil => simp
  | cons row new ih =>
    obtain ⟨hrow, hnew⟩ := List.nodup_cons.mp hnew
    have hnone := any_key_eq_false (fun r hr => hrows r hr row List.mem_cons_self)
    rw [List.foldl_cons, insertNew, hnone, if_neg (by decide)]
    have hrest := ih hnew (ne_of_cons hrow hrows)
    simpa using hrest

/-- Upserting rows with new and different keys updates none of them. -/
theorem foldl_upsert {new : List ρ} {update : ρ → ρ → ρ} (hnew : (new.map key).Nodup)
    (hrows : ∀ r ∈ rows, ∀ r' ∈ new, key r ≠ key r') :
    new.foldl (fun rows row => upsert key rows row (update row)) rows = rows ++ new := by
  induction new generalizing rows with
  | nil => simp
  | cons row new ih =>
    obtain ⟨hrow, hnew⟩ := List.nodup_cons.mp hnew
    have hnone := any_key_eq_false (fun r hr => hrows r hr row List.mem_cons_self)
    rw [List.foldl_cons, upsert, hnone, if_neg (by decide)]
    have hrest := ih hnew (ne_of_cons hrow hrows)
    simpa using hrest

/-- Inserting rows appends them, when it does not fail. -/
theorem eq_append_of_insertUnique {new out : List ρ}
    (h : new.foldlM (insertUnique key) rows = some out) : out = rows ++ new := by
  induction new generalizing rows with
  | nil =>
    rw [List.append_nil]
    exact (Option.some.inj h).symm
  | cons row new ih =>
    rw [List.foldlM_cons] at h
    obtain ⟨rows', hrows', hrest⟩ := Option.bind_eq_some_iff.mp h
    unfold insertUnique at hrows'
    split at hrows'
    · cases hrows'
    · cases hrows'
      rw [ih hrest, List.append_assoc, List.singleton_append]

/-- A row after insertions that ignore conflicts was there before or is one of the new ones. -/
theorem mem_insertNew {new : List ρ} {r : ρ} (h : r ∈ new.foldl (insertNew key) rows) :
    r ∈ rows ∨ r ∈ new := by
  induction new generalizing rows with
  | nil => exact Or.inl h
  | cons row new ih =>
    rcases ih h with hr | hr
    · unfold insertNew at hr
      split at hr
      · exact Or.inl hr
      · rcases List.mem_append.mp hr with hr | hr
        · exact Or.inl hr
        · exact Or.inr (List.mem_singleton.mp hr ▸ List.mem_cons_self)
    · exact Or.inr (List.mem_cons_of_mem _ hr)

/-- Insertions that ignore conflicts remove no row. -/
theorem mem_insertNew_of_mem {new : List ρ} {r : ρ} (h : r ∈ rows) :
    r ∈ new.foldl (insertNew key) rows := by
  induction new generalizing rows with
  | nil => exact h
  | cons row new ih =>
    refine ih ?_
    unfold insertNew
    split
    · exact h
    · exact List.mem_append_left _ h

/-- After insertions that ignore conflicts every new row's key is there. -/
theorem insertNew_covers {new : List ρ} {r : ρ} (h : r ∈ new) :
    ∃ r' ∈ new.foldl (insertNew key) rows, key r' = key r := by
  induction new generalizing rows with
  | nil => exact absurd h List.not_mem_nil
  | cons row new ih =>
    rcases List.mem_cons.mp h with rfl | h
    · have hrow : ∃ r' ∈ insertNew key rows r, key r' = key r := by
        unfold insertNew
        split
        · rename_i hany
          obtain ⟨r', hr', hkey⟩ := List.any_eq_true.mp hany
          exact ⟨r', hr', by simpa using hkey⟩
        · exact ⟨r, List.mem_append_right _ (List.mem_singleton_self r), rfl⟩
      obtain ⟨r', hr', hkey⟩ := hrow
      refine ⟨r', ?_, hkey⟩
      rw [List.foldl_cons]
      exact mem_insertNew_of_mem hr'
    · exact ih h

end

/-- A search depends only on what the test says about the elements. -/
theorem any_congr_mem {α : Type} {l : List α} {p q : α → Bool} (h : ∀ a ∈ l, p a = q a) :
    l.any p = l.any q := by
  rw [Bool.eq_iff_iff, List.any_eq_true, List.any_eq_true]
  exact exists_congr (fun a => and_congr_right (fun ha => by rw [h a ha]))

section

variable {μ : Type} [DecidableEq μ] {key : ρ → κ} {fold : κ → μ} {rows : List ρ} {k : κ}

/-- Where a collation tells a key from the keys of the table, it finds the same row. -/
theorem lookup_fold (hfold : ∀ r ∈ rows, fold (key r) = fold k → key r = k) :
    lookup (fun r => fold (key r)) rows (fold k) = lookup key rows k := by
  induction rows with
  | nil => rfl
  | cons r rows ih =>
    have hrest := ih (fun r hr => hfold r (List.mem_cons_of_mem _ hr))
    have hr := hfold r List.mem_cons_self
    by_cases hk : key r = k
    · simp [lookup, hk]
    · have hne : fold (key r) ≠ fold k := fun h => hk (hr h)
      simpa [lookup, hk, hne] using hrest

/-- Where a collation tells a key from the keys of the table, it deletes the same rows. -/
theorem remove_fold (hfold : ∀ r ∈ rows, fold (key r) = fold k → key r = k) :
    remove (fun r => fold (key r)) rows (fold k) = remove key rows k := by
  refine List.filter_congr (fun r hr => ?_)
  have hiff : fold (key r) = fold k ↔ key r = k := ⟨hfold r hr, fun h => by rw [h]⟩
  simp only [ne_eq, hiff]

/-- Where a collation tells the key of a row from the keys of the table, an upsert does the same. -/
theorem upsert_fold {row : ρ} {update update' : ρ → ρ}
    (hfold : ∀ r ∈ rows, fold (key r) = fold (key row) → key r = key row)
    (hupdate : ∀ r ∈ rows, key r = key row → update r = update' r) :
    upsert (fun r => fold (key r)) rows row update = upsert key rows row update' := by
  have hiff : ∀ r ∈ rows, (fold (key r) = fold (key row) ↔ key r = key row) :=
    fun r hr => ⟨hfold r hr, fun h => by rw [h]⟩
  have hany : rows.any (fun r => decide (fold (key r) = fold (key row))) =
      rows.any (fun r => decide (key r = key row)) :=
    any_congr_mem (fun r hr => by simp only [hiff r hr])
  have hmap : rows.map (fun r => if fold (key r) = fold (key row) then update r else r) =
      rows.map (fun r => if key r = key row then update' r else r) := by
    refine List.map_congr_left (fun r hr => ?_)
    by_cases hkey : key r = key row
    · rw [if_pos ((hiff r hr).mpr hkey), if_pos hkey, hupdate r hr hkey]
    · rw [if_neg (fun h => hkey ((hiff r hr).mp h)), if_neg hkey]
  rw [upsert, upsert, hany, hmap]

end

section

variable (key : ρ → κ) (p : κ → Bool) (rows : List ρ) {row : ρ} {update : ρ → ρ} {k : κ}

/-- A key of the part is found in the part. -/
theorem lookup_part (hk : p k = true) :
    lookup key (rows.filter (fun r => p (key r))) k = lookup key rows k := by
  rw [lookup, List.find?_filter, lookup]
  congr 1
  funext r
  by_cases hr : key r = k
  · simp [hr, hk]
  · simp [hr]

omit [DecidableEq κ] in
/-- Updating rows in place updates the part in place. -/
theorem part_map {f : ρ → ρ} (hf : ∀ r, key (f r) = key r) :
    (rows.map f).filter (fun r => p (key r)) = (rows.filter (fun r => p (key r))).map f := by
  rw [List.filter_map]
  congr 2
  funext r
  simp [hf]

/-- What an upsert does to the rows with its key leaves the keys as they are. -/
theorem key_updated {key : ρ → κ} {row : ρ} {update : ρ → ρ}
    (hupdate : ∀ r, key r = key row → key (update r) = key row) (r : ρ) :
    key (if key r = key row then update r else r) = key r := by
  by_cases hr : key r = key row
  · rw [if_pos hr, hupdate r hr, hr]
  · rw [if_neg hr]

/-- An upsert at a key of the part is one in the part. -/
theorem part_upsert (row : ρ) (update : ρ → ρ) (hk : p (key row) = true)
    (hupdate : ∀ r, key r = key row → key (update r) = key row) :
    (upsert key rows row update).filter (fun r => p (key r)) =
      upsert key (rows.filter (fun r => p (key r))) row update := by
  have hany : (rows.filter (fun r => p (key r))).any (fun r => decide (key r = key row)) =
      rows.any (fun r => decide (key r = key row)) := by
    rw [List.any_filter]
    congr 1
    funext r
    by_cases hr : key r = key row
    · simp [hr, hk]
    · simp [hr]
  rw [upsert, upsert, hany]
  split
  · exact part_map key p rows (key_updated hupdate)
  · simp [hk]

/-- An upsert at another key leaves the part alone. -/
theorem part_upsert_of_not (row : ρ) (update : ρ → ρ) (hk : p (key row) = false)
    (hupdate : ∀ r, key r = key row → key (update r) = key row) :
    (upsert key rows row update).filter (fun r => p (key r)) =
      rows.filter (fun r => p (key r)) := by
  unfold upsert
  split
  · rw [part_map key p rows (key_updated hupdate)]
    refine (List.map_congr_left (fun r hr => ?_)).trans (List.map_id _)
    refine if_neg (fun hkey => ?_)
    have hpart := (List.mem_filter.mp hr).2
    rw [hkey, hk] at hpart
    cases hpart
  · simp [hk]

/-- Removing a key removes it from the part. -/
theorem part_remove (k : κ) : (remove key rows k).filter (fun r => p (key r)) =
    remove key (rows.filter (fun r => p (key r))) k := List.filter_comm _ _ _

/-- Removing another key leaves the part alone. -/
theorem part_remove_of_not (hk : p k = false) : (remove key rows k).filter (fun r => p (key r)) =
    rows.filter (fun r => p (key r)) := by
  rw [remove, List.filter_filter]
  refine List.filter_congr (fun r _ => ?_)
  by_cases hr : key r = k
  · simp [hr, hk]
  · simp [hr]

end

/-- `SELECT value WHERE key = k`. -/
def valuesOf (rows : List (κ × β)) (k : κ) : List β :=
  (rows.filter (fun r => decide (r.1 = k))).map (·.2)

/-- `DELETE … WHERE key = k`, then an `INSERT` of every value. -/
def replaceValues (rows : List (κ × β)) (k : κ) (values : List β) : List (κ × β) :=
  rows.filter (fun r => decide (r.1 ≠ k)) ++ values.map (fun v => (k, v))

variable {rows : List (κ × β)} {k k' : κ} {values : List β}

/-- The values in two tables together. -/
theorem valuesOf_append (rows rows' : List (κ × β)) (k : κ) :
    valuesOf (rows ++ rows') k = valuesOf rows k ++ valuesOf rows' k := by
  simp [valuesOf]

/-- Rows of one key have their values at that key. -/
theorem valuesOf_rows_self : valuesOf (values.map (fun v => (k, v))) k = values := by
  have hall : (values.map (fun v => (k, v))).filter (fun r => decide (r.1 = k)) =
      values.map (fun v => (k, v)) := List.filter_eq_self.mpr (by simp)
  rw [valuesOf, hall, List.map_map]
  exact List.map_id values

/-- Rows of one key have no values at another. -/
theorem valuesOf_rows_of_ne (hk : k ≠ k') : valuesOf (values.map (fun v => (k', v))) k = [] := by
  have hnone : (values.map (fun v => (k', v))).filter (fun r => decide (r.1 = k)) = [] :=
    List.filter_eq_nil_iff.mpr (by simp [Ne.symm hk])
  simp only [valuesOf, hnone, List.map_nil]

/-- After the replacement the key has the new values. -/
theorem valuesOf_replaceValues_self : valuesOf (replaceValues rows k values) k = values := by
  have hnone : (rows.filter (fun r => decide (r.1 ≠ k))).filter (fun r => decide (r.1 = k)) =
      [] := by
    rw [List.filter_filter, List.filter_eq_nil_iff]
    intro r _
    by_cases hr : r.1 = k <;> simp [hr]
  rw [replaceValues, valuesOf_append, valuesOf_rows_self, valuesOf, hnone]
  rfl

/-- Replacing the values of a key leaves the other keys alone. -/
theorem valuesOf_replaceValues_of_ne (hk : k ≠ k') :
    valuesOf (replaceValues rows k' values) k = valuesOf rows k := by
  have hfilter : (rows.filter (fun r => decide (r.1 ≠ k'))).filter (fun r => decide (r.1 = k)) =
      rows.filter (fun r => decide (r.1 = k)) := by
    rw [List.filter_filter]
    refine List.filter_congr (fun r _ => ?_)
    by_cases hr : r.1 = k
    · simp [hr, hk]
    · simp [hr]
  rw [replaceValues, valuesOf_append, valuesOf_rows_of_ne hk, List.append_nil, valuesOf, hfilter,
    valuesOf]

/-- Deleting all rows of a key replaces its values by none. -/
theorem remove_eq_replaceValues : remove Prod.fst rows k = replaceValues rows k [] := by
  simp [remove, replaceValues]

/-- A key of the part has its values in the part. -/
theorem valuesOf_part {p : κ → Bool} (hk : p k = true) :
    valuesOf (rows.filter (fun r => p r.1)) k = valuesOf rows k := by
  rw [valuesOf, List.filter_filter, valuesOf]
  congr 1
  refine List.filter_congr (fun r _ => ?_)
  by_cases hr : r.1 = k
  · simp [hr, hk]
  · simp [hr]

/-- Replacing the values of a key of the part replaces them in the part. -/
theorem part_replaceValues (p : κ → Bool) (rows : List (κ × β)) (values : List β)
    (hk : p k = true) :
    (replaceValues rows k values).filter (fun r => p r.1) =
      replaceValues (rows.filter (fun r => p r.1)) k values := by
  have hnew : (values.map (fun v => (k, v))).filter (fun r => p r.1) =
      values.map (fun v => (k, v)) := List.filter_eq_self.mpr (by simp [hk])
  rw [replaceValues, List.filter_append, hnew, List.filter_comm, replaceValues]

/-- Replacing the values of another key leaves the part alone. -/
theorem part_replaceValues_of_not (p : κ → Bool) (rows : List (κ × β)) (values : List β)
    (hk : p k = false) :
    (replaceValues rows k values).filter (fun r => p r.1) = rows.filter (fun r => p r.1) := by
  have hnew : (values.map (fun v => (k, v))).filter (fun r => p r.1) = [] :=
    List.filter_eq_nil_iff.mpr (by simp [hk])
  rw [replaceValues, List.filter_append, hnew, List.append_nil]
  exact part_remove_of_not Prod.fst p rows hk

end KeyedTables
