import Memcove.Drift.Isolation
import Memcove.Server.Site

/-!
# What a tenant sees of the site

A tenant sees its own namespace and the shared schemas, its own rows of the registry, and its own
schema of the scratchpad. A call about the tenant returns what it returns on the part of the site
that the tenant sees, and does to that part what it does there; a call about another tenant leaves
the part alone.
-/

namespace Memcove

open KeyedTables Programs

/-- The part of the catalog with some of the namespaces. -/
def Lakehouse.only (p : String → Bool) (L : Lakehouse) : Lakehouse :=
  { L with
    namespaces := L.namespaces.filter p
    tables := L.tables.filter (fun t => p t.1.1) }

/-- The part of the registry that is about some of the tenants. -/
def Registry.only (p : String → Bool) (R : Registry) : Registry where
  objects := R.objects.filter (fun row => p row.tenant)
  tags := R.tags.filter (fun t => p t.1.1)
  lineage := R.lineage.filter (fun t => p t.1.1)
  tombstones := R.tombstones.filter (fun t => p t.1.1)

section

variable {p : String → Bool} {L : Lakehouse} {R : Registry} {k : Key} {tenant ns : String}

/-- A table of the part. -/
theorem Lakehouse.table_only (hk : p k.1 = true) : (L.only p).table k = L.table k :=
  congrArg (Option.map Prod.snd)
    (lookup_part Prod.fst (fun k : Key => p k.1) L.tables hk)

/-- Setting a table of the part. -/
theorem Lakehouse.only_setTable (hk : p k.1 = true) (t : LakeTable) :
    (L.setTable k t).only p = (L.only p).setTable k t := by
  have hpart := part_upsert Prod.fst (fun k : Key => p k.1) L.tables (k, t) (fun _ => (k, t))
    hk (fun _ _ => rfl)
  simp only [Lakehouse.setTable, Lakehouse.only, hpart]

/-- Setting another table. -/
theorem Lakehouse.only_setTable_of_not (hk : p k.1 = false) (t : LakeTable) :
    (L.setTable k t).only p = L.only p := by
  have hpart := part_upsert_of_not Prod.fst (fun k : Key => p k.1) L.tables (k, t) (fun _ => (k, t))
    hk (fun _ _ => rfl)
  simp only [Lakehouse.setTable, Lakehouse.only, hpart]

/-- Adding a namespace of the part. -/
theorem Lakehouse.only_addNamespace (hns : p ns = true) :
    (L.addNamespace ns).only p = (L.only p).addNamespace ns := by
  have hmem : ns ∈ L.namespaces.filter p ↔ ns ∈ L.namespaces := by simp [hns]
  unfold Lakehouse.addNamespace
  by_cases h : ns ∈ L.namespaces
  · rw [if_pos h]
    exact (if_pos (hmem.mpr h)).symm
  · rw [if_neg h]
    refine Eq.trans ?_ (if_neg (fun h' => h (hmem.mp h'))).symm
    simp [Lakehouse.only, hns]

/-- Adding another namespace. -/
theorem Lakehouse.only_addNamespace_of_not (hns : p ns = false) :
    (L.addNamespace ns).only p = L.only p := by
  unfold Lakehouse.addNamespace
  split
  · rfl
  · simp [Lakehouse.only, hns]

/-- The tables of a namespace of the part. -/
theorem Lakehouse.tables_only (hns : p ns = true) :
    (L.only p).tables.filter (fun t => t.1.1 == ns) = L.tables.filter (fun t => t.1.1 == ns) := by
  rw [Lakehouse.only, List.filter_filter]
  refine List.filter_congr (fun t _ => ?_)
  by_cases ht : t.1.1 = ns
  · simp [ht, hns]
  · simp [ht]

/-- The rows of a tenant of the part. -/
theorem filter_tenant {ρ : Type} (tenantOf : ρ → String) (rows : List ρ) {q : ρ → Bool}
    (htenant : p tenant = true) (hq : ∀ r, q r = true → tenantOf r = tenant) :
    (rows.filter (fun r => p (tenantOf r))).filter q = rows.filter q := by
  rw [List.filter_filter]
  refine List.filter_congr (fun r _ => ?_)
  cases hr : q r with
  | false => rfl
  | true => simp [hq r hr, htenant]

namespace Registry

/-- A row of the part. -/
theorem getObject_only (hk : p k.1 = true) : (R.only p).getObject k = R.getObject k := by
  have hrow : (R.only p).row k = R.row k :=
    lookup_part ObjectRow.key (fun k : Key => p k.1) R.objects hk
  have htags : (R.only p).tagsFor k = R.tagsFor k :=
    congrArg sorted (valuesOf_part (p := fun k : Key => p k.1) hk)
  rw [getObject, hrow, htags, getObject]

/-- The parents in the part. -/
theorem getParents_only (hk : p k.1 = true) : (R.only p).getParents k = R.getParents k :=
  congrArg sorted (valuesOf_part (p := fun k : Key => p k.1) hk)

/-- The labels of a tenant of the part. -/
theorem labelsForTenant_only (htenant : p tenant = true) :
    (R.only p).labelsForTenant tenant = R.labelsForTenant tenant :=
  congrArg (List.map ObjectRow.label)
    (filter_tenant ObjectRow.tenant R.objects htenant (fun _ h => beq_iff_eq.mp h))

/-- The tombstones of a tenant of the part. -/
theorem tombstonesForTenant_only (htenant : p tenant = true) :
    (R.only p).tombstonesForTenant tenant = R.tombstonesForTenant tenant :=
  congrArg (List.map _) (filter_tenant (fun t => t.1.1) R.tombstones htenant
    (fun _ h => beq_iff_eq.mp h))

/-- The listing of a tenant of the part. -/
theorem listObjects_only (htenant : p tenant = true) (tags : List String) :
    (R.only p).listObjects tenant tags = R.listObjects tenant tags := by
  have htags : (R.only p).tags.filter (fun t => t.1.1 == tenant) =
      R.tags.filter (fun t => t.1.1 == tenant) :=
    filter_tenant (fun t => t.1.1) R.tags htenant (fun _ h => beq_iff_eq.mp h)
  have hany (row : ObjectRow) (hrow : row.tenant = tenant) :
      (R.only p).tags.any (fun t => t.1 == row.key && tags.contains t.2) =
        R.tags.any (fun t => t.1 == row.key && tags.contains t.2) := by
    rw [Registry.only, List.any_filter]
    congr 1
    funext t
    by_cases ht : t.1 = row.key
    · simp [ht, ObjectRow.key, hrow, htenant]
    · simp [ht]
  have hselect : (R.only p).selectObjects tenant tags = R.selectObjects tenant tags := by
    rw [selectObjects, selectObjects, ← filter_tenant ObjectRow.tenant R.objects htenant
      (fun row h => by simpa using (Bool.and_eq_true_iff.mp h).1)]
    refine List.filter_congr (fun row _ => ?_)
    by_cases hrow : row.tenant = tenant
    · rw [hany row hrow]
    · rw [beq_eq_false_iff_ne.mpr hrow, Bool.false_and, Bool.false_and]
  simp only [listObjects, hselect, htags]

end Registry

end

section

variable [Engines] {p : String → Bool} {L : Lakehouse} {R : Registry} {tenant : String} {c : Call}

/-- Calls do not bring an identity back. -/
theorem nextUuid_lakehouseAfter (L : Lakehouse) (c : Call) :
    L.nextUuid ≤ (lakehouseAfter L c).nextUuid := by
  cases c with
  | createNamespace ns | ensureSchema ns => rw [lakehouseAfter, Lakehouse.nextUuid_addNamespace]
  | createTable k schema => exact Nat.le_succ _
  | overwrite handle rows | append handle rows =>
    simp only [lakehouseAfter]
    split <;> exact le_rfl
  | createTableAs replace k sql =>
    simp only [lakehouseAfter, Lakehouse.createTableAs]
    split
    · exact le_rfl
    · exact Nat.le_succ _
  | _ => exact le_rfl

/-- A call about a tenant of the part does to the part what it does to the catalog. -/
theorem only_lakehouseAfter (hc : c.tenant? = some tenant) (htenant : p tenant = true)
    (hselect : ∀ sql, Engines.select L sql = Engines.select (L.only p) sql) :
    (lakehouseAfter L c).only p = lakehouseAfter (L.only p) c := by
  have hkey {k : Key} (hk : some k.1 = some tenant) : p k.1 = true := by
    rw [Option.some.inj hk, htenant]
  cases c with
  | createNamespace ns | ensureSchema ns =>
    obtain rfl : ns = tenant := Option.some.inj hc
    exact Lakehouse.only_addNamespace htenant
  | createTable k schema =>
    have hset := Lakehouse.only_setTable (L := L) (hkey hc)
      ⟨L.nextUuid, Engines.readBack schema, []⟩
    exact congrArg (fun L' : Lakehouse => { L' with nextUuid := L.nextUuid + 1 }) hset
  | overwrite handle rows | append handle rows =>
    simp only [lakehouseAfter, Lakehouse.table_only (hkey hc)]
    split
    · exact Lakehouse.only_setTable (hkey hc) _
    · rfl
  | dropTable k =>
    simp only [lakehouseAfter, Lakehouse.only,
      part_remove Prod.fst (fun k : Key => p k.1)]
  | createTableAs replace k sql =>
    simp only [lakehouseAfter, Lakehouse.createTableAs, Lakehouse.table_only (hkey hc),
      ← hselect]
    split
    · exact Lakehouse.only_setTable (hkey hc) _
    · have hset := Lakehouse.only_setTable (L := L) (hkey hc)
        ⟨L.nextUuid, (Engines.select L sql).1, (Engines.select L sql).2⟩
      exact congrArg (fun L' : Lakehouse => { L' with nextUuid := L.nextUuid + 1 }) hset
  | _ => rfl

/-- A call about another tenant leaves the part of the catalog alone. -/
theorem only_lakehouseAfter_of_not (hc : c.tenant? = some tenant) (htenant : p tenant = false) :
    ((lakehouseAfter L c).only p).tables = (L.only p).tables ∧
      ((lakehouseAfter L c).only p).namespaces = (L.only p).namespaces := by
  have hkey {k : Key} (hk : some k.1 = some tenant) : p k.1 = false := by
    rw [Option.some.inj hk, htenant]
  have hboth {L' : Lakehouse} (n : ℕ) (h : L'.only p = L.only p) :
      (({ L' with nextUuid := n } : Lakehouse).only p).tables = (L.only p).tables ∧
        (({ L' with nextUuid := n } : Lakehouse).only p).namespaces = (L.only p).namespaces := by
    have htables := congrArg Lakehouse.tables h
    have hnamespaces := congrArg Lakehouse.namespaces h
    exact ⟨htables, hnamespaces⟩
  cases c with
  | createNamespace ns | ensureSchema ns =>
    obtain rfl : ns = tenant := Option.some.inj hc
    exact hboth _ (Lakehouse.only_addNamespace_of_not htenant)
  | createTable k schema =>
    exact hboth (L.nextUuid + 1) (Lakehouse.only_setTable_of_not (hkey hc) _)
  | overwrite handle rows | append handle rows =>
    simp only [lakehouseAfter]
    split
    · exact hboth _ (Lakehouse.only_setTable_of_not (hkey hc) _)
    · exact ⟨rfl, rfl⟩
  | dropTable k =>
    have hpart := part_remove_of_not Prod.fst (fun k : Key => p k.1) L.tables (hkey hc)
    exact ⟨hpart, rfl⟩
  | createTableAs replace k sql =>
    simp only [lakehouseAfter, Lakehouse.createTableAs]
    split
    · exact hboth _ (Lakehouse.only_setTable_of_not (hkey hc) _)
    · exact hboth (L.nextUuid + 1) (Lakehouse.only_setTable_of_not (hkey hc) _)
  | _ => exact ⟨rfl, rfl⟩

omit [Engines] in
/-- A call about a tenant of the part does to the part what it does to the registry. -/
theorem only_registryAfter (hc : c.tenant? = some tenant) (htenant : p tenant = true) :
    (registryAfter R c).only p = registryAfter (R.only p) c := by
  have hkey {k : Key} (hk : some k.1 = some tenant) : p k.1 = true := by
    rw [Option.some.inj hk, htenant]
  cases c with
  | recordObject row tags parents =>
    have hobjects := part_upsert ObjectRow.key (fun k : Key => p k.1) R.objects row (fun _ => row)
      (hkey (k := row.key) hc) (fun _ _ => rfl)
    have htags := part_replaceValues (fun k : Key => p k.1) R.tags
      (Registry.fromKeys tags) (hkey (k := row.key) hc)
    have hlineage (values : List String) := part_replaceValues (fun k : Key => p k.1)
      R.lineage values (hkey (k := row.key) hc)
    cases parents with
    | none =>
      exact congrArg₂ (fun objects tags => { R.only p with objects := objects, tags := tags })
        hobjects htags
    | some parents =>
      simp only [registryAfter, Registry.recordObject, Registry.upsertObject, Registry.setLineage,
        Registry.only, ← hlineage, ← htags]
      exact congrArg (fun objects => Registry.mk objects _ _ _) hobjects
  | deleteObject k =>
    have hobjects := part_remove ObjectRow.key (fun k : Key => p k.1) R.objects k
    have hpart {β : Type} (rows : List (Key × β)) :=
      part_remove Prod.fst (fun k : Key => p k.1) rows k
    simp only [registryAfter, Registry.deleteObject, Registry.only, hpart]
    exact congrArg (fun objects => Registry.mk objects _ _ _) hobjects
  | bumpTombstone k =>
    have hpart := part_upsert Prod.fst (fun k : Key => p k.1) R.tombstones (k, 1)
      (fun t => (t.1, t.2 + 1)) (hkey hc) (fun _ h => h)
    exact congrArg (fun tombstones => { R.only p with tombstones := tombstones }) hpart
  | clearTombstone k =>
    have hpart := part_remove Prod.fst (fun k : Key => p k.1) R.tombstones k
    exact congrArg (fun tombstones => { R.only p with tombstones := tombstones }) hpart
  | _ => rfl

omit [Engines] in
/-- A call about another tenant leaves the part of the registry alone. -/
theorem only_registryAfter_of_not (hc : c.tenant? = some tenant) (htenant : p tenant = false) :
    (registryAfter R c).only p = R.only p := by
  have hkey {k : Key} (hk : some k.1 = some tenant) : p k.1 = false := by
    rw [Option.some.inj hk, htenant]
  cases c with
  | recordObject row tags parents =>
    have hobjects := part_upsert_of_not ObjectRow.key (fun k : Key => p k.1) R.objects row
      (fun _ => row) (hkey (k := row.key) hc) (fun _ _ => rfl)
    have htags := part_replaceValues_of_not (fun k : Key => p k.1) R.tags
      (Registry.fromKeys tags) (hkey (k := row.key) hc)
    have hlineage (values : List String) := part_replaceValues_of_not (fun k : Key => p k.1)
      R.lineage values (hkey (k := row.key) hc)
    cases parents with
    | none =>
      exact congrArg₂ (fun objects tags => { R.only p with objects := objects, tags := tags })
        hobjects htags
    | some parents =>
      simp only [registryAfter, Registry.recordObject, Registry.upsertObject, Registry.setLineage,
        Registry.only, hlineage, htags]
      exact congrArg (fun objects => Registry.mk objects _ _ _) hobjects
  | deleteObject k =>
    have hobjects := part_remove_of_not ObjectRow.key (fun k : Key => p k.1) R.objects (hkey hc)
    have hpart {β : Type} (rows : List (Key × β)) := part_remove_of_not Prod.fst
      (fun k : Key => p k.1) rows (hkey hc)
    simp only [registryAfter, Registry.deleteObject, Registry.only, hpart]
    exact congrArg (fun objects => Registry.mk objects _ _ _) hobjects
  | bumpTombstone k =>
    have hpart := part_upsert_of_not Prod.fst (fun k : Key => p k.1) R.tombstones (k, 1)
      (fun t => (t.1, t.2 + 1)) (hkey hc) (fun _ h => h)
    exact congrArg (fun tombstones => { R.only p with tombstones := tombstones }) hpart
  | clearTombstone k =>
    have hpart := part_remove_of_not Prod.fst (fun k : Key => p k.1) R.tombstones (hkey hc)
    exact congrArg (fun tombstones => { R.only p with tombstones := tombstones }) hpart
  | _ => rfl

end

end Memcove
