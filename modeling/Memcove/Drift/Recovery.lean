import Memcove.Drift.Sweeps

/-!
# A complete sweep

What the reconciler does when it runs alone, without failures, on stores in which every row has a
table: it adds a reconciled row for every table that has none, and changes no other row.
-/

namespace Memcove

open Programs KeyedTables

/-- Rows were only added: reconciled ones, for tables. -/
structure Repaired (s u : Stores) : Prop where
  lakehouse : u.lakehouse = s.lakehouse
  kept : ∀ k row, s.registry.row k = some row → u.registry.row k = some row
  added : ∀ k row, u.registry.row k = some row → s.registry.row k = some row ∨
    row.source = .reconciled ∧ (s.lakehouse.table k).isSome = true

/-- Nothing was added. -/
theorem Repaired.refl (s : Stores) : Repaired s s :=
  ⟨rfl, fun _ _ h => h, fun _ _ h => Or.inl h⟩

/-- One repair after the other. -/
theorem Repaired.trans {s t u : Stores} (h : Repaired s t) (h' : Repaired t u) : Repaired s u where
  lakehouse := h'.lakehouse.trans h.lakehouse
  kept k row hrow := h'.kept k row (h.kept k row hrow)
  added k row hrow := by
    rcases h'.added k row hrow with hrow | ⟨hreconciled, htable⟩
    · exact h.added k row hrow
    · rw [h.lakehouse] at htable
      exact Or.inr ⟨hreconciled, htable⟩

/-- A repair keeps the rows that there are. -/
theorem Repaired.isSome {s u : Stores} (h : Repaired s u) {k : Key}
    (hrow : (s.registry.row k).isSome = true) : (u.registry.row k).isSome = true := by
  obtain ⟨row, hrow⟩ := Option.isSome_iff_exists.mp hrow
  exact Option.isSome_iff_exists.mpr ⟨row, h.kept k row hrow⟩

/-- Every row has a table. -/
def RowsHaveTables (s : Stores) : Prop :=
  ∀ k, (s.registry.row k).isSome = true → (s.lakehouse.table k).isSome = true

/-- A repair keeps a table behind every row. -/
theorem Repaired.rowsHaveTables {s u : Stores} (h : Repaired s u) (hs : RowsHaveTables s) :
    RowsHaveTables u := by
  intro k hrow
  obtain ⟨row, hrow⟩ := Option.isSome_iff_exists.mp hrow
  rw [h.lakehouse]
  rcases h.added k row hrow with hrow | ⟨_, htable⟩
  · exact hs k (Option.isSome_iff_exists.mpr ⟨row, hrow⟩)
  · exact htable

/-- All tables of a tenant have rows. -/
def TenantRepaired (s : Stores) (tenant : String) : Prop :=
  ∀ l, (s.lakehouse.table (tenant, l)).isSome = true →
    (s.registry.row (tenant, l)).isSome = true

/-- A repair keeps the rows of a tenant's tables. -/
theorem TenantRepaired.mono {s u : Stores} {tenant : String} (h : TenantRepaired s tenant)
    (hu : Repaired s u) : TenantRepaired u tenant := by
  intro l htable
  rw [hu.lakehouse] at htable
  exact hu.isSome (h l htable)

variable [Engines] [Backend] {settings : Settings} {s : Stores} {tenant : String}

omit [Engines] [Backend] in
/-- A plan that deletes nothing is a repair, and gives every table of the tenant a row. -/
theorem Planned.repaired {plan : NamespacePlan} (h : Planned settings s tenant plan)
    (hdelete : plan.delete = []) :
    Repaired s ⟨s.lakehouse, s.registry.applied settings tenant plan⟩ ∧
      TenantRepaired ⟨s.lakehouse, s.registry.applied settings tenant plan⟩ tenant := by
  have hrow (k : Key) : (s.registry.applied settings tenant plan).row k =
      if k.1 = tenant ∧ k.2 ∈ plan.backfill then some (reconciledRow settings tenant k.2)
      else s.registry.row k := by
    rw [row_applied h.nodups, hdelete]
    simp
  refine ⟨⟨rfl, fun k row hk => ?_, fun k row hk => ?_⟩, fun l htable => ?_⟩
  · dsimp only
    rw [hrow, if_neg, hk]
    rintro ⟨rfl, hl⟩
    cases (h.mem_backfill.mp hl).2.symm.trans hk
  · dsimp only at hk
    rw [hrow] at hk
    split at hk
    · rename_i hl
      obtain ⟨rfl, hl⟩ := hl
      cases hk
      exact Or.inr ⟨rfl, (h.mem_backfill.mp hl).1⟩
    · exact Or.inl hk
  · dsimp only
    rw [hrow]
    split
    · rfl
    · rename_i hl
      by_contra hnone
      exact hl ⟨rfl, h.mem_backfill.mpr ⟨htable, Option.not_isSome_iff_eq_none.mp hnone⟩⟩

/-- The sweep of a namespace gives every table of the tenant a row. -/
theorem sweepNamespace_ends (hs : RowsHaveTables s) :
    EndsIn (serial {}) s (sweepNamespace settings tenant)
      (fun u r => r = .ok ⟨⟩ ∧ Repaired s u ∧ TenantRepaired u tenant) := by
  refine (sweepNamespace_applied settings s tenant).mono (fun u r hu => ?_)
  obtain ⟨hok, plan, hplanned, rfl⟩ := hu
  have hdelete : plan.delete = [] := by
    apply List.eq_nil_iff_forall_not_mem.mpr
    intro l hl
    obtain ⟨hrow, hnone⟩ := hplanned.mem_delete hl
    have htable := hs _ hrow
    rw [hnone] at htable
    cases htable
  exact ⟨hok, hplanned.repaired hdelete⟩

/-- A complete sweep gives every table a row. -/
theorem reconcile_ends (hs : RowsHaveTables s) (hlisted : Listed s.lakehouse) :
    EndsIn (serial {}) s (reconcile settings) (fun u r => r = .ok ⟨⟩ ∧ Repaired s u ∧
      ∀ k, (u.lakehouse.table k).isSome = true → (u.registry.row k).isSome = true) := by
  refine listNamespaces_ends.bind (fun u namespaces hu => ?_) (fun _ _ hu => nomatch hu.2)
  obtain ⟨rfl, namespaces', hnamespaces', hall⟩ := hu
  cases hnamespaces'
  -- the namespaces that the loop has left behind are repaired
  let inv (rest : List String) (t : Stores) : Prop := Repaired u t ∧
    ∀ ns ∈ u.lakehouse.namespaces, ns ∉ rest → TenantRepaired t ns
  refine (EndsIn.each (I := inv) (fun tenant rest t ht => ?_) ⟨.refl u, fun ns hns hnot =>
    (hnot (hall ns hns)).elim⟩).mono (fun v r hv => ?_)
  · obtain ⟨hrepaired, hdone⟩ := ht
    refine (sweepNamespace_ends (hrepaired.rowsHaveTables hs)).tryCatch (fun v _ hv => ?_)
      (fun _ _ hv => nomatch hv.1)
    refine ⟨hv.1, hrepaired.trans hv.2.1, fun ns hns hnot => ?_⟩
    by_cases htenant : ns = tenant
    · rw [htenant]
      exact hv.2.2
    · have hearlier := hdone ns hns (List.not_mem_cons_of_ne_of_not_mem htenant hnot)
      exact hearlier.mono hv.2.1
  · obtain ⟨hok, hrepaired, hdone⟩ := hv
    refine ⟨hok, hrepaired, fun k htable => ?_⟩
    have hns : k.1 ∈ u.lakehouse.namespaces := by
      apply hlisted
      rwa [← hrepaired.lakehouse]
    exact hdone k.1 hns List.not_mem_nil k.2 htable

/-- Where exactly the tables have rows, describing an object changes nothing. -/
theorem describe_ends [Python] (hs : RowsHaveTables s)
    (hrows : ∀ k, (s.lakehouse.table k).isSome = true → (s.registry.row k).isSome = true)
    (label : String) :
    EndsIn (serial {}) s (describeObject settings tenant label) (fun u _ => u = s) := by
  cases hlabel : validateLabel label with
  | error e =>
    refine EndsIn.lift_bind (fun name hname => ?_) (fun _ _ => rfl)
    exact nomatch hlabel.symm.trans hname
  | ok name =>
    by_cases hrow : (s.registry.row (tenant, name)).isSome = true
    · obtain ⟨row, hsome⟩ := Option.isSome_iff_exists.mp hrow
      exact (describeObject_ends settings hlabel hsome (hs _ hrow)).mono (fun _ _ hu => hu.1)
    · have htable : ¬ (s.lakehouse.table (tenant, name)).isSome = true := fun htable =>
        hrow (hrows _ htable)
      refine EndsIn.lift_bind (fun name' hname => ?_) (fun _ _ => rfl)
      cases hlabel.symm.trans hname
      refine ends_idle_bind trivial ⟨_, rfl⟩ (fun _ => id) (fun found hfound _ => ?_)
      cases found with
      | some found =>
        have hnone := Registry.getObject_eq_none.mpr (Option.not_isSome_iff_eq_none.mp hrow)
        exact nomatch hnone.symm.trans (Eq.symm hfound)
      | none =>
        have hrepair := readRepair_ends (s := s) settings tenant name
        simp only [if_neg htable] at hrepair
        refine hrepair.bind (fun u reg hu => ?_) (fun _ _ hu => hu.1)
        obtain ⟨rfl, hreg⟩ := hu
        cases hreg
        exact .raise rfl

end Memcove
