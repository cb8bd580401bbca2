import Memcove.Drift.Sweeps

/-!
# Sweeps of different tenants

What a sweep of one namespace does depends on that namespace alone, and reaches no other one. So a
run of the reconciler leaves a tenant's objects as they would be if the catalog and the registry
held anything else of the other tenants, and if any calls about these failed.
-/

namespace Memcove

open Programs KeyedTables

/-- The tenant that a call is about. -/
def Call.tenant? : Call → Option String
  | .createNamespace ns | .ensureSchema ns | .listTables ns => some ns
  | .tableExists k | .createTable k _ | .loadTable k | .dropTable k | .createTableAs _ k _
  | .countRows k | .deleteObject k | .getObject k | .getParents k | .bumpTombstone k
  | .clearTombstone k => some k.1
  | .overwrite handle _ | .append handle _ => some handle.key.1
  | .probeColumns tenant _ | .labelsForTenant tenant | .tombstonesForTenant tenant => some tenant
  | .recordObject row _ _ => some row.tenant
  | .listNamespaces | .scratch _ | .openRegistry => none

/-- Two stores with the same objects of a tenant: which tables there are, the rows, the tags, the
parents and the tombstones. -/
structure SameFor (tenant : String) (s t : Stores) : Prop where
  listed : tenant ∈ s.lakehouse.namespaces ↔ tenant ∈ t.lakehouse.namespaces
  table : ∀ l, (s.lakehouse.table (tenant, l)).isSome = (t.lakehouse.table (tenant, l)).isSome
  row : ∀ l, s.registry.row (tenant, l) = t.registry.row (tenant, l)
  tags : ∀ l, s.registry.tagsFor (tenant, l) = t.registry.tagsFor (tenant, l)
  parents : ∀ l, s.registry.getParents (tenant, l) = t.registry.getParents (tenant, l)
  tombstone : ∀ l, s.registry.tombstone (tenant, l) = t.registry.tombstone (tenant, l)

/-- The stores have the same objects as themselves. -/
theorem SameFor.refl (tenant : String) (s : Stores) : SameFor tenant s s :=
  ⟨Iff.rfl, fun _ => rfl, fun _ => rfl, fun _ => rfl, fun _ => rfl, fun _ => rfl⟩

section

variable {tenant : String} {s t u : Stores}

/-- The order of the stores makes no difference. -/
theorem SameFor.symm (h : SameFor tenant s t) : SameFor tenant t s :=
  ⟨h.listed.symm, fun l => (h.table l).symm, fun l => (h.row l).symm, fun l => (h.tags l).symm,
    fun l => (h.parents l).symm, fun l => (h.tombstone l).symm⟩

/-- Stores in between. -/
theorem SameFor.trans (h : SameFor tenant s t) (h' : SameFor tenant t u) : SameFor tenant s u :=
  ⟨h.listed.trans h'.listed, fun l => (h.table l).trans (h'.table l),
    fun l => (h.row l).trans (h'.row l), fun l => (h.tags l).trans (h'.tags l),
    fun l => (h.parents l).trans (h'.parents l), fun l => (h.tombstone l).trans (h'.tombstone l)⟩

end

/-- A call that changes a table is about its tenant. -/
theorem tenant_of_changes {c : Call} {k : Key} (hc : c.changes = some k) :
    c.tenant? = some k.1 := by
  cases c <;> first | exact congrArg (Option.map Prod.fst) hc | cases hc

section

variable [Engines]

/-- A call about another tenant leaves a tenant's tables as they are. -/
theorem lakehouse_of_ne {tenant tenant' : String} (hne : tenant' ≠ tenant) {c : Call}
    (hc : c.tenant? = some tenant') (L : Lakehouse) :
    (tenant ∈ L.namespaces ↔ tenant ∈ (lakehouseAfter L c).namespaces) ∧
      ∀ l, L.table (tenant, l) = (lakehouseAfter L c).table (tenant, l) := by
  constructor
  · cases c with
    | createNamespace ns | ensureSchema ns =>
      obtain rfl : ns = tenant' := Option.some.inj hc
      rw [lakehouseAfter, Lakehouse.mem_addNamespace, or_iff_right hne.symm]
    | createTable | overwrite | append | dropTable | createTableAs =>
      rw [namespaces_lakehouseAfter rfl]
    | _ => exact Iff.rfl
  · intro l
    refine (table_lakehouseAfter fun hchanges => hne ?_).symm
    exact Option.some.inj (hc.symm.trans (tenant_of_changes hchanges))

omit [Engines] in
/-- A call about another tenant leaves a tenant's rows, tags, parents and tombstones as they are. -/
theorem registry_of_ne {tenant tenant' : String} (hne : tenant' ≠ tenant) {c : Call}
    (hc : c.tenant? = some tenant') (R : Registry) (l : String) :
    R.row (tenant, l) = (registryAfter R c).row (tenant, l) ∧
      R.tagsFor (tenant, l) = (registryAfter R c).tagsFor (tenant, l) ∧
      R.getParents (tenant, l) = (registryAfter R c).getParents (tenant, l) ∧
      R.tombstone (tenant, l) = (registryAfter R c).tombstone (tenant, l) := by
  have hkey {k : Key} (hk : k.1 = tenant') : (tenant, l) ≠ k := by
    rintro rfl
    exact hne hk.symm
  cases c with
  | recordObject row tags parents =>
    have hk : (tenant, l) ≠ row.key := hkey (Option.some.inj hc)
    refine ⟨(Registry.row_recordObject_of_ne hk).symm,
      (Registry.tagsFor_recordObject_of_ne hk).symm, ?_, ?_⟩
    · rw [Registry.getParents, registryAfter, Registry.getParents,
        Registry.lineage_recordObject_of_ne hk]
    · rw [Registry.tombstone, registryAfter, Registry.tombstone, Registry.tombstones_recordObject]
  | deleteObject k =>
    have hk : (tenant, l) ≠ k := hkey (Option.some.inj hc)
    refine ⟨(Registry.row_deleteObject_of_ne hk).symm,
      (Registry.tagsFor_deleteObject_of_ne hk).symm, ?_, rfl⟩
    rw [Registry.getParents, registryAfter, Registry.getParents,
      Registry.lineage_deleteObject_of_ne hk]
  | bumpTombstone k =>
    have hk : (tenant, l) ≠ k := hkey (Option.some.inj hc)
    exact ⟨rfl, rfl, rfl, (Registry.tombstone_bumpTombstone_of_ne hk).symm⟩
  | clearTombstone k =>
    have hk : (tenant, l) ≠ k := hkey (Option.some.inj hc)
    exact ⟨rfl, rfl, rfl, (Registry.tombstone_clearTombstone_of_ne hk).symm⟩
  | _ => exact ⟨rfl, rfl, rfl, rfl⟩

/-- A call about another tenant, whatever it answers, leaves a tenant's objects as they are. -/
theorem sameFor_storesAfter {tenant tenant' : String} (hne : tenant' ≠ tenant) {c : Call}
    (hc : c.tenant? = some tenant') (s : Stores) (r : Except PyError (Answer c)) :
    SameFor tenant s (storesAfter s ⟨c, r⟩) := by
  cases r with
  | error e => exact .refl tenant s
  | ok a =>
    obtain ⟨hlisted, htable⟩ := lakehouse_of_ne hne hc s.lakehouse
    have hregistry := registry_of_ne hne hc s.registry
    exact ⟨hlisted, fun l => congrArg Option.isSome (htable l), fun l => (hregistry l).1,
      fun l => (hregistry l).2.1, fun l => (hregistry l).2.2.1, fun l => (hregistry l).2.2.2⟩

end

/-- The sweep of a namespace makes calls about it alone. -/
theorem sweepNamespace_tenant (settings : Settings) (tenant : String) :
    Only (fun c => c.tenant? = some tenant) (sweepNamespace settings tenant) :=
  sweepNamespace_only rfl rfl rfl (fun _ => applyPlan_only (fun _ _ => rfl) (fun _ => rfl)
    (fun _ => rfl) (fun _ => rfl) (fun _ => rfl))

/-- Sorting the same labels. -/
theorem sortedSet_congr {labels labels' : List String} (h : ∀ l, l ∈ labels ↔ l ∈ labels') :
    sortedSet labels = sortedSet labels' := by
  have hperm : labels.dedup.Perm labels'.dedup :=
    (List.perm_ext_iff_of_nodup labels.nodup_dedup labels'.nodup_dedup).mpr (by simpa using h)
  have hsame : (sortedSet labels).Perm (sortedSet labels') :=
    (List.mergeSort_perm _ _).trans (hperm.trans (List.mergeSort_perm _ _).symm)
  exact hsame.eq_of_pairwise' (List.pairwise_mergeSort' (· ≤ ·) _)
    (List.pairwise_mergeSort' (· ≤ ·) _)

/-- The plan of a namespace depends on which labels are listed and registered and on what the
tombstones count. -/
theorem planNamespace_congr (settings : Settings) {live live' reg reg' : List String}
    {counts counts' : List (String × Int)} (hlive : ∀ l, l ∈ live ↔ l ∈ live')
    (hreg : ∀ l, l ∈ reg ↔ l ∈ reg') (hcounts : ∀ l, dictGet counts l = dictGet counts' l) :
    planNamespace settings live reg counts = planNamespace settings live' reg' counts' := by
  have hmarked (l : String) : l ∈ counts.map (·.1) ↔ l ∈ counts'.map (·.1) := by
    rw [← dictGet_ne_none, ← dictGet_ne_none, hcounts]
  have hbackfill : sortedSet (live.filter (fun l => l ∉ reg)) =
      sortedSet (live'.filter (fun l => l ∉ reg')) :=
    sortedSet_congr (by simp [hlive, hreg])
  have habsent : sortedSet (reg.filter (fun l => l ∉ live)) =
      sortedSet (reg'.filter (fun l => l ∉ live')) :=
    sortedSet_congr (by simp [hlive, hreg])
  have hreappeared : sortedSet (reg.filter (fun l => l ∈ live ∧ l ∈ counts.map (·.1))) =
      sortedSet (reg'.filter (fun l => l ∈ live' ∧ l ∈ counts'.map (·.1))) :=
    sortedSet_congr (by simp only [List.mem_filter, hlive, hreg, hmarked, implies_true])
  have hclearable : sortedSet (reg.filter (fun l => l ∈ live ∧ l ∈ counts.map (·.1)) ++
        (counts.map (·.1)).filter (fun l => l ∉ reg ∧ l ∉ live)) =
      sortedSet (reg'.filter (fun l => l ∈ live' ∧ l ∈ counts'.map (·.1)) ++
        (counts'.map (·.1)).filter (fun l => l ∉ reg' ∧ l ∉ live')) :=
    sortedSet_congr (by
      simp only [List.mem_append, List.mem_filter, hlive, hreg, hmarked, implies_true])
  have hempty {labels labels' : List String} (h : ∀ l, l ∈ labels ↔ l ∈ labels') :
      labels = [] ↔ labels' = [] := by
    simp only [List.eq_nil_iff_forall_not_mem, h]
  have hskipped : (reg ≠ [] ∧ live = []) ↔ (reg' ≠ [] ∧ live' = []) :=
    and_congr (not_congr (hempty hreg)) (hempty hlive)
  have hbound : capBound settings reg = capBound settings reg' := by
    rw [capBound, capBound, ((List.perm_ext_iff_of_nodup reg.nodup_dedup reg'.nodup_dedup).mpr
      (by simpa using hreg)).length_eq]
  have hdue (l : String) : absentSweeps counts l = absentSweeps counts' l := by
    rw [absentSweeps, hcounts, absentSweeps]
  unfold planNamespace
  simp only [hbackfill, habsent, hreappeared, hclearable, hskipped, hbound, hdue]

section

variable {settings : Settings} {tenant : String} {plan plan' : NamespacePlan} {s t : Stores}

/-- The plan that a sweep makes of a tenant's objects. -/
def PlanOf (settings : Settings) (s : Stores) (tenant : String) (plan : NamespacePlan) : Prop :=
  ∃ live reg counts, (∀ l, l ∈ live ↔ (s.lakehouse.table (tenant, l)).isSome = true) ∧
    (∀ l, l ∈ reg ↔ (s.registry.row (tenant, l)).isSome = true) ∧
    (∀ l, dictGet counts l = s.registry.tombstone (tenant, l)) ∧
    plan = planNamespace settings live reg counts

/-- A sweep makes that plan, when no tombstone is there twice. -/
theorem Planned.planOf (h : Planned settings s tenant plan)
    (hkeys : (s.registry.tombstones.map Prod.fst).Nodup) : PlanOf settings s tenant plan := by
  obtain ⟨live, reg, counts, hlive, hreg, hcounts, hplan⟩ := h
  exact ⟨live, reg, counts, hlive, mem_registered hreg,
    Registry.dictGet_tombstonesForTenant hkeys hcounts, hplan⟩

/-- The lists of such a plan repeat nothing. -/
theorem PlanOf.nodups (h : PlanOf settings s tenant plan) : plan.Nodups := by
  obtain ⟨_, _, _, _, _, _, rfl⟩ := h
  exact planNamespace_nodups _ _ _

/-- The same objects lead to the same plan. -/
theorem PlanOf.eq_of_sameFor (h : PlanOf settings s tenant plan)
    (h' : PlanOf settings t tenant plan') (hsame : SameFor tenant s t) : plan = plan' := by
  obtain ⟨live, reg, counts, hlive, hreg, hcounts, rfl⟩ := h
  obtain ⟨live', reg', counts', hlive', hreg', hcounts', rfl⟩ := h'
  refine planNamespace_congr settings (fun l => ?_) (fun l => ?_) (fun l => ?_)
  · rw [hlive, hlive', hsame.table]
  · rw [hreg, hreg', hsame.row]
  · rw [hcounts, hcounts', hsame.tombstone]

/-- The tags after a plan. -/
theorem tagsFor_applied {R : Registry} (hplan : plan.Nodups) (k : Key) :
    (R.applied settings tenant plan).tagsFor k =
      if k.1 = tenant ∧ k.2 ∈ plan.delete then []
      else if k.1 = tenant ∧ k.2 ∈ plan.backfill then [] else R.tagsFor k := by
  have hnone : Registry.sorted (Registry.fromKeys []) = [] := List.mergeSort_nil
  have hbackfilled : (R.backfilled settings tenant plan.backfill).tagsFor k =
      if k.1 = tenant ∧ k.2 ∈ plan.backfill then [] else R.tagsFor k :=
    foldl_at (g := Registry.tagsFor) (v := fun _ _ => [])
      (fun _ _ => Registry.tagsFor_recordObject_self.trans hnone)
      (fun _ _ _ hk => Registry.tagsFor_recordObject_of_ne hk) hplan.backfill k
  have hkept {R : Registry} : ((R.cleared tenant plan.tombstoneClear).bumped tenant
      plan.tombstoneBump).tagsFor = R.tagsFor := by
    refine (foldl_frame (f := fun R l => R.bumpTombstone (tenant, l)) (g := Registry.tagsFor)
      (fun _ _ => rfl)).trans ?_
    exact foldl_frame (f := fun R l => R.clearTombstone (tenant, l)) (g := Registry.tagsFor)
      (fun _ _ => rfl)
  rw [← hbackfilled, ← hkept (R := R.backfilled settings tenant plan.backfill)]
  exact foldl_at (f := fun R l => (R.deleteObject (tenant, l)).clearTombstone (tenant, l))
    (g := Registry.tagsFor) (v := fun _ _ => []) (fun _ _ => Registry.tagsFor_deleteObject_self)
    (fun _ _ _ hk => Registry.tagsFor_deleteObject_of_ne hk) hplan.delete k

/-- The parents after a plan. -/
theorem getParents_applied {R : Registry} (hplan : plan.Nodups) (k : Key) :
    (R.applied settings tenant plan).getParents k =
      if k.1 = tenant ∧ k.2 ∈ plan.delete then [] else R.getParents k := by
  have hkept {R : Registry} : (((R.backfilled settings tenant plan.backfill).cleared tenant
      plan.tombstoneClear).bumped tenant plan.tombstoneBump).getParents = R.getParents := by
    refine (foldl_frame (f := fun R l => R.bumpTombstone (tenant, l)) (g := Registry.getParents)
      (fun _ _ => rfl)).trans ?_
    refine (foldl_frame (f := fun R l => R.clearTombstone (tenant, l)) (g := Registry.getParents)
      (fun _ _ => rfl)).trans ?_
    exact foldl_frame (g := Registry.getParents) (fun _ _ => rfl)
  rw [← hkept (R := R)]
  refine foldl_at (f := fun R l => (R.deleteObject (tenant, l)).clearTombstone (tenant, l))
    (g := Registry.getParents) (v := fun _ _ => []) (fun R l => ?_) (fun R l k hk => ?_)
    hplan.delete k
  · exact Registry.getParents_eq_nil.mpr Registry.lineage_deleteObject_self
  · exact congrArg Registry.sorted (Registry.lineage_deleteObject_of_ne hk)

/-- The same plan leaves the same objects. -/
theorem SameFor.applied (h : SameFor tenant s t) (hplan : plan.Nodups) :
    SameFor tenant ⟨s.lakehouse, s.registry.applied settings tenant plan⟩
      ⟨t.lakehouse, t.registry.applied settings tenant plan⟩ := by
  refine ⟨h.listed, h.table, fun l => ?_, fun l => ?_, fun l => ?_, fun l => ?_⟩
  · rw [row_applied hplan, row_applied hplan, h.row]
  · rw [tagsFor_applied hplan, tagsFor_applied hplan, h.tags]
  · rw [getParents_applied hplan, getParents_applied hplan, h.parents]
  · rw [tombstone_applied hplan, tombstone_applied hplan, h.tombstone]

end

/-- No namespace and no tombstone is there twice: the keys of the catalog and of the registry. -/
structure Stores.Distinct (s : Stores) : Prop where
  namespaces : s.lakehouse.namespaces.Nodup
  tombstones : (s.registry.tombstones.map Prod.fst).Nodup

/-- Every call repeats no tombstone. -/
theorem nodup_storesAfter [Engines] {s : Stores}
    (hkeys : (s.registry.tombstones.map Prod.fst).Nodup) (event : CallEvent) :
    ((storesAfter s event).registry.tombstones.map Prod.fst).Nodup := by
  obtain ⟨c, r⟩ := event
  cases r with
  | error e => exact hkeys
  | ok a =>
    cases c with
    | recordObject row tags parents =>
      change ((s.registry.recordObject row tags parents).tombstones.map Prod.fst).Nodup
      rwa [Registry.tombstones_recordObject]
    | bumpTombstone k => exact Registry.nodup_bumpTombstone hkeys
    | clearTombstone k => exact Registry.nodup_clearTombstone hkeys
    | _ => exact hkeys

section

variable [Engines] {settings : Settings} {failed : Set String} {tenant : String} {s t : Stores}

/-- The stores while the reconciler runs: they answer truthfully, except that any call about one of
some tenants may fail. -/
def failing (failed : Set String) : Machine Call Answer PyError Stores where
  possible s event :=
    match event with
    | ⟨c, .ok a⟩ => Returns s c a ∧ Truthful s c a
    | ⟨c, .error _⟩ => (∃ tenant ∈ failed, c.tenant? = some tenant) ∨ ∀ a, ¬ Returns s c a
  effect := storesAfter

/-- The sweep of another namespace, whatever fails in it. -/
theorem sweepNamespace_other {tenant' : String} (hne : tenant' ≠ tenant)
    (hkeys : (s.registry.tombstones.map Prod.fst).Nodup) :
    EndsIn (failing failed) s (sweepNamespace settings tenant') (fun u _ =>
      SameFor tenant s u ∧ (u.registry.tombstones.map Prod.fst).Nodup) := by
  refine (sweepNamespace_tenant settings tenant').keeps
    (I := fun u => SameFor tenant s u ∧ (u.registry.tombstones.map Prod.fst).Nodup)
    (fun c hc u r hu => ?_) ⟨.refl tenant s, hkeys⟩
  exact ⟨hu.1.trans (sameFor_storesAfter hne hc u r), nodup_storesAfter hu.2 _⟩

variable [Backend]

/-- The sweep of a namespace in which nothing fails. -/
theorem sweepNamespace_own (htenant : tenant ∉ failed) :
    EndsIn (failing failed) s (sweepNamespace settings tenant) (fun u r => r = .ok ⟨⟩ ∧
      ∃ plan, Planned settings s tenant plan ∧
        u = ⟨s.lakehouse, s.registry.applied settings tenant plan⟩) := by
  have heffect : (failing failed).effect = (serial {}).effect := rfl
  refine .of_completes (fun r u hrun => (sweepNamespace_applied settings s tenant).completes ?_)
  refine hrun.of_only heffect (fun c hc t r hpossible => ?_)
    (sweepNamespace_tenant settings tenant)
  cases r with
  | ok a =>
    refine ⟨hpossible.1, hpossible.2, ?_⟩
    cases c <;> first | rfl | trivial
  | error e =>
    rcases hpossible with ⟨tenant', hfailed, hc'⟩ | hno
    · cases hc.symm.trans hc'
      exact absurd hfailed htenant
    · exact Or.inr hno

/-- The objects of the tenant after its sweep. -/
def AfterSweep (settings : Settings) (s : Stores) (tenant : String) (u : Stores) : Prop :=
  ∃ plan, PlanOf settings s tenant plan ∧
    SameFor tenant ⟨s.lakehouse, s.registry.applied settings tenant plan⟩ u

omit [Engines] [Backend] in
/-- The sweep of the same objects. -/
theorem afterSweep_of_planned {plan : NamespacePlan} (hsame : SameFor tenant s t)
    (hkeys : (t.registry.tombstones.map Prod.fst).Nodup) (hplan : Planned settings t tenant plan) :
    AfterSweep settings s tenant ⟨t.lakehouse, t.registry.applied settings tenant plan⟩ := by
  refine ⟨plan, ?_, hsame.applied hplan.nodups⟩
  obtain ⟨live, reg, counts, hlive, hreg, hcounts, hplan⟩ := hplan.planOf hkeys
  refine ⟨live, reg, counts, fun l => ?_, fun l => ?_, fun l => ?_, hplan⟩
  · rw [hlive, hsame.table]
  · rw [hreg, hsame.row]
  · rw [hcounts, hsame.tombstone]

omit [Engines] [Backend] in
/-- The sweeps of the same objects leave the same objects. -/
theorem AfterSweep.sameFor {u v : Stores} (hsame : SameFor tenant s t)
    (hu : AfterSweep settings s tenant u) (hv : AfterSweep settings t tenant v) :
    SameFor tenant u v := by
  obtain ⟨plan, hplan, hu⟩ := hu
  obtain ⟨plan', hplan', hv⟩ := hv
  obtain rfl := hplan.eq_of_sameFor hplan' hsame
  exact hu.symm.trans ((hsame.applied hplan.nodups).trans hv)

/-- The objects of the tenant while the namespaces `rest` are still to be swept. -/
structure Reconciled (settings : Settings) (s : Stores) (tenant : String) (rest : List String)
    (u : Stores) : Prop where
  unswept : tenant ∈ rest ∨ tenant ∉ s.lakehouse.namespaces → SameFor tenant s u
  swept : tenant ∉ rest → tenant ∈ s.lakehouse.namespaces → AfterSweep settings s tenant u
  tombstones : (u.registry.tombstones.map Prod.fst).Nodup

/-- The sweep of the next namespace. -/
theorem Reconciled.step (htenant : tenant ∉ failed) {ns : String} {rest : List String}
    (hnodup : (ns :: rest).Nodup) (hknown : ns ∈ s.lakehouse.namespaces)
    (h : Reconciled settings s tenant (ns :: rest) t) :
    EndsIn (failing failed) t (sweepNamespace settings ns) (fun u _ =>
      Reconciled settings s tenant rest u) := by
  by_cases hns : ns = tenant
  · subst hns
    have hsame := h.unswept (Or.inl List.mem_cons_self)
    refine (sweepNamespace_own htenant).mono (fun u r hu => ?_)
    obtain ⟨_, plan, hplan, rfl⟩ := hu
    refine ⟨fun hcond => ?_, fun _ _ => ?_, nodup_applied h.tombstones⟩
    · exact absurd hcond (not_or.mpr ⟨(List.nodup_cons.mp hnodup).1, not_not.mpr hknown⟩)
    · exact afterSweep_of_planned hsame h.tombstones hplan
  · have hmem : tenant ∈ ns :: rest ↔ tenant ∈ rest := by simp [Ne.symm hns]
    refine (sweepNamespace_other hns h.tombstones).mono (fun u r hu => ?_)
    refine ⟨fun hcond => ?_, fun hrest hlisted => ?_, hu.2⟩
    · rw [← hmem] at hcond
      exact (h.unswept hcond).trans hu.1
    · rw [← hmem] at hrest
      obtain ⟨plan, hplan, hsame⟩ := h.swept hrest hlisted
      exact ⟨plan, hplan, hsame.trans hu.1⟩

omit [Backend] in
/-- The namespaces are listed, each once. -/
theorem listNamespaces_failing : EndsIn (failing failed) s listNamespaces (fun u r => u = s ∧
    ∃ namespaces, r = .ok namespaces ∧ namespaces.Perm s.lakehouse.namespaces) := by
  refine EndsIn.perform_bind (fun found hfound => .pure ⟨rfl, _, rfl, ?_⟩) (fun e he => ?_)
  · have hperm : found.Perm (s.lakehouse.namespaces.map (fun ns => [ns])) := hfound.2
    refine (hperm.filterMap _).trans (List.Perm.of_eq ?_)
    rw [List.filterMap_map]
    exact List.filterMap_some
  · rcases he with ⟨_, _, hnone⟩ | hno
    · cases hnone
    · exact absurd trivial (hno [])

/-- A run of the reconciler leaves a tenant's objects as they are after its own sweep, when only
calls about other tenants fail. -/
theorem reconcile_reconciled (htenant : tenant ∉ failed) (hs : s.Distinct) :
    EndsIn (failing failed) s (reconcile settings) (fun u _ =>
      Reconciled settings s tenant [] u) := by
  refine listNamespaces_failing.bind (fun u namespaces hu => ?_) (fun _ _ hu => ?_)
  · obtain ⟨rfl, namespaces', hok, hperm⟩ := hu
    cases hok
    have hinit : Reconciled settings u tenant namespaces u := by
      refine ⟨fun _ => .refl tenant u, fun hrest hlisted => ?_, hs.tombstones⟩
      exact absurd (hperm.mem_iff.mpr hlisted) hrest
    let inv (rest : List String) (v : Stores) : Prop :=
      rest.Nodup ∧ (∀ ns ∈ rest, ns ∈ u.lakehouse.namespaces) ∧
        Reconciled settings u tenant rest v
    refine (EndsIn.each (I := inv) (fun ns rest v hv => ?_) ?_).mono (fun v r hv => hv.2.2.2)
    · obtain ⟨hnodup, hknown, hv⟩ := hv
      have hrest : ∀ ns ∈ rest, ns ∈ u.lakehouse.namespaces :=
        fun ns hns => hknown ns (List.mem_cons_of_mem _ hns)
      have hsweep := hv.step htenant hnodup (hknown ns List.mem_cons_self)
      exact hsweep.tryCatch (fun _ _ hw => ⟨rfl, (List.nodup_cons.mp hnodup).2, hrest, hw⟩)
        (fun _ _ hw => .pure ⟨rfl, (List.nodup_cons.mp hnodup).2, hrest, hw⟩)
    · exact ⟨hperm.nodup_iff.mpr hs.namespaces, fun ns hns => hperm.mem_iff.mp hns, hinit⟩
  · obtain ⟨_, _, he, _⟩ := hu
    cases he

/-- Two runs of the reconciler from stores with the same objects of a tenant leave the same objects
of it, whatever the stores hold of other tenants, in whatever order the namespaces are listed, and
whichever calls about other tenants fail. -/
theorem reconcile_isolated (htenant : tenant ∉ failed) (hs : s.Distinct) (ht : t.Distinct)
    (hsame : SameFor tenant s t) {r r' : Except PyError PUnit} {u v : Stores}
    (hrun : Completes (failing failed) s (reconcile settings) r u)
    (hrun' : Completes (failing failed) t (reconcile settings) r' v) : SameFor tenant u v := by
  have hu := (reconcile_reconciled htenant hs).completes hrun
  have hv := (reconcile_reconciled htenant ht).completes hrun'
  by_cases hlisted : tenant ∈ s.lakehouse.namespaces
  · exact (hu.swept List.not_mem_nil hlisted).sameFor hsame
      (hv.swept List.not_mem_nil (hsame.listed.mp hlisted))
  · have hlisted' : tenant ∉ t.lakehouse.namespaces := fun h => hlisted (hsame.listed.mpr h)
    exact (hu.unswept (Or.inr hlisted)).symm.trans
      (hsame.trans (hv.unswept (Or.inr hlisted')))

end

section

variable [Engines]

/-- The answers of the stores, where every call about one tenant fails. -/
def failingAnswer (tenant : String) (s : Stores) (c : Call) : Except PyError (Answer c) :=
  if c.tenant? = some tenant then .error (externalError "unreachable") else answerOf s c

/-- These answers are possible. -/
theorem failingAnswer_possible (tenant : String) (s : Stores) (c : Call) :
    (failing {tenant}).possible s ⟨c, failingAnswer tenant s c⟩ := by
  unfold failingAnswer
  split
  · rename_i hc
    exact Or.inl ⟨tenant, rfl, hc⟩
  · let _ : Backend := externalBackend
    have hserial : (serial {}).possible s ⟨c, serialAnswer {} s c⟩ :=
      serialAnswer_possible (by rintro ⟨⟩) s c
    have hsame : serialAnswer {} s c = answerOf s c := by cases c <;> rfl
    rw [hsame] at hserial
    cases hanswer : answerOf s c with
    | ok a =>
      rw [hanswer] at hserial
      exact ⟨hserial.1, hserial.2.1⟩
    | error e =>
      rw [hanswer] at hserial
      refine hserial.elim (fun hfails => ?_) Or.inr
      cases c with
      | scratch => cases hanswer
      | probeColumns | createTableAs => exact (Bool.false_ne_true hfails).elim
      | recordObject => exact (Bool.false_ne_true hfails.1).elim
      | _ => exact hfails.elim

end

section

attribute [local instance] textEngines externalBackend

/-- A tenant with a table without a row, and a row without a table. -/
def globexRegistry : Registry where
  objects := [reconciledRow {} "t_globex" "old"]
  tombstones := [(("t_globex", "old"), 2)]

/-- The stores of that tenant alone. -/
def globexStores : Stores where
  lakehouse := {
    namespaces := ["t_globex"]
    tables := [(("t_globex", "events"), ⟨0, [("v", .string true)], [[.str "a"]]⟩)] }
  registry := globexRegistry

/-- The stores next to another tenant. -/
def sharedStores : Stores where
  lakehouse := {
    namespaces := ["t_acme", "t_globex"]
    tables := [(("t_acme", "notes"), ⟨1, [("v", .string true)], []⟩),
      (("t_globex", "events"), ⟨0, [("v", .string true)], [[.str "a"]]⟩)] }
  registry := { globexRegistry with
    objects := reconciledRow {} "t_acme" "lost" :: globexRegistry.objects
    tags := [(("t_acme", "lost"), "x")] }

/-- The other tenant is swept first, and every call about it fails. -/
theorem globex_isolated : SameFor "t_globex"
    ((reconcile {}).execute (failing {"t_acme"}) (failingAnswer "t_acme") globexStores).2
    ((reconcile {}).execute (failing {"t_acme"}) (failingAnswer "t_acme") sharedStores).2 := by
  have htenant : "t_globex" ∉ ({"t_acme"} : Set String) := by
    rw [Set.mem_singleton_iff]
    decide
  have hsame : SameFor "t_globex" globexStores sharedStores := by
    refine ⟨by decide, fun l => ?_, fun l => ?_, fun l => ?_, fun l => rfl, fun l => rfl⟩
    · simp [globexStores, sharedStores, Lakehouse.table, lookup]
    · simp [globexStores, sharedStores, globexRegistry, Registry.row, lookup, reconciledRow,
        ObjectRow.key]
    · simp [globexStores, sharedStores, globexRegistry, Registry.tagsFor, valuesOf]
  exact reconcile_isolated htenant ⟨by decide, by decide⟩ ⟨by decide, by decide⟩ hsame
    (Program.execute_completes (failingAnswer_possible "t_acme"))
    (Program.execute_completes (failingAnswer_possible "t_acme"))

end

end Memcove
