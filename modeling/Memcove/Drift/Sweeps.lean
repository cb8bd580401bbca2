import Memcove.Drift.Serial

/-!
# The effect of a sweep

What the reconciler does to the registry when it runs alone and no call fails, as a function of its
plan: which labels of the namespace have a row afterwards, and what their tombstones count. It
changes neither a table nor another namespace.
-/

namespace Memcove

open Programs KeyedTables

/-- The registry after a backfill of some labels. -/
def Registry.backfilled (settings : Settings) (tenant : String) (R : Registry)
    (labels : List String) : Registry :=
  labels.foldl (fun R l => R.recordObject (reconciledRow settings tenant l) [] none) R

/-- The registry after some tombstones are cleared. -/
def Registry.cleared (tenant : String) (R : Registry) (labels : List String) : Registry :=
  labels.foldl (fun R l => R.clearTombstone (tenant, l)) R

/-- The registry after some tombstones are bumped. -/
def Registry.bumped (tenant : String) (R : Registry) (labels : List String) : Registry :=
  labels.foldl (fun R l => R.bumpTombstone (tenant, l)) R

/-- The registry after some rows are deleted with their tombstones. -/
def Registry.deleted (tenant : String) (R : Registry) (labels : List String) : Registry :=
  labels.foldl (fun R l => (R.deleteObject (tenant, l)).clearTombstone (tenant, l)) R

/-- The registry after a plan whose deletes are of labels without tables. -/
def Registry.applied (settings : Settings) (tenant : String) (R : Registry)
    (plan : NamespacePlan) : Registry :=
  (((R.backfilled settings tenant plan.backfill).cleared tenant plan.tombstoneClear).bumped tenant
    plan.tombstoneBump).deleted tenant plan.delete

section

variable {tenant : String} {R : Registry} {labels : List String}

/-- A loop over different labels, seen at one key: the label of the key is handled once, by a step
that leaves all other keys alone. -/
theorem foldl_at {β : Type} {f : Registry → String → Registry} {g : Registry → Key → β}
    {v : String → β → β} (hself : ∀ R l, g (f R l) (tenant, l) = v l (g R (tenant, l)))
    (hother : ∀ R l k, k ≠ (tenant, l) → g (f R l) k = g R k) (hnodup : labels.Nodup) (k : Key) :
    g (labels.foldl f R) k = if k.1 = tenant ∧ k.2 ∈ labels then v k.2 (g R k) else g R k := by
  induction labels generalizing R with
  | nil => simp
  | cons l labels ih =>
    obtain ⟨hl, hnodup⟩ := List.nodup_cons.mp hnodup
    rw [List.foldl_cons, ih hnodup]
    by_cases hk : k = (tenant, l)
    · subst hk
      simp only [hl, and_false, if_false, List.mem_cons, true_or, and_self, if_true]
      exact hself R l
    · have hne : k.1 = tenant → k.2 ≠ l := by
        rintro rfl rfl
        exact hk rfl
      rw [hother R l k hk]
      by_cases htenant : k.1 = tenant
      · simp [htenant, hne htenant]
      · simp [htenant]

/-- A loop that leaves a part of the registry alone. -/
theorem foldl_frame {β : Type} {f : Registry → String → Registry} {g : Registry → β}
    (h : ∀ R l, g (f R l) = g R) : g (labels.foldl f R) = g R := by
  induction labels generalizing R with
  | nil => rfl
  | cons l labels ih => rw [List.foldl_cons, ih, h]

/-- Backfilled labels have reconciled rows. -/
theorem row_backfilled {settings : Settings} (hnodup : labels.Nodup) (k : Key) :
    (R.backfilled settings tenant labels).row k =
      if k.1 = tenant ∧ k.2 ∈ labels then some (reconciledRow settings tenant k.2) else R.row k :=
  foldl_at (g := Registry.row) (v := fun l _ => some (reconciledRow settings tenant l))
    (fun _ _ => Registry.row_recordObject_self)
    (fun _ _ _ hk => Registry.row_recordObject_of_ne hk) hnodup k

/-- Deleted labels have none. -/
theorem row_deleted (hnodup : labels.Nodup) (k : Key) :
    (R.deleted tenant labels).row k =
      if k.1 = tenant ∧ k.2 ∈ labels then none else R.row k :=
  foldl_at (f := fun R l => (R.deleteObject (tenant, l)).clearTombstone (tenant, l))
    (g := Registry.row) (v := fun _ _ => none) (fun _ _ => Registry.row_deleteObject_self)
    (fun _ _ _ hk => Registry.row_deleteObject_of_ne hk) hnodup k

/-- Cleared labels have no tombstone. -/
theorem tombstone_cleared (hnodup : labels.Nodup) (k : Key) :
    (R.cleared tenant labels).tombstone k =
      if k.1 = tenant ∧ k.2 ∈ labels then none else R.tombstone k :=
  foldl_at (g := Registry.tombstone) (v := fun _ _ => none)
    (fun _ _ => Registry.tombstone_clearTombstone_self)
    (fun _ _ _ hk => Registry.tombstone_clearTombstone_of_ne hk) hnodup k

/-- Bumped labels have one that counts one sweep more. -/
theorem tombstone_bumped (hnodup : labels.Nodup) (k : Key) :
    (R.bumped tenant labels).tombstone k =
      if k.1 = tenant ∧ k.2 ∈ labels then some ((R.tombstone k).getD 0 + 1) else R.tombstone k :=
  foldl_at (g := Registry.tombstone) (v := fun _ n => some (n.getD 0 + 1))
    (fun _ _ => Registry.tombstone_bumpTombstone_self)
    (fun _ _ _ hk => Registry.tombstone_bumpTombstone_of_ne hk) hnodup k

/-- Deleted labels have none. -/
theorem tombstone_deleted (hnodup : labels.Nodup) (k : Key) :
    (R.deleted tenant labels).tombstone k =
      if k.1 = tenant ∧ k.2 ∈ labels then none else R.tombstone k :=
  foldl_at (f := fun R l => (R.deleteObject (tenant, l)).clearTombstone (tenant, l))
    (g := Registry.tombstone) (v := fun _ _ => none)
    (fun _ _ => Registry.tombstone_clearTombstone_self)
    (fun _ _ _ hk => (Registry.tombstone_clearTombstone_of_ne hk).trans rfl) hnodup k

/-- Tombstones repeat no key after the plan. -/
theorem nodup_applied {settings : Settings} {plan : NamespacePlan}
    (hkeys : (R.tombstones.map Prod.fst).Nodup) :
    ((R.applied settings tenant plan).tombstones.map Prod.fst).Nodup := by
  have hloop {f : Registry → String → Registry} {labels : List String} {R : Registry}
      (hf : ∀ R l, (R.tombstones.map Prod.fst).Nodup → ((f R l).tombstones.map Prod.fst).Nodup)
      (hkeys : (R.tombstones.map Prod.fst).Nodup) :
      ((labels.foldl f R).tombstones.map Prod.fst).Nodup := by
    induction labels generalizing R with
    | nil => exact hkeys
    | cons l labels ih => exact ih (hf R l hkeys)
  refine hloop (fun R l h => ?_) (hloop (fun R l h => ?_) (hloop (fun R l h => ?_)
    (hloop (fun R l h => ?_) hkeys)))
  · exact Registry.nodup_clearTombstone h
  · exact Registry.nodup_bumpTombstone h
  · exact Registry.nodup_clearTombstone h
  · rwa [Registry.tombstones_recordObject]

variable {settings : Settings} {plan : NamespacePlan}

/-- The lists of a plan repeat nothing. -/
structure NamespacePlan.Nodups (plan : NamespacePlan) : Prop where
  backfill : plan.backfill.Nodup
  delete : plan.delete.Nodup
  tombstoneBump : plan.tombstoneBump.Nodup
  tombstoneClear : plan.tombstoneClear.Nodup

/-- The plan of a sweep repeats nothing. -/
theorem planNamespace_nodups (live reg : List String) (tombstones : List (String × Int)) :
    (planNamespace settings live reg tombstones).Nodups := by
  unfold planNamespace
  dsimp only
  split
  · exact ⟨nodup_sortedSet _, List.nodup_nil, List.nodup_nil, nodup_sortedSet _⟩
  · split
    · exact ⟨nodup_sortedSet _, List.nodup_nil, List.nodup_nil, nodup_sortedSet _⟩
    · exact ⟨nodup_sortedSet _, (nodup_sortedSet _).filter _, (nodup_sortedSet _).filter _,
        nodup_sortedSet _⟩

/-- The rows after a plan. -/
theorem row_applied (hplan : plan.Nodups) (k : Key) :
    (R.applied settings tenant plan).row k =
      if k.1 = tenant ∧ k.2 ∈ plan.delete then none
      else if k.1 = tenant ∧ k.2 ∈ plan.backfill then some (reconciledRow settings tenant k.2)
      else R.row k := by
  have hkept {R : Registry} : ((R.cleared tenant plan.tombstoneClear).bumped tenant
      plan.tombstoneBump).row = R.row := by
    refine (foldl_frame (f := fun R l => R.bumpTombstone (tenant, l)) (g := Registry.row)
      (fun _ _ => rfl)).trans ?_
    exact foldl_frame (f := fun R l => R.clearTombstone (tenant, l)) (g := Registry.row)
      (fun _ _ => rfl)
  rw [Registry.applied, row_deleted hplan.delete, hkept, row_backfilled hplan.backfill]

/-- The tombstones after a plan. -/
theorem tombstone_applied (hplan : plan.Nodups) (k : Key) :
    (R.applied settings tenant plan).tombstone k =
      if k.1 = tenant ∧ k.2 ∈ plan.delete then none
      else
        let kept := if k.1 = tenant ∧ k.2 ∈ plan.tombstoneClear then none else R.tombstone k
        if k.1 = tenant ∧ k.2 ∈ plan.tombstoneBump then some (kept.getD 0 + 1) else kept := by
  have hkept : (R.backfilled settings tenant plan.backfill).tombstone k = R.tombstone k := by
    have hframe : (R.backfilled settings tenant plan.backfill).tombstones = R.tombstones :=
      foldl_frame (fun _ _ => Registry.tombstones_recordObject)
    rw [Registry.tombstone, hframe, Registry.tombstone]
  rw [Registry.applied, tombstone_deleted hplan.delete, tombstone_bumped hplan.tombstoneBump,
    tombstone_cleared hplan.tombstoneClear, hkept]

end

variable [Engines] [Backend] {settings : Settings} {s : Stores} {tenant : String}

/-- A plan that a sweep may make of the stores. -/
def Planned (settings : Settings) (s : Stores) (tenant : String) (plan : NamespacePlan) : Prop :=
  ∃ live reg counts, (∀ l, l ∈ live ↔ (s.lakehouse.table (tenant, l)).isSome = true) ∧
    reg.Perm (s.registry.labelsForTenant tenant) ∧
    counts.Perm (s.registry.tombstonesForTenant tenant) ∧
    plan = planNamespace settings live reg counts

omit [Engines] [Backend] in
/-- The registered labels that a sweep reads. -/
theorem mem_registered {reg : List String} (hreg : reg.Perm (s.registry.labelsForTenant tenant))
    (l : String) : l ∈ reg ↔ (s.registry.row (tenant, l)).isSome = true :=
  hreg.mem_iff.trans Registry.mem_labelsForTenant

omit [Engines] [Backend] in
/-- What a sweep plans to backfill are the tables without rows. -/
theorem Planned.mem_backfill {plan : NamespacePlan} (h : Planned settings s tenant plan)
    {l : String} : l ∈ plan.backfill ↔ (s.lakehouse.table (tenant, l)).isSome = true ∧
      s.registry.row (tenant, l) = none := by
  obtain ⟨live, reg, counts, hlive, hreg, _, rfl⟩ := h
  rw [Memcove.mem_backfill, hlive, mem_registered hreg, Option.not_isSome_iff_eq_none]

omit [Engines] [Backend] in
/-- What a sweep plans to delete are rows without tables. -/
theorem Planned.mem_delete {plan : NamespacePlan} (h : Planned settings s tenant plan)
    {l : String} (hl : l ∈ plan.delete) : (s.registry.row (tenant, l)).isSome = true ∧
      s.lakehouse.table (tenant, l) = none := by
  obtain ⟨live, reg, counts, hlive, hreg, _, rfl⟩ := h
  obtain ⟨hregistered, hnot, _⟩ := mem_absent (Or.inl hl)
  rw [hlive, Option.not_isSome_iff_eq_none] at hnot
  exact ⟨(mem_registered hreg l).mp hregistered, hnot⟩

omit [Engines] [Backend] in
/-- The lists of a plan of a sweep repeat nothing. -/
theorem Planned.nodups {plan : NamespacePlan} (h : Planned settings s tenant plan) :
    plan.Nodups := by
  obtain ⟨_, _, _, _, _, _, rfl⟩ := h
  exact planNamespace_nodups _ _ _

/-- A call that can return and may not fail has its effect. -/
theorem ends_effect {c : Call} (hreturns : ∃ a, Returns s c a)
    (hfails : ∀ e, ¬ Faults.fails {} c e) :
    EndsIn (serial {}) s (call c) (fun u r => (∃ a, r = .ok a) ∧
      u = ⟨lakehouseAfter s.lakehouse c, registryAfter s.registry c⟩) := by
  refine (ends_call hreturns hfails).mono (fun u r hu => ?_)
  obtain ⟨⟨a, hr, _⟩, hu⟩ := hu
  exact ⟨⟨a, hr⟩, hu⟩

/-- A loop of programs with a known effect on the registry. -/
theorem each_registry {f : String → Tool PUnit} {effect : Registry → String → Registry}
    {labels : List String}
    (hf : ∀ l ∈ labels, ∀ R, EndsIn (serial {}) ⟨s.lakehouse, R⟩ (f l)
      (fun u r => (∃ a, r = .ok a) ∧ u = ⟨s.lakehouse, effect R l⟩)) {R : Registry} :
    EndsIn (serial {}) ⟨s.lakehouse, R⟩ (Program.each f labels)
      (fun u r => r = .ok ⟨⟩ ∧ u = ⟨s.lakehouse, labels.foldl effect R⟩) := by
  induction labels generalizing R with
  | nil => exact .pure ⟨rfl, rfl⟩
  | cons l labels ih =>
    refine (hf l List.mem_cons_self R).bind (fun u _ hu => ?_)
      (fun _ _ hu => nomatch hu.1.choose_spec)
    obtain ⟨_, rfl⟩ := hu
    exact ih (fun l' hl' => hf l' (List.mem_cons_of_mem l hl'))

/-- Without a table the delete phase deletes the row and its tombstone. -/
theorem deleteAbsent_ends {l : String} (htable : s.lakehouse.table (tenant, l) = none)
    (R : Registry) :
    EndsIn (serial {}) ⟨s.lakehouse, R⟩ (deleteAbsent tenant l) (fun u r => (∃ a, r = .ok a) ∧
      u = ⟨s.lakehouse, (R.deleteObject (tenant, l)).clearTombstone (tenant, l)⟩) := by
  refine ends_tableExists_bind ?_
  rw [htable]
  refine ends_call_bind ⟨⟨⟩, trivial⟩ (fun _ => id) (fun _ _ _ => ?_)
  exact ends_effect ⟨⟨⟩, trivial⟩ (fun _ => id)

/-- Carrying out a plan that deletes labels without tables. -/
theorem applyPlan_applied {plan : NamespacePlan}
    (hdelete : ∀ l ∈ plan.delete, s.lakehouse.table (tenant, l) = none) :
    EndsIn (serial {}) s (applyPlan settings tenant plan) (fun u r => r = .ok ⟨⟩ ∧
      u = ⟨s.lakehouse, s.registry.applied settings tenant plan⟩) := by
  have hbackfill (l : String) (R : Registry) := ends_effect (s := ⟨s.lakehouse, R⟩)
    (c := .recordObject (reconciledRow settings tenant l) [] none) ⟨⟨⟩, trivial⟩
    (fun _ hfail => Bool.false_ne_true hfail.1)
  have hclear (l : String) (R : Registry) := ends_effect (s := ⟨s.lakehouse, R⟩)
    (c := .clearTombstone (tenant, l)) ⟨⟨⟩, trivial⟩ (fun _ => id)
  have hbump (l : String) (R : Registry) := ends_effect (s := ⟨s.lakehouse, R⟩)
    (c := .bumpTombstone (tenant, l)) ⟨⟨⟩, trivial⟩ (fun _ => id)
  refine (each_registry (fun l _ => hbackfill l)).bind (fun u _ hu => ?_)
    (fun _ _ hu => nomatch hu.1)
  obtain ⟨_, rfl⟩ := hu
  refine (each_registry (fun l _ => hclear l)).bind (fun u _ hu => ?_) (fun _ _ hu => nomatch hu.1)
  obtain ⟨_, rfl⟩ := hu
  refine (each_registry (fun l _ => hbump l)).bind (fun u _ hu => ?_) (fun _ _ hu => nomatch hu.1)
  obtain ⟨_, rfl⟩ := hu
  exact each_registry (fun l hl R => deleteAbsent_ends (hdelete l hl) R)

/-- A sweep carries out one of the plans that it may make. -/
theorem sweepNamespace_applied (settings : Settings) (s : Stores) (tenant : String) :
    EndsIn (serial {}) s (sweepNamespace settings tenant) (fun u r => r = .ok ⟨⟩ ∧
      ∃ plan, Planned settings s tenant plan ∧
        u = ⟨s.lakehouse, s.registry.applied settings tenant plan⟩) := by
  refine (listLabels_ends tenant).bind (fun u live hu => ?_) (fun _ _ hu => nomatch hu.2)
  obtain ⟨rfl, live', hlive', hlive⟩ := hu
  cases hlive'
  refine ends_idle_bind trivial ⟨_, List.Perm.refl _⟩ (fun _ => id) (fun reg hreg _ => ?_)
  refine ends_idle_bind trivial ⟨_, List.Perm.refl _⟩ (fun _ => id) (fun counts hcounts _ => ?_)
  have hplanned : Planned settings u tenant (planNamespace settings live reg counts) :=
    ⟨live, reg, counts, hlive, hreg, hcounts, rfl⟩
  exact (applyPlan_applied (fun _ hl => (hplanned.mem_delete hl).2)).mono
    (fun _ _ hv => ⟨hv.1, _, hplanned, hv.2⟩)

end Memcove
