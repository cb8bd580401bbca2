import Memcove.Drift.Sweeps
import Mathlib.Data.Finset.Card
import Mathlib.Tactic.Linarith

/-!
# The reconciler converges

While the tables of a namespace stay the same and nothing else runs, every sweep brings its rows and
its tombstones closer to them. The argument is about sets of labels: what is absent is counted once
per sweep until it is deleted, and a deletion never pushes a later sweep over the cap.
-/

namespace Memcove

open Programs

/-- A namespace as a sweep sees it: the labels with a table, those with a row, and what the
tombstones count. -/
@[ext] structure NamespaceView (α : Type) where
  live : Finset α
  registered : Finset α
  counts : α → Option Int

namespace NamespaceView

variable {α : Type} [DecidableEq α] {v : NamespaceView α} {N m n : Int} {r : ℚ} {l : α}

/-- The rows without tables. -/
def absent (v : NamespaceView α) : Finset α := v.registered \ v.live

/-- The absent sweeps that were counted for a label. -/
def count (v : NamespaceView α) (l : α) : Int := (v.counts l).getD 0

/-- An absent label that the sweep deletes. -/
def Due (N : Int) (v : NamespaceView α) (l : α) : Prop := N ≤ v.count l + 1

instance (N : Int) (v : NamespaceView α) : DecidablePred (v.Due N) :=
  fun l => inferInstanceAs (Decidable (N ≤ v.count l + 1))

/-- The cap refuses to delete what is absent. -/
def Capped (m : Int) (r : ℚ) (v : NamespaceView α) : Prop :=
  m < v.absent.card ∧ r * v.registered.card < v.absent.card

/-- The namespace after a sweep that is neither skipped nor capped. The tombstone of a label that
was not registered before the sweep and has a table stays for the next sweep. -/
def sweep (N : Int) (v : NamespaceView α) : NamespaceView α where
  live := v.live
  registered := v.live ∪ v.absent.filter (fun l => ¬ v.Due N l)
  counts l :=
    if l ∈ v.absent then if v.Due N l then none else some (v.count l + 1)
    else if l ∈ v.live ∧ l ∉ v.registered then v.counts l
    else none

/-- What is still absent after a sweep. -/
theorem absent_sweep : (v.sweep N).absent = v.absent.filter (fun l => ¬ v.Due N l) := by
  ext l
  simp only [absent, sweep, Finset.mem_sdiff, Finset.mem_union, Finset.mem_filter]
  tauto

/-- A ratio of one or more never caps. -/
theorem not_capped_of_one_le (hr : 1 ≤ r) : ¬ v.Capped m r := by
  rintro ⟨_, hcap⟩
  have hle : (v.absent.card : ℚ) ≤ v.registered.card := by
    exact_mod_cast Finset.card_le_card Finset.sdiff_subset
  nlinarith [Nat.cast_nonneg (α := ℚ) v.registered.card]

/-- What is deleted makes what is absent smaller by as much as what is registered. -/
theorem card_sweep : (v.registered.card : ℚ) - v.absent.card ≤
    (v.sweep N).registered.card - (v.sweep N).absent.card := by
  have hbefore : v.registered.card = (v.registered ∩ v.live).card + v.absent.card :=
    (Finset.card_inter_add_card_sdiff v.registered v.live).symm
  have hafter : (v.sweep N).registered.card = v.live.card + (v.sweep N).absent.card := by
    have hdisjoint : Disjoint v.live (v.absent.filter (fun l => ¬ v.Due N l)) :=
      Finset.disjoint_sdiff.mono_right (Finset.filter_subset _ _)
    rw [absent_sweep]
    exact Finset.card_union_of_disjoint hdisjoint
  have hinter : (v.registered ∩ v.live).card ≤ v.live.card :=
    Finset.card_le_card Finset.inter_subset_right
  rw [hbefore, hafter]
  push_cast
  have hinter' : ((v.registered ∩ v.live).card : ℚ) ≤ v.live.card := by exact_mod_cast hinter
  linarith

/-- A sweep never makes the next one capped. -/
theorem not_capped_sweep (hr : 0 ≤ r) (hv : ¬ v.Capped m r) : ¬ (v.sweep N).Capped m r := by
  by_cases hone : 1 ≤ r
  · exact not_capped_of_one_le hone
  · rintro ⟨hmin, hcap⟩
    have hfewer : (v.sweep N).absent.card ≤ v.absent.card := by
      rw [absent_sweep]
      exact Finset.card_filter_le _ _
    have hmin' : m < v.absent.card := lt_of_lt_of_le hmin (by exact_mod_cast hfewer)
    refine hv ⟨hmin', ?_⟩
    -- with d deletions, r (|R| - d) is at least r |R| - d, because r is below one
    have hcard := card_sweep (v := v) (N := N)
    have hfewer' : ((v.sweep N).absent.card : ℚ) ≤ v.absent.card := by exact_mod_cast hfewer
    nlinarith

/-- What is known of a namespace after `n` sweeps. -/
structure Converging (N m : Int) (r : ℚ) (n : ℕ) (v : NamespaceView α) : Prop where
  uncapped : ¬ v.Capped m r
  counted : ∀ l ∈ v.absent, (n : Int) ≤ v.count l
  registered : 1 ≤ n → v.live ⊆ v.registered
  marked : 1 ≤ n → ∀ l, v.counts l ≠ none → l ∈ v.registered
  unmarked : 2 ≤ n → ∀ l ∈ v.live, v.counts l = none
  present : N ≤ n → v.absent = ∅

/-- One more sweep. -/
theorem Converging.sweep {n : ℕ} (hr : 0 ≤ r) (hv : v.Converging N m r n) :
    (v.sweep N).Converging N m r (n + 1) where
  uncapped := not_capped_sweep hr hv.uncapped
  counted l hl := by
    rw [absent_sweep, Finset.mem_filter] at hl
    have hcount := hv.counted l hl.1
    simp only [count, NamespaceView.sweep, if_pos hl.1, if_neg hl.2, Option.getD_some]
    push_cast
    exact Int.add_le_add_right hcount 1
  registered _ := Finset.subset_union_left
  marked _ l hl := by
    simp only [NamespaceView.sweep] at hl ⊢
    by_cases habsent : l ∈ v.absent
    · rw [if_pos habsent] at hl
      by_cases hdue : v.Due N l
      · simp [hdue] at hl
      · exact Finset.mem_union_right _ (Finset.mem_filter.mpr ⟨habsent, hdue⟩)
    · rw [if_neg habsent] at hl
      by_cases hlive : l ∈ v.live ∧ l ∉ v.registered
      · exact Finset.mem_union_left _ hlive.1
      · simp [hlive] at hl
  unmarked hn l hl := by
    have hregistered := hv.registered (by omega) hl
    have habsent : l ∉ v.absent := fun h => (Finset.mem_sdiff.mp h).2 hl
    simp only [NamespaceView.sweep, if_neg habsent]
    exact if_neg (fun h => h.2 hregistered)
  present hn := by
    rw [absent_sweep, Finset.filter_eq_empty_iff]
    intro l hl hdue
    have hcount := hv.counted l hl
    apply hdue
    unfold Due
    push_cast at hn
    omega

/-- Counting sweeps from a later one loses nothing. -/
theorem Converging.mono {n n' : ℕ} (hv : v.Converging N m r n) (hn : n' ≤ n) :
    v.Converging N m r n' where
  uncapped := hv.uncapped
  counted l hl := le_trans (by exact_mod_cast hn) (hv.counted l hl)
  registered h := hv.registered (h.trans hn)
  marked h := hv.marked (h.trans hn)
  unmarked h := hv.unmarked (h.trans hn)
  present h := hv.present (h.trans (by exact_mod_cast hn))

/-- After enough sweeps exactly the live labels are registered, without tombstones. -/
theorem Converging.settled {n : ℕ} (hv : v.Converging N m r n) (hN : N ≤ n) (hn : 2 ≤ n) :
    v.registered = v.live ∧ ∀ l, v.counts l = none := by
  have hpresent : v.registered ⊆ v.live := Finset.sdiff_eq_empty_iff_subset.mp (hv.present hN)
  refine ⟨hpresent.antisymm (hv.registered (by omega)), fun l => ?_⟩
  by_contra hmarked
  exact hmarked (hv.unmarked hn l (hpresent (hv.marked (by omega) l hmarked)))

end NamespaceView

section

variable {settings : Settings} {live reg : List String} {counts : List (String × Int)}
  {v : NamespaceView String} {plan : NamespacePlan}

/-- The namespace that `plan_namespace` is given. -/
def planned (live reg : List String) (counts : List (String × Int)) : NamespaceView String where
  live := live.toFinset
  registered := reg.toFinset
  counts := dictGet counts

/-- What a plan contains that is neither skipped nor capped. -/
structure Uncapped (settings : Settings) (v : NamespaceView String) (plan : NamespacePlan) :
    Prop where
  skipped : plan.skipped = false
  capped : plan.capped = false
  backfill : ∀ l, l ∈ plan.backfill ↔ l ∈ v.live ∧ l ∉ v.registered
  delete : ∀ l, l ∈ plan.delete ↔ l ∈ v.absent ∧ v.Due settings.reconcileMinAbsentSweeps l
  bump : ∀ l, l ∈ plan.tombstoneBump ↔
    l ∈ v.absent ∧ ¬ v.Due settings.reconcileMinAbsentSweeps l
  clear : ∀ l, l ∈ plan.tombstoneClear ↔
    v.counts l ≠ none ∧ (l ∈ v.registered ↔ l ∈ v.live)

/-- The cap as the sets say it. -/
theorem capped_iff : (settings.reconcileDeletionCapMin <
    (sortedSet (reg.filter (fun l => l ∉ live))).length ∧
      capBound settings reg < (sortedSet (reg.filter (fun l => l ∉ live))).length) ↔
    (planned live reg counts).Capped settings.reconcileDeletionCapMin
      settings.reconcileDeletionCapRatio := by
  have hlength : (sortedSet (reg.filter (fun l => l ∉ live))).length =
      (planned live reg counts).absent.card := by
    rw [← List.toFinset_card_of_nodup (nodup_sortedSet _)]
    congr 1
    ext l
    simp [NamespaceView.absent, planned]
  rw [capBound, ← List.card_toFinset, hlength]
  rfl

/-- The plan of a namespace with tables is capped exactly as the sets say, and otherwise contains
what the sets say. -/
theorem planNamespace_contents (settings : Settings) (hlive : live ≠ []) :
    ((planned live reg counts).Capped settings.reconcileDeletionCapMin
      settings.reconcileDeletionCapRatio →
        (planNamespace settings live reg counts).capped = true) ∧
    (¬ (planned live reg counts).Capped settings.reconcileDeletionCapMin
      settings.reconcileDeletionCapRatio →
        Uncapped settings (planned live reg counts) (planNamespace settings live reg counts)) := by
  unfold planNamespace
  rw [if_neg (fun hskip => hlive hskip.2)]
  refine ⟨fun hcap => ?_, fun hcap => ?_⟩
  · rw [if_pos (capped_iff.mpr hcap)]
  · rw [if_neg (mt capped_iff.mp hcap)]
    have habsent (l : String) : l ∈ sortedSet (reg.filter (fun l => l ∉ live)) ↔
        l ∈ (planned live reg counts).absent := by
      simp [NamespaceView.absent, planned]
    have hdue (l : String) : settings.reconcileMinAbsentSweeps ≤ absentSweeps counts l + 1 ↔
        (planned live reg counts).Due settings.reconcileMinAbsentSweeps l := Iff.rfl
    refine ⟨rfl, rfl, fun l => ?_, fun l => ?_, fun l => ?_, fun l => ?_⟩
    · simp [planned]
    · rw [List.mem_filter, habsent, decide_eq_true_eq, hdue]
    · rw [List.mem_filter, habsent, Bool.not_eq_true', decide_eq_false_iff_not, hdue]
    · simp only [mem_sortedSet, List.mem_append, List.mem_filter, decide_eq_true_eq, planned,
        List.mem_toFinset, dictGet_ne_none]
      tauto

/-- Where exactly the live labels are registered, without tombstones, there is nothing to do. -/
theorem Uncapped.eq_empty (h : Uncapped settings v plan) (hregistered : v.registered = v.live)
    (hcounts : ∀ l, v.counts l = none) : plan = {} := by
  obtain ⟨backfill, delete, bump, clear, skipped, capped⟩ := plan
  have habsent (l : String) : l ∉ v.absent := by
    rw [NamespaceView.absent, hregistered]
    simp
  have hbackfill : backfill = [] := List.eq_nil_iff_forall_not_mem.mpr (fun l hl => by
    have hl := (h.backfill l).mp hl
    exact hl.2 (hregistered ▸ hl.1))
  have hdelete : delete = [] := List.eq_nil_iff_forall_not_mem.mpr
    (fun l hl => habsent l ((h.delete l).mp hl).1)
  have hbump : bump = [] := List.eq_nil_iff_forall_not_mem.mpr
    (fun l hl => habsent l ((h.bump l).mp hl).1)
  have hclear : clear = [] := List.eq_nil_iff_forall_not_mem.mpr
    (fun l hl => ((h.clear l).mp hl).1 (hcounts l))
  have hskipped : skipped = false := h.skipped
  have hcapped : capped = false := h.capped
  rw [hbackfill, hdelete, hbump, hclear, hskipped, hcapped]

end

/-- The namespace of a tenant. -/
def Stores.view (s : Stores) (tenant : String) : NamespaceView String where
  live := ((s.lakehouse.tables.filter (fun t => t.1.1 == tenant)).map (fun t => t.1.2)).toFinset
  registered := (s.registry.labelsForTenant tenant).toFinset
  counts l := s.registry.tombstone (tenant, l)

section

variable {s : Stores} {tenant l : String}

/-- The live labels are those with a table. -/
@[simp] theorem Stores.mem_live_view : l ∈ (s.view tenant).live ↔
    (s.lakehouse.table (tenant, l)).isSome = true := by
  rw [Lakehouse.table, Option.isSome_map, KeyedTables.lookup_isSome_iff]
  simp [Stores.view]

/-- The registered labels are those with a row. -/
@[simp] theorem Stores.mem_registered_view : l ∈ (s.view tenant).registered ↔
    (s.registry.row (tenant, l)).isSome = true := by
  rw [Stores.view, List.mem_toFinset, Registry.mem_labelsForTenant]

/-- The same view from the same tables, rows and tombstones. -/
theorem Stores.view_eq {v : NamespaceView String}
    (hlive : ∀ l, l ∈ v.live ↔ (s.lakehouse.table (tenant, l)).isSome = true)
    (hregistered : ∀ l, l ∈ v.registered ↔ (s.registry.row (tenant, l)).isSome = true)
    (hcounts : ∀ l, v.counts l = s.registry.tombstone (tenant, l)) : s.view tenant = v := by
  ext l n
  · simp [hlive]
  · simp [hregistered]
  · rw [hcounts]
    rfl

variable {settings : Settings} {plan : NamespacePlan}

/-- A sweep plans from the namespace as it is. -/
theorem Planned.contents (h : Planned settings s tenant plan)
    (hkeys : (s.registry.tombstones.map Prod.fst).Nodup)
    (hlive : (s.view tenant).live.Nonempty) :
    ((s.view tenant).Capped settings.reconcileDeletionCapMin settings.reconcileDeletionCapRatio →
      plan.capped = true) ∧
    (¬ (s.view tenant).Capped settings.reconcileDeletionCapMin
      settings.reconcileDeletionCapRatio → Uncapped settings (s.view tenant) plan) := by
  obtain ⟨live, reg, counts, hlisted, hreg, hcounts, rfl⟩ := h
  have hview : s.view tenant = planned live reg counts := by
    refine Stores.view_eq (fun l => ?_) (fun l => ?_) (fun l => ?_)
    · rw [planned, List.mem_toFinset, hlisted]
    · rw [planned, List.mem_toFinset, mem_registered hreg]
    · exact Registry.dictGet_tombstonesForTenant hkeys hcounts l
  obtain ⟨l, hl⟩ := hlive
  rw [hview]
  exact planNamespace_contents settings
    (List.ne_nil_of_mem ((hlisted l).mpr (Stores.mem_live_view.mp hl)))

/-- An uncapped plan takes the namespace to that of the next sweep. -/
theorem Uncapped.view_applied (h : Uncapped settings (s.view tenant) plan) (hplan : plan.Nodups) :
    Stores.view ⟨s.lakehouse, s.registry.applied settings tenant plan⟩ tenant =
      (s.view tenant).sweep settings.reconcileMinAbsentSweeps := by
  have habsent (l : String) : l ∈ (s.view tenant).absent ↔
      l ∈ (s.view tenant).registered ∧ l ∉ (s.view tenant).live := Finset.mem_sdiff
  refine Stores.view_eq (fun l => Stores.mem_live_view) (fun l => ?_) (fun l => ?_)
  · dsimp only
    rw [row_applied hplan]
    simp only [true_and, h.delete, h.backfill, NamespaceView.sweep, Finset.mem_union,
      Finset.mem_filter, habsent]
    have hrow : l ∈ (s.view tenant).registered ↔ (s.registry.row (tenant, l)).isSome = true :=
      Stores.mem_registered_view
    split
    · rename_i hl
      simp [hl]
    · split
      · rename_i hl
        simp [hl]
      · rw [← hrow]
        tauto
  · dsimp only
    rw [tombstone_applied hplan]
    simp only [true_and, h.delete, h.bump, h.clear, NamespaceView.sweep]
    by_cases hl : l ∈ (s.view tenant).absent
    · -- an absent label is not cleared, so its tombstone is bumped or deleted
      have hkept : ¬ (l ∈ (s.view tenant).registered ↔ l ∈ (s.view tenant).live) := by
        have hl := (habsent l).mp hl
        tauto
      simp only [hl, hkept, and_false, if_false, true_and, if_true]
      split
      · rfl
      · rfl
    · simp only [hl, false_and, if_false]
      rw [habsent] at hl
      by_cases hmarked : (s.view tenant).counts l = none
      · have hnone : s.registry.tombstone (tenant, l) = none := hmarked
        simp [hmarked, hnone]
      · simp only [ne_eq, hmarked, not_false_eq_true, true_and]
        by_cases hnew : l ∈ (s.view tenant).live ∧ l ∉ (s.view tenant).registered
        · rw [if_pos hnew, if_neg (by tauto)]
          rfl
        · rw [if_neg hnew, if_pos (by tauto)]

/-- Sweeping another namespace changes nothing. -/
theorem view_applied_of_ne {tenant' : String} (hne : tenant ≠ tenant') (hplan : plan.Nodups) :
    Stores.view ⟨s.lakehouse, s.registry.applied settings tenant' plan⟩ tenant =
      s.view tenant := by
  refine Stores.view_eq (fun l => Stores.mem_live_view) (fun l => ?_) (fun l => ?_)
  · dsimp only
    rw [Stores.mem_registered_view, row_applied hplan]
    simp [hne]
  · dsimp only
    rw [tombstone_applied hplan]
    simp [hne, Stores.view]

variable [Engines] [Backend] {n : ℕ}

/-- The namespace of the tenant after `n` sweeps. -/
structure SweptTimes (settings : Settings) (L : Lakehouse) (tenant : String) (n : ℕ) (t : Stores) :
    Prop where
  lakehouse : t.lakehouse = L
  keys : (t.registry.tombstones.map Prod.fst).Nodup
  live : (t.view tenant).live.Nonempty
  converging : (t.view tenant).Converging settings.reconcileMinAbsentSweeps
    settings.reconcileDeletionCapMin settings.reconcileDeletionCapRatio n

omit [Engines] [Backend] in
/-- The next plan is neither skipped nor capped. -/
theorem SweptTimes.uncapped {L : Lakehouse} (h : SweptTimes settings L tenant n s)
    (hplan : Planned settings s tenant plan) : Uncapped settings (s.view tenant) plan :=
  (hplan.contents h.keys h.live).2 h.converging.uncapped

omit [Engines] [Backend] in
/-- Counting fewer sweeps. -/
theorem SweptTimes.mono {L : Lakehouse} {n' : ℕ} (h : SweptTimes settings L tenant n s)
    (hn : n' ≤ n) : SweptTimes settings L tenant n' s where
  lakehouse := h.lakehouse
  keys := h.keys
  live := h.live
  converging := h.converging.mono hn

/-- The sweep of any namespace; that of the tenant counts. -/
theorem SweptTimes.afterNamespace {L : Lakehouse}
    (hratio : 0 ≤ settings.reconcileDeletionCapRatio) (h : SweptTimes settings L tenant n s)
    (ns : String) :
    EndsIn (serial {}) s (sweepNamespace settings ns) (fun u r => r = .ok ⟨⟩ ∧
      SweptTimes settings L tenant (if ns = tenant then n + 1 else n) u) := by
  refine (sweepNamespace_applied settings s ns).mono (fun u r hu => ?_)
  obtain ⟨hok, plan, hplan, rfl⟩ := hu
  have hkeys : ((s.registry.applied settings ns plan).tombstones.map Prod.fst).Nodup :=
    nodup_applied h.keys
  by_cases hns : ns = tenant
  · subst hns
    have hview := (h.uncapped hplan).view_applied hplan.nodups
    rw [if_pos rfl]
    refine ⟨hok, h.lakehouse, hkeys, ?_, ?_⟩
    · rw [hview]
      exact h.live
    · rw [hview]
      exact h.converging.sweep hratio
  · have hview : Stores.view ⟨s.lakehouse, s.registry.applied settings ns plan⟩ tenant =
        s.view tenant := view_applied_of_ne (Ne.symm hns) hplan.nodups
    rw [if_neg hns]
    refine ⟨hok, h.lakehouse, hkeys, ?_, ?_⟩
    · rw [hview]
      exact h.live
    · rw [hview]
      exact h.converging

/-- A run of the reconciler is a sweep of the tenant's namespace. -/
theorem SweptTimes.afterReconcile {L : Lakehouse} (hratio : 0 ≤ settings.reconcileDeletionCapRatio)
    (h : SweptTimes settings L tenant n s) (htenant : tenant ∈ s.lakehouse.namespaces) :
    EndsIn (serial {}) s (reconcile settings) (fun u r => r = .ok ⟨⟩ ∧
      SweptTimes settings L tenant (n + 1) u) := by
  refine listNamespaces_ends.bind (fun u namespaces hu => ?_) (fun _ _ hu => nomatch hu.2)
  obtain ⟨rfl, namespaces', hnamespaces', hall⟩ := hu
  cases hnamespaces'
  -- as long as the tenant's namespace is still to come, nothing is counted
  let inv (rest : List String) (t : Stores) : Prop :=
    SweptTimes settings L tenant (if tenant ∈ rest then n else n + 1) t
  refine (EndsIn.each (I := inv) (fun ns rest t ht => ?_) ?_).mono (fun v r hv => ?_)
  · have hsweep : EndsIn (serial {}) t (sweepNamespace settings ns) _ := ht.afterNamespace hratio ns
    refine hsweep.tryCatch (fun v _ hv => ⟨hv.1, ?_⟩) (fun _ _ hv => nomatch hv.1)
    refine hv.2.mono ?_
    by_cases hns : ns = tenant
    · subst hns
      simp only [List.mem_cons_self, if_true]
      split
      · exact Nat.le_succ n
      · exact le_rfl
    · simp only [hns, if_false, List.mem_cons, Ne.symm hns, false_or]
      exact le_rfl
  · exact h.mono (by rw [if_pos (hall tenant htenant)])
  · refine ⟨hv.1, ?_⟩
    have hend : SweptTimes settings L tenant (if tenant ∈ ([] : List String) then n else n + 1) v :=
      hv.2
    simpa using hend

/-- Sweeps one after the other, of any namespaces or of all, with the number of times that the
namespace of the tenant was swept. -/
inductive Swept (settings : Settings) (tenant : String) : ℕ → Stores → Stores → Prop
  | start {s : Stores} : Swept settings tenant 0 s s
  | one {n : ℕ} {s t u : Stores} {r : Except PyError PUnit} (ns : String) :
      Swept settings tenant n s t → Completes (serial {}) t (sweepNamespace settings ns) r u →
      Swept settings tenant (if ns = tenant then n + 1 else n) s u
  | all {n : ℕ} {s t u : Stores} {r : Except PyError PUnit} :
      Swept settings tenant n s t → tenant ∈ t.lakehouse.namespaces →
      Completes (serial {}) t (reconcile settings) r u → Swept settings tenant (n + 1) s u

/-- Every sweep counts. -/
theorem SweptTimes.swept {L : Lakehouse} (hratio : 0 ≤ settings.reconcileDeletionCapRatio)
    {t : Stores} (h : SweptTimes settings L tenant 0 s) (hrun : Swept settings tenant n s t) :
    SweptTimes settings L tenant n t := by
  induction hrun with
  | start => exact h
  | one ns _ hsweep ih => exact (((ih h).afterNamespace hratio ns).completes hsweep).2
  | all _ htenant hsweep ih => exact (((ih h).afterReconcile hratio htenant).completes hsweep).2

omit [Engines] [Backend] in
/-- Before the first sweep. -/
theorem sweptTimes_zero (hN : 1 ≤ settings.reconcileMinAbsentSweeps)
    (hkeys : (s.registry.tombstones.map Prod.fst).Nodup)
    (hlive : ∃ l, (s.lakehouse.table (tenant, l)).isSome = true)
    (hcounts : ∀ l n, s.registry.tombstone (tenant, l) = some n → 0 ≤ n)
    (hfirst : Planned settings s tenant plan) (hcapped : plan.capped = false) :
    SweptTimes settings s.lakehouse tenant 0 s := by
  obtain ⟨l, hl⟩ := hlive
  have hnonempty : (s.view tenant).live.Nonempty := ⟨l, Stores.mem_live_view.mpr hl⟩
  refine ⟨rfl, hkeys, hnonempty, fun hcap => ?_, fun l _ => ?_, ?_, ?_, ?_, ?_⟩
  · rw [(hfirst.contents hkeys hnonempty).1 hcap] at hcapped
    cases hcapped
  · cases hcount : s.registry.tombstone (tenant, l) with
    | none =>
      have hzero : (s.view tenant).count l = 0 := by
        simp [NamespaceView.count, Stores.view, hcount]
      rw [hzero]
      rfl
    | some k =>
      have hk : (s.view tenant).count l = k := by
        simp [NamespaceView.count, Stores.view, hcount]
      rw [hk]
      exact hcounts l k hcount
  · exact fun h => absurd h (by decide)
  · exact fun h => absurd h (by decide)
  · exact fun h => absurd h (by decide)
  · exact fun h => absurd (hN.trans h) (by decide)

end

section

attribute [local instance] textEngines externalBackend

/-- A table without a row, a row without a table, and a tombstone left over. -/
def driftedStores : Stores where
  lakehouse := {
    namespaces := ["t_acme"]
    tables := [(("t_acme", "events"), ⟨0, [("v", .string true)], [[.str "a"]]⟩)] }
  registry := {
    objects := [reconciledRow {} "t_acme" "old"]
    tombstones := [(("t_acme", "events"), 4), (("t_acme", "lost"), 1)] }

end

end Memcove
