import Memcove.Tools.Objects
import Mathlib.Algebra.Order.Ring.Rat
import Mathlib.Data.List.Dedup

/-!
# The reconciler

`reconciler.py`: the plan for one namespace and its execution. The sweep report, which is only
logged, is left out.
-/

namespace Memcove

open Programs

/-- `sorted(set(labels))`. -/
def sortedSet (labels : List String) : List String :=
  labels.dedup.mergeSort (fun a b => decide (a ≤ b))

/-- `NamespacePlan`. -/
structure NamespacePlan where
  backfill : List String := []
  delete : List String := []
  tombstoneBump : List String := []
  tombstoneClear : List String := []
  skipped : Bool := false
  capped : Bool := false
  deriving DecidableEq

/-- `tombstones.get(label, 0)`. -/
def absentSweeps (tombstones : List (String × Int)) (label : String) : Int :=
  (dictGet tombstones label).getD 0

/-- `cap_ratio * len(reg)`, without the rounding of the float product. -/
def capBound (settings : Settings) (registered : List String) : ℚ :=
  settings.reconcileDeletionCapRatio * registered.dedup.length

/-- `plan_namespace`. -/
def planNamespace (settings : Settings) (live reg : List String)
    (tombstones : List (String × Int)) : NamespacePlan :=
  let backfill := sortedSet (live.filter (fun l => l ∉ reg))
  let absent := sortedSet (reg.filter (fun l => l ∉ live))
  let marked := tombstones.map (·.1)
  let reappeared := reg.filter (fun l => l ∈ live ∧ l ∈ marked)
  let orphaned := marked.filter (fun l => l ∉ reg ∧ l ∉ live)
  let clearable := sortedSet (reappeared ++ orphaned)
  if reg ≠ [] ∧ live = [] then
    { backfill := backfill, tombstoneClear := sortedSet reappeared, skipped := true }
  else if settings.reconcileDeletionCapMin < absent.length ∧
      capBound settings reg < absent.length then
    { backfill := backfill, tombstoneClear := clearable, capped := true }
  else
    let due (label : String) : Bool :=
      decide (settings.reconcileMinAbsentSweeps ≤ absentSweeps tombstones label + 1)
    { backfill := backfill
      delete := absent.filter due
      tombstoneBump := absent.filter (fun label => !due label)
      tombstoneClear := clearable }

/-- Sorting and removing duplicates keeps the members. -/
@[simp] theorem mem_sortedSet {labels : List String} {l : String} :
    l ∈ sortedSet labels ↔ l ∈ labels := by
  simp [sortedSet, List.mem_mergeSort]

/-- A sorted set has no duplicates. -/
theorem nodup_sortedSet (labels : List String) : (sortedSet labels).Nodup :=
  (List.mergeSort_perm _ _).nodup_iff.mpr labels.nodup_dedup

section

variable {settings : Settings} {live reg : List String} {tombstones : List (String × Int)}
  {l : String}

/-- What is backfilled is listed and not registered. -/
theorem mem_backfill : l ∈ (planNamespace settings live reg tombstones).backfill ↔
    l ∈ live ∧ l ∉ reg := by
  unfold planNamespace
  dsimp only
  split
  · simp
  · split <;> simp

/-- What is deleted or bumped is registered and not listed, and the listing is not empty. -/
theorem mem_absent (h : l ∈ (planNamespace settings live reg tombstones).delete ∨
    l ∈ (planNamespace settings live reg tombstones).tombstoneBump) :
    l ∈ reg ∧ l ∉ live ∧ live ≠ [] := by
  unfold planNamespace at h
  dsimp only at h
  split at h
  · simp at h
  · rename_i hskip
    split at h
    · simp at h
    · have habsent : l ∈ reg ∧ l ∉ live := by
        rcases h with h | h <;> simpa using (List.mem_filter.mp h).1
      refine ⟨habsent.1, habsent.2, ?_⟩
      rintro rfl
      exact hskip ⟨List.ne_nil_of_mem habsent.1, rfl⟩

/-- What is deleted is past its grace period. -/
theorem due_of_mem_delete (h : l ∈ (planNamespace settings live reg tombstones).delete) :
    settings.reconcileMinAbsentSweeps ≤ absentSweeps tombstones l + 1 := by
  unfold planNamespace at h
  dsimp only at h
  split at h
  · simp at h
  · split at h
    · simp at h
    · simpa using (List.mem_filter.mp h).2

/-- A plan bumps nothing twice. -/
theorem nodup_tombstoneBump :
    (planNamespace settings live reg tombstones).tombstoneBump.Nodup := by
  unfold planNamespace
  dsimp only
  split
  · exact List.nodup_nil
  · split
    · exact List.nodup_nil
    · exact (nodup_sortedSet _).filter _

/-- A plan deletes no more than the cap permits. -/
theorem length_delete_le : ((planNamespace settings live reg tombstones).delete.length : ℚ) ≤
    max (settings.reconcileDeletionCapMin : ℚ) (capBound settings reg) ∨
      (planNamespace settings live reg tombstones).delete = [] := by
  unfold planNamespace
  dsimp only
  split
  · exact Or.inr rfl
  · split
    · exact Or.inr rfl
    · rename_i hcap
      left
      rw [not_and_or, not_lt, not_lt] at hcap
      have hlength := List.length_filter_le (fun label => decide
        (settings.reconcileMinAbsentSweeps ≤ absentSweeps tombstones label + 1))
        (sortedSet (reg.filter (fun l => l ∉ live)))
      rcases hcap with hcap | hcap
      · refine le_max_of_le_left ?_
        have hint : ((sortedSet (reg.filter (fun l => l ∉ live))).length : ℚ) ≤
            (settings.reconcileDeletionCapMin : ℚ) := by exact_mod_cast hcap
        refine le_trans ?_ hint
        exact_mod_cast hlength
      · refine le_max_of_le_right (le_trans ?_ hcap)
        exact_mod_cast hlength

/-- The tombstone of a registered label that is listed is cleared. -/
theorem mem_clear (hreg : l ∈ reg) (hlive : l ∈ live) (hmarked : l ∈ tombstones.map (·.1)) :
    l ∈ (planNamespace settings live reg tombstones).tombstoneClear := by
  unfold planNamespace
  dsimp only
  split
  · rename_i hskip
    simp [hskip.2] at hlive
  · split <;> simp only [mem_sortedSet, List.mem_append, List.mem_filter] <;>
      exact Or.inl ⟨hreg, by simpa using ⟨hlive, by simpa using hmarked⟩⟩

end

/-- `_backfill`. -/
def backfill (settings : Settings) (tenant label : String) : Tool PUnit :=
  recordObject (reconciledRow settings tenant label) []

/-- One label of the delete phase, with its live re-check. -/
def deleteAbsent (tenant label : String) : Tool PUnit := do
  let exists_ ← tableExists tenant label
  if exists_ then call (.clearTombstone (tenant, label))
  else do
    call (.deleteObject (tenant, label))
    call (.clearTombstone (tenant, label))

/-- `apply_plan`. -/
def applyPlan (settings : Settings) (tenant : String) (plan : NamespacePlan) : Tool PUnit := do
  Program.each (backfill settings tenant) plan.backfill
  Program.each (fun label => call (.clearTombstone (tenant, label))) plan.tombstoneClear
  Program.each (fun label => call (.bumpTombstone (tenant, label))) plan.tombstoneBump
  Program.each (deleteAbsent tenant) plan.delete

/-- The sweep of one namespace. -/
def sweepNamespace (settings : Settings) (tenant : String) : Tool PUnit := do
  let live ← listLabels tenant
  let reg ← call (.labelsForTenant tenant)
  let tombstones ← call (.tombstonesForTenant tenant)
  applyPlan settings tenant (planNamespace settings live reg tombstones)

/-- `reconcile`: an error in one namespace does not abort the sweep. -/
def reconcile (settings : Settings) : Tool PUnit := do
  let namespaces ← listNamespaces
  Program.each (fun tenant =>
    Program.tryCatch (sweepNamespace settings tenant) (fun _ => .pure ⟨⟩)) namespaces

end Memcove
