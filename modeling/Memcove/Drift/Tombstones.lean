import Memcove.Drift.Discipline

/-!
# What a sweeping program has seen

The grace period of the reconciler as a state machine over the calls of the sweeping program alone:
its sweeps with their listings, the tombstones it has set, and the deletes of its current sweep. In
a run in which nobody else touches tombstones these are the tombstones of the registry.
-/

namespace Memcove

open Programs

/-- One sweep of a namespace: its listing, which is empty when it failed, and the labels that it
read from the registry, none when it could not read them. -/
structure SweepSeen where
  tenant : String
  listing : List String
  registered : List String := []

/-- What the sweeping program has seen: its sweeps, newest first, the tombstones that it has left,
and how many rows its current sweep has deleted. -/
structure Observed where
  sweeps : List SweepSeen := []
  marks : Key → Option ℕ := fun _ => none
  deletes : ℕ := 0

/-- One more call of the sweeping program. -/
def Observed.after (o : Observed) : CallEvent → Observed
  | ⟨.listTables ns, .ok labels⟩ => { o with sweeps := ⟨ns, labels, []⟩ :: o.sweeps, deletes := 0 }
  | ⟨.listTables ns, .error _⟩ => { o with sweeps := ⟨ns, [], []⟩ :: o.sweeps, deletes := 0 }
  | ⟨.labelsForTenant _, .ok labels⟩ =>
    { o with sweeps := o.sweeps.modifyHead (fun sweep => { sweep with registered := labels }) }
  | ⟨.bumpTombstone k, .ok _⟩ =>
    { o with marks := Function.update o.marks k (some ((o.marks k).getD 0 + 1)) }
  | ⟨.clearTombstone k, .ok _⟩ => { o with marks := Function.update o.marks k none }
  | ⟨.deleteObject _, .ok _⟩ => { o with deletes := o.deletes + 1 }
  | _ => o

/-- What the sweeping program has seen with a history. -/
def observed (h : List CallEvent) : Observed := h.foldr (fun event o => o.after event) {}

/-- One more call of the sweeping program. -/
@[simp] theorem observed_cons (event : CallEvent) (h : List CallEvent) :
    observed (event :: h) = (observed h).after event := rfl

/-- Among the sweeps of a namespace since the last one that listed the label, those that missed it
although it was registered. -/
def missingSweeps (tenant label : String) : List SweepSeen → ℕ
  | [] => 0
  | sweep :: older =>
    if sweep.tenant = tenant then
      if label ∈ sweep.listing then 0
      else (if label ∈ sweep.registered then 1 else 0) + missingSweeps tenant label older
    else missingSweeps tenant label older

/-- No tombstone counts more than the sweeps that have missed its label since it was last listed. -/
def Observed.Settled (o : Observed) : Prop :=
  ∀ tenant label, (o.marks (tenant, label)).getD 0 ≤ missingSweeps tenant label o.sweeps

/-- The answer of a read of the tombstones, with its tenant. -/
def countsRead : CallEvent → Option (String × List (String × Int))
  | ⟨.tombstonesForTenant tenant, .ok counts⟩ => some (tenant, counts)
  | _ => none

/-- The call raised. -/
def failed (event : CallEvent) : Bool := !event.answer.isOk

/-- The call writes a tombstone. -/
def Call.marks : Call → Bool
  | .bumpTombstone _ | .clearTombstone _ => true
  | _ => false

/-- The registry has the tombstones of which the sweeping program knows. -/
structure Registry.Marked (R : Registry) (o : Observed) : Prop where
  counts : ∀ k, R.tombstone k = (o.marks k).map (fun n : ℕ => (n : Int))
  keys : (R.tombstones.map Prod.fst).Nodup

/-- A registry without tombstones before anything is seen. -/
theorem marked_init {R : Registry} (h : R.tombstones = []) : R.Marked {} where
  counts := by simp [Registry.tombstone, h, KeyedTables.lookup]
  keys := by simp [h]

/-- A bump. -/
theorem Registry.Marked.bump {R : Registry} {o : Observed} (hmarked : R.Marked o) (k : Key) :
    (R.bumpTombstone k).Marked (o.after ⟨.bumpTombstone k, .ok ⟨⟩⟩) where
  counts k' := by
    by_cases hk : k' = k
    · subst hk
      rw [Registry.tombstone_bumpTombstone_self, hmarked.counts]
      cases hmark : o.marks k' <;> simp [Observed.after, hmark]
    · rw [Registry.tombstone_bumpTombstone_of_ne hk, hmarked.counts]
      simp [Observed.after, hk]
  keys := Registry.nodup_bumpTombstone hmarked.keys

/-- A clear. -/
theorem Registry.Marked.clear {R : Registry} {o : Observed} (hmarked : R.Marked o) (k : Key) :
    (R.clearTombstone k).Marked (o.after ⟨.clearTombstone k, .ok ⟨⟩⟩) where
  counts k' := by
    by_cases hk : k' = k
    · subst hk
      simp [Registry.tombstone_clearTombstone_self, Observed.after]
    · rw [Registry.tombstone_clearTombstone_of_ne hk, hmarked.counts]
      simp [Observed.after, hk]
  keys := Registry.nodup_clearTombstone hmarked.keys

section

variable [Engines] {s : Stores} {o : Observed} {event : CallEvent}

/-- Calls that write no tombstone leave the tombstones alone. -/
theorem tombstones_storesAfter (h : event.call.marks = false) :
    (storesAfter s event).registry.tombstones = s.registry.tombstones := by
  obtain ⟨c, r⟩ := event
  cases r with
  | error e => rfl
  | ok a => cases c <;> first | rfl | exact Registry.tombstones_recordObject | cases h

/-- Calls of others, which write no tombstone. -/
theorem Registry.Marked.other (hmarked : s.registry.Marked o) (h : event.call.marks = false) :
    (storesAfter s event).registry.Marked o := by
  have hsame := tombstones_storesAfter (s := s) h
  refine ⟨fun k => ?_, ?_⟩
  · rw [Registry.tombstone, hsame]
    exact hmarked.counts k
  · rw [hsame]
    exact hmarked.keys

/-- Calls of the sweeping program. -/
theorem Registry.Marked.own (hmarked : s.registry.Marked o) :
    (storesAfter s event).registry.Marked (o.after event) := by
  by_cases hmarks : event.call.marks = false
  · have hother := hmarked.other hmarks
    have hsame : (o.after event).marks = o.marks := by
      obtain ⟨c, r⟩ := event
      cases c <;> cases r <;> first | rfl | cases hmarks
    refine ⟨fun k => ?_, hother.keys⟩
    rw [hsame]
    exact hother.counts k
  · obtain ⟨c, r⟩ := event
    cases r with
    | error e => cases c <;> first | exact absurd rfl hmarks | exact ⟨hmarked.counts, hmarked.keys⟩
    | ok a =>
      cases c with
      | bumpTombstone k => exact hmarked.bump k
      | clearTombstone k => exact hmarked.clear k
      | _ => exact absurd rfl hmarks

end

/-- In a run in which nobody else touches tombstones, the registry has those of which the sweeping
program knows. -/
theorem marked_after [Engines] {ι : Type} [DecidableEq ι] {x : ι} {s : Stores}
    {log : Log Call Answer PyError ι} (hinit : s.registry.tombstones = [])
    (hothers : Along (fun _ entry => entry.1 ≠ x → entry.2.call.marks = false) log) :
    (machine.after s log).registry.Marked (observed (history x log)) := by
  induction log with
  | nil => exact marked_init hinit
  | cons entry log ih =>
    obtain ⟨j, event⟩ := entry
    have hmarked := ih hothers.2
    by_cases hj : j = x
    · subst hj
      rw [history_cons_self]
      exact hmarked.own
    · rw [history_cons_of_ne hj]
      exact hmarked.other (hothers.1 hj)

/-- A new sweep, before it has read the labels. -/
theorem missingSweeps_new {tenant label : String} {sweep : SweepSeen} {older : List SweepSeen}
    (hsweep : sweep.registered = []) (hlisted : sweep.tenant = tenant → label ∉ sweep.listing) :
    missingSweeps tenant label (sweep :: older) = missingSweeps tenant label older := by
  rw [missingSweeps]
  split
  · rename_i htenant
    simp [hlisted htenant, hsweep]
  · rfl

/-- A sweep that misses a registered label. -/
theorem missingSweeps_registered {label : String} {sweep : SweepSeen} {older : List SweepSeen}
    (hlisted : label ∉ sweep.listing) (hregistered : label ∈ sweep.registered) :
    missingSweeps sweep.tenant label (sweep :: older) =
      1 + missingSweeps sweep.tenant label older := by
  simp [missingSweeps, hlisted, hregistered]

/-- Reading the labels counts no sweep less. -/
theorem missingSweeps_read_le {tenant label : String} (sweep : SweepSeen) (labels : List String)
    {older : List SweepSeen} (hsweep : sweep.registered = []) :
    missingSweeps tenant label (sweep :: older) ≤
      missingSweeps tenant label ({ sweep with registered := labels } :: older) := by
  unfold missingSweeps
  dsimp only
  split
  · split
    · exact le_refl _
    · simp [hsweep]
  · exact le_refl _

end Memcove
