import Memcove.Drift.Tombstones

/-!
# The grace period

One program sweeps again and again, next to any other operations. Whatever the catalog lists and
whichever calls fail, a row is deleted only by a sweep with a listing, right after its table was
found absent and within the cap; and as long as a sweep that lists a label leaves no tombstone of
it behind, only after the label was missing from enough sweeps in a row.
-/

namespace Memcove

open Programs

/-- The cron job: sweeps one after the other, each of which may raise. -/
def sweepsForever (settings : Settings) (n : ℕ) : Tool Unit :=
  Program.each (fun _ => Program.tryCatch (reconcile settings) (fun _ => .pure ⟨⟩))
    (List.replicate n ())

/-- What is known when the sweeping program deletes a row. -/
structure SafeDelete (settings : Settings) (k : Key) (h : List CallEvent) : Prop where
  absent : h.head? = some ⟨.tableExists k, .ok false⟩
  listed : ∃ sweep ∈ (observed h).sweeps.head?, sweep.tenant = k.1 ∧ sweep.listing ≠ [] ∧
    ((observed h).deletes + 1 : ℚ) ≤
      max (settings.reconcileDeletionCapMin : ℚ) (capBound settings sweep.registered)
  missing : settings.reconcileMinAbsentSweeps ≤ missingSweeps k.1 k.2 (observed h).sweeps

/-- The contract of the sweeping program: its deletes are safe. It relies on the tombstones that it
reads being its own, and on no tombstone of a listed label outliving the sweep: such a label is
registered, and no call fails while it has a tombstone. -/
def graced (settings : Settings) : Contract Call Answer PyError where
  guarantee h c :=
    match c with
    | .deleteObject k => SafeDelete settings k h
    | _ => True
  assume h event :=
    (∀ read ∈ countsRead event, ∀ l,
      dictGet read.2 l = ((observed h).marks (read.1, l)).map (fun n : ℕ => (n : Int))) ∧
    ∀ sweep ∈ (observed h).sweeps.head?,
      (∀ read ∈ countsRead event, ∀ l ∈ sweep.listing, l ∈ read.2.map (·.1) →
        l ∈ sweep.registered) ∧
      (failed event = true → ∀ l ∈ sweep.listing, (observed h).marks (sweep.tenant, l) = none)

/-- During a sweep only the labels that it lists may have a tombstone that counts too much. -/
structure Sweeping (sweep : SweepSeen) (older : List SweepSeen) (o : Observed) : Prop where
  sweeps : o.sweeps = sweep :: older
  deletes : o.deletes = 0
  counted : ∀ tenant label, (sweep.tenant = tenant → label ∉ sweep.listing) →
    (o.marks (tenant, label)).getD 0 ≤ missingSweeps tenant label o.sweeps

/-- The sweep has cleared what it lists, and nothing counts too much. -/
theorem Sweeping.settled {sweep : SweepSeen} {older : List SweepSeen} {o : Observed}
    (ho : Sweeping sweep older o)
    (hcleared : ∀ l ∈ sweep.listing, o.marks (sweep.tenant, l) = none) : o.Settled := by
  intro tenant label
  by_cases hlisted : sweep.tenant = tenant ∧ label ∈ sweep.listing
  · obtain ⟨rfl, hlabel⟩ := hlisted
    simp [hcleared label hlabel]
  · exact ho.counted tenant label (fun htenant hlabel => hlisted ⟨htenant, hlabel⟩)

/-- A new sweep starts from settled tombstones. -/
theorem Sweeping.start {o : Observed} (ho : o.Settled) (tenant : String) (listing : List String) :
    Sweeping ⟨tenant, listing, []⟩ o.sweeps
      { o with sweeps := ⟨tenant, listing, []⟩ :: o.sweeps, deletes := 0 } where
  sweeps := rfl
  deletes := rfl
  counted t l hlisted := by
    rw [missingSweeps_new rfl hlisted]
    exact ho t l

/-- The clear phase, with the labels still to clear: they include what is listed and has a
tombstone, and the tombstones of the missing labels do not count this sweep yet. -/
structure Clearing (sweep : SweepSeen) (older : List SweepSeen) (labels : List String)
    (o : Observed) : Prop extends Sweeping sweep older o where
  listed : ∀ l ∈ sweep.listing, o.marks (sweep.tenant, l) ≠ none → l ∈ labels
  missing : ∀ l ∈ sweep.registered, l ∉ sweep.listing →
    (o.marks (sweep.tenant, l)).getD 0 + 1 ≤ missingSweeps sweep.tenant l o.sweeps

/-- The bump phase, with the labels still to bump: their tombstones do not count this sweep yet. -/
structure Bumping (sweep : SweepSeen) (older : List SweepSeen) (labels : List String)
    (o : Observed) : Prop where
  sweeps : o.sweeps = sweep :: older
  deletes : o.deletes = 0
  settled : o.Settled
  nodup : labels.Nodup
  missing : ∀ l ∈ labels,
    (o.marks (sweep.tenant, l)).getD 0 + 1 ≤ missingSweeps sweep.tenant l o.sweeps

/-- The delete phase, with the labels still to delete out of `total`. -/
structure Deleting (sweep : SweepSeen) (older : List SweepSeen) (total : ℕ) (labels : List String)
    (o : Observed) : Prop where
  sweeps : o.sweeps = sweep :: older
  settled : o.Settled
  deletes : o.deletes + labels.length ≤ total

/-- A clear. -/
theorem Clearing.clear {sweep : SweepSeen} {older : List SweepSeen} {l : String}
    {labels : List String} {o : Observed} (ho : Clearing sweep older (l :: labels) o) :
    Clearing sweep older labels (o.after ⟨.clearTombstone (sweep.tenant, l), .ok ⟨⟩⟩) := by
  have hle (k : Key) : ((Function.update o.marks (sweep.tenant, l) none) k).getD 0 ≤
      (o.marks k).getD 0 := by
    by_cases hk : k = (sweep.tenant, l)
    · simp [hk]
    · simp [hk]
  refine ⟨⟨ho.sweeps, ho.deletes, fun t l' hlisted => ?_⟩, fun l' hl' hmark => ?_,
    fun l' hl' hlisted => ?_⟩
  · exact (hle _).trans (ho.counted t l' hlisted)
  · by_cases hl : l' = l
    · simp [Observed.after, hl] at hmark
    · have hmark' : o.marks (sweep.tenant, l') ≠ none := by
        simpa [Observed.after, hl] using hmark
      exact (List.mem_cons.mp (ho.listed l' hl' hmark')).resolve_left hl
  · exact (Nat.add_le_add_right (hle _) 1).trans (ho.missing l' hl' hlisted)

/-- After the clears. -/
theorem Clearing.cleared {sweep : SweepSeen} {older : List SweepSeen} {o : Observed}
    (ho : Clearing sweep older [] o) : o.Settled := by
  refine ho.toSweeping.settled (fun l hl => ?_)
  by_contra hmark
  exact List.not_mem_nil (ho.listed l hl hmark)

/-- A bump. -/
theorem Bumping.bump {sweep : SweepSeen} {older : List SweepSeen} {l : String}
    {labels : List String} {o : Observed} (ho : Bumping sweep older (l :: labels) o) :
    Bumping sweep older labels (o.after ⟨.bumpTombstone (sweep.tenant, l), .ok ⟨⟩⟩) := by
  obtain ⟨hl, hnodup⟩ := List.nodup_cons.mp ho.nodup
  refine ⟨ho.sweeps, ho.deletes, fun t l' => ?_, hnodup, fun l' hl' => ?_⟩
  · by_cases hk : (t, l') = (sweep.tenant, l)
    · cases hk
      simpa [Observed.after] using ho.missing l List.mem_cons_self
    · simpa [Observed.after, hk] using ho.settled t l'
  · have hne : l' ≠ l := fun h => hl (h ▸ hl')
    simpa [Observed.after, hne] using ho.missing l' (List.mem_cons_of_mem l hl')

/-- A clear in the delete phase. -/
theorem Deleting.clear {sweep : SweepSeen} {older : List SweepSeen} {total : ℕ}
    {labels : List String} {o : Observed} (ho : Deleting sweep older total labels o) (k : Key) :
    Deleting sweep older total labels (o.after ⟨.clearTombstone k, .ok ⟨⟩⟩) := by
  refine ⟨ho.sweeps, fun t l => ?_, ho.deletes⟩
  by_cases hk : (t, l) = k
  · simp [Observed.after, hk]
  · simpa [Observed.after, hk] using ho.settled t l

/-- What holds when a part of a sweep ends: `P`, or settled tombstones when it raised. -/
def Ends (P : Observed → Prop) (h : List CallEvent) (r : Except PyError PUnit) : Prop :=
  match r with
  | .ok _ => P (observed h)
  | .error _ => (observed h).Settled

section

variable {settings : Settings} {h : List CallEvent} {sweep : SweepSeen} {older : List SweepSeen}

/-- A call that fails during a sweep leaves settled tombstones. -/
theorem Sweeping.failed (ho : Sweeping sweep older (observed h)) {event : CallEvent}
    (hfailed : failed event = true) (hassume : (graced settings).assume h event)
    (hsame : (observed h).after event = observed h) : (observed (event :: h)).Settled := by
  rw [observed_cons, hsame]
  refine ho.settled ((hassume.2 sweep ?_).2 hfailed)
  rw [ho.sweeps]
  rfl

/-- The listing starts a sweep. -/
theorem listLabels_graced (hh : (observed h).Settled) (tenant : String) :
    Sat (graced settings) (fun h' r => ∃ listing, r = .ok listing ∧
      Sweeping ⟨tenant, listing, []⟩ (observed h).sweeps (observed h')) h (listLabels tenant) := by
  refine ⟨trivial, fun r _ => ?_⟩
  cases r with
  | ok listing => exact ⟨listing, rfl, Sweeping.start hh tenant listing⟩
  | error e => exact ⟨[], rfl, Sweeping.start hh tenant []⟩

/-- The backfill phase. -/
theorem backfill_graced {labels clear : List String} {tenant : String}
    (hh : Clearing sweep older clear (observed h)) :
    Sat (graced settings) (Ends (Clearing sweep older clear)) h
      (Program.each (backfill settings tenant) labels) := by
  refine Sat.each (I := fun _ h => Clearing sweep older clear (observed h))
    (fun l labels h hi => ?_) (fun _ hi => hi) hh
  refine Sat.perform trivial (fun r hassume => ?_)
  cases r with
  | ok a => exact hi
  | error e => exact hi.toSweeping.failed rfl hassume rfl

/-- The clear phase. -/
theorem clear_graced {labels : List String} (hh : Clearing sweep older labels (observed h)) :
    Sat (graced settings) (Ends (Clearing sweep older [])) h
      (Program.each (fun l => call (.clearTombstone (sweep.tenant, l))) labels) := by
  refine Sat.each (I := fun labels h => Clearing sweep older labels (observed h))
    (fun l labels h hi => ?_) (fun _ hi => hi) hh
  refine Sat.perform trivial (fun r hassume => ?_)
  cases r with
  | ok a => exact hi.clear
  | error e => exact hi.toSweeping.failed rfl hassume rfl

/-- The bump phase. -/
theorem bump_graced {labels : List String} (hh : Bumping sweep older labels (observed h)) :
    Sat (graced settings) (Ends (Bumping sweep older [])) h
      (Program.each (fun l => call (.bumpTombstone (sweep.tenant, l))) labels) := by
  refine Sat.each (I := fun labels h => Bumping sweep older labels (observed h))
    (fun l labels h hi => ?_) (fun _ hi => hi) hh
  refine Sat.perform trivial (fun r _ => ?_)
  cases r with
  | ok a => exact hi.bump
  | error e => exact hi.settled

/-- One label of the delete phase. -/
theorem deleteAbsent_graced {l : String} {labels : List String} {total : ℕ}
    (hh : Deleting sweep older total (l :: labels) (observed h)) (hlisting : sweep.listing ≠ [])
    (hcap : (total : ℚ) ≤ max (settings.reconcileDeletionCapMin : ℚ)
      (capBound settings sweep.registered))
    (hmissing : settings.reconcileMinAbsentSweeps ≤
      missingSweeps sweep.tenant l (sweep :: older)) :
    Sat (graced settings) (Ends (Deleting sweep older total labels)) h
      (deleteAbsent sweep.tenant l) := by
  have hlength : (observed h).deletes + 1 + labels.length ≤ total := by
    have hdeletes := hh.deletes
    rw [List.length_cons] at hdeletes
    omega
  have hclear (h' : List CallEvent) (hi : Deleting sweep older total labels (observed h')) :
      Sat (graced settings) (Ends (Deleting sweep older total labels)) h'
        (call (.clearTombstone (sweep.tenant, l))) := by
    refine Sat.perform trivial (fun r _ => ?_)
    cases r with
    | ok a => exact hi.clear _
    | error e => exact hi.settled
  refine Sat.perform_bind trivial (fun exists_ _ => ?_) (fun _ _ => hh.settled)
  cases exists_ with
  | true =>
    have hkept : (observed h).deletes + labels.length ≤ total := by omega
    refine hclear _ ?_
    exact ⟨hh.sweeps, hh.settled, hkept⟩
  | false =>
    have hsweep : (observed h).sweeps.head? = some sweep := by rw [hh.sweeps]; rfl
    have hsafe : SafeDelete settings (sweep.tenant, l)
        (⟨.tableExists (sweep.tenant, l), .ok false⟩ :: h) := by
      refine ⟨rfl, ⟨sweep, hsweep, rfl, hlisting, ?_⟩, ?_⟩
      · refine le_trans ?_ hcap
        have hdeletes : (observed h).deletes + 1 ≤ total := by omega
        exact_mod_cast hdeletes
      · change _ ≤ ((missingSweeps sweep.tenant l (observed h).sweeps : ℕ) : Int)
        rw [hh.sweeps]
        exact hmissing
    refine Sat.perform_bind hsafe (fun _ _ => ?_) (fun _ _ => hh.settled)
    refine hclear _ ?_
    exact ⟨hh.sweeps, hh.settled, hlength⟩

/-- The delete phase. -/
theorem delete_graced {labels : List String} {total : ℕ}
    (hh : Deleting sweep older total labels (observed h))
    (hlisting : labels ≠ [] → sweep.listing ≠ [])
    (hcap : labels ≠ [] → (total : ℚ) ≤ max (settings.reconcileDeletionCapMin : ℚ)
      (capBound settings sweep.registered))
    (hmissing : ∀ l ∈ labels,
      settings.reconcileMinAbsentSweeps ≤ missingSweeps sweep.tenant l (sweep :: older)) :
    Sat (graced settings) (fun h _ => (observed h).Settled) h
      (Program.each (deleteAbsent sweep.tenant) labels) := by
  refine Sat.each (I := fun rest h => rest ⊆ labels ∧
    Deleting sweep older total rest (observed h)) (fun l rest h hi => ?_)
    (fun _ hi => hi.2.settled) ⟨List.Subset.refl _, hh⟩
  obtain ⟨hl, hrest⟩ := List.cons_subset.mp hi.1
  have hne : labels ≠ [] := List.ne_nil_of_mem hl
  refine (deleteAbsent_graced hi.2 (hlisting hne) (hcap hne) (hmissing l hl)).mono
    (fun h' r hr => ?_)
  cases r with
  | ok a => exact ⟨hrest, hr⟩
  | error e => exact hr

/-- Reading the labels of a sweep. -/
theorem Sweeping.read {o : Observed} {tenant : String} {listing : List String}
    (ho : Sweeping ⟨tenant, listing, []⟩ older o) (registered : List String) :
    Sweeping ⟨tenant, listing, registered⟩ older
      (o.after ⟨.labelsForTenant tenant, .ok registered⟩) := by
  have hsweeps : (o.after ⟨.labelsForTenant tenant, .ok registered⟩).sweeps =
      ⟨tenant, listing, registered⟩ :: older := by
    simp [Observed.after, ho.sweeps]
  refine ⟨hsweeps, ho.deletes, fun t l hlisted => ?_⟩
  rw [hsweeps]
  refine (ho.counted t l hlisted).trans ?_
  rw [ho.sweeps]
  exact missingSweeps_read_le ⟨tenant, listing, []⟩ registered rfl

/-- What the reads of a sweep establish: the plan clears every tombstone of a listed label, and the
tombstones of missing labels do not count this sweep yet. -/
theorem clearing_of_reads {o : Observed} {tenant : String} {listing registered : List String}
    {counts : List (String × Int)} (ho : Sweeping ⟨tenant, listing, []⟩ older o)
    (hcounts : ∀ l, dictGet counts l = (o.marks (tenant, l)).map (fun n : ℕ => (n : Int)))
    (hregistered : ∀ l ∈ listing, l ∈ counts.map (·.1) → l ∈ registered) :
    Clearing ⟨tenant, listing, registered⟩ older
      (planNamespace settings listing registered counts).tombstoneClear
      (o.after ⟨.labelsForTenant tenant, .ok registered⟩) := by
  have hread := ho.read registered
  refine ⟨hread, fun l hl hmark => ?_, fun l hl hlisted => ?_⟩
  · obtain ⟨n, hn⟩ := Option.ne_none_iff_exists'.mp hmark
    have hfound : dictGet counts l = some (n : Int) := by
      rw [hcounts]
      exact congrArg _ hn
    have hmarked := mem_keys_of_dictGet hfound
    exact mem_clear (hregistered l hl hmarked) hl hmarked
  · rw [hread.sweeps, missingSweeps_registered hlisted hl, Nat.add_comm]
    have hcounted := ho.counted tenant l (fun _ => hlisted)
    have hnew : missingSweeps tenant l (⟨tenant, listing, []⟩ :: older) =
        missingSweeps tenant l older := missingSweeps_new rfl (fun _ => hlisted)
    rw [ho.sweeps, hnew] at hcounted
    exact Nat.add_le_add_left hcounted 1

/-- What is due for deletion was missing from enough sweeps. -/
theorem missing_of_due {o : Observed} {labels : List String} {counts : List (String × Int)}
    {l : String} (ho : Clearing sweep older labels o)
    (hcounts : dictGet counts l = (o.marks (sweep.tenant, l)).map (fun n : ℕ => (n : Int)))
    (hdelete : l ∈ (planNamespace settings sweep.listing sweep.registered counts).delete) :
    settings.reconcileMinAbsentSweeps ≤ missingSweeps sweep.tenant l (sweep :: older) := by
  obtain ⟨hregistered, hlisted, _⟩ := mem_absent (Or.inl hdelete)
  have hdue := due_of_mem_delete hdelete
  have hmissing := ho.missing l hregistered hlisted
  rw [ho.sweeps] at hmissing
  rw [absentSweeps, hcounts] at hdue
  cases hmark : o.marks (sweep.tenant, l) with
  | none =>
    simp only [hmark, Option.map_none, Option.getD_none] at hdue hmissing
    omega
  | some n =>
    simp only [hmark, Option.map_some, Option.getD_some] at hdue hmissing
    omega

/-- The sweep of a namespace keeps the contract and leaves settled tombstones. -/
theorem sweepNamespace_graced (hh : (observed h).Settled) (tenant : String) :
    Sat (graced settings) (fun h _ => (observed h).Settled) h (sweepNamespace settings tenant) := by
  refine (listLabels_graced hh tenant).bind (fun h' live hlisted => ?_) (fun h' e hlisted => ?_)
  · obtain ⟨_, ⟨⟩, hsweeping⟩ := hlisted
    refine Sat.perform_bind trivial (fun reg _ => ?_)
      (fun e hassume => hsweeping.failed rfl hassume rfl)
    refine Sat.perform_bind trivial (fun counts hassume => ?_)
      (fun e hassume => (hsweeping.read reg).failed rfl hassume rfl)
    have hcounts := hassume.1 (tenant, counts) rfl
    have hhead : (observed (⟨.labelsForTenant tenant, .ok reg⟩ :: h')).sweeps.head? =
        some ⟨tenant, live, reg⟩ := by
      rw [observed_cons, (hsweeping.read reg).sweeps]
      rfl
    have hclearing : Clearing ⟨tenant, live, reg⟩ _
        (planNamespace settings live reg counts).tombstoneClear
        (observed (⟨.labelsForTenant tenant, .ok reg⟩ :: h')) :=
      clearing_of_reads hsweeping hcounts ((hassume.2 _ hhead).1 (tenant, counts) rfl)
    have hdue : ∀ l ∈ (planNamespace settings live reg counts).delete, _ :=
      fun l hl => missing_of_due hclearing (hcounts l) hl
    refine (backfill_graced (h := ⟨.tombstonesForTenant tenant, .ok counts⟩ :: _)
      hclearing).bind (fun h' _ hi => ?_) (fun _ _ hi => hi)
    refine (clear_graced hi).bind (fun h' _ hi => ?_) (fun _ _ hi => hi)
    have hcleared : Clearing ⟨tenant, live, reg⟩ (observed h).sweeps [] (observed h') := hi
    have hbumping : Bumping ⟨tenant, live, reg⟩ (observed h).sweeps
        (planNamespace settings live reg counts).tombstoneBump (observed h') := by
      refine ⟨hcleared.sweeps, hcleared.deletes, hcleared.cleared, nodup_tombstoneBump,
        fun l hl => ?_⟩
      obtain ⟨hregistered, hlisted, _⟩ := mem_absent (Or.inr hl)
      exact hcleared.missing l hregistered hlisted
    refine (bump_graced hbumping).bind (fun h' _ hi => ?_) (fun _ _ hi => hi)
    have hbumped : Bumping ⟨tenant, live, reg⟩ (observed h).sweeps [] (observed h') := hi
    have hdeleting : Deleting ⟨tenant, live, reg⟩ (observed h).sweeps
        (planNamespace settings live reg counts).delete.length
        (planNamespace settings live reg counts).delete (observed h') := by
      refine ⟨hbumped.sweeps, hbumped.settled, ?_⟩
      rw [hbumped.deletes, Nat.zero_add]
    refine delete_graced hdeleting (fun hne => ?_) (fun hne => ?_) hdue
    · obtain ⟨l, hl⟩ := List.exists_mem_of_ne_nil _ hne
      exact (mem_absent (Or.inl hl)).2.2
    · exact length_delete_le.resolve_right hne
  · obtain ⟨_, hok, _⟩ := hlisted
    cases hok

/-- `reconcile` keeps the contract. -/
theorem reconcile_graced (hh : (observed h).Settled) :
    Sat (graced settings) (fun h _ => (observed h).Settled) h (reconcile settings) := by
  have hlist : Sat (graced settings) (fun h _ => (observed h).Settled) h listNamespaces :=
    Sat.perform_bind trivial (fun _ _ => hh) (fun _ _ => hh)
  refine hlist.bind (fun h namespaces hh => ?_) (fun _ _ hi => hi)
  refine Sat.each (I := fun _ h => (observed h).Settled) (fun tenant _ h hi => ?_)
    (fun _ hi => hi) hh
  exact (sweepNamespace_graced hi tenant).tryCatch (fun _ _ hi => hi) (fun _ _ hi => hi)

/-- The cron job keeps the contract. -/
theorem sweepsForever_graced (n : ℕ) :
    Sat (graced settings) (fun _ _ => True) [] (sweepsForever settings n) := by
  have hinit : (observed []).Settled := fun _ _ => Nat.zero_le _
  refine Sat.each (I := fun _ h => (observed h).Settled) (fun _ _ h hi => ?_)
    (fun _ _ => trivial) hinit
  exact (reconcile_graced hi).tryCatch (fun _ _ hi => hi) (fun _ _ hi => hi)

end

section

variable {ι : Type} [DecidableEq ι] [Engines]

/-- A sweep that lists a label leaves no tombstone of it behind: when it reads the tombstones, the
labels with a tombstone that it has listed are registered, so that it goes on to clear them, and
when a call of the cron job raises, no label of its last listing has a tombstone. -/
def ResetsTombstones (s : Stores) (older : Log Call Answer PyError (Option ι))
    (entry : Option ι × CallEvent) : Prop :=
  entry.1 = none → ∀ sweep ∈ (observed (history none older)).sweeps.head?,
    (∀ read ∈ countsRead entry.2, ∀ l ∈ sweep.listing, l ∈ read.2.map (·.1) →
      l ∈ sweep.registered) ∧
    (failed entry.2 = true → ∀ l ∈ sweep.listing,
      (machine.after s older).registry.tombstone (sweep.tenant, l) = none)

instance (s : Stores) (older : Log Call Answer PyError (Option ι))
    (entry : Option ι × CallEvent) : Decidable (ResetsTombstones s older entry) :=
  inferInstanceAs (Decidable (entry.1 = none →
    ∀ sweep ∈ (observed (history none older)).sweeps.head?, _ ∧ _))

/-- The cron job may rely on what it assumes when its sweeps reset tombstones. -/
theorem graced_assume {settings : Settings} {s : Stores}
    {older : Log Call Answer PyError (Option ι)} {event : CallEvent}
    (hmarked : (machine.after s older).registry.Marked (observed (history none older)))
    (hpossible : machine.possible (machine.after s older) event)
    (hresets : ResetsTombstones s older (none, event)) :
    (graced settings).assume (history none older) event := by
  refine ⟨fun read hread l => ?_, fun sweep hsweep =>
    ⟨(hresets rfl sweep hsweep).1, fun hfailed l hl => ?_⟩⟩
  · obtain ⟨c, r⟩ := event
    cases c <;> cases r <;> cases hread
    rw [Registry.dictGet_tombstonesForTenant hmarked.keys hpossible, hmarked.counts]
  · have hnone := (hresets rfl sweep hsweep).2 hfailed l hl
    rw [hmarked.counts] at hnone
    exact Option.map_eq_none_iff.mp hnone

variable [Python] [Backend] [Sqlglot]

/-- The cron job (`none`) next to other operations. -/
def cronThreads (settings : Settings) (n : ℕ) (ops : ι → Operation) : Option ι → Tool Unit
  | none => sweepsForever settings n
  | some i => (ops i).program settings

/-- What each of them keeps. -/
def cronContract (settings : Settings) (ops : ι → Operation) :
    Option ι → Contract Call Answer PyError
  | none => graced settings
  | some i => discipline (ops i).isSweep

variable {settings : Settings} {n : ℕ} {ops : ι → Operation} {s : Stores}
  {log : Log Call Answer PyError (Option ι)} {threads : Option ι → Tool Unit}

end

section

attribute [local instance] asciiPython eventsSqlglot textEngines externalBackend

/-- `events` is ingested (`0`), forgotten (`1`), ingested (`2`) and forgotten (`3`) again. -/
def eventsComeAndGo (i : Fin 4) : Operation :=
  if i.val % 2 = 0 then ingestEvents ["a"] "create" [] else .drop "t_acme" "events"

/-- None of these is a sweep. -/
theorem eventsComeAndGo_ne_sweep (i : Fin 4) : eventsComeAndGo i ≠ .sweep := by
  unfold eventsComeAndGo
  split <;> exact fun h => nomatch h

/-- A tenant with one table, whose registry has a second row. -/
def danglingStores : Stores where
  lakehouse :=
    { namespaces := ["t_acme"]
      tables := [(("t_acme", "other"), ⟨0, [("v", .string true)], []⟩)]
      nextUuid := 1 }
  registry :=
    { objects := [ingestRow {} "t_acme" "other" .inline none,
        ingestRow {} "t_acme" "events" .inline none] }

/-- The run that a schedule plays from there, with the call that is to fail marked. -/
def playCron (schedule : List (Option (Fin 4) × Option PyError)) :
    Log Call Answer PyError (Option (Fin 4)) × (Option (Fin 4) → Tool Unit) :=
  play machine answerOf danglingStores schedule [] (cronThreads {} 3 eventsComeAndGo)

/-- What is played is a run. -/
theorem playCron_run (schedule : List (Option (Fin 4) × Option PyError)) :
    Run machine (cronThreads {} 3 eventsComeAndGo) danglingStores (playCron schedule).1
      (playCron schedule).2 :=
  play_run answerOf_possible (fun _ _ _ => trivial) .start

/-- The first sweep marks `events`. Then it is ingested, forgotten, and its data committed again.
The second sweep lists it, backfills it and leaves its tombstone. It is forgotten while the
registry is down, and the third sweep deletes it. -/
def lostGrace : List (Option (Fin 4) × Option PyError) :=
  List.replicate 5 (none, none) ++ List.replicate 6 (some 0, none) ++
    List.replicate 3 (some 1, none) ++ List.replicate 4 (some 2, none) ++
    List.replicate 5 (none, none) ++
    [(some 3, none), (some 3, none), (some 3, some (externalError "connection refused"))] ++
    List.replicate 6 (none, none)

/-- Two sweeps that miss `events`. -/
def fullGrace : List (Option (Fin 4) × Option PyError) := List.replicate 12 (none, none)

end

end Memcove
