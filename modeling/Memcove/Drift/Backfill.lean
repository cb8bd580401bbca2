import Memcove.Drift.Discipline

/-!
# Backfill and producer metadata

Read-repair and the reconciler's backfill decide from a read of the registry and then upsert. They
destroy the metadata of a producer exactly when the producer's record is committed between that
read and the upsert.
-/

namespace Memcove

open Programs

variable {ι : Type}

/-- A repair after which the row that a producer recorded, or its tags, are not what they were. -/
def Destroys [Engines] (s : Stores) (event : CallEvent) : Prop :=
  ∃ row k old, recorded event = some row ∧ row.source = .reconciled ∧
    s.registry.row k = some old ∧ old.source ≠ .reconciled ∧
    ((storesAfter s event).registry.row k ≠ some old ∨
      (storesAfter s event).registry.tagsFor k ≠ s.registry.tagsFor k)

/-- The entries since the program's last read of the registry about the key. -/
def sinceRead [DecidableEq ι] (i : ι) (k : Key) (log : Log Call Answer PyError ι) :
    Log Call Answer PyError ι :=
  log.takeWhile (fun entry => !(decide (entry.1 = i) && (rowShown k entry.2).isSome))

/-- A producer's record of the key has been committed and not been deleted again. -/
def producerRecorded (k : Key) : Log Call Answer PyError ι → Bool
  | [] => false
  | entry :: older =>
    match recorded entry.2 with
    | some row => if row.key = k ∧ row.source ≠ .reconciled then true else producerRecorded k older
    | none => if deleted entry.2 = some k then false else producerRecorded k older

/-- When the entry is a repair, no producer has recorded the key since the read from which it was
decided. -/
def RepairFresh [DecidableEq ι] (older : Log Call Answer PyError ι) (entry : ι × CallEvent) :
    Prop :=
  ∀ row ∈ recorded entry.2, row.source = .reconciled →
    producerRecorded row.key (sinceRead entry.1 row.key older) = false

instance [DecidableEq ι] (older : Log Call Answer PyError ι) (entry : ι × CallEvent) :
    Decidable (RepairFresh older entry) :=
  inferInstanceAs (Decidable (∀ row ∈ recorded entry.2, _ → _))

section

variable [Engines]

/-- Recording leaves the tags of other keys alone. -/
theorem tagsFor_storesAfter_of_recorded {s : Stores} {event : CallEvent} {row : ObjectRow} {k : Key}
    (hevent : recorded event = some row) (hk : k ≠ row.key) :
    (storesAfter s event).registry.tagsFor k = s.registry.tagsFor k := by
  obtain ⟨c, r⟩ := event
  cases c <;> cases r <;> cases hevent
  exact Registry.tagsFor_recordObject_of_ne hk

/-- A repair destroys the metadata of a producer exactly when its key has the row of one. -/
theorem destroys_iff {s : Stores} {event : CallEvent} : Destroys s event ↔
    ∃ row old, recorded event = some row ∧ row.source = .reconciled ∧
      s.registry.row row.key = some old ∧ old.source ≠ .reconciled := by
  constructor
  · rintro ⟨row, k, old, hevent, hsource, hold, hproducer, hchanged⟩
    refine ⟨row, old, hevent, hsource, ?_, hproducer⟩
    by_cases hk : row.key = k
    · rw [hk, hold]
    · rw [row_storesAfter, hevent] at hchanged
      simp only [if_neg hk, hold, ne_eq, not_true_eq_false, false_or] at hchanged
      exact absurd (tagsFor_storesAfter_of_recorded hevent (Ne.symm hk)) hchanged
  · rintro ⟨row, old, hevent, hsource, hold, hproducer⟩
    refine ⟨row, row.key, old, hevent, hsource, hold, hproducer, Or.inl ?_⟩
    rw [row_storesAfter, hevent]
    intro hsame
    rw [← Option.some.inj ((if_pos rfl).symm.trans hsame)] at hproducer
    exact hproducer hsource

/-- A read that showed no row was made when there was none. -/
theorem row_of_rowShown {s : Stores} {event : CallEvent} {k : Key}
    (hpossible : machine.possible s event) (hshown : rowShown k event = some false) :
    s.registry.row k = none := by
  obtain ⟨c, r⟩ := event
  cases r with
  | error e => cases c <;> cases hshown
  | ok a =>
    cases c with
    | getObject k' =>
      simp only [rowShown, Option.ite_none_right_eq_some, Option.some.injEq] at hshown
      obtain ⟨rfl, hnone⟩ := hshown
      have hfound : a = s.registry.getObject k' := hpossible
      rw [hfound] at hnone
      exact Registry.getObject_eq_none.mp (by simpa using hnone)
    | labelsForTenant tenant =>
      simp only [rowShown, Option.ite_none_right_eq_some, Option.some.injEq,
        decide_eq_false_iff_not] at hshown
      obtain ⟨rfl, hmem⟩ := hshown
      have hperm : a.Perm (s.registry.labelsForTenant k.1) := hpossible
      rw [hperm.mem_iff, Registry.mem_labelsForTenant] at hmem
      simpa using hmem
    | _ => cases hshown

/-- Without a producer's record a missing row stays missing or is one of a repair. -/
theorem reconciled_of_not_producerRecorded {t : Stores} {k : Key}
    {newer : Log Call Answer PyError ι} (hnone : t.registry.row k = none)
    (hrecorded : producerRecorded k newer = false) {row : ObjectRow}
    (hrow : (machine.after t newer).registry.row k = some row) : row.source = .reconciled := by
  induction newer generalizing row with
  | nil => simp [hnone] at hrow
  | cons entry newer ih =>
    rw [Machine.after_cons] at hrow
    change (storesAfter _ _).registry.row k = some row at hrow
    rw [row_storesAfter] at hrow
    unfold producerRecorded at hrecorded
    cases hevent : recorded entry.2 with
    | some new =>
      simp only [hevent] at hrow hrecorded
      by_cases hk : new.key = k
      · rw [if_pos hk, Option.some.injEq] at hrow
        subst hrow
        by_contra hsource
        simp [hk, hsource] at hrecorded
      · rw [if_neg hk] at hrow
        rw [if_neg (fun h => hk h.1)] at hrecorded
        exact ih hrecorded hrow
    | none =>
      simp only [hevent] at hrow hrecorded
      by_cases hdeleted : deleted entry.2 = some k
      · simp [hdeleted] at hrow
      · rw [if_neg hdeleted] at hrow hrecorded
        exact ih hrecorded hrow

/-- A producer's record stays as long as no repair destroys it. -/
theorem producer_row_of_producerRecorded {t : Stores} {k : Key}
    {newer : Log Call Answer PyError ι}
    (hkept : Along (fun older entry => ¬ Destroys (machine.after t older) entry.2) newer)
    (hrecorded : producerRecorded k newer = true) :
    ∃ row, (machine.after t newer).registry.row k = some row ∧ row.source ≠ .reconciled := by
  induction newer with
  | nil => cases hrecorded
  | cons entry newer ih =>
    have hcons : (machine.after t (entry :: newer)).registry.row k =
        (storesAfter (machine.after t newer) entry.2).registry.row k := rfl
    rw [hcons, row_storesAfter]
    unfold producerRecorded at hrecorded
    cases hevent : recorded entry.2 with
    | some new =>
      simp only [hevent] at hrecorded ⊢
      by_cases hk : new.key = k
      · by_cases hsource : new.source = .reconciled
        · rw [if_neg (fun h => h.2 hsource)] at hrecorded
          obtain ⟨old, hold, hproducer⟩ := ih hkept.2 hrecorded
          exact absurd (destroys_iff.mpr ⟨new, old, hevent, hsource, hk ▸ hold, hproducer⟩) hkept.1
        · exact ⟨new, if_pos hk, hsource⟩
      · rw [if_neg (fun h => hk h.1)] at hrecorded
        rw [if_neg hk]
        exact ih hkept.2 hrecorded
    | none =>
      simp only [hevent] at hrecorded ⊢
      by_cases hdeleted : deleted entry.2 = some k
      · simp [hdeleted] at hrecorded
      · rw [if_neg hdeleted] at hrecorded ⊢
        exact ih hkept.2 hrecorded

end

variable [DecidableEq ι]

/-- A log in which a program has read about a key splits at its last read. -/
theorem split_sinceRead {i : ι} {k : Key} {log : Log Call Answer PyError ι} {shown : Bool}
    (h : lastShown k (history i log) = some shown) :
    ∃ event older, log = sinceRead i k log ++ (i, event) :: older ∧
      rowShown k event = some shown := by
  induction log with
  | nil => cases h
  | cons entry log ih =>
    obtain ⟨j, event⟩ := entry
    by_cases hread : j = i ∧ (rowShown k event).isSome = true
    · obtain ⟨rfl, hsome⟩ := hread
      obtain ⟨b, hb⟩ := Option.isSome_iff_exists.mp hsome
      rw [history_cons_self] at h
      refine ⟨event, log, by simp [sinceRead, hb], ?_⟩
      rw [lastShown, List.findSome?_cons, hb] at h
      rw [hb, ← h]
    · have hskip : lastShown k (history i log) = some shown := by
        by_cases hj : j = i
        · subst hj
          have hnone : rowShown k event = none := by simpa using hread
          rwa [history_cons_self, lastShown_cons_of_none hnone] at h
        · rwa [history_cons_of_ne hj] at h
      obtain ⟨read, older, hlog, hshown⟩ := ih hskip
      refine ⟨read, older, ?_, hshown⟩
      have htake : sinceRead i k ((j, event) :: log) = (j, event) :: sinceRead i k log := by
        have hnot : (!(decide (j = i) && (rowShown k event).isSome)) = true := by
          rw [Bool.not_eq_true', Bool.and_eq_false_iff]
          by_cases hj : j = i
          · right
            simpa [hj] using hread
          · left
            simpa using hj
        simp only [sinceRead, List.takeWhile_cons]
        rw [if_pos hnot]
      rw [htake, List.cons_append, ← hlog]

/-- Where a program last read that a key has no row, there was none, and since then only the calls
of the segment have been made. -/
theorem row_none_at_read [Engines] {i : ι} {k : Key} {s : Stores} {log : Log Call Answer PyError ι}
    (hpossible : Along (fun older entry => machine.possible (machine.after s older) entry.2) log)
    (hshown : lastShown k (history i log) = some false) :
    ∃ older, log = sinceRead i k log ++ older ∧ (machine.after s older).registry.row k = none := by
  obtain ⟨event, older, hlog, hevent⟩ := split_sinceRead hshown
  refine ⟨(i, event) :: older, hlog, ?_⟩
  rw [hlog] at hpossible
  have hnone : (machine.after s older).registry.row k = none :=
    row_of_rowShown hpossible.older.1 hevent
  have hread : recorded event = none ∧ deleted event = none := by
    obtain ⟨c, r⟩ := event
    cases c <;> cases r <;> first | cases hevent | exact ⟨rfl, rfl⟩
  rw [Machine.after_cons]
  change (storesAfter _ event).registry.row k = none
  simpa [row_storesAfter, hread] using hnone

section

/-- What is known of a repair in a run: it was decided from a read that showed no row. -/
theorem lastShown_of_repair {b : Bool} {h : List CallEvent} {event : CallEvent} {row : ObjectRow}
    (hguarantee : (discipline b).guarantee h event.call) (hevent : recorded event = some row)
    (hsource : row.source = .reconciled) : lastShown row.key h = some false := by
  obtain ⟨c, r⟩ := event
  cases c <;> cases r <;> cases hevent
  simpa [discipline, hsource] using hguarantee

variable [Python] [Engines] [Backend] [Sqlglot]

/-- No backfill and no read-repair of a run destroys the metadata of a producer if and only if no
producer's record falls between the read from which a repair is decided and the repair. -/
theorem no_destruction_iff_repairs_fresh {settings : Settings} {ops : ι → Operation} {s : Stores}
    {log : Log Call Answer PyError ι} {threads : ι → Tool Unit}
    (h : Run machine (fun i => (ops i).program settings) s log threads) :
    Along (fun older entry => ¬ Destroys (machine.after s older) entry.2) log ↔
      Along RepairFresh log := by
  have hrun := (run_disciplined h).and h.possible
  constructor
  · intro hkept
    refine (hkept.and hrun).imp (fun older entry hall row hevent hsource => ?_)
    have hshown := lastShown_of_repair hall.1.2.1 hevent hsource
    obtain ⟨read, hlog, hnone⟩ :=
      row_none_at_read (hall.2.imp (fun _ _ hentry => hentry.1.2.2)) hshown
    by_contra hproducer
    have hnewer : Along (fun rest entry =>
        ¬ Destroys (machine.after (machine.after s read) rest) entry.2)
        (sinceRead entry.1 row.key older) := by
      refine Along.newer (Q := fun t entry => ¬ Destroys t entry.2) ?_
      rw [← hlog]
      exact hall.2.imp (fun _ _ hentry => hentry.1.1)
    obtain ⟨old, hold, hsource'⟩ :=
      producer_row_of_producerRecorded hnewer (by simpa using hproducer)
    rw [← Machine.after_append, ← hlog] at hold
    exact hall.1.1 (destroys_iff.mpr ⟨row, old, hevent, hsource, hold, hsource'⟩)
  · intro hfresh
    refine (hfresh.and hrun).imp (fun older entry hall hdestroys => ?_)
    obtain ⟨row, old, hevent, hsource, hold, hproducer⟩ := destroys_iff.mp hdestroys
    have hshown := lastShown_of_repair hall.1.2.1 hevent hsource
    obtain ⟨read, hlog, hnone⟩ :=
      row_none_at_read (hall.2.imp (fun _ _ hentry => hentry.1.2.2)) hshown
    rw [hlog, Machine.after_append] at hold
    exact hproducer (reconciled_of_not_producerRecorded hnone
      (hall.1.1 row hevent hsource) hold)

end

section

attribute [local instance] asciiPython eventsSqlglot textEngines externalBackend

/-- A first ingest of `events` (`true`) while `events` is described (`false`). -/
def describedIngest : Bool → Operation
  | true => ingestEvents ["a"] "create" ["prod"]
  | false => .describe "t_acme" "events"

/-- The object is described before the data is committed, and repaired after the metadata is. -/
def staleRepair : List Bool :=
  [false, true, true, true, true, false, true, true, false]

/-- The repair at the end of this run destroys the metadata of the ingest. -/
theorem staleRepair_destroys : ∃ log threads,
    Run machine (fun i => (describedIngest i).program {}) {} log threads ∧
      ¬ Along (fun older entry => ¬ Destroys (machine.after {} older) entry.2) log := by
  refine ⟨_, _, playOps_run describedIngest staleRepair, ?_⟩
  have hrepair : (playOps describedIngest staleRepair).1 =
      (false, ⟨.recordObject (reconciledRow {} "t_acme" "events") [] none, .ok ⟨⟩⟩) ::
        (playOps describedIngest staleRepair.dropLast).1 := by rfl
  intro hkept
  rw [hrepair] at hkept
  exact hkept.1 (destroys_iff.mpr ⟨reconciledRow {} "t_acme" "events",
    ingestRow {} "t_acme" "events" .inline none, rfl, rfl, rfl, by decide⟩)

/-- The object is described and repaired between the data commit and the metadata commit. -/
def earlyRepair : List Bool :=
  [true, true, true, true, false, false, false, true, true]

/-- A repair that is over before the record of the ingest is harmless. -/
theorem earlyRepair_harmless : Along
    (fun older entry => ¬ Destroys (machine.after {} older) entry.2)
    (playOps describedIngest earlyRepair).1 :=
  (no_destruction_iff_repairs_fresh (playOps_run describedIngest earlyRepair)).mpr
    (by decide +kernel)

end

end Memcove
