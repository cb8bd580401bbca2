import Memcove.Drift.Discipline

/-!
# Deletion and live objects

The reconciler and `drop_object` delete from the registry right after they saw, or made, the table
absent. A delete removes the metadata of a producer whose table exists exactly when both commits of
that producer fall between the two steps.
-/

namespace Memcove

open Programs

variable {ι : Type}

/-- Whether an event sets the row of a key, and with it the tags, to a producer's (`true`) or to
none of a producer (`false`). -/
def rowWrite (k : Key) (event : CallEvent) : Option Bool :=
  match recorded event with
  | some row => if row.key = k then some (decide (row.source ≠ .reconciled)) else none
  | none => if deleted event = some k then some false else none

/-- Whether an event sets the lineage of a key to some edges (`true`) or to none (`false`). -/
def lineageWrite (k : Key) (event : CallEvent) : Option Bool :=
  (lineageSet k event).map (fun edges => !edges.isEmpty)

/-- The program whose write is there after the log. -/
def lastWriter (writes : CallEvent → Option Bool) : Log Call Answer PyError ι → Option ι
  | [] => none
  | entry :: older =>
    match writes entry.2 with
    | some true => some entry.1
    | some false => none
    | none => lastWriter writes older

/-- The program has committed data of the key, and the table has not been dropped since. -/
def liveCommit [DecidableEq ι] (i : ι) (k : Key) : Log Call Answer PyError ι → Bool
  | [] => false
  | entry :: older =>
    if dropped entry.2 = some k then false
    else (decide (entry.1 = i) && decide (committed entry.2 = some k)) || liveCommit i k older

/-- A producer's row or lineage is there and its table lives, as far as the log tells. -/
def LiveRecord [DecidableEq ι] (k : Key) (log : Log Call Answer PyError ι) : Prop :=
  ∃ writes ∈ [rowWrite k, lineageWrite k], ∃ i ∈ lastWriter writes log, liveCommit i k log = true

instance [DecidableEq ι] (k : Key) (log : Log Call Answer PyError ι) :
    Decidable (LiveRecord k log) :=
  inferInstanceAs (Decidable (∃ writes ∈ [rowWrite k, lineageWrite k], _))

/-- A delete that removes the row (with its tags) or the lineage that a producer recorded, while
the table of that producer exists. -/
def RemovesLive [Engines] [DecidableEq ι] (s : Stores) (older : Log Call Answer PyError ι)
    (event : CallEvent) : Prop :=
  ∃ k i, deleted event = some k ∧
    (lastWriter (rowWrite k) older = some i ∧
        ((machine.after s older).registry.row k).isSome = true ∨
      lastWriter (lineageWrite k) older = some i ∧
        (machine.after s older).registry.getParents k ≠ []) ∧
    liveCommit i k older = true ∧ ((machine.after s older).lakehouse.table k).isSome = true

/-- When the entry deletes a key, no producer has both committed data of the key and recorded it
since the check or the drop from which the delete was decided. -/
def DeleteFresh [DecidableEq ι] (older : Log Call Answer PyError ι) (entry : ι × CallEvent) :
    Prop :=
  ∀ k ∈ deleted entry.2, ¬ LiveRecord k (sinceOwn entry.1 older)

instance [DecidableEq ι] (older : Log Call Answer PyError ι) (entry : ι × CallEvent) :
    Decidable (DeleteFresh older entry) :=
  inferInstanceAs (Decidable (∀ k ∈ deleted entry.2, _))

/-- One more entry. -/
theorem liveCommit_cons [DecidableEq ι] {i : ι} {k : Key} {entry : ι × CallEvent}
    {older : Log Call Answer PyError ι} : liveCommit i k (entry :: older) = true ↔
      dropped entry.2 ≠ some k ∧
        (entry.1 = i ∧ committed entry.2 = some k ∨ liveCommit i k older = true) := by
  rw [liveCommit]
  split <;> simp_all

section

variable [Engines]

/-- What every write brings about and other events keep holds while the last write is there. -/
theorem holds_of_lastWriter {writes : CallEvent → Option Bool} {P : Stores → Prop}
    (hwrite : ∀ t event, writes event = some true → P (storesAfter t event))
    (hkeep : ∀ t event, writes event = none → P t → P (storesAfter t event)) {s : Stores} {i : ι}
    {log : Log Call Answer PyError ι} (h : lastWriter writes log = some i) :
    P (machine.after s log) := by
  induction log with
  | nil => cases h
  | cons entry log ih =>
    unfold lastWriter at h
    split at h
    · rename_i hwrites
      exact hwrite _ _ hwrites
    · cases h
    · rename_i hwrites
      exact hkeep _ _ hwrites (ih h)

/-- The row of a producer is there. -/
theorem row_of_lastWriter {s : Stores} {k : Key} {i : ι} {log : Log Call Answer PyError ι}
    (h : lastWriter (rowWrite k) log = some i) :
    ((machine.after s log).registry.row k).isSome = true := by
  refine holds_of_lastWriter (P := fun t => (t.registry.row k).isSome = true)
    (fun t event hwrite => ?_) (fun t event hwrite hrow => ?_) h
  · rw [row_storesAfter]
    unfold rowWrite at hwrite
    grind
  · rw [row_storesAfter]
    unfold rowWrite at hwrite
    grind

/-- The lineage edges of a producer are there. -/
theorem lineage_of_lastWriter {s : Stores} {k : Key} {i : ι} {log : Log Call Answer PyError ι}
    (h : lastWriter (lineageWrite k) log = some i) :
    (machine.after s log).registry.getParents k ≠ [] := by
  refine holds_of_lastWriter (P := fun t => t.registry.getParents k ≠ [])
    (fun t event hwrite => ?_) (fun t event hwrite hedges => ?_) h
  · obtain ⟨edges, hedges, hne⟩ := Option.map_eq_some_iff.mp hwrite
    rw [Ne, Registry.getParents_eq_nil, lineage_storesAfter, hedges]
    simpa using hne
  · rw [Ne, Registry.getParents_eq_nil] at hedges ⊢
    rwa [lineage_storesAfter, Option.map_eq_none_iff.mp hwrite]

/-- Every answered call but a drop keeps a table, and a commit makes sure that there is one. -/
theorem isSome_storesAfter {s : Stores} {event : CallEvent} {k : Key}
    (hpossible : machine.possible s event) (hdropped : dropped event ≠ some k)
    (h : committed event = some k ∨ (s.lakehouse.table k).isSome = true) :
    ((storesAfter s event).lakehouse.table k).isSome = true := by
  obtain ⟨c, r⟩ := event
  cases r with
  | error e => exact h.resolve_left (by simp [committed])
  | ok a =>
    rcases h with h | h
    · exact isSome_of_commits hpossible h
    · refine isSome_lakehouseAfter h ?_
      rintro rfl
      exact hdropped rfl

/-- The table of a live commit exists. -/
theorem table_of_liveCommit [DecidableEq ι] {s : Stores} {k : Key} {i : ι}
    {log : Log Call Answer PyError ι}
    (hpossible : Along (fun older entry => machine.possible (machine.after s older) entry.2) log)
    (h : liveCommit i k log = true) : ((machine.after s log).lakehouse.table k).isSome = true := by
  induction log with
  | nil => cases h
  | cons entry log ih =>
    obtain ⟨hdropped, hcommit⟩ := liveCommit_cons.mp h
    exact isSome_storesAfter hpossible.1 hdropped (hcommit.imp (·.2) (ih hpossible.2))

end

/-- A write in the newer part of a log is the last one of the whole log. -/
theorem lastWriter_append {writes : CallEvent → Option Bool} {i : ι}
    {newer older : Log Call Answer PyError ι} (h : lastWriter writes newer = some i) :
    lastWriter writes (newer ++ older) = some i := by
  induction newer with
  | nil => cases h
  | cons entry newer ih =>
    unfold lastWriter at h
    rw [List.cons_append, lastWriter]
    split at h
    · exact h
    · cases h
    · exact ih h

/-- The last write of a log is in its newer part or was made by an entry of the older part. -/
theorem lastWriter_append_cases {writes : CallEvent → Option Bool} {i : ι}
    {newer older : Log Call Answer PyError ι}
    (h : lastWriter writes (newer ++ older) = some i) :
    lastWriter writes newer = some i ∨
      ∃ event, (i, event) ∈ older ∧ writes event = some true := by
  induction newer with
  | nil =>
    right
    induction older with
    | nil => cases h
    | cons entry older ih =>
      rw [List.nil_append, lastWriter] at h
      split at h
      · rename_i hwrites
        cases h
        exact ⟨entry.2, List.mem_cons_self, hwrites⟩
      · cases h
      · obtain ⟨event, hmem, hwrites⟩ := ih h
        exact ⟨event, List.mem_cons_of_mem _ hmem, hwrites⟩
  | cons entry newer ih =>
    rw [List.cons_append, lastWriter] at h
    unfold lastWriter
    split at h
    · exact Or.inl h
    · cases h
    · exact ih h

section

variable [DecidableEq ι]

/-- A live commit of the newer part of a log is one of the whole log. -/
theorem liveCommit_append {i : ι} {k : Key} {newer older : Log Call Answer PyError ι}
    (h : liveCommit i k newer = true) : liveCommit i k (newer ++ older) = true := by
  induction newer with
  | nil => cases h
  | cons entry newer ih =>
    obtain ⟨hdropped, hcommit⟩ := liveCommit_cons.mp h
    exact liveCommit_cons.mpr ⟨hdropped, hcommit.imp_right ih⟩

/-- A live commit of a log was made in its newer part or is one of its older part. -/
theorem liveCommit_append_cases {i : ι} {k : Key} {newer older : Log Call Answer PyError ι}
    (h : liveCommit i k (newer ++ older) = true) :
    liveCommit i k newer = true ∨ liveCommit i k older = true := by
  induction newer with
  | nil => exact Or.inr h
  | cons entry newer ih =>
    obtain ⟨hdropped, hcommit | hlive⟩ := liveCommit_cons.mp h
    · exact Or.inl (liveCommit_cons.mpr ⟨hdropped, Or.inl hcommit⟩)
    · exact (ih hlive).imp_left (fun hlive => liveCommit_cons.mpr ⟨hdropped, Or.inr hlive⟩)

/-- A program with a live commit has made it. -/
theorem exists_of_liveCommit {i : ι} {k : Key} {log : Log Call Answer PyError ι}
    (h : liveCommit i k log = true) : ∃ event, (i, event) ∈ log ∧ committed event = some k := by
  induction log with
  | nil => cases h
  | cons entry log ih =>
    obtain ⟨_, ⟨rfl, hcommitted⟩ | hlive⟩ := liveCommit_cons.mp h
    · exact ⟨entry.2, List.mem_cons_self, hcommitted⟩
    · obtain ⟨event, hmem, hcommitted⟩ := ih hlive
      exact ⟨event, List.mem_cons_of_mem _ hmem, hcommitted⟩

/-- The writes that count are records. -/
theorem recorded_of_write {k : Key} {event : CallEvent} {writes : CallEvent → Option Bool}
    (hwrites : writes ∈ [rowWrite k, lineageWrite k]) (h : writes event = some true) :
    ∃ row, recorded event = some row := by
  obtain ⟨c, r⟩ := event
  simp only [List.mem_cons, List.not_mem_nil, or_false] at hwrites
  rcases hwrites with rfl | rfl <;> cases c <;> cases r <;>
    simp_all [rowWrite, lineageWrite, lineageSet, recorded, deleted]

/-- A program that has recorded commits no more data. -/
theorem not_committed_of_recorded {b : ι → Bool} {i : ι} {newer older : Log Call Answer PyError ι}
    (hrun : Along (fun older entry => (discipline (b entry.1)).guarantee (history entry.1 older)
      entry.2.call) (newer ++ older)) {commit record : CallEvent} {k : Key} {row : ObjectRow}
    (hcommit : (i, commit) ∈ newer) (hcommitted : committed commit = some k)
    (hrecord : (i, record) ∈ older) : recorded record ≠ some row := by
  obtain ⟨late, early, rfl⟩ := List.append_of_mem hcommit
  rw [List.append_assoc, List.cons_append] at hrun
  have hguarantee := hrun.older.1
  have hmem : record ∈ history i (early ++ older) :=
    mem_history.mpr (List.mem_append_right early hrecord)
  obtain ⟨c, r⟩ := commit
  intro hrow
  have hnone : recorded record = none := by
    cases r with
    | error e => simp [committed] at hcommitted
    | ok a =>
      cases c <;> first | exact hguarantee rfl _ hmem | cases hcommitted
  rw [hnone] at hrow
  cases hrow

/-- A delete in a run comes right after its check or drop. -/
theorem checked_of_deleted {b : Bool} {h : List CallEvent} {event : CallEvent} {k : Key}
    (hguarantee : (discipline b).guarantee h event.call) (hdeleted : deleted event = some k) :
    Checked k h := by
  obtain ⟨c, r⟩ := event
  cases c <;> cases r <;> cases hdeleted
  exact hguarantee

variable [Engines]

/-- When a delete is decided its table has no live commit. -/
theorem not_liveCommit_of_checked {s : Stores} {x i : ι} {k : Key} {check : CallEvent}
    {h : List CallEvent} {older : Log Call Answer PyError ι}
    (hpossible : Along (fun older entry => machine.possible (machine.after s older) entry.2)
      ((x, check) :: older))
    (hchecked : Checked k (check :: h)) : ¬ liveCommit i k ((x, check) :: older) = true := by
  intro hlive
  obtain ⟨hdropped, hcommit⟩ := liveCommit_cons.mp hlive
  obtain ⟨c, r⟩ := check
  cases r with
  | error e => cases c <;> exact hchecked
  | ok a =>
    cases c with
    | tableExists k' =>
      obtain ⟨rfl, rfl⟩ := hchecked
      have habsent : false = ((machine.after s older).lakehouse.table k').isSome := hpossible.1
      have htable := table_of_liveCommit hpossible.2 (hcommit.resolve_left (by simp [committed,
        Call.commits]))
      rw [← habsent] at htable
      cases htable
    | dropTable k' => exact hdropped (congrArg some hchecked)
    | _ => exact hchecked

/-- A live record before a delete is one of the segment since the delete was decided. -/
theorem liveRecord_sinceOwn {b : ι → Bool} {s : Stores} {x : ι} {k : Key}
    {older : Log Call Answer PyError ι}
    (hpossible : Along (fun older entry => machine.possible (machine.after s older) entry.2) older)
    (hrun : Along (fun older entry => (discipline (b entry.1)).guarantee (history entry.1 older)
      entry.2.call) older)
    (hchecked : Checked k (history x older)) :
    LiveRecord k older ↔ LiveRecord k (sinceOwn x older) := by
  obtain ⟨check, h, hhistory⟩ : ∃ check h, history x older = check :: h := by
    cases hhistory : history x older with
    | nil => simp [hhistory, Checked] at hchecked
    | cons check h => exact ⟨check, h, rfl⟩
  obtain ⟨rest, hsplit⟩ := split_sinceOwn hhistory
  rw [hhistory] at hchecked
  constructor
  · rintro ⟨writes, hwrites, i, hwriter, hlive⟩
    rw [hsplit] at hpossible hrun hwriter hlive
    have hrecent := (liveCommit_append_cases hlive).resolve_right
      (not_liveCommit_of_checked hpossible.older hchecked)
    refine ⟨writes, hwrites, i, (lastWriter_append_cases hwriter).resolve_right ?_, hrecent⟩
    rintro ⟨record, hrecord, hwrite⟩
    obtain ⟨row, hrow⟩ := recorded_of_write hwrites hwrite
    obtain ⟨commit, hcommit, hcommitted⟩ := exists_of_liveCommit hrecent
    exact not_committed_of_recorded hrun hcommit hcommitted hrecord hrow
  · rintro ⟨writes, hwrites, i, hwriter, hlive⟩
    rw [hsplit]
    exact ⟨writes, hwrites, i, lastWriter_append hwriter, liveCommit_append hlive⟩

/-- A delete removes the metadata of a live object exactly when the log shows a live record. -/
theorem removesLive_iff {s : Stores} {older : Log Call Answer PyError ι} {event : CallEvent}
    (hpossible : Along (fun older entry => machine.possible (machine.after s older) entry.2)
      older) : RemovesLive s older event ↔ ∃ k ∈ deleted event, LiveRecord k older := by
  constructor
  · rintro ⟨k, i, hdeleted, hwriter, hlive, -⟩
    rcases hwriter with hwriter | hwriter
    · exact ⟨k, hdeleted, rowWrite k, by simp, i, hwriter.1, hlive⟩
    · exact ⟨k, hdeleted, lineageWrite k, by simp, i, hwriter.1, hlive⟩
  · rintro ⟨k, hdeleted, writes, hwrites, i, hwriter, hlive⟩
    refine ⟨k, i, hdeleted, ?_, hlive, table_of_liveCommit hpossible hlive⟩
    simp only [List.mem_cons, List.not_mem_nil, or_false] at hwrites
    rcases hwrites with rfl | rfl
    · exact Or.inl ⟨hwriter, row_of_lastWriter hwriter⟩
    · exact Or.inr ⟨hwriter, lineage_of_lastWriter hwriter⟩

/-- No delete of a run removes the metadata of a live object if and only if no producer commits
both data and metadata between a check or drop and the delete that follows it. -/
theorem no_live_removal_iff_deletes_fresh [Python] [Backend] [Sqlglot] {settings : Settings}
    {ops : ι → Operation} {s : Stores} {log : Log Call Answer PyError ι} {threads : ι → Tool Unit}
    (h : Run machine (fun i => (ops i).program settings) s log threads) :
    Along (fun older entry => ¬ RemovesLive s older entry.2) log ↔ Along DeleteFresh log := by
  have hrun := (run_disciplined h).and h.possible
  have hiff : Along (fun older entry => ¬ RemovesLive s older entry.2 ↔ DeleteFresh older entry)
      log := by
    refine hrun.imp (fun older entry hall => ?_)
    rw [removesLive_iff (hall.2.imp (fun _ _ hentry => hentry.1.2))]
    simp only [not_exists, not_and]
    refine forall₂_congr (fun k hdeleted => not_congr ?_)
    exact liveRecord_sinceOwn (b := fun i => (ops i).isSweep)
      (hall.2.imp (fun _ _ hentry => hentry.1.2))
      (hall.2.imp (fun _ _ hentry => hentry.1.1)) (checked_of_deleted hall.1.1 hdeleted)
  constructor
  · intro hsafe
    exact (hsafe.and hiff).imp (fun _ _ hall => hall.1.2.mp hall.1.1)
  · intro hfresh
    exact (hfresh.and hiff).imp (fun _ _ hall => hall.1.2.mpr hall.1.1)

end

section

attribute [local instance] asciiPython eventsSqlglot textEngines externalBackend

/-- `events` is ingested (`0`), forgotten (`1`) and ingested again (`2`). -/
def forgottenIngest : Fin 3 → Operation
  | 0 => ingestEvents ["a"] "create" ["prod"]
  | 1 => .drop "t_acme" "events"
  | 2 => ingestEvents ["b"] "create" ["prod"]

/-- The second ingest runs between the drop of the table and the delete of the row. -/
def lateDelete : List (Fin 3) := List.replicate 6 0 ++ [1, 1] ++ List.replicate 6 2 ++ [1]

/-- The delete at the end of this run removes the row of the second ingest, whose table exists. -/
theorem lateDelete_removesLive : ∃ log threads,
    Run machine (fun i => (forgottenIngest i).program {}) {} log threads ∧
      ¬ Along (fun older entry => ¬ RemovesLive {} older entry.2) log := by
  have hrun := playOps_run forgottenIngest lateDelete
  refine ⟨_, _, hrun, ?_⟩
  have hdelete : (playOps forgottenIngest lateDelete).1 =
      (1, ⟨.deleteObject ("t_acme", "events"), .ok ⟨⟩⟩) ::
        (playOps forgottenIngest lateDelete.dropLast).1 := by rfl
  rw [hdelete] at hrun ⊢
  intro hsafe
  refine hsafe.1 ((removesLive_iff hrun.possible.2).mpr ⟨("t_acme", "events"), rfl, ?_⟩)
  decide +kernel

/-- The second ingest starts after the delete. -/
def promptDelete : List (Fin 3) := List.replicate 6 0 ++ [1, 1, 1] ++ List.replicate 6 2

/-- A delete that comes right after its drop is harmless. -/
theorem promptDelete_harmless : Along (fun older entry => ¬ RemovesLive {} older entry.2)
    (playOps forgottenIngest promptDelete).1 :=
  (no_live_removal_iff_deletes_fresh (playOps_run forgottenIngest promptDelete)).mpr
    (by decide +kernel)

end

end Memcove
