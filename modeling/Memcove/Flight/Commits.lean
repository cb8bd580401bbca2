import Memcove.Flight.Upload

/-!
# The writes of an upload

`do_put` counts rows and commits in mutable variables. What it does is nevertheless a fixed list of
writes, computed from the chunks alone, made one after the other.
-/

namespace Memcove

open Programs

variable {schema : Columns}

/-- The number of buffered rows. -/
def rowsIn (buffer : List (Batch schema)) : ℕ := (fromBatches buffer).rows.length

/-- The writes of the loop and of the last flush, from the mode of the next write and the
buffer. -/
def commitPlan (threshold : Int) :
    Json → List (Batch schema) → List (Option (Batch schema)) → List (ArrowTable × Json)
  | mode, buffer, [] => if buffer.isEmpty then [] else [(fromBatches buffer, mode)]
  | mode, buffer, none :: chunks => commitPlan threshold mode buffer chunks
  | mode, buffer, some batch :: chunks =>
    if batch.1.isEmpty then commitPlan threshold mode buffer chunks
    else if threshold ≤ rowsIn (buffer ++ [batch]) then
      (fromBatches (buffer ++ [batch]), mode) :: commitPlan threshold (.str "append") [] chunks
    else commitPlan threshold mode (buffer ++ [batch]) chunks

/-- The writes of an upload: without a commit an empty table is written. -/
def uploadWrites (threshold : Int) (mode : Json) (chunks : List (Option (Batch schema))) :
    List (ArrowTable × Json) :=
  match commitPlan threshold mode [] chunks with
  | [] => [(fromBatches ([] : List (Batch schema)), mode)]
  | writes => writes

/-- The rows of a longer buffer. -/
theorem rows_fromBatches_append (buffer buffer' : List (Batch schema)) :
    (fromBatches (buffer ++ buffer')).rows =
      (fromBatches buffer).rows ++ (fromBatches buffer').rows := by
  simp [fromBatches]

/-- The rows of the next chunk come before those of the rest. -/
theorem uploadRows_cons (batch : Batch schema) (chunks : List (Option (Batch schema))) :
    uploadRows (some batch :: chunks) = (fromBatches [batch]).rows ++ uploadRows chunks := by
  simp [uploadRows, fromBatches]

/-- The number of rows of a longer buffer. -/
theorem rowsIn_append (buffer : List (Batch schema)) (batch : Batch schema) :
    rowsIn (buffer ++ [batch]) = rowsIn buffer + (uploadRows [some batch]).length := by
  rw [rowsIn, rows_fromBatches_append, List.length_append]
  simp [rowsIn, fromBatches, uploadRows]

/-- The planned writes contain the buffered rows and those of the chunks, in this order. -/
theorem rows_commitPlan (threshold : Int) (mode : Json) (buffer : List (Batch schema))
    (chunks : List (Option (Batch schema))) :
    ((commitPlan threshold mode buffer chunks).map (fun w => w.1.rows)).flatten =
      (fromBatches buffer).rows ++ uploadRows chunks := by
  induction mode, buffer, chunks using commitPlan.induct threshold with
  | case1 mode buffer hempty =>
    rw [commitPlan, if_pos hempty, List.isEmpty_iff.mp hempty]
    rfl
  | case2 mode buffer hne =>
    rw [commitPlan, if_neg hne]
    simp [uploadRows]
  | case3 mode buffer chunks ih => exact ih
  | case4 mode buffer batch chunks hempty ih =>
    have hnil : (fromBatches [batch]).rows = [] := by
      simpa [fromBatches] using hempty
    rw [commitPlan, if_pos hempty, ih, uploadRows_cons, hnil, List.nil_append]
  | case5 mode buffer batch chunks hne hfull ih =>
    rw [commitPlan, if_neg hne, if_pos hfull, List.map_cons, List.flatten_cons, ih,
      rows_fromBatches_append, uploadRows_cons, List.append_assoc]
    rfl
  | case6 mode buffer batch chunks hne hroom ih =>
    rw [commitPlan, if_neg hne, if_neg hroom, ih, rows_fromBatches_append, uploadRows_cons,
      List.append_assoc]

/-- The first write is in the requested mode, every later one appends. -/
def ModesOf (mode : Json) : List (ArrowTable × Json) → Prop
  | [] => True
  | write :: rest => write.2 = mode ∧ ∀ later ∈ rest, later.2 = .str "append"

/-- The modes of the planned writes. -/
theorem modes_commitPlan (threshold : Int) (mode : Json) (buffer : List (Batch schema))
    (chunks : List (Option (Batch schema))) :
    ModesOf mode (commitPlan threshold mode buffer chunks) := by
  induction mode, buffer, chunks using commitPlan.induct threshold with
  | case1 mode buffer hempty =>
    rw [commitPlan, if_pos hempty]
    trivial
  | case2 mode buffer hne =>
    rw [commitPlan, if_neg hne]
    exact ⟨rfl, fun _ hlater => (List.not_mem_nil hlater).elim⟩
  | case3 mode buffer chunks ih => exact ih
  | case4 mode buffer batch chunks hempty ih =>
    rw [commitPlan, if_pos hempty]
    exact ih
  | case5 mode buffer batch chunks hne hfull ih =>
    rw [commitPlan, if_neg hne, if_pos hfull]
    refine ⟨rfl, ?_⟩
    cases hrest : commitPlan threshold (.str "append") [] chunks with
    | nil => simp
    | cons write rest =>
      rw [hrest] at ih
      exact List.forall_mem_cons.mpr ih
  | case6 mode buffer batch chunks hne hroom ih =>
    rw [commitPlan, if_neg hne, if_neg hroom]
    exact ih

/-- No row arrives after the threshold was reached, when so many rows came before the chunks. -/
def FitsOneCommit (threshold : Int) (buffered : ℕ) (chunks : List (Option (Batch schema))) : Prop :=
  ∀ before after, chunks = before ++ after → 0 < buffered + (uploadRows before).length →
    threshold ≤ (buffered + (uploadRows before).length : ℕ) → uploadRows after = []

/-- A stream that has ended. -/
theorem fitsOneCommit_nil (threshold : Int) (buffered : ℕ) :
    FitsOneCommit threshold buffered ([] : List (Option (Batch schema))) := by
  intro before after h _ _
  obtain ⟨_, rfl⟩ := List.append_eq_nil_iff.mp h.symm
  rfl

/-- The next chunk, before the threshold was reached. -/
theorem fitsOneCommit_cons {threshold : Int} {buffered : ℕ} (chunk : Option (Batch schema))
    (chunks : List (Option (Batch schema)))
    (hroom : buffered = 0 ∨ (buffered : Int) < threshold) :
    FitsOneCommit threshold buffered (chunk :: chunks) ↔
      FitsOneCommit threshold (buffered + (uploadRows [chunk]).length) chunks := by
  have hrows (before : List (Option (Batch schema))) :
      (uploadRows (chunk :: before)).length =
        (uploadRows [chunk]).length + (uploadRows before).length := by
    rw [← List.length_append]
    simp only [uploadRows, ← List.flatMap_append, ← List.filterMap_append, List.singleton_append]
  constructor
  · intro h before after happend hpos hfull
    rw [Nat.add_assoc, ← hrows] at hpos hfull
    exact h (chunk :: before) after (congrArg (chunk :: ·) happend) hpos hfull
  · intro h before after happend hpos hfull
    cases before with
    | nil =>
      -- the threshold was not reached before this chunk
      simp only [uploadRows, List.filterMap_nil, List.flatMap_nil, List.length_nil,
        Nat.add_zero] at hpos hfull
      omega
    | cons first before =>
      obtain ⟨rfl, hrest⟩ := List.cons.inj happend
      rw [hrows, ← Nat.add_assoc] at hpos hfull
      exact h before after hrest hpos hfull

/-- When the threshold is reached, no row may follow. -/
theorem fitsOneCommit_full {threshold : Int} {buffered : ℕ}
    {chunks : List (Option (Batch schema))} (hpos : 0 < buffered)
    (hfull : threshold ≤ (buffered : Int)) :
    FitsOneCommit threshold buffered chunks ↔ uploadRows chunks = [] := by
  constructor
  · intro h
    exact h [] chunks rfl (by omega) (by push_cast; omega)
  · rintro h before after rfl _ _
    simp only [uploadRows, List.filterMap_append, List.flatMap_append,
      List.append_eq_nil_iff] at h
    exact h.2

/-- Below the threshold. -/
theorem fitsOneCommit_of_lt {threshold : Int} {buffered : ℕ}
    {chunks : List (Option (Batch schema))}
    (h : ((buffered + (uploadRows chunks).length : ℕ) : Int) < threshold) :
    FitsOneCommit threshold buffered chunks := by
  rintro before after rfl _ hfull
  simp only [uploadRows, List.filterMap_append, List.flatMap_append, List.length_append] at h hfull
  omega

/-- Nothing is written exactly when no row arrives. -/
theorem commitPlan_eq_nil_iff (threshold : Int) (mode : Json)
    {chunks : List (Option (Batch schema))} :
    commitPlan threshold mode [] chunks = [] ↔ uploadRows chunks = [] := by
  constructor
  · intro h
    have hrows := rows_commitPlan threshold mode [] chunks
    rw [h] at hrows
    exact hrows.symm
  · intro h
    induction chunks with
    | nil => rfl
    | cons chunk chunks ih =>
      cases chunk with
      | none => exact ih h
      | some batch =>
        rw [uploadRows_cons, List.append_eq_nil_iff] at h
        have hempty : batch.1.isEmpty = true := by simpa [fromBatches] using h.1
        rw [commitPlan, if_pos hempty]
        exact ih h.2

/-- There is at most one planned write exactly when no row arrives after the threshold was
reached. -/
theorem commitPlan_single_iff {threshold : Int} (mode : Json) {buffer : List (Batch schema)}
    {chunks : List (Option (Batch schema))}
    (hroom : rowsIn buffer = 0 ∨ (rowsIn buffer : Int) < threshold) :
    (commitPlan threshold mode buffer chunks).length ≤ 1 ↔
      FitsOneCommit threshold (rowsIn buffer) chunks := by
  induction mode, buffer, chunks using commitPlan.induct threshold with
  | case1 mode buffer hempty =>
    rw [commitPlan, if_pos hempty]
    exact iff_of_true (Nat.zero_le 1) (fitsOneCommit_nil _ _)
  | case2 mode buffer hne =>
    rw [commitPlan, if_neg hne]
    exact iff_of_true (Nat.le_refl 1) (fitsOneCommit_nil _ _)
  | case3 mode buffer chunks ih =>
    exact (ih hroom).trans (fitsOneCommit_cons none chunks hroom).symm
  | case4 mode buffer batch chunks hempty ih =>
    have hnone : (uploadRows [some batch]).length = 0 := by
      simpa [uploadRows] using hempty
    rw [commitPlan, if_pos hempty, fitsOneCommit_cons _ _ hroom, hnone, Nat.add_zero]
    exact ih hroom
  | case5 mode buffer batch chunks hne hfull ih =>
    rw [rowsIn_append] at hfull
    have hpos : 0 < (uploadRows [some batch]).length := by
      have := List.length_pos_iff.mpr (mt List.isEmpty_iff.mpr hne)
      simpa [uploadRows] using this
    rw [commitPlan, if_neg hne, if_pos (by rwa [rowsIn_append]), fitsOneCommit_cons _ _ hroom,
      fitsOneCommit_full (by omega) hfull, List.length_cons,
      ← commitPlan_eq_nil_iff threshold (.str "append"), ← List.length_eq_zero_iff]
    omega
  | case6 mode buffer batch chunks hne hroom' ih =>
    rw [rowsIn_append] at hroom' ih
    rw [commitPlan, if_neg hne, if_neg (by rwa [rowsIn_append]), fitsOneCommit_cons _ _ hroom]
    exact ih (Or.inr (by omega))

/-- The tables that are planned have the schema of the stream. -/
theorem schema_commitPlan (threshold : Int) (mode : Json) (buffer : List (Batch schema))
    (chunks : List (Option (Batch schema))) :
    ∀ write ∈ commitPlan threshold mode buffer chunks, write.1.schema = schema := by
  induction mode, buffer, chunks using commitPlan.induct threshold with
  | case1 mode buffer hempty =>
    rw [commitPlan, if_pos hempty]
    simp
  | case2 mode buffer hne =>
    rw [commitPlan, if_neg hne]
    exact List.forall_mem_singleton.mpr rfl
  | case3 mode buffer chunks ih => exact ih
  | case4 mode buffer batch chunks hempty ih =>
    rw [commitPlan, if_pos hempty]
    exact ih
  | case5 mode buffer batch chunks hne hfull ih =>
    rw [commitPlan, if_neg hne, if_pos hfull]
    exact List.forall_mem_cons.mpr ⟨rfl, ih⟩
  | case6 mode buffer batch chunks hne hroom ih =>
    rw [commitPlan, if_neg hne, if_neg hroom]
    exact ih

/-- The writes of an upload: all rows in arrival order, the first write in the requested mode and
the others as appends, and only one below the threshold. -/
structure UploadPlan (schema : Columns) (threshold : Int) (mode : Json) (all : Rows)
    (writes : List (ArrowTable × Json)) : Prop where
  rows : (writes.map (fun write => write.1.rows)).flatten = all
  schema : ∀ write ∈ writes, write.1.schema = schema
  modes : ModesOf mode writes
  nonempty : writes ≠ []
  single : (all.length : Int) < threshold → ∃ table, writes = [(table, mode)]

/-- The writes of an upload follow the plan. -/
theorem uploadWrites_plan (threshold : Int) (mode : Json) (chunks : List (Option (Batch schema))) :
    UploadPlan schema threshold mode (uploadRows chunks) (uploadWrites threshold mode chunks) := by
  have hrows := rows_commitPlan threshold mode [] chunks
  have hmodes := modes_commitPlan threshold mode [] chunks
  have hschema := schema_commitPlan threshold mode [] chunks
  unfold uploadWrites
  split
  · rename_i hnone
    rw [hnone] at hrows
    refine ⟨hrows, List.forall_mem_singleton.mpr rfl, ⟨rfl, by simp⟩, List.cons_ne_nil _ _,
      fun _ => ⟨_, rfl⟩⟩
  · rename_i writes hsome
    refine ⟨hrows, hschema, hmodes, hsome, fun hbelow => ?_⟩
    have hone : (commitPlan threshold mode [] chunks).length ≤ 1 :=
      (commitPlan_single_iff mode (Or.inl rfl)).mpr
        (fitsOneCommit_of_lt (by simpa [rowsIn, fromBatches] using hbelow))
    cases hplan : commitPlan threshold mode [] chunks with
    | nil => exact (hsome hplan).elim
    | cons write rest =>
      rw [hplan] at hone hmodes
      rw [List.length_cons] at hone
      have hrest : rest = [] := List.length_eq_zero_iff.mp (by omega)
      subst hrest
      exact ⟨write.1, by rw [← hmodes.1]⟩

/-- An upload makes a single write exactly when no row arrives after the threshold was reached. -/
theorem uploadWrites_single_iff {threshold : Int} (mode : Json)
    {chunks : List (Option (Batch schema))} :
    (∃ table, uploadWrites threshold mode chunks = [(table, mode)]) ↔
      FitsOneCommit threshold 0 chunks := by
  have hsingle : (commitPlan threshold mode [] chunks).length ≤ 1 ↔
      FitsOneCommit threshold (rowsIn ([] : List (Batch schema))) chunks :=
    commitPlan_single_iff mode (Or.inl rfl)
  have hmodes := modes_commitPlan threshold mode [] chunks
  rw [← show rowsIn ([] : List (Batch schema)) = 0 from rfl, ← hsingle, uploadWrites]
  cases hplan : commitPlan threshold mode [] chunks with
  | nil => exact iff_of_true ⟨_, rfl⟩ (Nat.zero_le 1)
  | cons write rest =>
    rw [hplan] at hmodes
    obtain ⟨table, mode'⟩ := write
    obtain rfl : mode' = mode := hmodes.1
    cases rest with
    | nil => exact iff_of_true ⟨table, rfl⟩ (Nat.le_refl 1)
    | cons later rest => simp

section

variable [Python] {settings : Settings} {tenant name : String} {mode : Json}

/-- Calls of `write_arrow`, one after the other. -/
def writeAll (tenant name : String) (writes : List (ArrowTable × Json)) : Tool PUnit :=
  Program.each (fun write => do
    let _ ← writeArrow tenant name write.1 write.2
    return ⟨⟩) writes

/-- One write and those after it. -/
theorem writeAll_cons (table : ArrowTable) (mode : Json) (writes : List (ArrowTable × Json)) :
    writeAll tenant name ((table, mode) :: writes) = (do
      let _ ← writeArrow tenant name table mode
      writeAll tenant name writes) := by
  change (_ >>= fun _ => _) >>= (fun _ => writeAll tenant name writes) = _
  simp only [bind_assoc, pure_bind]

/-- The mode of the next write. -/
def PutState.nextMode (mode : Json) (s : PutState schema) : Json :=
  if s.commits = 0 then mode else .str "append"

/-- A flush of buffered rows. -/
theorem flush_eq {s : PutState schema} (h : s.buffer ≠ []) :
    flush tenant name mode s = (do
      let _ ← writeArrow tenant name (fromBatches s.buffer) (s.nextMode mode)
      return { s with buffer := [], buffered := 0, commits := s.commits + 1 }) := by
  rw [flush, if_neg (by simpa using h)]
  rfl

variable (settings tenant name mode) in
/-- The loop and the last flush make the planned writes. -/
theorem putChunks_flush_eq (chunks : List (Option (Batch schema))) {s : PutState schema}
    (hbuffered : s.buffered = rowsIn s.buffer) :
    (do
      let s ← putChunks settings tenant name mode chunks s
      flush tenant name mode s) = (do
      writeAll tenant name
        (commitPlan settings.doputSingleCommitMaxRows (s.nextMode mode) s.buffer chunks)
      return (⟨[], 0, s.total + (uploadRows chunks).length, s.commits +
        (commitPlan settings.doputSingleCommitMaxRows (s.nextMode mode) s.buffer chunks).length⟩ :
          PutState schema)) := by
  induction chunks generalizing s with
  | nil =>
    change flush tenant name mode s = _
    by_cases hempty : s.buffer = []
    · obtain ⟨buffer, buffered, total, commits⟩ := s
      obtain rfl : buffer = [] := hempty
      obtain rfl : buffered = 0 := hbuffered
      rfl
    · have hne : s.buffer.isEmpty = false := by simpa using hempty
      rw [flush_eq hempty, commitPlan, hne]
      simp only [Bool.false_eq_true, if_false, writeAll_cons, bind_assoc]
      rfl
  | cons chunk chunks ih =>
    cases chunk with
    | none => exact ih hbuffered
    | some batch =>
      by_cases hempty : batch.1.isEmpty = true
      · have hnil : (fromBatches [batch]).rows = [] := by simpa [fromBatches] using hempty
        simp only [putChunks, commitPlan, if_pos hempty, uploadRows_cons, hnil, List.nil_append]
        exact ih hbuffered
      · have hgrown : s.buffered + batch.1.length = rowsIn (s.buffer ++ [batch]) := by
          rw [hbuffered, rowsIn, rowsIn, rows_fromBatches_append, List.length_append]
          simp [fromBatches]
        have hbatch : (fromBatches [batch]).rows.length = batch.1.length := by
          simp [fromBatches]
        simp only [putChunks, commitPlan, if_neg hempty, uploadRows_cons, List.length_append,
          hbatch]
        rw [← Nat.add_assoc]
        by_cases hfull : settings.doputSingleCommitMaxRows ≤ (rowsIn (s.buffer ++ [batch]) : Int)
        · have hrest := ih (s := ⟨[], 0, s.total + batch.1.length, s.commits + 1⟩) rfl
          simp only [hgrown, if_pos hfull, writeAll_cons, bind_assoc]
          rw [flush_eq (by simp)]
          have hmode : PutState.nextMode mode (⟨[], 0, s.total + batch.1.length,
              s.commits + 1⟩ : PutState schema) = .str "append" := if_neg (Nat.succ_ne_zero _)
          simp only [hmode] at hrest
          simp only [bind_assoc, pure_bind, hrest, List.length_cons]
          rw [Nat.add_right_comm s.commits 1]
          rfl
        · have hrest := ih (s := ⟨s.buffer ++ [batch], s.buffered + batch.1.length,
            s.total + batch.1.length, s.commits⟩) hgrown
          simp only [hgrown, if_neg hfull] at hrest ⊢
          exact hrest

variable (settings tenant name mode) in
/-- The writes of `do_put`, counted as its local variables count them. -/
theorem putData_eq (chunks : List (Option (Batch schema))) :
    ∃ state : PutState schema, putData settings tenant name mode chunks = (do
      writeAll tenant name (uploadWrites settings.doputSingleCommitMaxRows mode chunks)
      return state) := by
  have hloop := putChunks_flush_eq settings tenant name mode chunks (s := {}) rfl
  have hmode : PutState.nextMode mode ({} : PutState schema) = mode := rfl
  rw [hmode] at hloop
  have hdata : putData settings tenant name mode chunks = (do
      let s ← (do
        let s ← putChunks settings tenant name mode chunks {}
        flush tenant name mode s)
      if s.commits = 0 then do
        let _ ← writeArrow tenant name (fromBatches ([] : List (Batch schema))) mode
        return s
      else return s) := by
    rw [bind_assoc]
    rfl
  refine ⟨⟨[], 0, 0 + (uploadRows chunks).length,
    0 + (commitPlan settings.doputSingleCommitMaxRows mode [] chunks).length⟩, ?_⟩
  rw [hdata, hloop, bind_assoc, uploadWrites]
  cases hplan : commitPlan settings.doputSingleCommitMaxRows mode [] chunks with
  | nil =>
    simp only [pure_bind, writeAll_cons, bind_assoc]
    rfl
  | cons write rest => rfl

/-- `do_put` when the reader raises after the given chunks. -/
def doPutInterrupted (settings : Settings) (target : PyM (String × String × Json))
    (chunks : List (Option (Batch schema))) (e : PyError) : Tool PUnit := do
  let (tenant, name, mode) ← Program.lift target
  let _ ← putChunks settings tenant name mode chunks {}
  .raise e

variable (settings tenant name mode) in
/-- Below the threshold the loop only buffers. -/
theorem putChunks_below (chunks : List (Option (Batch schema))) {s : PutState schema}
    (h : ((s.buffered + (uploadRows chunks).length : ℕ) : Int) <
      settings.doputSingleCommitMaxRows) :
    ∃ s', putChunks settings tenant name mode chunks s = .pure s' := by
  induction chunks generalizing s with
  | nil => exact ⟨s, rfl⟩
  | cons chunk chunks ih =>
    cases chunk with
    | none => exact ih h
    | some batch =>
      have hbatch : (fromBatches [batch]).rows.length = batch.1.length := by
        simp [fromBatches]
      rw [uploadRows_cons, List.length_append, hbatch] at h
      unfold putChunks
      split
      · exact ih (by omega)
      · dsimp only
        rw [if_neg (by omega)]
        exact ih (by dsimp only; omega)

/-- A reader that fails before the threshold leaves no call behind. -/
theorem doPutInterrupted_below (chunks : List (Option (Batch schema))) (e : PyError)
    (h : ((uploadRows chunks).length : Int) < settings.doputSingleCommitMaxRows) :
    doPutInterrupted settings (.ok (tenant, name, mode)) chunks e = .raise e := by
  obtain ⟨s', hs'⟩ := putChunks_below settings tenant name mode chunks (s := {}) (by simpa using h)
  change (putChunks settings tenant name mode chunks {} >>= fun _ => .raise e) = _
  rw [hs']
  rfl

variable [Backend]

/-- `do_put` behind its ticket check: the planned writes, then the record. -/
theorem doPut_eq (chunks : List (Option (Batch schema))) :
    doPut settings (.ok (tenant, name, mode)) chunks = (do
      writeAll tenant name (uploadWrites settings.doputSingleCommitMaxRows mode chunks)
      let _ ← recordObjectGuarded (streamRow settings tenant name) [] none
      return ⟨⟩) := by
  obtain ⟨state, hdata⟩ := putData_eq settings tenant name mode chunks
  change (putData settings tenant name mode chunks >>= fun _ => _) = _
  rw [hdata, bind_assoc]
  rfl

end

end Memcove
