import Memcove.Core.Clients

/-!
# The upload of the Flight server

`MemcoveFlightServer.do_put` behind its ticket check: the batches of the stream are buffered and
committed in one write, or in chunks once they reach the threshold.
-/

namespace Memcove

open Programs

/-- The rows of a record batch that fits the schema of its stream. -/
def Batch (schema : Columns) : Type :=
  { rows : Rows // ∀ row ∈ rows, List.Forall₂ (fun field cell => cell.Fits field.2) schema row }

/-- `pa.Table.from_batches`. -/
def fromBatches {schema : Columns} (batches : List (Batch schema)) : ArrowTable where
  schema := schema
  rows := (batches.map (·.1)).flatten
  fits := by
    intro row hrow
    obtain ⟨rows, hrows, hmem⟩ := List.mem_flatten.mp hrow
    obtain ⟨batch, _, rfl⟩ := List.mem_map.mp hrows
    exact batch.2 row hmem

/-- The local variables of `do_put`. -/
structure PutState (schema : Columns) where
  buffer : List (Batch schema) := []
  buffered : ℕ := 0
  total : ℕ := 0
  commits : ℕ := 0

variable [Python] [Backend] {schema : Columns}

/-- `_flush`. -/
def flush (tenant name : String) (mode : Json) (s : PutState schema) : Tool (PutState schema) :=
  if s.buffer.isEmpty then .pure s
  else do
    let _ ← writeArrow tenant name (fromBatches s.buffer)
      (if s.commits = 0 then mode else .str "append")
    return { s with buffer := [], buffered := 0, commits := s.commits + 1 }

/-- The loop over the chunks of the stream; a chunk may have no data. -/
def putChunks (settings : Settings) (tenant name : String) (mode : Json) :
    List (Option (Batch schema)) → PutState schema → Tool (PutState schema)
  | [], s => .pure s
  | none :: chunks, s => putChunks settings tenant name mode chunks s
  | some batch :: chunks, s =>
    if batch.1.isEmpty then putChunks settings tenant name mode chunks s
    else
      let s := { s with
        buffer := s.buffer ++ [batch]
        buffered := s.buffered + batch.1.length
        total := s.total + batch.1.length }
      if settings.doputSingleCommitMaxRows ≤ s.buffered then do
        let s ← flush tenant name mode s
        putChunks settings tenant name mode chunks s
      else putChunks settings tenant name mode chunks s

/-- The row that a finished upload records. -/
def streamRow (settings : Settings) (tenant name : String) : ObjectRow where
  tenant := tenant
  label := name
  tableIdent := tableIdent settings tenant name
  source := .stream
  sourceRef := some "flight"

/-- All writes of an upload. An empty upload writes a table without rows. -/
def putData (settings : Settings) (tenant name : String) (mode : Json)
    (chunks : List (Option (Batch schema))) : Tool (PutState schema) := do
  let s ← putChunks settings tenant name mode chunks {}
  let s ← flush tenant name mode s
  if s.commits = 0 then do
    let _ ← writeArrow tenant name (fromBatches ([] : List (Batch schema))) mode
    return s
  else return s

/-- The rows of all chunks of a stream. -/
def uploadRows (chunks : List (Option (Batch schema))) : Rows :=
  (chunks.filterMap id).flatMap (·.1)

/-- `do_put` behind its ticket check. -/
def doPut (settings : Settings) (target : PyM (String × String × Json))
    (chunks : List (Option (Batch schema))) : Tool PUnit := do
  let (tenant, name, mode) ← Program.lift target
  let _ ← putData settings tenant name mode chunks
  let _ ← recordObjectGuarded (streamRow settings tenant name) [] none
  return ⟨⟩

section

omit [Backend]

variable {K : Contract Call Answer PyError} {I : ℕ → Rows → List CallEvent → Prop}
  {Φ : List CallEvent → PyError → Prop} {settings : Settings} {tenant name : String} {mode : Json}

/-- Every commit of an upload keeps an invariant of the number of commits, the committed rows and
the history. -/
def KeptByCommits (K : Contract Call Answer PyError) (I : ℕ → Rows → List CallEvent → Prop)
    (Φ : List CallEvent → PyError → Prop) (schema : Columns) (tenant name : String) (mode : Json) :
    Prop :=
  ∀ commits rows (batches : List (Batch schema)) h, I commits rows h →
    Sat K (fun h r => match r with
      | .ok _ => I (commits + 1) (rows ++ (fromBatches batches).rows) h
      | .error e => Φ h e) h
      (writeArrow tenant name (fromBatches batches) (if commits = 0 then mode else .str "append"))

/-- What is committed or buffered are the rows of the chunks so far. -/
def Uploaded (I : ℕ → Rows → List CallEvent → Prop) (rows : Rows) (s : PutState schema)
    (h : List CallEvent) : Prop :=
  ∃ committed, I s.commits committed h ∧ committed ++ (fromBatches s.buffer).rows = rows

/-- `_flush` commits the buffer. -/
theorem flush_rule (hwrite : KeptByCommits K I Φ schema tenant name mode) {s : PutState schema}
    {rows : Rows} {h : List CallEvent} (hs : Uploaded I rows s h) :
    Sat K (fun h r => match r with
      | .ok s => s.buffer = [] ∧ Uploaded I rows s h
      | .error e => Φ h e) h (flush tenant name mode s) := by
  obtain ⟨committed, hcommitted, hrows⟩ := hs
  unfold flush
  split
  · rename_i hempty
    have hnil : s.buffer = [] := by simpa using hempty
    exact ⟨hnil, committed, hcommitted, hrows⟩
  · refine (hwrite s.commits committed s.buffer h hcommitted).bind (fun h n hn => ?_)
      (fun _ _ he => he)
    refine ⟨rfl, _, hn, ?_⟩
    rw [hrows]
    exact List.append_nil rows

/-- The loop over the chunks commits or buffers their rows. -/
theorem putChunks_rule (hwrite : KeptByCommits K I Φ schema tenant name mode)
    (chunks : List (Option (Batch schema))) {s : PutState schema} {rows : Rows}
    {h : List CallEvent} (hs : Uploaded I rows s h) :
    Sat K (fun h r => match r with
      | .ok s => Uploaded I (rows ++ uploadRows chunks) s h
      | .error e => Φ h e) h (putChunks settings tenant name mode chunks s) := by
  induction chunks generalizing s rows h with
  | nil =>
    have hrows : rows ++ uploadRows ([] : List (Option (Batch schema))) = rows :=
      List.append_nil rows
    simp only [putChunks, hrows]
    exact hs
  | cons chunk chunks ih =>
    cases chunk with
    | none => exact ih hs
    | some batch =>
      have hrows : rows ++ uploadRows (some batch :: chunks) =
          (rows ++ batch.1) ++ uploadRows chunks := by
        simp [uploadRows]
      rw [hrows]
      unfold putChunks
      split
      · rename_i hempty
        have hnil : batch.1 = [] := by simpa using hempty
        rw [hnil, List.append_nil]
        exact ih hs
      · obtain ⟨committed, hcommitted, heq⟩ := hs
        have hbuffered : Uploaded I (rows ++ batch.1) { s with
            buffer := s.buffer ++ [batch]
            buffered := s.buffered + batch.1.length
            total := s.total + batch.1.length } h := by
          refine ⟨committed, hcommitted, ?_⟩
          rw [← heq]
          simp [fromBatches]
        dsimp only
        split
        · exact (flush_rule hwrite hbuffered).bind (fun h s hs => ih hs.2) (fun _ _ he => he)
        · exact ih hbuffered

/-- An invariant that every commit keeps holds after the upload, of at least one commit and of all
rows. -/
theorem putData_rule (hwrite : KeptByCommits K I Φ schema tenant name mode)
    (chunks : List (Option (Batch schema))) {h : List CallEvent} (hinit : I 0 [] h) :
    Sat K (fun h r => match r with
      | .ok _ => ∃ commits, commits ≠ 0 ∧ I commits (uploadRows chunks) h
      | .error e => Φ h e) h (putData settings tenant name mode chunks) := by
  have hstart : Uploaded I [] ({} : PutState schema) h := ⟨[], hinit, rfl⟩
  refine (putChunks_rule hwrite chunks hstart).bind (fun h s hs => ?_) (fun _ _ he => he)
  refine (flush_rule hwrite hs).bind (fun h s hs => ?_) (fun _ _ he => he)
  obtain ⟨hbuffer, committed, hcommitted, hrows⟩ := hs
  have hall : committed = uploadRows chunks := by
    rw [hbuffer] at hrows
    simpa [fromBatches] using hrows
  subst hall
  split
  · rename_i hzero
    rw [hzero] at hcommitted
    have hempty := hwrite 0 (uploadRows chunks) [] h hcommitted
    refine hempty.bind (fun h n hn => ⟨1, by decide, ?_⟩) (fun _ _ he => he)
    have hnil : uploadRows chunks ++ (fromBatches ([] : List (Batch schema))).rows =
        uploadRows chunks := List.append_nil _
    rwa [hnil] at hn
  · rename_i hcommits
    exact ⟨s.commits, hcommits, hcommitted⟩

end

end Memcove
