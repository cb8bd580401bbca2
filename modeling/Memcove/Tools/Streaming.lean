import Memcove.Lib.Generators
import Memcove.Tools.Export

/-!
# Streams and their connections

`stream_arrow_batches` of `core/trino_client.py` opens a connection, runs the statement and returns
a generator whose `finally` block closes the connection. Between the opening and the first `next`
there is no such block: a call that raises there, and an iterator that is closed before it was
advanced, leave the connection open.
-/

namespace Memcove

open Generators

/-- The Trino connection of one call. -/
inductive Connection where
  | unopened | opened | closed
  deriving DecidableEq, Repr

/-- How the Trino client and the Arrow library answer one call. A cursor stands for the result that
is still to be fetched from it. -/
structure TrinoClient (C : Type) where
  connect : Option String → PyM Unit
  cursor : PyM Unit
  execute : String → PyM C
  description : C → PyM (List (String × String))
  fetchmany : ℕ → C → PyM (Rows × C)
  build : Columns → Rows → PyM Unit

/-- What `stream_arrow_batches` returns: the schema and a generator object. -/
structure ArrowStream (C : Type) where
  schema : Columns
  generator : Generator C Rows PyError Connection
  start : C

/-- A part of the call before the generator exists: an error leaves the connection as it is. -/
abbrev CallM (α : Type) := ExceptT PyError (StateM Connection) α

/-- A step that does not touch the connection. -/
def CallM.lift {α : Type} (x : PyM α) : CallM α := fun connection => (x, connection)

/-- A step that returns goes on. -/
@[simp] theorem CallM.lift_ok_bind {α β : Type} (a : α) (f : α → CallM β) :
    CallM.lift (.ok a) >>= f = f a := rfl

/-- A step that raises ends the call with the connection as it is. -/
@[simp] theorem CallM.lift_error_bind {α β : Type} (e : PyError) (f : α → CallM β)
    (connection : Connection) : (CallM.lift (.error e) >>= f).run connection =
      (.error e, connection) := rfl

/-- `batch_rows or s.stream_batch_rows`. -/
def batchSize (settings : Settings) (batchRows : Option ℕ) : ℕ :=
  if batchRows.getD 0 = 0 then settings.streamBatchRows else batchRows.getD 0

/-- `_empty`. -/
def emptyBatches {C : Type} : Generator C Rows PyError Connection where
  resume _ := .ok none
  final := id

namespace TrinoClient

variable {C : Type} (client : TrinoClient C)

/-- One round of the loop of `_gen`. -/
def fetchBatch (size : ℕ) (schema : Columns) (cur : C) : PyM (Option (Rows × C)) := do
  let (rows, cur) ← client.fetchmany size cur
  if rows.isEmpty then return none
  else
    client.build schema rows
    return some (rows.map (buildRow schema), cur)

/-- `_gen`. -/
def genBatches (size : ℕ) (schema : Columns) : Generator C Rows PyError Connection where
  resume := client.fetchBatch size schema
  final _ := .closed

variable [Python]

/-- `stream_arrow_batches`. -/
def streamArrowBatches (settings : Settings) (sql : String) (runAs : Option String)
    (batchRows : Option ℕ) : CallM (ArrowStream C) := do
  let size := batchSize settings batchRows
  CallM.lift (client.connect runAs)
  set Connection.opened
  CallM.lift client.cursor
  let cur ← CallM.lift (client.execute sql)
  let description ← CallM.lift (client.description cur)
  let schema := streamSchema description
  if schema.isEmpty then
    set Connection.closed
    return ⟨schema, emptyBatches, cur⟩
  else return ⟨schema, client.genBatches size schema, cur⟩

/-- What there is to see after a call and some requests of its consumer. -/
structure View where
  connection : Connection
  ended : Bool
  consumed : Bool
  schema : Columns
  batches : List Rows

/-- The view after a call and the requests of the consumer. A call that raised has ended, and so has
an iterator that was exhausted or closed. One without columns is exhausted from the start. -/
def view (settings : Settings) (sql : String) (runAs : Option String) (batchRows : Option ℕ)
    (requests : List Request) : View :=
  match (client.streamArrowBatches settings sql runAs batchRows).run .unopened with
  | (.error _, connection) => ⟨connection, true, false, [], []⟩
  | (.ok stream, connection) =>
    let result := stream.generator.run ⟨.created stream.start, connection⟩ requests
    ⟨result.1.world, stream.schema.isEmpty || result.1.phase.isFinished,
      result.1.phase.isReturned, stream.schema, result.2⟩

/-- At every point of the consumer's requests the connection is open exactly as long as the call has
not raised and the iterator was neither exhausted nor closed; and when the iterator is exhausted,
its batches are the rows of the result, none larger than the batch size. -/
structure NeverLeaks (settings : Settings) (sql : String) (runAs : Option String)
    (batchRows : Option ℕ) (rows : Rows) (requests : List Request) : Prop where
  opened : ∀ n, (client.view settings sql runAs batchRows (requests.take n)).connection = .opened ↔
    (client.view settings sql runAs batchRows (requests.take n)).ended = false
  delivered : ∀ schema batches connection ended,
    client.view settings sql runAs batchRows requests =
      ⟨connection, ended, true, schema, batches⟩ →
    batches.flatten = rows.map (buildRow schema) ∧
      ∀ b ∈ batches, b.length ≤ batchSize settings batchRows

/-- The call opens no connection; or it raises nothing after opening it, and its consumer advances
the iterator before closing it, unless the result has no columns. -/
def Streams (sql : String) (runAs : Option String) (requests : List Request) : Prop :=
  (∃ e, client.connect runAs = .error e) ∨
    ∃ cur description, client.cursor = .ok () ∧ client.execute sql = .ok cur ∧
      client.description cur = .ok description ∧
      (description = [] ∨ ∀ r, requests.head? = some r → r = .next)

/-- The cursor of the statement holds the rows: a fetch returns the next at most so many, and an
empty list only at the end; and a result without columns has no rows. -/
structure Answers (sql : String) (size : ℕ) (rows : Rows) : Prop where
  fetches : ∃ remaining : C → Rows,
    (∀ cur, client.execute sql = .ok cur → remaining cur = rows) ∧
    ∀ cur batch cur', client.fetchmany size cur = .ok (batch, cur') →
      remaining cur = batch ++ remaining cur' ∧ batch.length ≤ size ∧
        (batch = [] → remaining cur = [])
  noColumns : ∀ cur, client.execute sql = .ok cur → client.description cur = .ok [] → rows = []

variable {client}

omit [Python] in
/-- The batches of the loop are the remaining rows. -/
theorem yields_genBatches {remaining : C → Rows} {size : ℕ} {schema : Columns}
    (hfetch : ∀ cur batch cur', client.fetchmany size cur = .ok (batch, cur') →
      remaining cur = batch ++ remaining cur' ∧ batch.length ≤ size ∧
        (batch = [] → remaining cur = []))
    {cur : C} {batches : List Rows} (h : (client.genBatches size schema).Yields cur batches) :
    batches.flatten = (remaining cur).map (buildRow schema) ∧
      ∀ b ∈ batches, b.length ≤ size := by
  induction h with
  | @returned cur hresume =>
    obtain ⟨⟨batch, cur'⟩, hbatch, hrest⟩ := bind_eq_ok hresume
    dsimp only at hrest
    split at hrest
    · rename_i hempty
      rw [(hfetch cur batch cur' hbatch).2.2 (List.isEmpty_iff.mp hempty)]
      exact ⟨rfl, nofun⟩
    · obtain ⟨_, _, hrest⟩ := bind_eq_ok hrest
      cases hrest
  | @yielded cur cur' b batches hresume _ ih =>
    obtain ⟨⟨batch, cur''⟩, hbatch, hrest⟩ := bind_eq_ok hresume
    dsimp only at hrest
    split at hrest
    · cases hrest
    · obtain ⟨_, _, hrest⟩ := bind_eq_ok hrest
      cases hrest
      obtain ⟨hremaining, hlength, _⟩ := hfetch cur batch cur' hbatch
      rw [List.flatten_cons, ih.1, hremaining, List.map_append]
      refine ⟨rfl, List.forall_mem_cons.mpr ⟨?_, ih.2⟩⟩
      rw [List.length_map]
      exact hlength

variable (client) in
/-- The steps of the call between the opening and the schema. -/
def described (sql : String) : PyM (C × List (String × String)) := do
  client.cursor
  let cur ← client.execute sql
  return (cur, ← client.description cur)

omit [Python] in
/-- The steps that return a description. -/
theorem described_ok {sql : String} {cur : C} {description : List (String × String)} :
    client.described sql = .ok (cur, description) ↔
      client.cursor = .ok () ∧ client.execute sql = .ok cur ∧
        client.description cur = .ok description := by
  constructor
  · intro h
    obtain ⟨_, hcursor, h⟩ := bind_eq_ok h
    obtain ⟨cur', hexecute, h⟩ := bind_eq_ok h
    obtain ⟨description', hdescription, h⟩ := bind_eq_ok h
    cases h
    exact ⟨hcursor, hexecute, hdescription⟩
  · rintro ⟨hcursor, hexecute, hdescription⟩
    unfold described
    rw [hcursor, hexecute]
    change client.description cur >>= _ = _
    rw [hdescription]
    rfl

/-- A call that opens no connection raises. -/
theorem view_unopened {settings : Settings} {sql : String} {runAs : Option String}
    {batchRows : Option ℕ} {e : PyError} (hconnect : client.connect runAs = .error e)
    (requests : List Request) :
    client.view settings sql runAs batchRows requests = ⟨.unopened, true, false, [], []⟩ := by
  have hrun : (client.streamArrowBatches settings sql runAs batchRows).run .unopened =
      (.error e, .unopened) := by
    unfold streamArrowBatches
    rw [hconnect]
    rfl
  unfold view
  rw [hrun]

omit [Python] in
/-- Opening the connection goes on with it open. -/
theorem set_opened_bind {α : Type} (f : PUnit → CallM α) (connection : Connection) :
    (set Connection.opened >>= f).run connection = (f ⟨⟩).run .opened := rfl

/-- A call that raises after it opened the connection leaves it open. -/
theorem view_raised {settings : Settings} {sql : String} {runAs : Option String}
    {batchRows : Option ℕ} {e : PyError} (hconnect : client.connect runAs = .ok ())
    (hdescribed : client.described sql = .error e) (requests : List Request) :
    client.view settings sql runAs batchRows requests = ⟨.opened, true, false, [], []⟩ := by
  have hrun : ∃ e', (client.streamArrowBatches settings sql runAs batchRows).run .unopened =
      (.error e', .opened) := by
    unfold streamArrowBatches
    simp only [hconnect, CallM.lift_ok_bind, set_opened_bind]
    cases hcursor : client.cursor with
    | error e' => exact ⟨e', rfl⟩
    | ok _ =>
      cases hexecute : client.execute sql with
      | error e' =>
        simp only [CallM.lift_ok_bind, CallM.lift_error_bind]
        exact ⟨e', rfl⟩
      | ok cur =>
        cases hdescription : client.description cur with
        | error e' =>
          simp only [CallM.lift_ok_bind, hdescription, CallM.lift_error_bind]
          exact ⟨e', rfl⟩
        | ok description =>
          rw [described_ok.mpr ⟨hcursor, hexecute, hdescription⟩] at hdescribed
          cases hdescribed
  obtain ⟨e', hrun⟩ := hrun
  unfold view
  rw [hrun]

/-- A call that raises nothing returns an iterator. -/
theorem view_described (settings : Settings) (batchRows : Option ℕ) {sql : String}
    {runAs : Option String} (hconnect : client.connect runAs = .ok ()) {cur : C}
    {description : List (String × String)}
    (hdescribed : client.described sql = .ok (cur, description)) (requests : List Request) :
    client.view settings sql runAs batchRows requests =
      if description = [] then
        let result := (emptyBatches (C := C)).run ⟨.created cur, .closed⟩ requests
        ⟨result.1.world, true, result.1.phase.isReturned, [], result.2⟩
      else
        let result := (client.genBatches (batchSize settings batchRows)
          (streamSchema description)).run ⟨.created cur, .opened⟩ requests
        ⟨result.1.world, result.1.phase.isFinished, result.1.phase.isReturned,
          streamSchema description, result.2⟩ := by
  obtain ⟨hcursor, hexecute, hdescription⟩ := described_ok.mp hdescribed
  have hrun : (client.streamArrowBatches settings sql runAs batchRows).run .unopened =
      if description = [] then (.ok ⟨[], emptyBatches, cur⟩, .closed)
      else (.ok ⟨streamSchema description, client.genBatches (batchSize settings batchRows)
        (streamSchema description), cur⟩, .opened) := by
    unfold streamArrowBatches
    simp only [hconnect, CallM.lift_ok_bind, set_opened_bind, hcursor, hexecute, hdescription]
    cases description <;> rfl
  unfold view
  rw [hrun]
  cases description <;> rfl

/-- The stream of a result without columns does not leak. -/
theorem neverLeaks_noColumns {settings : Settings} {sql : String} {runAs : Option String}
    {batchRows : Option ℕ} {rows : Rows}
    (hanswers : client.Answers sql (batchSize settings batchRows) rows)
    (hconnect : client.connect runAs = .ok ()) {cur : C}
    (hdescribed : client.described sql = .ok (cur, [])) (requests : List Request) :
    client.NeverLeaks settings sql runAs batchRows rows requests := by
  have hview := view_described settings batchRows hconnect hdescribed
  obtain ⟨_, hexecute, hdescription⟩ := described_ok.mp hdescribed
  constructor
  · intro n
    rw [hview, if_pos rfl]
    dsimp only
    rw [emptyBatches.run_world rfl rfl]
    exact iff_of_false nofun nofun
  · intro schema batches connection ended hconsumed
    rw [hview, if_pos rfl] at hconsumed
    simp only [View.mk.injEq] at hconsumed
    obtain ⟨-, -, hreturned, -, rfl⟩ := hconsumed
    have hyields := emptyBatches.yields_of_run rfl hreturned
    rw [hanswers.noColumns cur hexecute hdescription]
    generalize (emptyBatches.run _ requests).2 = batches at hyields ⊢
    cases hyields with
    | returned _ => exact ⟨rfl, nofun⟩
    | yielded hresume _ => cases hresume

omit [Python] in
/-- An iterator with columns holds the connection open until it has ended, if it is advanced before
it is closed. -/
theorem opened_genBatches {size : ℕ} {schema : Columns} {cur : C} {requests : List Request}
    (hadvanced : ∀ r, requests.head? = some r → r = .next) :
    ((client.genBatches size schema).run ⟨.created cur, .opened⟩ requests).1.world = .opened ↔
      ((client.genBatches size schema).run ⟨.created cur, .opened⟩ requests).1.phase.isFinished =
        false := by
  cases requests with
  | nil => exact iff_of_true rfl rfl
  | cons r rest =>
    obtain rfl : r = .next := hadvanced r rfl
    rw [((client.genBatches size schema).run_advanced cur .opened rest).2]
    split
    · rename_i hfinished
      rw [hfinished]
      exact iff_of_false nofun nofun
    · rename_i hfinished
      exact iff_of_true rfl (by simpa using hfinished)

/-- The stream of a result with columns does not leak if and only if it is advanced before it is
closed. -/
theorem neverLeaks_columns_iff {settings : Settings} {sql : String} {runAs : Option String}
    {batchRows : Option ℕ} {rows : Rows}
    (hanswers : client.Answers sql (batchSize settings batchRows) rows)
    (hconnect : client.connect runAs = .ok ()) {cur : C} {description : List (String × String)}
    (hdescribed : client.described sql = .ok (cur, description)) (hcolumns : description ≠ [])
    {requests : List Request} :
    client.NeverLeaks settings sql runAs batchRows rows requests ↔
      ∀ r, requests.head? = some r → r = .next := by
  have hview := view_described settings batchRows hconnect hdescribed
  simp only [if_neg hcolumns] at hview
  constructor
  · intro h r hr
    by_contra hnext
    obtain ⟨rest, rfl⟩ : ∃ rest, requests = r :: rest := by
      cases requests with
      | nil => cases hr
      | cons r' rest =>
        cases hr
        exact ⟨rest, rfl⟩
    have hopened := h.opened 1
    rw [hview, List.take_succ_cons, List.take_zero, Generator.run_unadvanced _ _ _ hnext]
      at hopened
    cases hopened.mp rfl
  · intro hadvanced
    constructor
    · intro n
      rw [hview]
      refine opened_genBatches (fun r hr => hadvanced r ?_)
      rw [List.head?_take] at hr
      split at hr
      · cases hr
      · exact hr
    · intro schema batches connection ended hconsumed
      rw [hview] at hconsumed
      simp only [View.mk.injEq] at hconsumed
      obtain ⟨-, -, hreturned, rfl, rfl⟩ := hconsumed
      obtain ⟨_, hexecute, _⟩ := described_ok.mp hdescribed
      obtain ⟨remaining, hstart, hfetch⟩ := hanswers.fetches
      rw [← hstart cur hexecute]
      exact yields_genBatches hfetch (Generator.yields_of_run _ rfl hreturned)

/-- The connection of a stream does not leak, and its batches are the rows, if and only if the call
opens no connection, or it raises nothing and its consumer advances the iterator before closing
it. -/
theorem neverLeaks_iff {settings : Settings} {sql : String} {runAs : Option String}
    {batchRows : Option ℕ} {rows : Rows}
    (hanswers : client.Answers sql (batchSize settings batchRows) rows)
    {requests : List Request} :
    client.NeverLeaks settings sql runAs batchRows rows requests ↔
      client.Streams sql runAs requests := by
  cases hconnect : client.connect runAs with
  | error e =>
    refine iff_of_true ⟨fun n => ?_, ?_⟩ (Or.inl ⟨e, hconnect⟩)
    · rw [view_unopened hconnect]
      exact iff_of_false nofun nofun
    · intro schema batches connection ended hview
      rw [view_unopened hconnect] at hview
      cases hview
  | ok _ =>
    have hstreams : client.Streams sql runAs requests ↔ ∃ cur description,
        client.described sql = .ok (cur, description) ∧
          (description = [] ∨ ∀ r, requests.head? = some r → r = .next) := by
      simp only [Streams, hconnect, reduceCtorEq, exists_false, false_or, described_ok, and_assoc]
    rw [hstreams]
    cases hdescribed : client.described sql with
    | error e =>
      refine iff_of_false (fun h => ?_) nofun
      have hopened := h.opened 0
      rw [view_raised hconnect hdescribed] at hopened
      cases hopened.mp rfl
    | ok result =>
      obtain ⟨cur, description⟩ := result
      simp only [Except.ok.injEq, Prod.mk.injEq, and_assoc, exists_and_left, exists_eq_left']
      by_cases hcolumns : description = []
      · subst hcolumns
        exact iff_of_true (neverLeaks_noColumns hanswers hconnect hdescribed requests) (Or.inl rfl)
      · rw [neverLeaks_columns_iff hanswers hconnect hdescribed hcolumns, or_iff_right hcolumns]

end TrinoClient

/-- The client on a result that is there at once, where nothing raises. -/
def listClient (description : List (String × String)) (rows : Rows) : TrinoClient Rows where
  connect _ := .ok ()
  cursor := .ok ()
  execute _ := .ok rows
  description _ := .ok description
  fetchmany size rest := .ok (rest.take size, rest.drop size)
  build _ _ := .ok ()

/-- It fetches the next rows of a list. -/
theorem listClient_fetchmany {description : List (String × String)} {rows : Rows} {size : ℕ}
    (hsize : 0 < size) {cur batch rest : Rows}
    (h : (listClient description rows).fetchmany size cur = .ok (batch, rest)) :
    cur = batch ++ rest ∧ batch.length ≤ size ∧ (batch = [] → cur = []) := by
  cases h
  refine ⟨(List.take_append_drop size cur).symm, List.length_take_le _ _, fun hempty => ?_⟩
  exact (List.take_eq_nil_iff.mp hempty).resolve_left hsize.ne'

/-- It answers with the rows, in batches of a positive size. -/
theorem listClient_answers {description : List (String × String)} {rows : Rows}
    (hrows : description = [] → rows = []) (sql : String) {size : ℕ} (hsize : 0 < size) :
    (listClient description rows).Answers sql size rows := by
  refine ⟨⟨id, fun cur h => (Except.ok.inj h).symm, ?_⟩, fun cur _ h => hrows (Except.ok.inj h)⟩
  exact fun cur batch rest hfetch => listClient_fetchmany hsize hfetch

/-- One round of its loop. -/
theorem listClient_fetchBatch (description : List (String × String)) (all : Rows) (size : ℕ)
    (schema : Columns) (rows : Rows) :
    (listClient description all).fetchBatch size schema rows =
      .ok (if (rows.take size).isEmpty then none
        else some ((rows.take size).map (buildRow schema), rows.drop size)) := by
  change (if (rows.take size).isEmpty then _ else _) = _
  split <;> rfl

/-- The values of its iterator are the batches of the rows. -/
theorem yields_fetchBatches {description : List (String × String)} {all : Rows} {size : ℕ}
    (hsize : 0 < size) {schema : Columns} {n : ℕ} {rows : Rows} (hn : rows.length ≤ n) :
    ((listClient description all).genBatches size schema).Yields rows
      ((fetchBatches size n rows).map (List.map (buildRow schema))) := by
  have hround := listClient_fetchBatch description all size schema rows
  induction n generalizing rows with
  | zero =>
    rw [List.length_eq_zero_iff.mp (Nat.le_zero.mp hn)] at hround ⊢
    rw [List.take_nil] at hround
    refine .returned ?_
    exact hround
  | succ n ih =>
    unfold fetchBatches
    cases rows with
    | nil =>
      rw [List.take_nil] at hround ⊢
      refine .returned ?_
      exact hround
    | cons row rows =>
      have hne : ((row :: rows).take size).isEmpty = false := by
        simp [List.isEmpty_eq_false_iff]
        omega
      have hrest : ((row :: rows).drop size).length ≤ n := by
        simp only [List.length_drop, List.length_cons] at hn ⊢
        omega
      simp only [hne, Bool.false_eq_true, if_false, List.map_cons] at hround ⊢
      exact .yielded hround (ih hrest (listClient_fetchBatch _ _ _ _ _))

section

variable [Python]

/-- A consumer that exhausts its iterator is given the batches of an export, and the connection is
closed. -/
theorem view_listClient {settings : Settings} {batchRows : Option ℕ}
    (hsize : 0 < batchSize settings batchRows) {description : List (String × String)}
    (hcolumns : description ≠ []) (rows : Rows) (sql : String) (runAs : Option String) :
    let batches := streamArrowBatches (batchSize settings batchRows) (streamSchema description) rows
    (listClient description rows).view settings sql runAs batchRows
        (List.replicate (batches.length + 1) .next) =
      ⟨.closed, true, true, streamSchema description, batches⟩ := by
  have hschema : (streamSchema description).isEmpty = false := by
    simpa [streamSchema] using hcolumns
  have hyields : ((listClient description rows).genBatches (batchSize settings batchRows)
      (streamSchema description)).Yields rows _ := yields_fetchBatches hsize (le_refl rows.length)
  simp only [streamArrowBatches, hschema, Bool.false_eq_true, if_false]
  rw [TrinoClient.view_described settings batchRows rfl rfl, if_neg hcolumns]
  dsimp only
  rw [Generator.run_of_yields _ hyields rfl]
  rfl

end

section

attribute [local instance] asciiPython

/-- A statement that Trino refuses when it is executed leaves the connection open. -/
theorem refused_leaks :
    ¬ ∀ (C : Type) (client : TrinoClient C) (settings : Settings) (sql : String)
        (runAs : Option String) (batchRows : Option ℕ) (rows : Rows) (requests : List Request),
      client.Answers sql (batchSize settings batchRows) rows →
        client.NeverLeaks settings sql runAs batchRows rows requests := by
  intro h
  let client : TrinoClient Rows :=
    { listClient [("v", "varchar")] [] with
      execute := fun _ => raise .external "TABLE_NOT_FOUND" }
  have hanswers : client.Answers "SELECT * FROM lost" (batchSize {} none) [] := by
    refine ⟨⟨id, nofun, fun cur batch rest hfetch => ?_⟩, nofun⟩
    have hlist : (listClient [] []).fetchmany (batchSize {} none) cur = .ok (batch, rest) := hfetch
    exact listClient_fetchmany (by decide) hlist
  have hopened := (h Rows client {} "SELECT * FROM lost" none none [] [] hanswers).opened 0
  cases hopened.mp rfl

/-- A stream of two rows that is advanced once and closed then does not leak. -/
theorem closedStream_clean :
    (listClient [("v", "varchar")] [[.str "a"], [.str "b"]]).NeverLeaks {} "SELECT v FROM events"
      none (some 1) [[.str "a"], [.str "b"]] [.next, .close] := by
  refine (TrinoClient.neverLeaks_iff (listClient_answers (fun h => by cases h) _ ?_)).mpr ?_
  · decide
  · refine Or.inr ⟨_, _, rfl, rfl, rfl, Or.inr fun r hr => ?_⟩
    cases hr
    rfl

end

end Memcove
