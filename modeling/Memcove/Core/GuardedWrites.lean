import Memcove.Core.Sessions
import Memcove.Core.Clients

/-!
# The contract of a guarded write

`record_object_guarded` promises that an unreachable registry is reported and not raised, that any
other failure is raised again, and that neither leaves a trace in the tables. The requests of a
write as one list say at which stage it fails, and the contract is compared with what the program
does there.
-/

namespace Memcove

open KeyedTables Programs Transactions

namespace Sessions

/-- A loop over statements sends them one after the other. -/
theorem each_execute (f : String → RegistryStatement) (l : List String) :
    Program.each (fun x => execute (f x)) l = sendAll ((l.map f).map .execute) := by
  unfold sendAll
  induction l with
  | nil => rfl
  | cons x l ih =>
    rw [List.map_cons, List.map_cons, Program.each, Program.each, ih]
    rfl

/-- A loop that skips some of its elements. -/
theorem each_skip {f : String → DriverM PUnit} {p : String → Bool} (l : List String) :
    Program.each (fun x => if p x then .pure ⟨⟩ else f x) l =
      Program.each f (l.filter (fun x => !p x)) := by
  induction l with
  | nil => rfl
  | cons x l ih =>
    rw [Program.each, ih, List.filter_cons]
    cases p x <;> rfl

/-- `_upsert_object` sends its statements. -/
theorem upsertObject_eq (row : ObjectRow) (tags : Option (List String)) :
    upsertObject row tags = sendAll ((objectStatements row (tags.getD [])).map .execute) := by
  unfold upsertObject replaceTags
  rw [each_execute]
  rfl

/-- `_set_lineage` sends its statements. -/
theorem setLineage_eq (child : Key) (parents : List String) :
    setLineage child parents = sendAll ((lineageStatements child parents).map .execute) := by
  unfold setLineage
  rw [each_skip, each_execute]
  rfl

/-- The body of the transaction sends the statements of the write. -/
theorem body_eq (row : ObjectRow) (tags parents : Option (List String)) :
    (do
      upsertObject row tags
      match parents with
      | some parents => setLineage row.key parents
      | none => .pure ⟨⟩) =
        sendAll ((writeStatements row (tags.getD []) parents).map .execute) := by
  cases parents with
  | none =>
    rw [writeStatements, upsertObject_eq]
    exact bind_pure _
  | some parents =>
    rw [writeStatements, List.map_append, sendAll_append, upsertObject_eq]
    exact congrArg _ (funext fun _ => setLineage_eq _ _)

/-- The stages at which a guarded write can fail. -/
inductive Stage where
  | opening | connecting | transaction
  deriving DecidableEq, Repr

section

variable (db : Database) (refuses : Refusals)

/-- The first refusal of a list of requests outside a transaction. -/
def refused (os : List SetupRequest) : Option DriverError :=
  os.findSome? (fun o => refuses (.setup o))

/-- The tables that the transaction of a write commits, or its first failure. -/
def written (R : Registry) (row : ObjectRow) (tags parents : Option (List String)) :
    Except DriverError Registry :=
  (db.server refuses).attempt R
    ((writeStatements row (tags.getD []) parents).map .execute ++ [.commit])

/-- The refusals of one request and of what follows it. -/
theorem refused_cons (o : SetupRequest) (os : List SetupRequest) (fails : Option DriverError) :
    (refused refuses (o :: os)).or fails =
      (refuses (.setup o)).or ((refused refuses os).or fails) := by
  unfold refused
  rw [List.findSome?_cons]
  cases refuses (.setup o) <;> rfl

variable {db refuses} {s : Store Registry} {o : SetupRequest}

/-- A request that is refused. -/
theorem run_setup_error {e : DriverError} (h : refuses (.setup o) = some e) :
    (db.server refuses).run s (setup o) = (.error e, s) := by
  have hhandle : (db.server refuses).handle s.contents (.setup o) = .error e := by
    unfold Server.handle Database.server
    simp only [h]
  exact Server.run_perform_error hhandle

/-- A request that goes through. -/
theorem run_setup_ok (h : refuses (.setup o) = none) :
    (db.server refuses).run s (setup o) = (.ok ⟨⟩, s) := by
  have hhandle : (db.server refuses).handle s.contents (.setup o) = .ok s.contents := by
    unfold Server.handle Database.server
    simp only [h]
  exact Server.run_perform_ok hhandle

variable {R R' : Registry} {row : ObjectRow} {tags parents : Option (List String)}

/-- A statement that goes through does what the database does. -/
theorem step_of_handle {statement : RegistryStatement}
    (h : (db.server refuses).handle R (.execute statement) = .ok R') :
    db.step R statement = .ok R' := by
  unfold Server.handle at h
  split at h
  · cases h
  · change (db.step R statement).mapError _ = _ at h
    cases hstep : db.step R statement with
    | ok R'' =>
      rw [hstep] at h
      cases h
      rfl
    | error e =>
      rw [hstep] at h
      cases h

/-- Statements that go through do what the database does. -/
theorem steps_of_attempt {statements : List RegistryStatement}
    (h : (db.server refuses).attempt R (statements.map .execute) = .ok R') :
    statements.foldlM db.step R = .ok R' := by
  induction statements generalizing R with
  | nil =>
    cases h
    rfl
  | cons statement statements ih =>
    rw [List.map_cons, Server.attempt_cons] at h
    cases hhandle : (db.server refuses).handle R (.execute statement) with
    | error e =>
      rw [hhandle] at h
      cases h
    | ok R'' =>
      rw [hhandle] at h
      rw [List.foldlM_cons, step_of_handle hhandle]
      exact ih h

/-- A write that is committed is the transaction as one step. -/
theorem apply_of_written (h : written db refuses R row tags parents = .ok R') :
    db.apply R (.recordObjectGuarded row (tags.getD []) parents) = .ok R' := by
  rw [written, Server.attempt_append] at h
  cases hattempt : (db.server refuses).attempt R
      ((writeStatements row (tags.getD []) parents).map .execute) with
  | error e =>
    rw [hattempt] at h
    cases h
  | ok R'' =>
    rw [hattempt] at h
    have hcommit : (db.server refuses).attempt R'' [.commit] = .ok R' := h
    rw [Server.attempt_singleton] at hcommit
    rw [Server.handle_commit hcommit]
    exact Database.writeStatements_iff.mp (steps_of_attempt hattempt)

/-- How a backend rolls back. -/
def rollback (scheme : Scheme) : DriverM PUnit :=
  match scheme with
  | .postgres => Program.tryCatch (Program.perform .rollback) (fun _ => .pure ⟨⟩)
  | _ => Program.perform .rollback

/-- The exception that leaves a failed transaction: the failure, or that of the rollback. -/
def raised (refuses : Refusals) (scheme : Scheme)
    (e : DriverError) : DriverError :=
  match scheme with
  | .postgres => e
  | _ => (refuses .rollback).getD e

/-- Only the Postgres pool ignores the failure of a rollback. -/
theorem raised_eq {scheme : Scheme} (h : scheme ≠ .postgres) (e : DriverError) :
    raised refuses scheme e = (refuses .rollback).getD e := by
  cases scheme with
  | postgres => exact absurd rfl h
  | sqlite | mysql => rfl

variable (db refuses) in
/-- Every backend ends a transaction that it rolls back, and raises the failure again unless the
rollback raises its own. -/
theorem rollback_undoes (scheme : Scheme) :
    ∃ r : Except DriverError PUnit, (db.server refuses).Undoes (rollback scheme) r ∧
      ∀ e, (r >>= fun _ => .error e : Except DriverError PUnit) =
        .error (raised refuses scheme e) := by
  cases scheme with
  | postgres => exact ⟨_, Server.undoes_rollback_ignored, fun _ => rfl⟩
  | sqlite | mysql =>
    refine ⟨_, Server.undoes_rollback, fun e => ?_⟩
    have hanswer : (db.server refuses).rollbackAnswer =
        (refuses .rollback).elim (.ok ⟨⟩) .error := rfl
    rw [hanswer, raised_eq (by decide)]
    cases refuses .rollback <;> rfl

/-- A write none of whose requests fails is committed. -/
theorem run_write_ok (scheme : Scheme)
    (h : written db refuses R row tags parents = .ok R') :
    (db.server refuses).run ⟨R, none⟩ (transaction (rollback scheme)
        (sendAll ((writeStatements row (tags.getD []) parents).map .execute))) =
      (.ok ⟨⟩, ⟨R', none⟩) :=
  Server.run_transaction_ok h

/-- A write one of whose requests fails leaves the tables as they were. -/
theorem run_write_error {e : DriverError} (scheme : Scheme)
    (h : written db refuses R row tags parents = .error e) :
    (db.server refuses).run ⟨R, none⟩ (transaction (rollback scheme)
        (sendAll ((writeStatements row (tags.getD []) parents).map .execute))) =
      (.error (raised refuses scheme e), ⟨R, none⟩) := by
  obtain ⟨r, hundoes, hraised⟩ := rollback_undoes db refuses scheme
  rw [Server.run_transaction_error hundoes h, hraised]

end

section

variable [Python]

/-- The requests that build the backend of a DSN, and the exception if there is none for it. -/
def making (dsn : String) : List SetupRequest × Option DriverError :=
  match schemeOf dsn with
  | some .postgres => ([.openPool dsn], none)
  | some .sqlite => ([.openFile (sqlitePath dsn), .enableForeignKeys], none)
  | some .mysql => ([.parseUrl dsn], none)
  | none => ([], some (unsupportedScheme dsn))

/-- The requests that close a backend. -/
def closing (scheme : Scheme) : List SetupRequest :=
  match scheme with
  | .mysql => []
  | scheme => [.close scheme]

/-- The requests before the backend is in hand: none, when there is one of the DSN already. -/
def opening (current : Option RegistryBackend) (dsn : String) :
    List SetupRequest × Option DriverError :=
  match current with
  | some b =>
    if b.dsn = dsn then ([], none) else (closing b.scheme ++ (making dsn).1, (making dsn).2)
  | none => making dsn

/-- The requests that take a connection. -/
def connecting (dsn : String) : List SetupRequest :=
  if schemeOf dsn = some .sqlite then [] else [.connect]

/-- Whether the backend of a DSN classifies an exception as an unreachable registry. -/
def unreachable (dsn : String) (exc : DriverError) : Bool :=
  (schemeOf dsn).any (fun scheme => isConnectionDown scheme exc)

variable (db : Database) (refuses : Refusals)

/-- The failure of a write while its backend is opened. -/
def openingFailure (current : Option RegistryBackend) (dsn : String) : Option DriverError :=
  (refused refuses (opening current dsn).1).or (opening current dsn).2

/-- The first failure of a guarded write, and the stage that it strikes. -/
def failure (current : Option RegistryBackend) (dsn : String) (R : Registry) (row : ObjectRow)
    (tags parents : Option (List String)) : Option (Stage × DriverError) :=
  match openingFailure refuses current dsn with
  | some e => some (.opening, e)
  | none =>
    match refused refuses (connecting dsn) with
    | some e => some (.connecting, e)
    | none =>
      match written db refuses R row tags parents with
      | .error e => some (.transaction, e)
      | .ok _ => none

variable {db refuses} {current : Option RegistryBackend} {dsn : String} {R : Registry}
  {row : ObjectRow} {tags parents : Option (List String)} {p : DriverM RegistryBackend}
  {fails : Option DriverError}

/-- A program that ends with the backend of the DSN, unless it fails with the exception given, and
that changes nothing. -/
structure Opens (db : Database) (refuses : Refusals)
    (dsn : String) (p : DriverM RegistryBackend) (fails : Option DriverError) : Prop where
  error : ∀ s e, fails = some e → (db.server refuses).run s p = (.error e, s)
  ok : ∀ s, fails = none → ∃ b, b.dsn = dsn ∧ (db.server refuses).run s p = (.ok b, s)

/-- A backend that is in hand. -/
theorem Opens.pure {b : RegistryBackend} (hb : b.dsn = dsn) :
    Opens db refuses dsn (pure b) none where
  error _ _ h := by cases h
  ok _ _ := ⟨b, hb, rfl⟩

/-- An exception. -/
theorem Opens.raise {e : DriverError} : Opens db refuses dsn (.raise e) (some e) where
  error _ _ h := by
    cases h
    rfl
  ok _ h := by cases h

/-- One more request before. -/
theorem Opens.setup {o : SetupRequest} (hp : Opens db refuses dsn p fails) :
    Opens db refuses dsn (setup o >>= fun _ => p) ((refuses (.setup o)).or fails) := by
  cases hrefuses : refuses (.setup o) with
  | some e =>
    constructor
    · intro s e' he
      cases he
      exact Server.run_bind_error (run_setup_error hrefuses)
    · intro s hnone
      cases hnone
  | none =>
    constructor
    · intro s e he
      rw [Server.run_bind_ok (run_setup_ok hrefuses)]
      exact hp.error s e he
    · intro s hnone
      rw [Server.run_bind_ok (run_setup_ok hrefuses)]
      exact hp.ok s hnone

/-- `make_backend`. -/
theorem makeBackend_opens (dsn : String) :
    Opens db refuses dsn (makeBackend dsn)
      ((refused refuses (making dsn).1).or (making dsn).2) := by
  unfold makeBackend
  split
  case h_1 hscheme =>
    have hmaking : making dsn = ([.openPool dsn], none) := by simp only [making, hscheme]
    rw [hmaking, refused_cons]
    exact Opens.setup (Opens.pure rfl)
  case h_2 hscheme =>
    have hmaking : making dsn = ([.openFile (sqlitePath dsn), .enableForeignKeys], none) := by
      simp only [making, hscheme]
    rw [hmaking, refused_cons, refused_cons]
    exact Opens.setup (Opens.setup (Opens.pure rfl))
  case h_3 hscheme =>
    have hmaking : making dsn = ([.parseUrl dsn], none) := by simp only [making, hscheme]
    rw [hmaking, refused_cons]
    exact Opens.setup (Opens.pure rfl)
  case h_4 hscheme =>
    have hmaking : making dsn = ([], some (unsupportedScheme dsn)) := by
      simp only [making, hscheme]
    rw [hmaking]
    exact Opens.raise

variable (db refuses) in
/-- `_get`. -/
theorem getBackend_opens (current : Option RegistryBackend) (dsn : String) :
    Opens db refuses dsn (getBackend current dsn) (openingFailure refuses current dsn) := by
  unfold getBackend openingFailure opening
  cases current with
  | none => exact makeBackend_opens dsn
  | some b =>
    by_cases hdsn : b.dsn = dsn
    · simp only [if_pos hdsn]
      exact Opens.pure hdsn
    · simp only [if_neg hdsn]
      unfold RegistryBackend.close closing
      cases b.scheme with
      | mysql => exact makeBackend_opens dsn
      | postgres | sqlite =>
        simp only [List.singleton_append, refused_cons]
        exact Opens.setup (makeBackend_opens dsn)

/-- A backend takes a connection and sends the transaction. -/
theorem connection_eq (b : RegistryBackend) (body : DriverM PUnit) :
    b.connection body = sendAll ((connecting b.dsn).map .setup) >>=
      fun _ => transaction (rollback b.scheme) body := by
  unfold RegistryBackend.connection connecting
  rw [b.scheme_eq]
  have hconnect : (sendAll ([SetupRequest.connect].map .setup) : DriverM PUnit) = setup .connect :=
    sendAll_singleton _
  cases b.scheme with
  | postgres | mysql =>
    simp only [reduceCtorEq, if_false, Option.some.injEq, hconnect]
    rfl
  | sqlite => rfl

variable (db refuses) in
/-- Taking a connection fails with the refusal, or changes nothing. -/
theorem run_connecting (s : Store Registry) (dsn : String) :
    (db.server refuses).run s (sendAll ((connecting dsn).map .setup)) =
      ((refused refuses (connecting dsn)).elim (.ok ⟨⟩) .error, s) := by
  have hconnect : (db.server refuses).run s (sendAll ([SetupRequest.connect].map .setup)) =
      ((refuses (.setup .connect)).elim (.ok ⟨⟩) .error, s) := by
    rw [List.map_singleton, sendAll_singleton]
    cases hrefuses : refuses (.setup .connect) with
    | some e => exact run_setup_error hrefuses
    | none => exact run_setup_ok hrefuses
  unfold connecting
  split
  · rfl
  · rw [hconnect]
    simp only [refused, List.findSome?_cons]
    cases refuses (.setup .connect) <;> rfl

/-- What `record_object_guarded` makes of an exception out of its `try`. -/
def answerTo (dsn : String) (e : DriverError) : Except DriverError Bool :=
  if unreachable dsn e then .ok false else .error e

/-- The write on a backend that is in hand. -/
theorem recordObjectGuarded_eq (current : Option RegistryBackend) (dsn : String) :
    recordObjectGuarded current dsn row tags parents = getBackend current dsn >>= fun b =>
      Program.tryCatch ((sendAll ((connecting b.dsn).map .setup) >>= fun _ =>
          transaction (rollback b.scheme)
            (sendAll ((writeStatements row (tags.getD []) parents).map .execute))) >>=
              fun _ => .pure true)
        (fun exc => if unreachable b.dsn exc then .pure false else .raise exc) := by
  unfold recordObjectGuarded
  congr 1
  funext b
  have hunreachable (exc : DriverError) :
      unreachable b.dsn exc = isConnectionDown b.scheme exc := by
    rw [unreachable, b.scheme_eq]
    rfl
  have hbody := body_eq row tags parents
  cases parents with
  | none | some _ =>
    simp only at hbody
    simp only [hbody, connection_eq, hunreachable]
    rfl

/-- A failure while the backend is opened is raised, whatever it is. -/
theorem run_opening {e : DriverError} (h : openingFailure refuses current dsn = some e) :
    (db.server refuses).run ⟨R, none⟩ (recordObjectGuarded current dsn row tags parents) =
      (.error e, ⟨R, none⟩) := by
  rw [recordObjectGuarded_eq]
  exact Server.run_bind_error ((getBackend_opens db refuses current dsn).error _ e h)

/-- A failure to take a connection is classified. -/
theorem run_connecting_failure {e : DriverError}
    (hopening : openingFailure refuses current dsn = none)
    (h : refused refuses (connecting dsn) = some e) :
    (db.server refuses).run ⟨R, none⟩ (recordObjectGuarded current dsn row tags parents) =
      (answerTo dsn e, ⟨R, none⟩) := by
  obtain ⟨b, rfl, hb⟩ := (getBackend_opens db refuses current dsn).ok ⟨R, none⟩ hopening
  have hconnect := run_connecting db refuses ⟨R, none⟩ b.dsn
  rw [h] at hconnect
  rw [recordObjectGuarded_eq, Server.run_bind_ok hb,
    Server.run_tryCatch_error (Server.run_bind_error (Server.run_bind_error hconnect))]
  unfold answerTo
  split <;> rfl

/-- A failure in the transaction is rolled back, and what is raised then is classified. -/
theorem run_transaction_failure {e : DriverError} {scheme : Scheme}
    (hopening : openingFailure refuses current dsn = none)
    (hconnecting : refused refuses (connecting dsn) = none) (hscheme : schemeOf dsn = some scheme)
    (h : written db refuses R row tags parents = .error e) :
    (db.server refuses).run ⟨R, none⟩ (recordObjectGuarded current dsn row tags parents) =
      (answerTo dsn (raised refuses scheme e), ⟨R, none⟩) := by
  obtain ⟨b, rfl, hb⟩ := (getBackend_opens db refuses current dsn).ok ⟨R, none⟩ hopening
  have hconnect := run_connecting db refuses ⟨R, none⟩ b.dsn
  rw [hconnecting] at hconnect
  obtain rfl := Option.some.inj (b.scheme_eq.symm.trans hscheme)
  have hwrite := run_write_error b.scheme h
  rw [← Server.run_bind_ok (f := fun _ => transaction _ _) hconnect] at hwrite
  rw [recordObjectGuarded_eq, Server.run_bind_ok hb,
    Server.run_tryCatch_error (Server.run_bind_error hwrite)]
  unfold answerTo
  split <;> rfl

/-- A write without a failure is committed and reports that it was. -/
theorem run_success {R' : Registry} (hopening : openingFailure refuses current dsn = none)
    (hconnecting : refused refuses (connecting dsn) = none)
    (h : written db refuses R row tags parents = .ok R') :
    (db.server refuses).run ⟨R, none⟩ (recordObjectGuarded current dsn row tags parents) =
      (.ok true, ⟨R', none⟩) := by
  obtain ⟨b, rfl, hb⟩ := (getBackend_opens db refuses current dsn).ok ⟨R, none⟩ hopening
  have hconnect := run_connecting db refuses ⟨R, none⟩ b.dsn
  rw [hconnecting] at hconnect
  have hwrite := run_write_ok b.scheme h
  rw [← Server.run_bind_ok (f := fun _ => transaction _ _) hconnect] at hwrite
  rw [recordObjectGuarded_eq, Server.run_bind_ok hb]
  exact Server.run_tryCatch_ok (Server.run_bind_ok hwrite)

/-- The contract of `record_object_guarded`, from its first failure, if there is one, and the
tables before the call to its result and the tables after it. -/
structure GuardedContract (db : Database) (dsn : String) (row : ObjectRow)
    (tags parents : Option (List String)) (fails : Option (Stage × DriverError))
    (R R' : Registry) (result : Except DriverError Bool) : Prop where
  reported : ∀ stage e, fails = some (stage, e) → unreachable dsn e = true → result = .ok false
  raisedAgain : ∀ stage e, fails = some (stage, e) → unreachable dsn e = false →
    result = .error e
  unchanged : fails ≠ none → R' = R
  written : result = .ok true → db.Written row (tags.getD []) parents R'
  returns : fails = none → result = .ok true

/-- The failures that the program handles as its contract says: none while the backend is opened
that the backend classifies as an unreachable registry, and no rollback with a failure of its own,
unless both are that. -/
structure Handled (refuses : Refusals) (dsn : String) (fails : Option (Stage × DriverError)) :
    Prop where
  opening : ∀ e, fails = some (.opening, e) → unreachable dsn e = false
  rollback : ∀ e, fails = some (.transaction, e) → schemeOf dsn ≠ some .postgres →
    ∀ e', refuses .rollback = some e' →
      e' = e ∨ unreachable dsn e = true ∧ unreachable dsn e' = true

/-- A failure that is raised as it is keeps the contract when it is no unreachable registry. -/
theorem guardedContract_raised {stage : Stage} {e : DriverError} :
    GuardedContract db dsn row tags parents (some (stage, e)) R R (.error e) ↔
      unreachable dsn e = false := by
  constructor
  · intro h
    by_contra hdown
    have hreported := h.reported stage e rfl (eq_true_of_ne_false hdown)
    cases hreported
  · intro hdown
    refine ⟨fun stage' e' h hdown' => ?_, fun stage' e' h _ => ?_, fun _ => rfl, nofun, nofun⟩
    · cases h
      rw [hdown] at hdown'
      cases hdown'
    · cases h
      rfl

/-- A failure keeps the contract when it is answered itself, or when both it and the exception
that is answered in its place are an unreachable registry. -/
theorem guardedContract_answered {stage : Stage} {e e' : DriverError} :
    GuardedContract db dsn row tags parents (some (stage, e)) R R (answerTo dsn e') ↔
      e' = e ∨ unreachable dsn e = true ∧ unreachable dsn e' = true := by
  unfold answerTo
  cases hdown' : unreachable dsn e' with
  | true =>
    rw [if_pos rfl]
    constructor
    · intro h
      cases hdown : unreachable dsn e with
      | true => exact Or.inr ⟨rfl, rfl⟩
      | false => cases h.raisedAgain stage e rfl hdown
    · intro h
      have hdown : unreachable dsn e = true := by
        rcases h with rfl | h
        · exact hdown'
        · exact h.1
      refine ⟨fun _ _ _ _ => rfl, fun stage' e'' h hdown'' => ?_, fun _ => rfl, nofun, nofun⟩
      cases h
      rw [hdown] at hdown''
      cases hdown''
  | false =>
    rw [if_neg (by decide)]
    constructor
    · intro h
      cases hdown : unreachable dsn e with
      | true => cases h.reported stage e rfl hdown
      | false => exact Or.inl (Except.error.inj (h.raisedAgain stage e rfl hdown))
    · rintro (rfl | ⟨_, h⟩)
      · exact guardedContract_raised.mpr hdown'
      · cases h

/-- What `Handled` says about the failure of a transaction. -/
theorem handled_transaction_iff {e : DriverError} {scheme : Scheme}
    (hscheme : schemeOf dsn = some scheme) :
    Handled refuses dsn (some (.transaction, e)) ↔ raised refuses scheme e = e ∨
      unreachable dsn e = true ∧ unreachable dsn (raised refuses scheme e) = true := by
  by_cases hpostgres : scheme = .postgres
  · rw [hpostgres] at hscheme ⊢
    exact ⟨fun _ => Or.inl rfl, fun _ => ⟨nofun, fun _ _ h => absurd hscheme h⟩⟩
  · have hne : schemeOf dsn ≠ some .postgres := by
      rw [hscheme]
      exact fun h => hpostgres (Option.some.inj h)
    rw [raised_eq hpostgres]
    cases hrefuses : refuses .rollback with
    | none =>
      refine ⟨fun _ => Or.inl rfl, fun _ => ⟨nofun, fun _ _ _ e' h => ?_⟩⟩
      rw [hrefuses] at h
      cases h
    | some e' =>
      refine ⟨fun h => h.rollback e rfl hne e' hrefuses, fun h => ⟨nofun, ?_⟩⟩
      intro e₁ he₁ _ e₂ he₂
      rw [hrefuses] at he₂
      cases he₁
      cases he₂
      exact h

/-- The program keeps its contract exactly when its failure is one that it handles. -/
theorem guardedContract_iff (db : Database) (refuses : Refusals)
    (current : Option RegistryBackend) (dsn : String) (R : Registry) (row : ObjectRow)
    (tags parents : Option (List String)) :
    let fails := failure db refuses current dsn R row tags parents
    let run := (db.server refuses).run ⟨R, none⟩ (recordObjectGuarded current dsn row tags parents)
    GuardedContract db dsn row tags parents fails R run.2.committed run.1 ↔
      Handled refuses dsn fails := by
  intro fails run
  cases hopening : openingFailure refuses current dsn with
  | some e =>
    have hfails : fails = some (.opening, e) := by
      simp only [fails, failure, hopening]
    have hrun : run = (.error e, ⟨R, none⟩) := run_opening hopening
    rw [hfails, hrun, guardedContract_raised]
    exact ⟨fun h => ⟨fun e' he => (by cases he; exact h), nofun⟩, fun h => h.opening e rfl⟩
  | none =>
    cases hconnecting : refused refuses (connecting dsn) with
    | some e =>
      have hfails : fails = some (.connecting, e) := by
        simp only [fails, failure, hopening, hconnecting]
      have hrun : run = (answerTo dsn e, ⟨R, none⟩) := run_connecting_failure hopening hconnecting
      rw [hfails, hrun, guardedContract_answered]
      exact ⟨fun _ => ⟨nofun, nofun⟩, fun _ => Or.inl rfl⟩
    | none =>
      cases hwritten : written db refuses R row tags parents with
      | error e =>
        have hfails : fails = some (.transaction, e) := by
          simp only [fails, failure, hopening, hconnecting, hwritten]
        obtain ⟨b, rfl, _⟩ := (getBackend_opens db refuses current dsn).ok ⟨R, none⟩ hopening
        have hrun : run = (answerTo b.dsn (raised refuses b.scheme e), ⟨R, none⟩) :=
          run_transaction_failure hopening hconnecting b.scheme_eq hwritten
        rw [hfails, hrun, guardedContract_answered, handled_transaction_iff b.scheme_eq]
      | ok R' =>
        have hfails : fails = none := by
          simp only [fails, failure, hopening, hconnecting, hwritten]
        have hrun : run = (.ok true, ⟨R', none⟩) := run_success hopening hconnecting hwritten
        rw [hfails, hrun]
        exact ⟨fun _ => ⟨nofun, nofun⟩, fun _ => ⟨nofun, nofun, fun h => absurd rfl h,
          fun _ => Database.apply_written (apply_of_written hwritten), fun _ => rfl⟩⟩

/-- The run of a guarded write is one of the program that the tools are modelled with, where the
database tells the texts of the write apart: building the backend is one call, the transaction
another. -/
theorem recordObjectGuarded_refines [Engines] [Backend] {see : DriverError → PyError}
    (hsee : ∀ e, Backend.isConnectionDown (see e) = unreachable dsn e) {V : Vocabulary}
    (hdb : db.Distinguishes V) (hR : V.Within R)
    (hwrite : V.Covers (.recordObjectGuarded row (tags.getD []) parents)) (L : Lakehouse) :
    let run := (db.server refuses).run ⟨R, none⟩ (recordObjectGuarded current dsn row tags parents)
    Completes machine ⟨L, R⟩ (Memcove.recordObjectGuarded row (tags.getD []) parents)
      (run.1.mapError see) ⟨L, run.2.committed⟩ := by
  intro run
  have hanswered (e : DriverError) :
      Completes machine ⟨L, R⟩ (Memcove.recordObjectGuarded row (tags.getD []) parents)
        ((answerTo dsn e).mapError see) ⟨L, R⟩ := by
    refine .call (r := .ok ⟨⟩) trivial (.call (r := .error (see e)) trivial ?_)
    change Completes machine ⟨L, R⟩
      (if Backend.isConnectionDown (see e) then .pure false else .raise (see e)) _ _
    rw [hsee, answerTo]
    cases unreachable dsn e with
    | true => exact .pure
    | false => exact .raise
  cases hopening : openingFailure refuses current dsn with
  | some e =>
    have hrun : run = (.error e, ⟨R, none⟩) := run_opening hopening
    rw [hrun]
    exact .call (r := .error (see e)) trivial .raise
  | none =>
    cases hconnecting : refused refuses (connecting dsn) with
    | some e =>
      have hrun : run = (answerTo dsn e, ⟨R, none⟩) := run_connecting_failure hopening hconnecting
      rw [hrun]
      exact hanswered e
    | none =>
      cases hwritten : written db refuses R row tags parents with
      | error e =>
        obtain ⟨b, rfl, _⟩ := (getBackend_opens db refuses current dsn).ok ⟨R, none⟩ hopening
        have hrun : run = (answerTo b.dsn (raised refuses b.scheme e), ⟨R, none⟩) :=
          run_transaction_failure hopening hconnecting b.scheme_eq hwritten
        rw [hrun]
        exact hanswered _
      | ok R' =>
        have hrun : run = (.ok true, ⟨R', none⟩) := run_success hopening hconnecting hwritten
        have happly := (hdb.apply hR hwrite).symm.trans (apply_of_written hwritten)
        rw [hrun, ← Except.ok.inj happly]
        exact .call (r := .ok ⟨⟩) trivial (.call (r := .ok ⟨⟩) trivial .pure)

end

section

attribute [local instance] asciiPython

/-- A DSN of SQLite. -/
def missingDsn : String := "sqlite:///missing/registry.db"

/-- What SQLite says when the directory of its file does not exist. -/
def unableToOpen : DriverError := ⟨.operationalError .sqlite, "unable to open database file"⟩

/-- The directory does not exist. -/
def missingDirectory : Refusals
  | .setup (.openFile _) => some unableToOpen
  | _ => none

/-- The backend classifies the failure as an unreachable registry, and the write raises it. -/
theorem missingDirectory_raises :
    let row : ObjectRow := ⟨"t_acme", "people", "iceberg.t_acme.people", .inline, none, none⟩
    let fails := failure sqliteDatabase missingDirectory none missingDsn {} row none none
    let run := (sqliteDatabase.server missingDirectory).run ⟨{}, none⟩
      (recordObjectGuarded none missingDsn row none none)
    ¬ GuardedContract sqliteDatabase missingDsn row none none fails {} run.2.committed run.1 := by
  intro row fails run h
  have hopening : openingFailure missingDirectory none missingDsn = some unableToOpen := by
    decide +kernel
  have hdown : unreachable missingDsn unableToOpen = true := by decide +kernel
  have hfails : fails = some (.opening, unableToOpen) := by simp only [fails, failure, hopening]
  have hrun : run = (.error unableToOpen, ⟨{}, none⟩) := run_opening hopening
  rw [hfails, hrun, guardedContract_raised, hdown] at h
  cases h

end

end Sessions

end Memcove
