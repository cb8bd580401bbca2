import Memcove.Lib.Sequential

/-!
# Stores with transactions

A client sends requests to a store: statements of the open transaction, `COMMIT`, `ROLLBACK`, and
whatever sets up its connection. Any request may be refused, and a statement may fail on the
contents that it meets. A transaction that ends as it should leaves the store either with all of
its statements or as it was, whichever request failed.
-/

namespace Transactions

open Programs

/-- A request: a statement of type `St`, the end of a transaction, or a request of type `O`
outside it. -/
inductive Request (O St : Type) where
  | setup (o : O)
  | execute (statement : St)
  | commit
  | rollback

/-- The committed contents, and what the open transaction has made of them. -/
structure Store (σ : Type) where
  committed : σ
  working : Option σ := none

/-- What a statement does to the contents, and which requests are refused. -/
structure Server (O St σ E : Type) where
  step : σ → St → Except E σ
  refuses : Request O St → Option E

/-- A program of requests. -/
abbrev Client (O St E : Type) := Program (Request O St) (fun _ => PUnit) E

variable {O St σ E : Type}

/-- The contents as the open transaction sees them. -/
def Store.contents (s : Store σ) : σ := s.working.getD s.committed

namespace Server

/-- What a request makes of the contents. -/
def handle (srv : Server O St σ E) (R : σ) (c : Request O St) : Except E σ :=
  match srv.refuses c with
  | some e => .error e
  | none =>
    match c with
    | .execute statement => srv.step R statement
    | _ => .ok R

/-- The answer to a request. -/
def answer (srv : Server O St σ E) (s : Store σ) (c : Request O St) : Except E PUnit :=
  (srv.handle s.contents c).map (fun _ => ⟨⟩)

/-- The store after an answer. A failed rollback drops the transaction with its connection. -/
def after (srv : Server O St σ E) (s : Store σ) :
    Event (Request O St) (fun _ => PUnit) E → Store σ
  | ⟨.execute statement, .ok _⟩ =>
    match srv.step s.contents statement with
    | .ok R => { s with working := some R }
    | .error _ => s
  | ⟨.commit, .ok _⟩ => ⟨s.contents, none⟩
  | ⟨.rollback, _⟩ => ⟨s.committed, none⟩
  | _ => s

/-- The store and its answers. -/
def machine (srv : Server O St σ E) : Machine (Request O St) (fun _ => PUnit) E (Store σ) where
  possible s event := event.answer = srv.answer s event.call
  effect := srv.after

variable (srv : Server O St σ E) {α : Type}

/-- Run a program: its result, and the store after it. -/
def run (s : Store σ) (p : Client O St E α) : Except E α × Store σ :=
  p.execute srv.machine srv.answer s

/-- What a list of requests makes of the contents when none of them fails; otherwise the first
failure. -/
def attempt (R : σ) (requests : List (Request O St)) : Except E σ :=
  requests.foldlM srv.handle R

end Server

/-- A list of requests, one after the other. -/
def sendAll (requests : List (Request O St)) : Client O St E PUnit :=
  Program.each Program.perform requests

/-- A transaction: the statements of the body, `COMMIT`, and on a failure of either the rollback,
after which the failure is raised again. -/
def transaction (rollback body : Client O St E PUnit) : Client O St E PUnit :=
  Program.tryCatch (do
      body
      Program.perform .commit)
    (fun e => do
      rollback
      .raise e)

/-- Sending a single request. -/
theorem sendAll_singleton (c : Request O St) :
    (sendAll [c] : Client O St E PUnit) = Program.perform c :=
  Program.bind_pure _

/-- Sending one list of requests after the other. -/
theorem sendAll_append (l l' : List (Request O St)) :
    (sendAll (l ++ l') : Client O St E PUnit) = (do sendAll l; sendAll l') := by
  unfold sendAll
  induction l with
  | nil => rfl
  | cons c l ih =>
    rw [List.cons_append, Program.each, Program.each, ih]
    exact (Program.bind_assoc (Program.perform c) _ _).symm

namespace Server

variable {srv : Server O St σ E} {s : Store σ} {R : σ}

/-- One request. -/
theorem run_perform (c : Request O St) :
    srv.run s (Program.perform c) = (srv.answer s c, srv.after s ⟨c, srv.answer s c⟩) :=
  Program.execute_perform c

/-- What follows a program that returns. -/
theorem run_bind_ok {α β : Type} {p : Client O St E α} {f : α → Client O St E β} {a : α}
    {t : Store σ} (hp : srv.run s p = (.ok a, t)) : srv.run s (p >>= f) = srv.run t (f a) :=
  Program.execute_bind_ok hp

/-- A program that raises ends the run. -/
theorem run_bind_error {α β : Type} {p : Client O St E α} {f : α → Client O St E β} {e : E}
    {t : Store σ} (hp : srv.run s p = (.error e, t)) : srv.run s (p >>= f) = (.error e, t) :=
  Program.execute_bind_error hp

/-- `try … except` around a program that returns. -/
theorem run_tryCatch_ok {α : Type} {p : Client O St E α} {g : E → Client O St E α} {a : α}
    {t : Store σ} (hp : srv.run s p = (.ok a, t)) : srv.run s (p.tryCatch g) = (.ok a, t) :=
  Program.execute_tryCatch_ok hp

/-- `try … except` around a program that raises. -/
theorem run_tryCatch_error {α : Type} {p : Client O St E α} {g : E → Client O St E α} {e : E}
    {t : Store σ} (hp : srv.run s p = (.error e, t)) :
    srv.run s (p.tryCatch g) = srv.run t (g e) :=
  Program.execute_tryCatch_error hp

/-- The answer to a request that is refused, or whose statement fails. -/
theorem run_perform_error {c : Request O St} {e : E} (hc : srv.handle s.contents c = .error e) :
    srv.run s (Program.perform c) = (.error e, srv.after s ⟨c, .error e⟩) := by
  have hanswer : srv.answer s c = .error e := by
    unfold answer
    rw [hc]
    rfl
  rw [run_perform, hanswer]

/-- The answer to a request that goes through. -/
theorem run_perform_ok {c : Request O St} {R : σ} (hc : srv.handle s.contents c = .ok R) :
    srv.run s (Program.perform c) = (.ok ⟨⟩, srv.after s ⟨c, .ok ⟨⟩⟩) := by
  have hanswer : srv.answer s c = .ok ⟨⟩ := by
    unfold answer
    rw [hc]
    rfl
  rw [run_perform, hanswer]

/-- One request after the other. -/
theorem attempt_cons (c : Request O St) (requests : List (Request O St)) :
    srv.attempt R (c :: requests) = srv.handle R c >>= fun R => srv.attempt R requests :=
  List.foldlM_cons

/-- A single request. -/
theorem attempt_singleton (c : Request O St) : srv.attempt R [c] = srv.handle R c := by
  rw [attempt_cons]
  exact bind_pure _

/-- One list of requests after the other. -/
theorem attempt_append (l l' : List (Request O St)) :
    srv.attempt R (l ++ l') = srv.attempt R l >>= fun R => srv.attempt R l' :=
  List.foldlM_append

/-- `COMMIT` leaves the contents of the transaction alone. -/
theorem handle_commit {R' : σ} (h : srv.handle R .commit = .ok R') : R' = R := by
  unfold handle at h
  split at h
  · cases h
  · exact (Except.ok.inj h).symm

/-- A statement that goes through changes what the open transaction sees. -/
theorem after_execute {statement : St} (h : srv.handle s.contents (.execute statement) = .ok R) :
    srv.after s ⟨.execute statement, .ok ⟨⟩⟩ = { s with working := some R } := by
  unfold handle at h
  split at h
  · cases h
  · simp only at h
    simp only [after, h]

variable (srv) in
/-- Statements work on the contents of the open transaction: all of them, or those before the
first that fails. Nothing is committed. -/
theorem run_statements (statements : List St) :
    ∃ t, srv.run s (sendAll (statements.map .execute)) =
        ((srv.attempt s.contents (statements.map .execute)).map (fun _ => ⟨⟩), t) ∧
      t.committed = s.committed ∧
      ∀ R, srv.attempt s.contents (statements.map .execute) = .ok R → t.contents = R := by
  induction statements generalizing s with
  | nil => exact ⟨s, rfl, rfl, fun R h => Except.ok.inj h⟩
  | cons statement statements ih =>
    rw [List.map_cons, attempt_cons]
    change ∃ t, srv.run s (Program.perform (.execute statement) >>=
      fun _ => sendAll (statements.map .execute)) = _ ∧ _
    cases hhandle : srv.handle s.contents (.execute statement) with
    | error e => exact ⟨s, run_bind_error (run_perform_error hhandle), rfl, nofun⟩
    | ok R =>
      rw [run_bind_ok (run_perform_ok hhandle), after_execute hhandle]
      exact ih

/-- A way to roll back ends every transaction without a trace, with the one result `r`. -/
def Undoes (srv : Server O St σ E) (rollback : Client O St E PUnit) (r : Except E PUnit) : Prop :=
  ∀ s, srv.run s rollback = (r, ⟨s.committed, none⟩)

/-- The answer to `ROLLBACK`. -/
def rollbackAnswer (srv : Server O St σ E) : Except E PUnit :=
  (srv.refuses .rollback).elim (.ok ⟨⟩) .error

/-- `ROLLBACK`, whose failure is raised. -/
theorem undoes_rollback : srv.Undoes (Program.perform .rollback) srv.rollbackAnswer := by
  intro s
  unfold rollbackAnswer
  cases hrefuses : srv.refuses .rollback with
  | some e =>
    exact run_perform_error (by unfold handle; rw [hrefuses])
  | none =>
    exact run_perform_ok (R := s.contents) (by unfold handle; rw [hrefuses])

/-- `ROLLBACK`, whose failure is ignored. -/
theorem undoes_rollback_ignored :
    srv.Undoes (Program.tryCatch (Program.perform .rollback) (fun _ => .pure ⟨⟩)) (.ok ⟨⟩) := by
  intro s
  have hrollback : srv.run s _ = (srv.rollbackAnswer, _) := undoes_rollback s
  cases hanswer : srv.rollbackAnswer with
  | ok _ =>
    rw [hanswer] at hrollback
    exact run_tryCatch_ok hrollback
  | error e =>
    rw [hanswer] at hrollback
    exact run_tryCatch_error hrollback

variable {statements : List St} {rollback : Client O St E PUnit} {r : Except E PUnit} {e : E}

/-- A transaction none of whose requests fails commits all of its statements. -/
theorem run_transaction_ok {R' : σ}
    (h : srv.attempt R (statements.map .execute ++ [.commit]) = .ok R') :
    srv.run ⟨R, none⟩ (transaction rollback (sendAll (statements.map .execute))) =
      (.ok ⟨⟩, ⟨R', none⟩) := by
  obtain ⟨t, hrun, _, hcontents⟩ := run_statements srv (s := ⟨R, none⟩) statements
  change srv.run _ _ = ((srv.attempt R _).map _, t) at hrun
  change ∀ R', srv.attempt R _ = .ok R' → _ at hcontents
  rw [attempt_append] at h
  cases hattempt : srv.attempt R (statements.map .execute) with
  | error e =>
    rw [hattempt] at h
    cases h
  | ok R'' =>
    rw [hattempt] at h hrun
    have hhandle : srv.handle t.contents .commit = .ok R' := by
      rw [hcontents R'' hattempt, ← attempt_singleton]
      exact h
    unfold transaction
    rw [run_tryCatch_ok ((run_bind_ok hrun).trans (run_perform_ok hhandle)), handle_commit hhandle,
      after]

/-- A transaction one of whose requests fails leaves the contents as they were. It raises the
first failure, or that of the rollback. -/
theorem run_transaction_error (hrollback : srv.Undoes rollback r)
    (h : srv.attempt R (statements.map .execute ++ [.commit]) = .error e) :
    srv.run ⟨R, none⟩ (transaction rollback (sendAll (statements.map .execute))) =
      (r >>= fun _ => .error e, ⟨R, none⟩) := by
  obtain ⟨t, hrun, hcommitted, hcontents⟩ :=
    run_statements srv (s := ⟨R, none⟩) statements
  change srv.run _ _ = ((srv.attempt R _).map _, t) at hrun
  change ∀ R', srv.attempt R _ = .ok R' → _ at hcontents
  have hundo (u : Store σ) (hu : u.committed = R) :
      srv.run u (do rollback; .raise e) =
        ((r >>= fun _ => .error e : Except E PUnit), ⟨R, none⟩) := by
    cases r with
    | ok _ => rw [run_bind_ok (hrollback u), hu]; rfl
    | error _ => rw [run_bind_error (hrollback u), hu]; rfl
  unfold transaction
  rw [attempt_append] at h
  cases hattempt : srv.attempt R (statements.map .execute) with
  | error e' =>
    rw [hattempt] at h hrun
    cases h
    rw [run_tryCatch_error (run_bind_error hrun)]
    exact hundo t hcommitted
  | ok R' =>
    rw [hattempt] at h hrun
    have hhandle : srv.handle t.contents .commit = .error e := by
      rw [hcontents R' hattempt, ← attempt_singleton]
      exact h
    rw [run_tryCatch_error ((run_bind_ok hrun).trans (run_perform_error hhandle))]
    exact hundo t hcommitted

end Server

end Transactions
