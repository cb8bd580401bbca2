import Memcove.Lib.Locks
import Memcove.Lib.Transactions

/-!
# A connection that threads share

All threads use one connection to a database. A statement works on the open transaction and may
return rows; `COMMIT` may fail and leaves the transaction open then; `ROLLBACK` fails only when no
transaction is open. After some errors the database has already rolled back on its own. A session
commits when its body ends, and rolls back when anything fails; what it does is told by its body.
-/

namespace SharedConnection

open Programs Transactions Locks

/-- A request on the connection. -/
inductive Request (St : Type) where
  | execute (statement : St)
  | commit
  | rollback

/-- The type of the value that a request returns: the rows of a statement. -/
abbrev Reply {St : Type} (B : St → Type) : Request St → Type
  | .execute statement => B statement
  | _ => PUnit

/-- A database: what a statement makes of the contents, whether it only reads them, which rows it
may return, and after which errors the transaction is gone. -/
structure Database (St : Type) (B : St → Type) (σ E : Type) where
  step : σ → St → Except E σ
  reads : St → Bool
  selects : σ → (statement : St) → B statement → Prop
  undone : E → Bool
  step_of_reads : ∀ {R : σ} {statement : St}, reads statement = true → step R statement = .ok R

variable {St σ E α β : Type} {B : St → Type}

/-- A program on the connection. -/
abbrev Session (B : St → Type) (E α : Type) := Program (Request St) (Reply B) E α

/-- One statement. -/
def execute (statement : St) : Session B E (B statement) :=
  Program.perform (.execute statement : Request St)

/-- `with connection() as conn:` around a body. -/
def connection (body : Session B E α) : Session B E α :=
  Program.tryCatch (do
      let a ← body
      let _ ← Program.perform (.commit : Request St)
      return a)
    (fun e => do
      let _ ← Program.perform (.rollback : Request St)
      .raise e)

namespace Database

/-- The store after a request. A statement that reads opens no transaction. -/
def after (db : Database St B σ E) (s : Store σ) : Event (Request St) (Reply B) E → Store σ
  | ⟨.execute statement, .ok _⟩ =>
    match db.reads statement, db.step s.contents statement with
    | false, .ok R => { s with working := some R }
    | _, _ => s
  | ⟨.execute _, .error e⟩ | ⟨.commit, .error e⟩ => if db.undone e then ⟨s.committed, none⟩ else s
  | ⟨.commit, .ok _⟩ => ⟨s.contents, none⟩
  | ⟨.rollback, _⟩ => ⟨s.committed, none⟩

/-- The database behind the connection. Any request may fail, but for a rollback of an open
transaction. -/
def machine (db : Database St B σ E) : Machine (Request St) (Reply B) E (Store σ) where
  possible s event :=
    match event with
    | ⟨.execute statement, .ok rows⟩ =>
      (∃ R, db.step s.contents statement = .ok R) ∧ db.selects s.contents statement rows
    | ⟨.rollback, .error _⟩ => s.working = none
    | _ => True
  effect := db.after

/-- No transaction is open. -/
def Idle (s : Store σ) : Prop := s.working = none

/-- Nothing has been committed. -/
def Uncommitted (s t : Store σ) : Prop := t.committed = s.committed

/-- A body that starts on the contents `R`, in any transaction, commits nothing, and returns only
with contents and a value that satisfy `Q`. -/
def Body (db : Database St B σ E) (R : σ) (p : Session B E α) (Q : σ → α → Prop) : Prop :=
  ∀ s t : Store σ, t.committed = s.committed → t.contents = R →
    EndsWithin db.machine Uncommitted s t p
      (fun u r => u.committed = s.committed ∧ ∀ a, r = .ok a → Q u.contents a)

variable {db : Database St B σ E} {R : σ} {p : Session B E α} {Q : σ → α → Prop}

/-- A weaker postcondition. -/
theorem Body.mono {Q' : σ → α → Prop} (hp : db.Body R p Q) (himp : ∀ R' a, Q R' a → Q' R' a) :
    db.Body R p Q' :=
  fun s t ht hR => (hp s t ht hR).mono (fun _ _ hq => ⟨hq.1, fun a ha => himp _ a (hq.2 a ha)⟩)

/-- The rule for a body that returns. -/
theorem Body.pure {a : α} (hq : Q R a) : db.Body R (.pure a) Q := by
  rintro s t ht rfl
  refine .pure ⟨ht, fun a' ha => ?_⟩
  cases ha
  exact hq

/-- The rule for one part of a body after the other. -/
theorem Body.bind {Φ : σ → β → Prop} {f : α → Session B E β} (hp : db.Body R p Q)
    (hf : ∀ R' a, Q R' a → db.Body R' (f a) Φ) : db.Body R (p >>= f) Φ := by
  intro s t ht hR
  refine (hp s t ht hR).bind (fun u a hu => ?_) (fun u e hu => ⟨hu.1, nofun⟩)
  exact hf _ a (hu.2 a rfl) s u hu.1 rfl

/-- The store after a statement that went through. -/
theorem after_execute {s : Store σ} {R' : σ} (statement : St) (rows : B statement)
    (h : db.step s.contents statement = .ok R') :
    (db.after s ⟨.execute statement, .ok rows⟩).committed = s.committed ∧
      (db.after s ⟨.execute statement, .ok rows⟩).contents = R' := by
  cases hreads : db.reads statement with
  | false =>
    simp only [after, hreads, h]
    exact ⟨trivial, rfl⟩
  | true =>
    simp only [after, hreads]
    rw [db.step_of_reads hreads] at h
    exact ⟨trivial, Except.ok.inj h⟩

/-- The rule for one statement. -/
theorem Body.execute (statement : St) : db.Body R (execute statement)
    (fun R' rows => db.step R statement = .ok R' ∧ db.selects R statement rows) := by
  rintro s t ht rfl
  refine .perform ht (fun r hr => ?_)
  cases r with
  | ok rows =>
    obtain ⟨⟨R', hR'⟩, hrows⟩ := hr
    obtain ⟨hcommitted, hcontents⟩ := after_execute statement rows hR'
    refine ⟨hcommitted.trans ht, fun a ha => ?_⟩
    cases ha
    exact ⟨hcontents ▸ hR', hrows⟩
  | error e =>
    refine ⟨?_, nofun⟩
    change (if db.undone e then _ else t).committed = _
    split
    · exact ht
    · exact ht

/-- The rule for a loop over statements without rows. -/
theorem Body.each {ι : Type} {f : ι → Session B E PUnit} (statement : ι → St)
    (hf : ∀ x R, db.Body R (f x) (fun R' _ => db.step R (statement x) = .ok R')) (xs : List ι) :
    db.Body R (Program.each f xs) (fun R' _ => (xs.map statement).foldlM db.step R = .ok R') := by
  induction xs generalizing R with
  | nil => exact .pure rfl
  | cons x xs ih =>
    refine Body.bind (hf x R) (fun R' _ hR' => (ih (R := R')).mono (fun R'' _ h => ?_))
    rw [List.map_cons, List.foldlM_cons, hR']
    exact h

/-- A session ends without a transaction. When it returns it has committed what its body made of
the contents, and when it raises it has left no trace. Until it has committed, the committed
contents are what they were. -/
theorem connection_endsWithin (hp : db.Body R p Q) :
    EndsWithin db.machine Uncommitted ⟨R, none⟩ ⟨R, none⟩ (connection p)
      (fun u r => Idle u ∧ match r with
        | .ok a => Q u.committed a
        | .error _ => u.committed = R) := by
  refine EndsWithin.tryCatch (Q := fun u r => match r with
    | .ok a => Idle u ∧ Q u.committed a
    | .error _ => u.committed = R) ?_ (fun _ _ h => h) ?_
  · refine (hp ⟨R, none⟩ ⟨R, none⟩ rfl rfl).bind (fun u a hu => ?_) (fun _ _ h => h.1)
    refine (EndsWithin.perform (Φ := fun (v : Store σ) r => match r with
      | .ok _ => Idle v ∧ Q v.committed a
      | .error _ => v.committed = R) hu.1 ?_).bind (fun _ _ h => .pure h) (fun _ _ h => h)
    intro r _
    cases r with
    | ok _ => exact ⟨rfl, hu.2 a rfl⟩
    | error e =>
      change (if db.undone e then _ else u).committed = R
      split
      · exact hu.1
      · exact hu.1
  · intro u e hu
    have hrollback : EndsWithin db.machine Uncommitted ⟨R, none⟩ u
        (Program.perform (.rollback : Request St)) (fun v _ => Idle v ∧ v.committed = R) :=
      .perform hu (fun r _ => ⟨rfl, hu⟩)
    exact hrollback.bind (fun _ _ h => .raise h) (fun _ _ h => h)

end Database

end SharedConnection
