import Memcove.Drift.Operations
import Memcove.Lib.Watched

/-!
# Half-written tables

`write_arrow` while any of its calls may raise and others read the table between any two of them.
An existing table is written in one commit. A new one is created empty and filled by a second
commit.
-/

namespace Memcove

open Programs

section

variable [Engines]

/-- The table after the complete write. -/
def completeTable (L : Lakehouse) (k : Key) (table : ArrowTable) (mode : String) : LakeTable :=
  match L.table k with
  | none => ⟨L.nextUuid, Engines.readBack table.schema, table.rows⟩
  | some t => { t with rows := if mode = "append" then t.rows ++ table.rows else table.rows }

/-- What others may see of the table. -/
def AllOrNothingTable (s : Stores) (k : Key) (table : ArrowTable) (mode : String) (u : Stores) :
    Prop :=
  u.lakehouse.table k = s.lakehouse.table k ∨
    u.lakehouse.table k = some (completeTable s.lakehouse k table mode)

variable [Python]

/-- At every moment of every run the table is as before or completely written, and it is as before
when `write_arrow` has raised. -/
def AllOrNothing (s : Stores) (k : Key) (table : ArrowTable) (mode : String) : Prop :=
  ∀ log threads, Run machine (fun _ : Unit => do
      let _ ← writeArrow k.1 k.2 table (.str mode)) s log threads →
    AllOrNothingTable s k table mode (machine.after s log) ∧ ∀ e, threads () = .raise e →
      (machine.after s log).lakehouse.table k = s.lakehouse.table k

variable {s : Stores} {k : Key} {table : ArrowTable} {mode : String}

omit [Engines] in
/-- Without a table all three modes create it. -/
theorem commitArrow_absent (hmode : mode = "create" ∨ mode = "replace" ∨ mode = "append") :
    commitArrow k.1 k.2 table (.str mode) false = createAndAppend k table := by
  rcases hmode with rfl | rfl | rfl <;> rfl

/-- What a write leaves behind: one of the two tables, and after an error the one before it. -/
def Settled (s : Stores) (k : Key) (table : ArrowTable) (mode : String) (u : Stores) {α : Type} :
    Except PyError α → Prop
  | .ok _ => AllOrNothingTable s k table mode u
  | .error _ => u.lakehouse.table k = s.lakehouse.table k

omit [Python] in
/-- The single commit of a write to an existing table. -/
theorem commit_throughout {u : Stores} {t : LakeTable} {c : Call}
    (ht : s.lakehouse.table k = some t)
    (hc : (mode = "replace" ∧ c = .overwrite (handleOf k t) table.rows) ∨
      (mode = "append" ∧ c = .append (handleOf k t) table.rows))
    (hu : u.lakehouse.table k = s.lakehouse.table k) :
    Throughout machine (AllOrNothingTable s k table mode) u (call c)
      (fun v r => Settled s k table mode v r) := by
  refine Throughout.perform (Or.inl hu) (fun r _ => ?_)
  cases r with
  | error e => exact hu
  | ok a =>
    rw [ht] at hu
    refine Or.inr ?_
    rcases hc with ⟨rfl, rfl⟩ | ⟨rfl, rfl⟩
    · simp only [machine, storesAfter, lakehouseAfter, handleOf, hu, completeTable, ht]
      rw [Lakehouse.table_setTable_self]
      rfl
    · simp only [machine, storesAfter, lakehouseAfter, handleOf, hu, completeTable, ht]
      rw [Lakehouse.table_setTable_self]
      rfl

/-- Loading the table, comparing the schemas, and the commit. -/
theorem rewrite_throughout {u : Stores} {t : LakeTable} (op : String) {p : TableHandle → Tool PUnit}
    (ht : s.lakehouse.table k = some t) (hu : u.lakehouse.table k = s.lakehouse.table k)
    (hcommit : Throughout machine (AllOrNothingTable s k table mode) u (p (handleOf k t))
      (fun v r => Settled s k table mode v r)) :
    Throughout machine (AllOrNothingTable s k table mode) u (do
      let iceberg ← call (.loadTable k)
      Program.lift (assertSchemaCompatible iceberg.columns table.schema op k.2)
      p iceberg) (fun v r => Settled s k table mode v r) := by
  refine Throughout.perform_bind (Or.inl hu) (fun handle hhandle => ?_) (fun _ _ => hu)
  obtain ⟨t', ht', rfl⟩ := hhandle
  rw [hu, ht] at ht'
  cases ht'
  exact Throughout.lift_bind (fun _ _ => hcommit) (fun _ _ => hu)

/-- An existing table is written in one commit, or not at all. -/
theorem writeArrow_throughout (hmode : mode = "create" ∨ mode = "replace" ∨ mode = "append")
    (hsome : (s.lakehouse.table k).isSome = true) :
    Throughout machine (AllOrNothingTable s k table mode) s (writeArrow k.1 k.2 table (.str mode))
      (fun v r => Settled s k table mode v r) := by
  obtain ⟨t, ht⟩ := Option.isSome_iff_exists.mp hsome
  refine Throughout.perform_bind (Or.inl rfl) (fun _ _ => ?_) (fun _ _ => rfl)
  have hadded : (s.lakehouse.addNamespace k.1).table k = s.lakehouse.table k :=
    Lakehouse.table_addNamespace _ _ _
  refine Throughout.perform_bind (Or.inl hadded) (fun exists_ hexists => ?_) (fun _ _ => hadded)
  obtain rfl : exists_ = true := Eq.trans hexists (hadded.symm ▸ hsome)
  have hcommit : Throughout machine (AllOrNothingTable s k table mode)
      ⟨s.lakehouse.addNamespace k.1, s.registry⟩ (commitArrow k.1 k.2 table (.str mode) true)
      (fun v r => Settled s k table mode v r) := by
    rcases hmode with rfl | rfl | rfl
    · exact .raise hadded
    · exact rewrite_throughout "replace" (p := fun iceberg => call (.overwrite iceberg table.rows))
        ht hadded (commit_throughout ht (Or.inl ⟨rfl, rfl⟩) hadded)
    · exact rewrite_throughout "append" (p := fun iceberg => call (.append iceberg table.rows))
        ht hadded (commit_throughout ht (Or.inr ⟨rfl, rfl⟩) hadded)
  exact hcommit.bind (fun _ _ hv => .pure hv) (fun _ _ hv => hv)

variable (table) in
/-- Without a table the first commit creates an empty one, and the second one may raise. -/
theorem writeArrow_halfWritten (hmode : mode = "create" ∨ mode = "replace" ∨ mode = "append")
    (hnone : s.lakehouse.table k = none) (e : PyError) : ∃ u,
    Completes machine s (do let _ ← writeArrow k.1 k.2 table (.str mode)) (.error e) u ∧
      u.lakehouse.table k = some ⟨s.lakehouse.nextUuid, Engines.readBack table.schema, []⟩ := by
  have hadded : (s.lakehouse.addNamespace k.1).table k = none :=
    (Lakehouse.table_addNamespace _ _ _).trans hnone
  have hcreated : (lakehouseAfter (s.lakehouse.addNamespace k.1)
      (.createTable k table.schema)).table k =
        some ⟨(s.lakehouse.addNamespace k.1).nextUuid, Engines.readBack table.schema, []⟩ :=
    Lakehouse.table_setTable_self _ _ _
  have hbad : Completes machine ⟨s.lakehouse.addNamespace k.1, s.registry⟩
      (createAndAppend k table) (.error e)
      ⟨lakehouseAfter (s.lakehouse.addNamespace k.1) (.createTable k table.schema), s.registry⟩ :=
    .call (r := .ok ⟨k, _, _⟩) ⟨hadded, rfl⟩ (.call (r := .error e) trivial .raise)
  have hwrite : Completes machine s (writeArrow k.1 k.2 table (.str mode)) (.error e)
      ⟨lakehouseAfter (s.lakehouse.addNamespace k.1) (.createTable k table.schema),
        s.registry⟩ := by
    have hexists : false = ((s.lakehouse.addNamespace k.1).table k).isSome := by
      rw [hadded]
      rfl
    refine .call (r := .ok ⟨⟩) trivial (.call (r := .ok false) ?_ ?_)
    · exact hexists
    change Completes machine ⟨s.lakehouse.addNamespace k.1, s.registry⟩
      (commitArrow k.1 k.2 table (.str mode) false >>= fun _ => pure table.rows.length) _ _
    rw [commitArrow_absent hmode]
    exact hbad.bind_error
  refine ⟨_, hwrite.bind_error, hcreated.trans ?_⟩
  rw [Lakehouse.nextUuid_addNamespace]

/-- A write is all-or-nothing, whatever fails and whoever looks, if and only if the table exists
beforehand. -/
theorem writeArrow_allOrNothing_iff (s : Stores) (k : Key) (table : ArrowTable) {mode : String}
    (hmode : mode = "create" ∨ mode = "replace" ∨ mode = "append") :
    AllOrNothing s k table mode ↔ (s.lakehouse.table k).isSome = true := by
  constructor
  · intro h
    by_contra hnone
    obtain ⟨u, hrun, hu⟩ := writeArrow_halfWritten table hmode
      (Option.not_isSome_iff_eq_none.mp hnone) (externalError "commit failed")
    obtain ⟨log, threads, hlog, hended, rfl⟩ := hrun.run
    have hsame := (h log threads hlog).2 _ hended
    rw [Option.not_isSome_iff_eq_none.mp hnone, hu] at hsame
    cases hsame
  · intro hsome log threads hrun
    have hwrite : Throughout machine (AllOrNothingTable s k table mode) s
        (do let _ ← writeArrow k.1 k.2 table (.str mode))
        (fun v r => Settled s k table mode v r) :=
      (writeArrow_throughout hmode hsome).bind (fun _ _ hv => .pure hv) (fun _ _ hv => hv)
    have hend (u : Stores) (r : Except PyError Unit) (hr : Settled s k table mode u r) :
        AllOrNothingTable s k table mode u := by
      cases r with
      | ok a => exact hr
      | error e => exact Or.inl hr
    obtain ⟨hnow, hraised, _⟩ := hwrite.at_every_moment hend hrun
    exact ⟨hnow, hraised⟩

end

section

attribute [local instance] asciiPython textEngines

/-- The creation of `events` with one row, after its first three calls. -/
def halfCreated : Log Call Answer PyError Unit × (Unit → Tool Unit) :=
  play machine answerOf {} [((), none), ((), none), ((), none)] [] (fun _ => do
    let _ ← writeArrow "t_acme" "events" (textTable ["a"]) (.str "create"))

/-- Between the two commits the table exists without its row. -/
theorem halfCreated_not_allOrNothing :
    (machine.after {} halfCreated.1).lakehouse.table ("t_acme", "events") =
        some ⟨0, [("v", .string true)], []⟩ ∧
      ¬ AllOrNothing {} ("t_acme", "events") (textTable ["a"]) "create" := by
  have hnow : (machine.after {} halfCreated.1).lakehouse.table ("t_acme", "events") =
      some ⟨0, [("v", .string true)], []⟩ := by rfl
  refine ⟨hnow, fun h => ?_⟩
  have hrun := (h _ _ (play_run answerOf_possible (fun _ _ _ => trivial) .start :
    Run machine _ {} halfCreated.1 halfCreated.2)).1
  rcases hrun with hprior | hcomplete
  · cases hnow.symm.trans hprior
  · cases hnow.symm.trans hcomplete

/-- The stores with a table of one row. -/
def oneEvent : Stores where
  lakehouse := { tables := [(("t_acme", "events"), ⟨0, [("v", .string true)], [[.str "a"]]⟩)] }

/-- An existing table is replaced all-or-nothing. -/
theorem oneEvent_allOrNothing :
    AllOrNothing oneEvent ("t_acme", "events") (textTable ["b"]) "replace" :=
  (writeArrow_allOrNothing_iff oneEvent ("t_acme", "events") (textTable ["b"])
    (Or.inr (Or.inl rfl))).mpr rfl

end

end Memcove
