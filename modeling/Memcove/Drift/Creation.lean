import Memcove.Drift.Creators

/-!
# Racing creators

Any number of create-mode writes of one object, with any operations on other objects between them.
What makes creation exclusive is that the catalog and Trino refuse to create a table that exists:
the first creator owns the table, and all others fail before they write.
-/

namespace Memcove

open Programs

section

variable {k : Key} {event : CallEvent} {h : List CallEvent}

/-- A call that changes another table adds no rows. -/
theorem rowsAdded_of_changed (hevent : changed event ≠ some k) : rowsAdded k event = [] := by
  obtain ⟨c, r⟩ := event
  cases r with
  | error e => cases c <;> rfl
  | ok a =>
    cases c with
    | append handle rows =>
      have hkey : handle.key ≠ k := fun hkey => hevent (congrArg some hkey)
      simp [rowsAdded, hkey]
    | _ => rfl

/-- Events that change other tables add no rows. -/
theorem appended_of_unchanged {h : List CallEvent} (hh : ∀ event ∈ h, changed event ≠ some k) :
    appended k h = [] := by
  induction h with
  | nil => rfl
  | cons event h ih =>
    obtain ⟨hevent, hh⟩ := List.forall_mem_cons.mp hh
    rw [appended_cons, ih hh, rowsAdded_of_changed hevent]
    rfl

/-- The events that change the table of the key, when the contract of their caller holds. -/
theorem creating_cases {b : Bool} (hevent : changed event = some k)
    (hguarantee : (creating k b).guarantee h event.call) :
    (∃ schema handle, event = ⟨.createTable k schema, .ok handle⟩) ∨
      (∃ sql, event = ⟨.createTableAs false k sql, .ok ⟨⟩⟩) ∨
      ∃ handle rows, event = ⟨.append handle rows, .ok ⟨⟩⟩ ∧ handle.key = k ∧
        CreatedEmpty k h := by
  obtain ⟨c, r⟩ := event
  cases r with
  | error e => cases hevent
  | ok a =>
    have hchanges : c.changes = some k := hevent
    obtain ⟨_, hallowed⟩ := hguarantee hchanges
    cases c with
    | createTable k' schema =>
      cases hchanges
      exact Or.inl ⟨schema, a, rfl⟩
    | createTableAs replace k' sql =>
      cases hchanges
      have hreplace : replace = false := hallowed
      subst hreplace
      exact Or.inr (Or.inl ⟨sql, rfl⟩)
    | append handle rows =>
      have hkey : handle.key = k := Option.some.inj hchanges
      exact Or.inr (Or.inr ⟨handle, rows, rfl, hkey, hallowed⟩)
    | overwrite handle rows | dropTable k' => exact hallowed.elim
    | _ => cases hchanges

end

section

variable [Engines] {ι : Type} {k : Key} {s : Stores}

/-- The rows of a table right after its creation. -/
def foundingRows (s : Stores) : CallEvent → Rows
  | ⟨.createTableAs _ _ sql, _⟩ => (Engines.select s.lakehouse sql).2
  | _ => []

/-- The program `i` created the table by the given event, and has alone appended to it since. -/
structure Owned (k : Key) (s : Stores) (i : ι) (event : CallEvent)
    (newer older : Log Call Answer PyError ι) : Prop where
  creates : changed event = some k ∧ rowsAdded k event = []
  before : ∀ entry ∈ older, changed entry.2 ≠ some k
  since : ∀ entry ∈ newer, changed entry.2 = some k →
    entry.1 = i ∧ ∃ handle rows, entry.2 = ⟨.append handle rows, .ok ⟨⟩⟩
  table : ∃ t, (machine.after s (newer ++ (i, event) :: older)).lakehouse.table k = some t ∧
    t.rows = foundingRows (machine.after s older) event ++ appended k (newer.map (·.2))

/-- A creation makes its program the owner. -/
theorem owned_of_creation {i : ι} {event : CallEvent} {older : Log Call Answer PyError ι}
    (hbefore : ∀ entry ∈ older, changed entry.2 ≠ some k)
    (hevent : (∃ schema handle, event = ⟨.createTable k schema, .ok handle⟩) ∨
      ∃ sql, event = ⟨.createTableAs false k sql, .ok ⟨⟩⟩) :
    Owned k s i event [] older := by
  have hempty (rows : Rows) : rows ++ appended k ([] : List CallEvent) = rows :=
    List.append_nil rows
  rcases hevent with ⟨schema, handle, rfl⟩ | ⟨sql, rfl⟩
  · refine ⟨⟨rfl, rfl⟩, hbefore, fun _ h => (nomatch h), ?_⟩
    exact ⟨_, Lakehouse.table_setTable_self _ _ _, (hempty _).symm⟩
  · refine ⟨⟨rfl, rfl⟩, hbefore, fun _ h => (nomatch h), ?_⟩
    exact ⟨_, Lakehouse.table_createTableAs_self _ _ _, (hempty _).symm⟩

section

variable {i : ι} {event : CallEvent} {newer older : Log Call Answer PyError ι}

/-- The owner appends. -/
theorem Owned.append (howned : Owned k s i event newer older) {handle : TableHandle} {rows : Rows}
    (hkey : handle.key = k) :
    Owned k s i event ((i, ⟨.append handle rows, .ok ⟨⟩⟩) :: newer) older := by
  obtain ⟨t, htable, hrows⟩ := howned.table
  refine ⟨howned.creates, howned.before, fun entry hentry hchanged => ?_, ?_⟩
  · rcases List.mem_cons.mp hentry with rfl | hentry
    · exact ⟨rfl, handle, rows, rfl⟩
    · exact howned.since entry hentry hchanged
  · refine ⟨{ t with rows := t.rows ++ rows }, ?_, ?_⟩
    · rw [List.cons_append, Machine.after_cons]
      change (lakehouseAfter _ (.append handle rows)).table k = _
      subst hkey
      simp only [lakehouseAfter, htable]
      exact Lakehouse.table_setTable_self _ _ _
    · simp [appended, rowsAdded, hkey, hrows]

/-- Whoever changes another table does not change the owner's. -/
theorem Owned.other (howned : Owned k s i event newer older) {entry : ι × CallEvent}
    (hentry : changed entry.2 ≠ some k) : Owned k s i event (entry :: newer) older := by
  obtain ⟨t, htable, hrows⟩ := howned.table
  refine ⟨howned.creates, howned.before, fun e he hchanged => ?_, t, ?_, ?_⟩
  · rcases List.mem_cons.mp he with rfl | he
    · exact absurd hchanged hentry
    · exact howned.since e he hchanged
  · rw [List.cons_append, Machine.after_cons]
    exact (table_storesAfter _ hentry).trans htable
  · have hadded := rowsAdded_of_changed hentry
    simpa [appended, hadded] using hrows

/-- Only the owner has created the table. -/
theorem Owned.unique (howned : Owned k s i event newer older) {entry : ι × CallEvent}
    (hentry : entry ∈ newer ++ (i, event) :: older) (hchanged : changed entry.2 = some k)
    (hadded : ∀ handle rows, entry.2 ≠ ⟨.append handle rows, .ok ⟨⟩⟩) : entry = (i, event) := by
  rcases List.mem_append.mp hentry with hentry | hentry
  · obtain ⟨_, handle, rows, hevent⟩ := howned.since entry hentry hchanged
    exact absurd hevent (hadded handle rows)
  · rcases List.mem_cons.mp hentry with hentry | hentry
    · exact hentry
    · exact absurd hchanged (howned.before entry hentry)

end

variable [DecidableEq ι]

/-- In a run of creators and of operations on other objects the table of the key has not been
touched, or it has one owner. -/
theorem owner_of_creating (creator : ι → Bool) {log : Log Call Answer PyError ι}
    (hpossible : Along (fun older entry => machine.possible (machine.after s older) entry.2) log)
    (hguarantees : Along (fun older entry =>
      (creating k (creator entry.1)).guarantee (history entry.1 older) entry.2.call) log) :
    (∀ entry ∈ log, changed entry.2 ≠ some k) ∨
      ∃ i event newer older, log = newer ++ (i, event) :: older ∧
        Owned k s i event newer older := by
  induction log with
  | nil => exact Or.inl (fun _ h => nomatch h)
  | cons entry log ih =>
    obtain ⟨j, event⟩ := entry
    have hnow : machine.possible (machine.after s log) event := hpossible.1
    have hmem {event' : CallEvent} (h : event' ∈ history j log) : (j, event') ∈ log :=
      mem_history.mp h
    by_cases hchanged : changed event = some k
    · have hcases := creating_cases hchanged hguarantees.1
      rcases ih hpossible.2 hguarantees.2 with huntouched | ⟨i, event', newer, older, rfl, howned⟩
      · -- the first change is a creation, as nobody appends to a table that he has not made
        refine Or.inr ⟨j, event, [], log, rfl, owned_of_creation huntouched ?_⟩
        rcases hcases with hcreate | hcreate | ⟨handle, rows, _, _, schema, handle', hmade⟩
        · exact Or.inl hcreate
        · exact Or.inr hcreate
        · exact absurd rfl (huntouched _ (hmem hmade))
      · -- the table exists, so that it is not created again, and who appends is the owner
        obtain ⟨t, htable, _⟩ := howned.table
        rcases hcases with ⟨schema, handle, rfl⟩ | ⟨sql, rfl⟩ |
          ⟨handle, rows, rfl, hkey, schema, handle', hmade⟩
        · have hnone := hnow.1
          rw [htable] at hnone
          cases hnone
        · rcases hnow with hreplace | hnone
          · cases hreplace
          · rw [htable] at hnone
            cases hnone
        · have howner := howned.unique (hmem hmade) rfl (fun _ _ h => nomatch h)
          cases howner
          exact Or.inr ⟨_, _, _ :: newer, older, rfl, howned.append hkey⟩
    · rcases ih hpossible.2 hguarantees.2 with huntouched | ⟨i, event', newer, older, rfl, howned⟩
      · exact Or.inl (List.forall_mem_cons.mpr ⟨hchanged, huntouched⟩)
      · exact Or.inr ⟨i, event', (j, event) :: newer, older, rfl, howned.other hchanged⟩

end

section

variable [Python] [Engines] [Backend] [Sqlglot] {ι : Type}

/-- The rows of a create-mode write of the program `i`: those of the ingested table, of all chunks
of the stream, or those that the `SELECT` had when the table was created. -/
def Operation.Writes (settings : Settings) (k : Key) (s : Stores) (log : Log Call Answer PyError ι)
    (i : ι) (rows : Rows) : Operation → Prop
  | ingest _ _ source _ _ _ => ∃ resolved, source = .ok resolved ∧ rows = resolved.table.rows
  | derive tenant _ sql _ _ _ => ∃ guarded newer older,
    validateSelect (deriveParams settings tenant) sql = .ok guarded ∧
      log = newer ++ (i, ⟨.createTableAs false k guarded.sql, .ok ⟨⟩⟩) :: older ∧
        rows = (Engines.select (machine.after s older).lakehouse guarded.sql).2
  | put _ _ chunks => rows = uploadRows chunks
  | _ => False

omit [Engines] [Backend] in
/-- A creator that returns has an event that creates the table. -/
theorem Operation.Made.created {settings : Settings} {k : Key} {h : List CallEvent}
    {op : Operation} (hmade : op.Made settings k h) : ∃ event ∈ h, changed event = some k ∧
      ∀ handle rows, event ≠ ⟨.append handle rows, .ok ⟨⟩⟩ := by
  have hfilled {rows : Rows} (hfilled : Filled k rows h) : ∃ event ∈ h, changed event = some k ∧
      ∀ handle rows, event ≠ ⟨.append handle rows, .ok ⟨⟩⟩ := by
    obtain ⟨⟨schema, handle, hmem⟩, _⟩ := hfilled
    exact ⟨_, hmem, rfl, fun _ _ h => nomatch h⟩
  cases op with
  | ingest tenant label source mode tags target =>
    obtain ⟨resolved, _, hrows⟩ := hmade
    exact hfilled hrows
  | derive tenant newLabel sql mode tags target =>
    obtain ⟨guarded, _, hmem, _⟩ := hmade
    exact ⟨_, hmem, rfl, fun _ _ h => nomatch h⟩
  | put schema target chunks => exact hfilled hmade
  | describe tenant label => exact hmade.elim
  | drop tenant label => exact hmade.elim
  | sweep => exact hmade.elim

variable [DecidableEq ι] {settings : Settings} {ops : ι → Operation} {k : Key} {s : Stores}

omit [Python] [Engines] [Backend] [Sqlglot] in
/-- Where one program alone appends, its history has all rows. -/
theorem appended_history {i : ι} {log : Log Call Answer PyError ι}
    (hlog : ∀ entry ∈ log, rowsAdded k entry.2 ≠ [] → entry.1 = i) :
    appended k (history i log) = appended k (log.map (·.2)) := by
  induction log with
  | nil => rfl
  | cons entry log ih =>
    have hrest := ih (fun e he => hlog e (List.mem_cons_of_mem entry he))
    obtain ⟨j, event⟩ := entry
    by_cases hj : j = i
    · subst hj
      rw [history_cons_self, List.map_cons, appended_cons, appended_cons, hrest]
    · have hadded : rowsAdded k event = [] := by
        by_contra hne
        exact hj (hlog _ List.mem_cons_self hne)
      rw [history_cons_of_ne hj, hrest, List.map_cons, appended_cons, hadded, List.append_nil]

omit [Python] [Backend] [Sqlglot] in
/-- The owner's history has all rows that were appended since the creation. -/
theorem Owned.appended_history {i : ι} {event : CallEvent}
    {newer older : Log Call Answer PyError ι} (howned : Owned k s i event newer older) :
    appended k (history i (newer ++ (i, event) :: older)) = appended k (newer.map (·.2)) := by
  have howner : ∀ entry ∈ newer ++ (i, event) :: older, rowsAdded k entry.2 ≠ [] →
      entry.1 = i := by
    intro entry hentry hne
    have hchanged : changed entry.2 = some k := by
      by_contra hnot
      exact hne (rowsAdded_of_changed hnot)
    rcases List.mem_append.mp hentry with hentry | hentry
    · exact (howned.since entry hentry hchanged).1
    · rcases List.mem_cons.mp hentry with rfl | hentry
      · rfl
      · exact absurd hchanged (howned.before entry hentry)
  have holder : appended k (older.map (·.2)) = [] := by
    refine appended_of_unchanged (fun e he => ?_)
    obtain ⟨entry, hentry, rfl⟩ := List.mem_map.mp he
    exact howned.before entry hentry
  rw [Memcove.appended_history howner, List.map_append, List.map_cons, appended_append,
    appended_cons, holder, howned.creates.2]
  rfl

omit [Backend] in
/-- The table of a creator that returned has its rows. -/
theorem Owned.writes {i : ι} {event : CallEvent} {newer older : Log Call Answer PyError ι}
    (howned : Owned k s i event newer older) {op : Operation}
    (hmade : op.Made settings k (history i (newer ++ (i, event) :: older))) :
    op.Writes settings k s (newer ++ (i, event) :: older) i
      (foundingRows (machine.after s older) event ++ appended k (newer.map (·.2))) := by
  have hevent {e : CallEvent} (he : e ∈ history i (newer ++ (i, event) :: older))
      (hchanged : changed e = some k) (hcreates : ∀ handle rows, e ≠ ⟨.append handle rows,
        .ok ⟨⟩⟩) : e = event :=
    congrArg Prod.snd (howned.unique (mem_history.mp he) hchanged hcreates)
  have hfilled {rows : Rows} (hfilled : Filled k rows (history i (newer ++ (i, event) :: older))) :
      foundingRows (machine.after s older) event ++ appended k (newer.map (·.2)) = rows := by
    obtain ⟨⟨schema, handle, hmem⟩, hrows⟩ := hfilled
    cases hevent hmem rfl (fun _ _ h => nomatch h)
    rw [howned.appended_history] at hrows
    exact hrows
  cases op with
  | ingest tenant label source mode tags target =>
    obtain ⟨resolved, hsource, hrows⟩ := hmade
    exact ⟨resolved, hsource, hfilled hrows⟩
  | derive tenant newLabel sql mode tags target =>
    obtain ⟨guarded, hguarded, hmem, hrows⟩ := hmade
    cases hevent hmem rfl (fun _ _ h => nomatch h)
    rw [howned.appended_history] at hrows
    refine ⟨guarded, newer, older, hguarded, rfl, ?_⟩
    rw [hrows]
    exact List.append_nil _
  | put schema target chunks => exact hfilled hmade
  | describe tenant label => exact hmade.elim
  | drop tenant label => exact hmade.elim
  | sweep => exact hmade.elim

/-- In a run of any number of creators of one object, with any operations on other objects, the
creator that returns is the only one, and the table has exactly its rows. -/
theorem create_exclusive {log : Log Call Answer PyError ι} {threads : ι → Tool Unit}
    (hops : ∀ i, (ops i).Creates k ∨ (ops i).object ≠ some k)
    (h : Run machine (fun i => (ops i).program settings) s log threads) {i : ι}
    (hi : (ops i).Creates k) (hdone : threads i = .pure ⟨⟩) :
    (∀ j, j ≠ i → (ops j).Creates k → threads j ≠ .pure ⟨⟩) ∧
      ∃ t, (machine.after s log).lakehouse.table k = some t ∧
        (ops i).Writes settings k s log i t.rows := by
  classical
  have hsat (j : ι) : Sat (creating k (decide ((ops j).Creates k)))
      (fun h r => (ops j).Creates k → ∀ a, r = .ok a → (ops j).Made settings k h) []
      ((ops j).program settings) := by
    by_cases hj : (ops j).Creates k
    · rw [decide_eq_true hj]
      exact (operation_creating settings hj).mono (fun _ _ hmade _ => hmade)
    · rw [decide_eq_false hj]
      exact (operation_other settings ((hops j).resolve_left hj)).mono
        (fun _ _ _ hcreates => absurd hcreates hj)
  obtain ⟨hended, hguarantees⟩ := h.sat hsat
    (h.possible.imp (fun _ _ hpossible _ => creating_assume hpossible.1 _))
  have hmade {j : ι} (hj : (ops j).Creates k) (hend : threads j = .pure ⟨⟩) :
      (ops j).Made settings k (history j log) := by
    have hsat := hended j
    rw [hend] at hsat
    exact hsat hj _ rfl
  obtain ⟨event, hmem, hchanged, hcreates⟩ := (hmade hi hdone).created
  rcases owner_of_creating (fun j => decide ((ops j).Creates k)) h.possible hguarantees with
    huntouched | ⟨owner, founding, newer, older, rfl, howned⟩
  · exact absurd hchanged (huntouched _ (mem_history.mp hmem))
  · cases howned.unique (mem_history.mp hmem) hchanged hcreates
    obtain ⟨t, htable, hrows⟩ := howned.table
    refine ⟨fun j hne hj hend => ?_, t, htable, hrows ▸ howned.writes (hmade hi hdone)⟩
    obtain ⟨event', hmem', hchanged', hcreates'⟩ := (hmade hj hend).created
    exact hne (congrArg Prod.fst (howned.unique (mem_history.mp hmem') hchanged' hcreates'))

end

section

attribute [local instance] asciiPython eventsSqlglot textEngines externalBackend

/-- Two ingests that create `events`. -/
def twoCreators : Bool → Operation
  | false => ingestEvents ["a"] "create" []
  | true => ingestEvents ["b"] "create" []

/-- Both ingests find no table, the first one creates it, and the second one is refused. -/
def bothCreate : List Bool :=
  [false, false, true, true] ++ [false, true] ++ List.replicate 9 false

/-- The first ingest returns, the second one does not, and the table has the first one's rows. -/
theorem twoCreators_exclusive : ∃ log threads,
    Run machine (fun i => (twoCreators i).program {}) {} log threads ∧
      threads false = .pure ⟨⟩ ∧
      (∀ j, j ≠ false → (twoCreators j).Creates ("t_acme", "events") → threads j ≠ .pure ⟨⟩) ∧
      ∃ t, (machine.after {} log).lakehouse.table ("t_acme", "events") = some t ∧
        (twoCreators false).Writes {} ("t_acme", "events") {} log false t.rows := by
  have hcreates (i : Bool) : (twoCreators i).Creates ("t_acme", "events") := by
    cases i <;> exact ⟨rfl, rfl, rfl, rfl⟩
  have hrun := playOps_run twoCreators bothCreate
  have hdone : (playOps twoCreators bothCreate).2 false = .pure ⟨⟩ := by rfl
  exact ⟨_, _, hrun, hdone, create_exclusive (fun i => Or.inl (hcreates i)) hrun (hcreates false)
    hdone⟩

end

end Memcove
