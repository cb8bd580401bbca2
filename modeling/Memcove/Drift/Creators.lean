import Memcove.Drift.Operations

/-!
# What creators and others call

Each create-mode write looks for the table first and creates it later, in one call or in several.
From its own calls alone it is known that it changes the table only by creating it and by
appending to what it has created, and that operations on other objects do not change it.
-/

namespace Memcove

open Programs

/-- The rows that an answered call appended to the table of a key. -/
def rowsAdded (k : Key) : CallEvent → Rows
  | ⟨.append handle rows, .ok _⟩ => if handle.key = k then rows else []
  | _ => []

/-- The rows appended to the table of a key, oldest first. -/
def appended (k : Key) (h : List CallEvent) : Rows :=
  h.foldr (fun event rows => rows ++ rowsAdded k event) []

/-- Nothing was appended before any call. -/
@[simp] theorem appended_nil (k : Key) : appended k [] = [] := rfl

/-- One more event. -/
@[simp] theorem appended_cons (k : Key) (event : CallEvent) (h : List CallEvent) :
    appended k (event :: h) = appended k h ++ rowsAdded k event := rfl

/-- A history whose older part is given. -/
theorem appended_append (k : Key) (newer older : List CallEvent) :
    appended k (newer ++ older) = appended k older ++ appended k newer := by
  induction newer with
  | nil => simp
  | cons event newer ih => simp [ih]

/-- The table of the key has been created without rows. -/
def CreatedEmpty (k : Key) (h : List CallEvent) : Prop :=
  ∃ schema handle, ⟨.createTable k schema, .ok handle⟩ ∈ h

/-- A creator of the key creates its table, or appends to the one that it has created; the other
operations leave that table alone. Both rely on handles of the table that was asked for. -/
def creating (k : Key) (creator : Bool) : Contract Call Answer PyError where
  guarantee h c :=
    c.changes = some k → creator = true ∧
      match c with
      | .createTable _ _ => True
      | .createTableAs replace _ _ => replace = false
      | .append _ _ => CreatedEmpty k h
      | _ => False
  assume _ event :=
    match event with
    | ⟨.createTable k' _, .ok handle⟩ | ⟨.loadTable k', .ok handle⟩ => handle.key = k'
    | _ => True

/-- The stores respect the assumption. -/
theorem creating_assume [Engines] {k : Key} {b : Bool} {s : Stores} {event : CallEvent}
    (h : machine.possible s event) (j : List CallEvent) : (creating k b).assume j event :=
  discipline_assume (b := b) h j

section

variable {k : Key} {b : Bool} {h : List CallEvent}

/-- The contract permits calls that change no table. -/
theorem stable_guarantee {c : Call} (hc : Stable c) : (creating k b).guarantee h c := by
  intro hk
  rw [hc] at hk
  cases hk

/-- A program that changes no table keeps the contract, and what such calls preserve. -/
theorem sat_of_stable {I : List CallEvent → Prop} {α : Type} {p : Tool α} (hp : Only Stable p)
    (hkeep : ∀ h c r, Stable c → I h → I (⟨c, r⟩ :: h)) (hh : I h) :
    Sat (creating k b) (fun h _ => I h) h p :=
  hp.sat (fun _ _ _ hc => stable_guarantee hc) (fun h c r hi hc => hkeep h c r hc hi) hh

/-- A call that changes no table appends no rows. -/
theorem Stable.appended_eq {c : Call} (hc : Stable c) (r : Except PyError (Answer c)) :
    appended k (⟨c, r⟩ :: h) = appended k h := by
  have hrows : rowsAdded k ⟨c, r⟩ = [] := by
    cases c <;> first | rfl | cases hc
  simp [appended, hrows]

/-- A creation remains in the history. -/
theorem CreatedEmpty.cons (hh : CreatedEmpty k h) (event : CallEvent) :
    CreatedEmpty k (event :: h) := by
  obtain ⟨schema, handle, hmem⟩ := hh
  exact ⟨schema, handle, List.mem_cons_of_mem event hmem⟩

/-- Recording changes no table. -/
theorem recordObjectGuarded_stable [Backend] (row : ObjectRow) (tags : List String)
    (parents : Option (List String)) : Only Stable (recordObjectGuarded row tags parents) :=
  recordObjectGuarded_only rfl rfl

/-- Describing changes no table, even when it repairs the row. -/
theorem describeObject_stable [Python] [Engines] (settings : Settings) (tenant label : String) :
    Only Stable (describeObject settings tenant label) :=
  describeObject_only settings tenant label (fun _ => Idle.stable) (fun _ => rfl)

/-- What a producer does after its data changes no table. -/
theorem recordAndDescribe_stable [Python] [Engines] [Backend] (settings : Settings)
    (row : ObjectRow) (tags : List String) (parents : Option (List String))
    (shown : List String) : Only Stable (do
      let ok ← recordObjectGuarded row tags parents
      if ok then describeObject settings row.tenant row.label
      else pendingObject row tags shown) :=
  recordAndDescribe_only settings row tags parents shown (fun _ => Idle.stable) rfl (fun _ => rfl)

/-- The sweep of the reconciler changes no table. -/
theorem reconcile_stable (settings : Settings) : Only Stable (reconcile settings) := by
  have hlist : Only Stable listNamespaces := Only.bind (Only.perform rfl) (fun _ => trivial)
  refine Only.bind hlist (fun namespaces => Only.each (fun tenant _ => ?_))
  refine Only.tryCatch (sweepNamespace_only rfl rfl rfl (fun plan => ?_)) (fun _ => trivial)
  exact applyPlan_only (fun _ _ => rfl) (fun _ => rfl) (fun _ => rfl) (fun _ => rfl) (fun _ => rfl)

end

section

variable {tenant label : String} {table : ArrowTable} {h : List CallEvent}

/-- The history after rows were written into the table that the creator has made. -/
def Filled (k : Key) (rows : Rows) (h : List CallEvent) : Prop :=
  CreatedEmpty k h ∧ appended k h = rows

/-- Calls that change no table keep the rows. -/
theorem Filled.stable {k : Key} {rows : Rows} (hh : Filled k rows h) {c : Call} (hc : Stable c)
    (r : Except PyError (Answer c)) : Filled k rows (⟨c, r⟩ :: h) :=
  ⟨hh.1.cons _, (hc.appended_eq r).trans hh.2⟩

/-- A program that changes no table keeps the rows. -/
theorem sat_filled {k : Key} {b : Bool} {rows : Rows} {α : Type} {p : Tool α}
    (hp : Only Stable p) (hh : Filled k rows h) :
    Sat (creating k b) (fun h _ => Filled k rows h) h p :=
  sat_of_stable hp (fun _ _ r hc hi => hi.stable hc r) hh

/-- Appending to the table that the creator has made. -/
theorem append_creating {k : Key} {handle : TableHandle} {done rows : Rows}
    (hkey : handle.key = k) (hfilled : Filled k done h) :
    Sat (creating k true) (fun h r => ∀ a, r = .ok a → Filled k (done ++ rows) h) h
      (call (.append handle rows)) := by
  refine Sat.perform (fun _ => ⟨rfl, hfilled.1⟩) (fun r _ => ?_)
  rintro a rfl
  refine ⟨hfilled.1.cons _, ?_⟩
  rw [← hfilled.2]
  simp [appended, rowsAdded, hkey]

/-- Creating the table and filling it. -/
theorem createAndAppend_creating {k : Key} {done : Rows} (hdone : appended k h = done) :
    Sat (creating k true) (fun h r => ∀ a, r = .ok a → Filled k (done ++ table.rows) h) h
      (createAndAppend k table) := by
  refine Sat.perform_bind (fun _ => ⟨rfl, trivial⟩) (fun handle hhandle => ?_)
    (fun _ _ _ ha => nomatch ha)
  have hkey : handle.key = k := hhandle
  refine append_creating hkey ⟨⟨_, _, List.mem_cons_self⟩, ?_⟩
  rw [← hdone]
  simp [appended, rowsAdded]

/-- `write_arrow` in create mode, or in append mode once the creator has made the table. -/
theorem writeArrow_creating [Python] {mode : Json} {done : Rows}
    (hdone : appended (tenant, label) h = done)
    (hmode : mode.isStr "create" = true ∨
      mode = .str "append" ∧ CreatedEmpty (tenant, label) h) :
    Sat (creating (tenant, label) true) (fun h r => ∀ n, r = .ok n →
        Filled (tenant, label) (done ++ table.rows) h) h
      (writeArrow tenant label table mode) := by
  refine Sat.perform_bind (stable_guarantee rfl) (fun _ _ => ?_) (fun _ _ _ hn => nomatch hn)
  refine Sat.perform_bind (stable_guarantee rfl) (fun exists_ _ => ?_) (fun _ _ _ hn => nomatch hn)
  have hkept : appended (tenant, label) (⟨.tableExists (tenant, label), .ok exists_⟩ ::
      ⟨.createNamespace tenant, .ok ⟨⟩⟩ :: h) = done := by
    have hexists : Stable (.tableExists (tenant, label)) := rfl
    have hnamespace : Stable (.createNamespace tenant) := rfl
    rw [hexists.appended_eq, hnamespace.appended_eq, hdone]
  have hcommit : Sat (creating (tenant, label) true) (fun h r => ∀ a, r = .ok a →
        Filled (tenant, label) (done ++ table.rows) h)
      (⟨.tableExists (tenant, label), .ok exists_⟩ :: ⟨.createNamespace tenant, .ok ⟨⟩⟩ :: h)
      (commitArrow tenant label table mode exists_) := by
    rcases hmode with hmode | ⟨rfl, hmade⟩
    · unfold commitArrow
      rw [if_pos hmode]
      cases exists_ with
      | true => exact fun _ ha => nomatch ha
      | false => exact createAndAppend_creating hkept
    · have hcreate : (Json.str "append").isStr "create" = false := by decide
      have hreplace : (Json.str "append").isStr "replace" = false := by decide
      have happend : (Json.str "append").isStr "append" = true := by decide
      simp only [commitArrow, hcreate, hreplace, happend, Bool.false_eq_true, if_false, if_true]
      cases exists_ with
      | false => exact createAndAppend_creating hkept
      | true =>
        refine Sat.perform_bind (stable_guarantee rfl) (fun handle hhandle => ?_)
          (fun _ _ _ ha => nomatch ha)
        refine Sat.lift_bind (fun _ _ => ?_) (fun _ _ _ ha => nomatch ha)
        have hkey : handle.key = (tenant, label) := hhandle
        have hfilled : Filled (tenant, label) done (⟨.tableExists (tenant, label), .ok true⟩ ::
            ⟨.createNamespace tenant, .ok ⟨⟩⟩ :: h) := ⟨(hmade.cons _).cons _, hkept⟩
        have hload : Stable (.loadTable (tenant, label)) := rfl
        exact append_creating hkey (hfilled.stable hload _)
  refine hcommit.bind (fun h' a hfilled n hn => ?_) (fun _ _ _ _ hn => nomatch hn)
  exact hfilled a rfl

/-- `do_put` in create mode fills the table with the rows of all chunks. -/
theorem putData_creating [Python] {schema : Columns} (settings : Settings) {mode : Json}
    (hmode : mode.isStr "create" = true) (chunks : List (Option (Batch schema))) :
    Sat (creating (tenant, label) true) (fun h' r => ∀ a, r = .ok a →
        Filled (tenant, label) (uploadRows chunks) h') []
      (putData settings tenant label mode chunks) := by
  have hwrite : KeptByCommits (creating (tenant, label) true)
      (fun commits rows h => appended (tenant, label) h = rows ∧
        (commits ≠ 0 → CreatedEmpty (tenant, label) h)) (fun _ _ => True) schema tenant label
      mode := by
    intro commits rows batches h hi
    have hwrites : (if commits = 0 then mode else .str "append").isStr "create" = true ∨
        (if commits = 0 then mode else .str "append") = .str "append" ∧
          CreatedEmpty (tenant, label) h := by
      by_cases hcommits : commits = 0
      · left
        rwa [if_pos hcommits]
      · right
        exact ⟨if_neg hcommits, hi.2 hcommits⟩
    refine (writeArrow_creating hi.1 hwrites).mono (fun h' r hfilled => ?_)
    cases r with
    | error e => trivial
    | ok n =>
      obtain ⟨hmade, hrows⟩ := hfilled n rfl
      exact ⟨hrows, fun _ => hmade⟩
  refine (putData_rule hwrite chunks ⟨rfl, fun h => absurd rfl h⟩).mono (fun h' r hput => ?_)
  rintro a rfl
  obtain ⟨commits, hcommits, hrows, hmade⟩ := hput
  exact ⟨hmade hcommits, hrows⟩

end

section

variable [Python]

/-- The operation is a create-mode write of the key into the lakehouse. -/
def Operation.Creates (k : Key) : Operation → Prop
  | ingest tenant label _ mode _ target =>
    mode = "create" ∧ target = "lakehouse" ∧ tenant = k.1 ∧ validateLabel label = .ok k.2
  | derive tenant newLabel _ mode _ target =>
    mode = "create" ∧ target = "lakehouse" ∧ tenant = k.1 ∧ validateLabel newLabel = .ok k.2
  | put _ target _ => ∃ mode : Json, target = .ok (k.1, k.2, mode) ∧ mode.isStr "create" = true
  | _ => False

/-- What a creator has done when it returns: it has made the table, and has written its rows. -/
def Operation.Made [Sqlglot] (settings : Settings) (k : Key) (h : List CallEvent) :
    Operation → Prop
  | ingest _ _ source _ _ _ => ∃ resolved, source = .ok resolved ∧ Filled k resolved.table.rows h
  | derive tenant _ sql _ _ _ => ∃ guarded,
    validateSelect (deriveParams settings tenant) sql = .ok guarded ∧
      ⟨.createTableAs false k guarded.sql, .ok ⟨⟩⟩ ∈ h ∧ appended k h = []
  | put _ _ chunks => Filled k (uploadRows chunks) h
  | _ => False

variable [Engines] [Backend]

/-- `ingest_object` in create mode. -/
theorem ingestObject_creating (settings : Settings) {tenant label name : String}
    {source : PyM ResolvedSource} {tags : Option (List String)}
    (hlabel : validateLabel label = .ok name) :
    Sat (creating (tenant, name) true) (fun h r => ∀ a, r = .ok a → ∃ resolved,
        source = .ok resolved ∧ Filled (tenant, name) resolved.table.rows h) []
      (ingestObject settings tenant label source "create" tags "lakehouse") := by
  refine Sat.lift_bind (fun name' hvalid => ?_) (fun _ _ _ ha => nomatch ha)
  rw [hlabel] at hvalid
  cases hvalid
  rw [if_neg (by simp)]
  refine Sat.lift_bind (fun resolved hsource => ?_) (fun _ _ _ ha => nomatch ha)
  rw [if_neg (by simp)]
  have hnew : appended (tenant, name) [] = [] := rfl
  refine (writeArrow_creating hnew (Or.inl (by decide))).bind (fun h n hfilled => ?_)
    (fun _ _ _ _ ha => nomatch ha)
  refine (sat_filled (recordAndDescribe_stable settings _ _ none []) (hfilled n rfl)).mono
    (fun h r hi a _ => ?_)
  exact ⟨resolved, hsource, hi⟩

/-- `derive_object` in create mode. -/
theorem deriveObject_creating [Sqlglot] (settings : Settings)
    {tenant newLabel name sql : String} {tags : Option (List String)}
    (hlabel : validateLabel newLabel = .ok name) :
    Sat (creating (tenant, name) true) (fun h r => ∀ a, r = .ok a → ∃ guarded,
        validateSelect (deriveParams settings tenant) sql = .ok guarded ∧
          ⟨.createTableAs false (tenant, name) guarded.sql, .ok ⟨⟩⟩ ∈ h ∧
            appended (tenant, name) h = []) []
      (deriveObject settings tenant newLabel sql "create" tags "lakehouse") := by
  refine Sat.lift_bind (fun name' hvalid => ?_) (fun _ _ _ ha => nomatch ha)
  rw [hlabel] at hvalid
  cases hvalid
  rw [if_neg (by simp), if_neg (by simp)]
  generalize validateSelect (deriveParams settings tenant) sql = result
  refine Sat.lift_bind (fun guarded hguarded => ?_) (fun _ _ _ ha => nomatch ha)
  rw [if_neg (by simp)]
  have hkeep (h : List CallEvent) (c : Call) (r : Except PyError (Answer c)) (hc : Stable c)
      (hi : appended (tenant, name) h = []) : appended (tenant, name) (⟨c, r⟩ :: h) = [] :=
    (hc.appended_eq r).trans hi
  have hexists (label : String) : Only Stable (tableExists tenant label) := Only.perform rfl
  have hcheck (exists_ : Bool) := (checkDerive_idle tenant name guarded.sql "create" exists_).mono
    (fun _ => Idle.stable)
  have hschema : Only Stable (call (.ensureSchema tenant)) := Only.perform rfl
  refine (sat_of_stable (hexists name) hkeep rfl).bind (fun h exists_ hi => ?_)
    (fun _ _ _ _ ha => nomatch ha)
  refine (sat_of_stable (hcheck exists_) hkeep hi).bind (fun h _ hi => ?_)
    (fun _ _ _ _ ha => nomatch ha)
  refine (sat_of_stable hschema hkeep hi).bind (fun h _ hi => ?_) (fun _ _ _ _ ha => nomatch ha)
  refine Sat.perform_bind (fun _ => ⟨rfl, rfl⟩) (fun _ _ => ?_) (fun _ _ _ ha => nomatch ha)
  have hrest : Only Stable (do
      let parents ← Program.select (fun label => tableExists tenant label) guarded.referencedLabels
      let ok ← recordObjectGuarded (deriveRow settings tenant name guarded.sql) (tags.getD [])
        (some parents)
      if ok then describeObject settings tenant name
      else pendingObject (deriveRow settings tenant name guarded.sql) (tags.getD []) parents) :=
    Only.bind (Only.select (fun label _ => hexists label))
      (fun parents => recordAndDescribe_stable settings _ _ _ parents)
  refine (sat_of_stable (I := fun h => ⟨.createTableAs false (tenant, name) guarded.sql, .ok ⟨⟩⟩ ∈
    h ∧ appended (tenant, name) h = []) hrest (fun h c r hc hi => ⟨List.mem_cons_of_mem _ hi.1,
      hkeep h c r hc hi.2⟩) ⟨List.mem_cons_self, ?_⟩).mono (fun h r hi a _ => ?_)
  · change appended (tenant, name) h ++ [] = []
    rw [hi, List.append_nil]
  · exact ⟨guarded, hguarded, hi⟩

/-- A creator keeps its contract, and when it returns it has made the table. -/
theorem operation_creating [Sqlglot] (settings : Settings) {k : Key} {op : Operation}
    (hop : op.Creates k) : Sat (creating k true) (fun h r => ∀ a, r = .ok a → op.Made settings k h)
      [] (op.program settings) := by
  obtain ⟨tenant, name⟩ := k
  cases op with
  | ingest tenant' label source mode tags target =>
    obtain ⟨rfl, rfl, rfl, hlabel⟩ := hop
    exact (ingestObject_creating settings hlabel).bind (fun _ a hmade _ _ => hmade a rfl)
      (fun _ _ _ _ ha => nomatch ha)
  | derive tenant' newLabel sql mode tags target =>
    obtain ⟨rfl, rfl, rfl, hlabel⟩ := hop
    exact (deriveObject_creating settings hlabel).bind (fun _ a hmade _ _ => hmade a rfl)
      (fun _ _ _ _ ha => nomatch ha)
  | put schema target chunks =>
    obtain ⟨mode, rfl, hmode⟩ := hop
    refine (putData_creating settings hmode chunks).bind (fun h a hfilled => ?_)
      (fun _ _ _ _ ha => nomatch ha)
    have hrecord : Only Stable (do
        let _ ← recordObjectGuarded (streamRow settings tenant name) [] none) :=
      Only.bind (recordObjectGuarded_stable _ _ _) (fun _ => trivial)
    exact (sat_filled hrecord (hfilled a rfl)).mono (fun _ _ hi _ _ => hi)
  | describe tenant label => exact hop.elim
  | drop tenant label => exact hop.elim
  | sweep => exact hop.elim

end

section

variable {k : Key} {b : Bool} {h : List CallEvent}

/-- The contract permits calls that change another table. -/
theorem other_guarantee {c : Call} {k' : Key} (hc : c.changes = some k') (hk : k' ≠ k) :
    (creating k b).guarantee h c := by
  intro hchanges
  rw [hc] at hchanges
  cases hchanges
  exact absurd rfl hk

/-- A program that changes no table. -/
theorem sat_stable {α : Type} {p : Tool α} (hp : Only Stable p) :
    Sat (creating k b) (fun _ _ => True) h p :=
  sat_of_stable (I := fun _ => True) hp (fun _ _ _ _ _ => trivial) trivial

/-- A commit through a handle of another table. -/
theorem commit_other {k' : Key} (hk : k' ≠ k) (commit : TableHandle → Call)
    (hcommit : ∀ handle, (commit handle).changes = some handle.key) {handle : TableHandle}
    (hhandle : handle.key = k') : Sat (creating k b) (fun _ _ => True) h (call (commit handle)) :=
  Sat.perform (other_guarantee ((hcommit handle).trans (by rw [hhandle])) hk) (fun _ _ => trivial)

/-- Loading another table, checking its columns and committing to it. -/
theorem loadAndCommit_other {k' : Key} (check : TableHandle → PyM PUnit)
    {commit : TableHandle → Tool PUnit} (hcommit : ∀ handle h, handle.key = k' →
      Sat (creating k b) (fun _ _ => True) h (commit handle)) :
    Sat (creating k b) (fun _ _ => True) h (do
      let iceberg ← call (.loadTable k')
      Program.lift (check iceberg)
      commit iceberg) := by
  refine Sat.perform_bind (stable_guarantee rfl) (fun handle hhandle => ?_) (fun _ _ => trivial)
  exact Sat.lift_bind (fun _ _ => hcommit handle _ hhandle) (fun _ _ => trivial)

variable [Python]

/-- `write_arrow` of another object. -/
theorem writeArrow_other {tenant label : String} (table : ArrowTable) (mode : Json)
    (hk : (tenant, label) ≠ k) :
    Sat (creating k b) (fun _ _ => True) h (writeArrow tenant label table mode) := by
  have hcreate (h : List CallEvent) :
      Sat (creating k b) (fun _ _ => True) h (createAndAppend (tenant, label) table) := by
    refine Sat.perform_bind (other_guarantee rfl hk) (fun handle hhandle => ?_) (fun _ _ => trivial)
    exact commit_other hk (fun handle => .append handle table.rows) (fun _ => rfl) hhandle
  have hcommit (h : List CallEvent) (exists_ : Bool) : Sat (creating k b) (fun _ _ => True) h
      (commitArrow tenant label table mode exists_) := by
    unfold commitArrow
    split
    · split
      · trivial
      · exact hcreate _
    · split
      · split
        · exact loadAndCommit_other _ (fun handle h hhandle => commit_other hk
            (fun handle => .overwrite handle table.rows) (fun _ => rfl) hhandle)
        · exact hcreate _
      · split
        · split
          · exact loadAndCommit_other _ (fun handle h hhandle => commit_other hk
              (fun handle => .append handle table.rows) (fun _ => rfl) hhandle)
          · exact hcreate _
        · trivial
  refine Sat.perform_bind (stable_guarantee rfl) (fun _ _ => ?_) (fun _ _ => trivial)
  refine Sat.perform_bind (stable_guarantee rfl) (fun exists_ _ => ?_) (fun _ _ => trivial)
  exact (hcommit _ exists_).bind (fun _ _ _ => trivial) (fun _ _ _ => trivial)

variable [Engines] [Backend]

/-- `ingest_object` of another object. -/
theorem ingestObject_other (settings : Settings) {tenant label : String}
    (source : PyM ResolvedSource) (mode : String) (tags : Option (List String)) {target : String}
    (hk : ∀ name, target = "lakehouse" → validateLabel label = .ok name → (tenant, name) ≠ k) :
    Sat (creating k b) (fun _ _ => True) h
      (ingestObject settings tenant label source mode tags target) := by
  refine Sat.lift_bind (fun name hlabel => ?_) (fun _ _ => trivial)
  split
  · trivial
  · rename_i htarget
    refine Sat.lift_bind (fun resolved _ => ?_) (fun _ _ => trivial)
    split
    · exact sat_stable ((ingestToScratch_idle _ _ _ _ _ _).mono (fun _ => Idle.stable))
    · rename_i hscratch
      have hlakehouse : target = "lakehouse" := by
        by_contra hne
        exact htarget ⟨hne, hscratch⟩
      refine (writeArrow_other _ _ (hk name hlakehouse hlabel)).bind (fun h _ _ => ?_)
        (fun _ _ _ => trivial)
      exact sat_stable (recordAndDescribe_stable settings _ _ none [])

/-- `derive_object` of another object. -/
theorem deriveObject_other [Sqlglot] (settings : Settings) {tenant newLabel : String}
    (sql mode : String) (tags : Option (List String)) {target : String}
    (hk : ∀ name, target = "lakehouse" → validateLabel newLabel = .ok name → (tenant, name) ≠ k) :
    Sat (creating k b) (fun _ _ => True) h
      (deriveObject settings tenant newLabel sql mode tags target) := by
  refine Sat.lift_bind (fun name hlabel => ?_) (fun _ _ => trivial)
  split
  · trivial
  · split
    · trivial
    · rename_i htarget
      generalize validateSelect (deriveParams settings tenant) sql = result
      refine Sat.lift_bind (fun guarded _ => ?_) (fun _ _ => trivial)
      split
      · exact sat_stable ((deriveToScratch_idle _ _ _ _ _).mono (fun _ => Idle.stable))
      · rename_i hscratch
        have hlakehouse : target = "lakehouse" := by
          by_contra hne
          exact htarget ⟨hne, hscratch⟩
        have hcheck (exists_ : Bool) := (checkDerive_idle tenant name guarded.sql mode exists_).mono
          (fun _ => Idle.stable)
        refine Sat.perform_bind (stable_guarantee rfl) (fun exists_ _ => ?_) (fun _ _ => trivial)
        refine (sat_stable (hcheck exists_)).bind (fun h _ _ => ?_) (fun _ _ _ => trivial)
        refine Sat.perform_bind (stable_guarantee rfl) (fun _ _ => ?_) (fun _ _ => trivial)
        refine Sat.perform_bind (other_guarantee rfl (hk name hlakehouse hlabel)) (fun _ _ => ?_)
          (fun _ _ => trivial)
        exact sat_stable (Only.bind (Only.select (fun label _ => Only.perform rfl))
          (fun parents => recordAndDescribe_stable settings _ _ _ parents))

/-- Every operation leaves the tables of other objects alone. -/
theorem operation_other [Sqlglot] (settings : Settings) {op : Operation}
    (hop : op.object ≠ some k) :
    Sat (creating k false) (fun _ _ => True) [] (op.program settings) := by
  have hdone {α : Type} {p : Tool α} (hp : Sat (creating k false) (fun _ _ => True) [] p) :
      Sat (creating k false) (fun _ _ => True) [] (do let _ ← p) :=
    hp.bind (fun _ _ _ => trivial) (fun _ _ _ => trivial)
  cases op with
  | ingest tenant label source mode tags target =>
    refine hdone (ingestObject_other settings source mode tags (fun name htarget hlabel hk => ?_))
    simp [Operation.object, htarget, hlabel, hk, Except.toOption] at hop
  | derive tenant newLabel sql mode tags target =>
    refine hdone (deriveObject_other settings sql mode tags (fun name htarget hlabel hk => ?_))
    simp [Operation.object, htarget, hlabel, hk, Except.toOption] at hop
  | put schema target chunks =>
    refine Sat.lift_bind (fun t htarget => ?_) (fun _ _ => trivial)
    obtain ⟨tenant, name, mode⟩ := t
    have hk : (tenant, name) ≠ k := by
      rintro rfl
      simp [Operation.object, htarget, Except.toOption] at hop
    have hwrite : KeptByCommits (creating k false) (fun _ _ _ => True) (fun _ _ => True) schema
        tenant name mode := fun _ _ batches h _ =>
      (writeArrow_other _ _ hk).mono (fun _ r _ => by cases r <;> trivial)
    refine (putData_rule hwrite chunks trivial).bind (fun h _ _ => ?_) (fun _ _ _ => trivial)
    exact sat_stable (Only.bind (recordObjectGuarded_stable _ _ _) (fun _ => trivial))
  | describe tenant label => exact hdone (sat_stable (describeObject_stable settings tenant label))
  | drop tenant label =>
    refine hdone (Sat.lift_bind (fun name hlabel => ?_) (fun _ _ => trivial))
    have hk : (tenant, name) ≠ k := by
      rintro rfl
      simp [Operation.object, hlabel, Except.toOption] at hop
    have hdata (h : List CallEvent) :
        Sat (creating k false) (fun _ _ => True) h (dropTable tenant name) := by
      refine Sat.perform_bind (stable_guarantee rfl) (fun exists_ _ => ?_) (fun _ _ => trivial)
      cases exists_ with
      | false => trivial
      | true => exact Sat.perform (other_guarantee rfl hk) (fun _ _ => trivial)
    refine (hdata _).bind (fun _ _ _ => ?_) (fun _ _ _ => trivial)
    exact Sat.perform_bind (stable_guarantee rfl) (fun _ _ => trivial) (fun _ _ => trivial)
  | sweep => exact sat_stable (reconcile_stable settings)

end

end Memcove
