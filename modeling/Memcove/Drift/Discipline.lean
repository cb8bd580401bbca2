import Memcove.Drift.Operations

/-!
# Every operation keeps the discipline

One lemma for each operation and each part of it that writes: from any history, or from one in
which nothing has been recorded yet, its calls keep the contract `discipline`.
-/

namespace Memcove

open Programs

variable {b : Bool}

/-- An event that is no read about the key does not change what the last read showed. -/
theorem lastShown_cons_of_none {k : Key} {event : CallEvent} {h : List CallEvent}
    (hevent : rowShown k event = none) : lastShown k (event :: h) = lastShown k h := by
  simp [lastShown, hevent]

/-- A read about the key is the last one. -/
theorem lastShown_cons_of_some {k : Key} {event : CallEvent} {h : List CallEvent} {shown : Bool}
    (hevent : rowShown k event = some shown) : lastShown k (event :: h) = some shown := by
  simp [lastShown, hevent]

/-- Read-repair keeps the contract when the last read showed no row. -/
theorem readRepair_sat {settings : Settings} {tenant label : String} {h : List CallEvent}
    (hshown : lastShown (tenant, label) h = some false) :
    Sat (discipline b) (fun _ _ => True) h (readRepair settings tenant label) := by
  refine Sat.perform_bind (quiet_guarantee rfl) (fun exists_ _ => ?_) (fun _ _ => trivial)
  cases exists_ with
  | false => trivial
  | true =>
    refine Sat.perform_bind ?_ (fun _ _ => sat_of_quiet (Only.perform rfl)) (fun _ _ => trivial)
    exact (lastShown_cons_of_none rfl).trans hshown

/-- `describe_object` keeps the contract. -/
theorem describeObject_sat [Python] [Engines] (settings : Settings) (tenant label : String)
    (h : List CallEvent) :
    Sat (discipline b) (fun _ _ => True) h (describeObject settings tenant label) := by
  refine Sat.lift_bind (fun label _ => ?_) (fun _ _ => trivial)
  refine Sat.perform_bind (quiet_guarantee rfl) (fun found _ => ?_) (fun _ _ => trivial)
  have hrow (reg : Option (ObjectRow × List String)) (h' : List CallEvent) :
      Sat (discipline b) (fun _ _ => True) h' (describeRow settings tenant label reg) :=
    sat_of_quiet ((describeRow_idle settings tenant label reg).mono (fun _ => Idle.quiet))
  cases found with
  | some found => exact hrow (some found) _
  | none =>
    have hshown : lastShown (tenant, label) (⟨.getObject (tenant, label), .ok none⟩ :: h) =
        some false := lastShown_cons_of_some (by simp [rowShown])
    exact (readRepair_sat hshown).bind (fun h' reg _ => hrow reg h') (fun _ _ _ => trivial)

/-- `drop_object` keeps the contract. -/
theorem dropObject_sat [Python] (tenant label : String) (h : List CallEvent) :
    Sat (discipline b) (fun _ _ => True) h (dropObject tenant label) := by
  refine Sat.lift_bind (fun label _ => ?_) (fun _ _ => trivial)
  have hdrop : Sat (discipline b) (fun h r => ∀ a, r = .ok a → Checked (tenant, label) h) h
      (dropTable tenant label) := by
    refine Sat.perform_bind (quiet_guarantee rfl) (fun exists_ _ => ?_)
      (fun _ _ _ ha => nomatch ha)
    cases exists_ with
    | false => exact fun _ ha => nomatch ha
    | true =>
      refine Sat.perform (quiet_guarantee rfl) (fun r _ => ?_)
      rintro a rfl
      exact rfl
  refine hdrop.bind (fun h' _ hchecked => ?_) (fun _ _ _ => trivial)
  exact Sat.perform_bind (hchecked _ rfl) (fun _ _ => trivial) (fun _ _ => trivial)

/-- What holds after a write of the key: nothing is recorded yet, and when it succeeded data of
the key is committed. -/
def Written (k : Key) {α : Type} (h : List CallEvent) (r : Except PyError α) : Prop :=
  Unrecorded h ∧ ∀ a, r = .ok a → CommittedTo k h

/-- Without a result there is nothing to show but that nothing is recorded. -/
theorem Written.error {k : Key} {α : Type} {h : List CallEvent} {e : PyError}
    (hh : Unrecorded h) : Written k h (Except.error e : Except PyError α) :=
  ⟨hh, fun _ ha => nomatch ha⟩

/-- A commit is permitted as long as nothing is recorded, and is a write of its key. -/
theorem commit_sat {k : Key} {c : Call} {h : List CallEvent} (hh : Unrecorded h)
    (hcommits : c.commits = some k) : Sat (discipline b) (Written k) h (call c) := by
  have hcall : (discipline b).guarantee h c ∧ ∀ r, recorded ⟨c, r⟩ = none := by
    cases c <;> simp only [Call.commits, reduceCtorEq] at hcommits <;>
      exact ⟨fun _ => hh, fun r => rfl⟩
  refine Sat.perform hcall.1 (fun r _ => ⟨?_, ?_⟩)
  · intro event hevent
    rcases List.mem_cons.mp hevent with rfl | hevent
    · exact hcall.2 r
    · exact hh event hevent
  · rintro a rfl
    exact ⟨_, List.mem_cons_self, hcommits⟩

/-- The handle of a call that returns one belongs to the key that was asked for. -/
theorem createAndAppend_sat {k : Key} {table : ArrowTable} {h : List CallEvent}
    (hh : Unrecorded h) : Sat (discipline b) (Written k) h (createAndAppend k table) := by
  refine Sat.perform_bind (quiet_guarantee rfl) (fun handle hhandle => ?_) (fun e _ => ?_)
  · have hkey : handle.key = k := hhandle
    exact commit_sat (hh.quiet rfl) (by rw [Call.commits, hkey])
  · exact Written.error (hh.quiet rfl)

/-- Committing through the handle of an existing table, after a check of its columns. -/
theorem loadAndCommit_sat {k : Key} {check : TableHandle → PyM PUnit}
    {commit : TableHandle → Tool PUnit}
    (hcommit : ∀ handle h, handle.key = k → Unrecorded h →
      Sat (discipline b) (Written k) h (commit handle)) {h : List CallEvent} (hh : Unrecorded h) :
    Sat (discipline b) (Written k) h (do
      let iceberg ← call (.loadTable k)
      Program.lift (check iceberg)
      commit iceberg) := by
  refine Sat.perform_bind (quiet_guarantee rfl) (fun handle hhandle => ?_) (fun e _ => ?_)
  · have hkey : handle.key = k := hhandle
    refine Sat.lift_bind (fun _ _ => ?_) (fun e _ => Written.error (hh.quiet rfl))
    exact hcommit handle _ hkey (hh.quiet rfl)
  · exact Written.error (hh.quiet rfl)

/-- `record_object_guarded` of a producer keeps the contract once data of the key is committed. -/
theorem recordObjectGuarded_sat [Backend] (row : ObjectRow) {tags : List String}
    {parents : Option (List String)} {h : List CallEvent} (hsource : row.source ≠ .reconciled)
    (hh : CommittedTo row.key h) :
    Sat (discipline b) (fun _ _ => True) h (recordObjectGuarded row tags parents) := by
  refine Sat.perform_bind (quiet_guarantee rfl) (fun _ _ => ?_) (fun _ _ => trivial)
  have hrecord : Sat (discipline b) (fun _ _ => True) (⟨.openRegistry, .ok ⟨⟩⟩ :: h)
      (call (.recordObject row tags parents) >>= fun _ => pure true) := by
    refine Sat.perform_bind ?_ (fun _ _ => trivial) (fun _ _ => trivial)
    simpa only [discipline, if_neg hsource] using hh.cons _
  refine hrecord.tryCatch (fun _ _ _ => trivial) (fun h' e _ => ?_)
  split <;> trivial

section

variable [Python]

/-- `write_arrow` keeps the contract and writes the key. -/
theorem writeArrow_sat (tenant label : String) (table : ArrowTable) (mode : Json)
    {h : List CallEvent} (hh : Unrecorded h) :
    Sat (discipline b) (Written (tenant, label)) h (writeArrow tenant label table mode) := by
  have hns (r : Except PyError PUnit) : Unrecorded (⟨.createNamespace tenant, r⟩ :: h) :=
    hh.quiet rfl
  have hlooked (r : Except PyError Bool) : Unrecorded
      (⟨.tableExists (tenant, label), r⟩ :: ⟨.createNamespace tenant, .ok ⟨⟩⟩ :: h) :=
    (hns _).quiet rfl
  refine Sat.perform_bind (quiet_guarantee rfl) (fun _ _ => ?_) (fun e _ => Written.error (hns _))
  refine Sat.perform_bind (quiet_guarantee rfl) (fun exists_ _ => ?_)
    (fun e _ => Written.error (hlooked _))
  have hquiet := hlooked (.ok exists_)
  have hkey (handle : TableHandle) (c : Call) (h : List CallEvent)
      (hc : c.commits = some handle.key) (hhandle : handle.key = (tenant, label))
      (hh : Unrecorded h) : Sat (discipline b) (Written (tenant, label)) h (call c) :=
    commit_sat hh (by rw [hc, hhandle])
  have hcommit : Sat (discipline b) (Written (tenant, label)) (⟨.tableExists (tenant, label),
      .ok exists_⟩ :: ⟨.createNamespace tenant, .ok ⟨⟩⟩ :: h)
      (commitArrow tenant label table mode exists_) := by
    unfold commitArrow
    split
    · split
      · exact Written.error hquiet
      · exact createAndAppend_sat hquiet
    · split
      · split
        · exact loadAndCommit_sat (fun handle h' => hkey handle _ h' rfl) hquiet
        · exact createAndAppend_sat hquiet
      · split
        · split
          · exact loadAndCommit_sat (fun handle h' => hkey handle _ h' rfl) hquiet
          · exact createAndAppend_sat hquiet
        · exact Written.error hquiet
  refine hcommit.bind (fun h' a hwritten => ?_) (fun h' e hwritten => Written.error hwritten.1)
  exact ⟨hwritten.1, fun _ _ => hwritten.2 a rfl⟩

/-- The lakehouse path of `ingest_object` keeps the contract. -/
theorem ingestToLakehouse_sat [Engines] [Backend] (settings : Settings) (tenant label : String)
    (table : ArrowTable) {kind : SourceKind} (hkind : kind ∈ [.inline, .s3Parquet, .upload])
    (ref : Option String) (mode : String) (tags : List String) {h : List CallEvent}
    (hh : Unrecorded h) : Sat (discipline b) (fun _ _ => True) h
      (ingestToLakehouse settings tenant label table kind ref mode tags) := by
  have hsource : kind ≠ .reconciled := by
    rintro rfl
    simp at hkind
  refine (writeArrow_sat tenant label table (.str mode) hh).bind (fun h' n hwritten => ?_)
    (fun _ _ _ => trivial)
  refine (recordObjectGuarded_sat (ingestRow settings tenant label kind ref) hsource
    (hwritten.2 n rfl)).bind (fun h'' ok _ => ?_) (fun _ _ _ => trivial)
  cases ok with
  | true => exact describeObject_sat settings tenant label h''
  | false => exact sat_of_quiet ((pendingObject_idle _ _ _).mono (fun _ => Idle.quiet))

/-- `ingest_object` keeps the contract. -/
theorem ingestObject_sat [Engines] [Backend] (settings : Settings) (tenant label : String)
    (source : PyM ResolvedSource) (mode : String) (tags : Option (List String)) (target : String)
    {h : List CallEvent} (hh : Unrecorded h) : Sat (discipline b) (fun _ _ => True) h
      (ingestObject settings tenant label source mode tags target) := by
  refine Sat.lift_bind (fun label _ => ?_) (fun _ _ => trivial)
  split
  · trivial
  · refine Sat.lift_bind (fun resolved _ => ?_) (fun _ _ => trivial)
    split
    · exact sat_of_quiet ((ingestToScratch_idle _ _ _ _ _ _).mono (fun _ => Idle.quiet))
    · exact ingestToLakehouse_sat settings tenant label resolved.table resolved.ingested _ _ _ hh

/-- The lakehouse path of `derive_object` keeps the contract. -/
theorem deriveToLakehouse_sat [Engines] [Backend] [Sqlglot] (settings : Settings)
    (tenant newLabel : String) (guarded : GuardedQuery) (mode : String) (tags : List String)
    {h : List CallEvent} (hh : Unrecorded h) : Sat (discipline b) (fun _ _ => True) h
      (deriveToLakehouse settings tenant newLabel guarded mode tags) := by
  have hexists (label : String) : Only Quiet (tableExists tenant label) := Only.perform rfl
  have hschema : Only Quiet (call (.ensureSchema tenant)) := Only.perform rfl
  refine (sat_unrecorded (hexists newLabel) hh).bind (fun h exists_ hh => ?_)
    (fun _ _ _ => trivial)
  have hcheck := (checkDerive_idle tenant newLabel guarded.sql mode exists_).mono
    (fun _ => Idle.quiet)
  refine (sat_unrecorded hcheck hh).bind (fun h _ hh => ?_) (fun _ _ _ => trivial)
  refine (sat_unrecorded hschema hh).bind (fun h _ hh => ?_) (fun _ _ _ => trivial)
  refine (commit_sat hh rfl).bind (fun h a hwritten => ?_) (fun _ _ _ => trivial)
  have hparents : Only Quiet (Program.select (fun label => tableExists tenant label)
      guarded.referencedLabels) := Only.select (fun label _ => hexists label)
  refine (sat_committedTo hparents (hwritten.2 a rfl)).bind (fun h parents hh => ?_)
    (fun _ _ _ => trivial)
  refine (recordObjectGuarded_sat (deriveRow settings tenant newLabel guarded.sql)
    (by simp [deriveRow]) hh).bind (fun h ok _ => ?_) (fun _ _ _ => trivial)
  cases ok with
  | true => exact describeObject_sat settings tenant newLabel h
  | false => exact sat_of_quiet ((pendingObject_idle _ _ _).mono (fun _ => Idle.quiet))

/-- `derive_object` keeps the contract. -/
theorem deriveObject_sat [Engines] [Backend] [Sqlglot] (settings : Settings)
    (tenant newLabel sql mode : String) (tags : Option (List String)) (target : String)
    {h : List CallEvent} (hh : Unrecorded h) : Sat (discipline b) (fun _ _ => True) h
      (deriveObject settings tenant newLabel sql mode tags target) := by
  refine Sat.lift_bind (fun newLabel _ => ?_) (fun _ _ => trivial)
  split
  · trivial
  · split
    · trivial
    · generalize validateSelect (deriveParams settings tenant) sql = result
      refine Sat.lift_bind (fun guarded _ => ?_) (fun _ _ => trivial)
      split
      · exact sat_of_quiet ((deriveToScratch_idle _ _ _ _ _).mono (fun _ => Idle.quiet))
      · exact deriveToLakehouse_sat settings tenant newLabel guarded mode _ hh

/-- During an upload nothing is recorded, and once there was a commit data of the key is
committed. -/
def Uploading (k : Key) {schema : Columns} (h : List CallEvent)
    (r : Except PyError (PutState schema)) : Prop :=
  Unrecorded h ∧ ∀ s, r = .ok s → s.commits ≠ 0 → CommittedTo k h

/-- `_flush` keeps the contract. -/
theorem flush_sat {schema : Columns} (tenant name : String) (mode : Json) {s : PutState schema}
    {h : List CallEvent} (hh : Uploading (tenant, name) h (.ok s)) :
    Sat (discipline b) (Uploading (tenant, name)) h (flush tenant name mode s) := by
  unfold flush
  split
  · exact hh
  · refine (writeArrow_sat tenant name _ _ hh.1).bind (fun h' n hwritten => ?_)
      (fun h' e hwritten => ⟨hwritten.1, fun _ hs => nomatch hs⟩)
    exact ⟨hwritten.1, fun _ _ _ => hwritten.2 n rfl⟩

/-- The loop over the chunks keeps the contract. -/
theorem putChunks_sat {schema : Columns} (settings : Settings) (tenant name : String) (mode : Json)
    (chunks : List (Option (Batch schema))) {s : PutState schema} {h : List CallEvent}
    (hh : Uploading (tenant, name) h (.ok s)) :
    Sat (discipline b) (Uploading (tenant, name)) h
      (putChunks settings tenant name mode chunks s) := by
  induction chunks generalizing s h with
  | nil => exact hh
  | cons chunk chunks ih =>
    cases chunk with
    | none => exact ih hh
    | some batch =>
      have hbuffered : Uploading (tenant, name) h (.ok { s with
          buffer := s.buffer ++ [batch]
          buffered := s.buffered + batch.1.length
          total := s.total + batch.1.length }) := by
        refine ⟨hh.1, ?_⟩
        rintro _ ⟨⟩ hcommits
        exact hh.2 s rfl hcommits
      unfold putChunks
      split
      · exact ih hh
      · dsimp only
        split
        · exact (flush_sat tenant name mode hbuffered).bind (fun h' s' hs' => ih hs')
            (fun h' e hs' => ⟨hs'.1, by rintro _ ⟨⟩⟩)
        · exact ih hbuffered

/-- `do_put` keeps the contract. -/
theorem doPut_sat [Backend] {schema : Columns} (settings : Settings)
    (target : PyM (String × String × Json)) (chunks : List (Option (Batch schema)))
    {h : List CallEvent} (hh : Unrecorded h) :
    Sat (discipline b) (fun _ _ => True) h (doPut settings target chunks) := by
  refine Sat.lift_bind (fun target _ => ?_) (fun _ _ => trivial)
  obtain ⟨tenant, name, mode⟩ := target
  have hdata : Sat (discipline b) (Written (tenant, name)) h
      (putData settings tenant name mode chunks) := by
    have hinit : Uploading (tenant, name) h (.ok ({} : PutState schema)) := by
      refine ⟨hh, ?_⟩
      rintro _ ⟨⟩ hcommits
      exact absurd rfl hcommits
    refine (putChunks_sat settings tenant name mode chunks hinit).bind (fun h s hs => ?_)
      (fun h e hs => Written.error hs.1)
    refine (flush_sat tenant name mode hs).bind (fun h s hs => ?_)
      (fun h e hs => Written.error hs.1)
    split
    · refine (writeArrow_sat tenant name _ mode hs.1).bind (fun h n hwritten => ?_)
        (fun h e hwritten => Written.error hwritten.1)
      exact ⟨hwritten.1, fun _ _ => hwritten.2 n rfl⟩
    · rename_i hcommits
      exact ⟨hs.1, fun _ _ => hs.2 s rfl hcommits⟩
  refine hdata.bind (fun h s hwritten => ?_) (fun _ _ _ => trivial)
  exact (recordObjectGuarded_sat (streamRow settings tenant name) (by simp [streamRow])
    (hwritten.2 s rfl)).bind (fun _ _ _ => trivial) (fun _ _ _ => trivial)

end

/-- The backfill phase keeps the contract when the last read showed none of its labels. -/
theorem backfill_sat (settings : Settings) (tenant : String) {labels : List String}
    {h : List CallEvent} (hshown : ∀ l ∈ labels, lastShown (tenant, l) h = some false) :
    Sat (discipline true) (fun _ _ => True) h (Program.each (backfill settings tenant) labels) := by
  refine Sat.each (I := fun labels h => ∀ l ∈ labels, lastShown (tenant, l) h = some false)
    (fun l labels h hi => ?_) (fun _ _ => trivial) hshown
  refine Sat.perform ?_ (fun r _ => ?_)
  · exact hi l List.mem_cons_self
  · cases r with
    | error e => trivial
    | ok a =>
      intro l' hl'
      rw [lastShown_cons_of_none rfl]
      exact hi l' (List.mem_cons_of_mem l hl')

/-- The reconciler may write tombstones. -/
theorem sat_of_tombstones {p : Tool PUnit} {h : List CallEvent}
    (hp : Only (fun c => ∃ k, c = .bumpTombstone k ∨ c = .clearTombstone k) p) :
    Sat (discipline true) (fun _ _ => True) h p := by
  refine hp.sat (I := fun _ => True) (fun _ _ _ hc => ?_) (fun _ _ _ _ _ => trivial) trivial
  obtain ⟨_, rfl | rfl⟩ := hc <;> rfl

/-- The delete phase keeps the contract. -/
theorem deleteAbsent_sat (tenant label : String) (h : List CallEvent) :
    Sat (discipline true) (fun _ _ => True) h (deleteAbsent tenant label) := by
  refine Sat.perform_bind (quiet_guarantee rfl) (fun exists_ _ => ?_) (fun _ _ => trivial)
  cases exists_ with
  | true => exact sat_of_tombstones (Only.perform ⟨_, Or.inr rfl⟩)
  | false =>
    refine Sat.perform_bind ⟨rfl, rfl⟩ (fun _ _ => ?_) (fun _ _ => trivial)
    exact sat_of_tombstones (Only.perform ⟨_, Or.inr rfl⟩)

/-- The sweep of a namespace keeps the contract. -/
theorem sweepNamespace_sat (settings : Settings) (tenant : String) (h : List CallEvent) :
    Sat (discipline true) (fun _ _ => True) h (sweepNamespace settings tenant) := by
  have hlist : Only Quiet (listLabels tenant) :=
    Only.tryCatch (Only.perform rfl) (fun _ => trivial)
  refine (sat_of_quiet hlist).bind (fun h live _ => ?_) (fun _ _ _ => trivial)
  refine Sat.perform_bind (quiet_guarantee rfl) (fun reg _ => ?_) (fun _ _ => trivial)
  refine Sat.perform_bind (quiet_guarantee rfl) (fun tombstones _ => ?_) (fun _ _ => trivial)
  have hshown : ∀ l ∈ (planNamespace settings live reg tombstones).backfill,
      lastShown (tenant, l) (⟨.tombstonesForTenant tenant, .ok tombstones⟩ ::
        ⟨.labelsForTenant tenant, .ok reg⟩ :: h) = some false := by
    intro l hl
    rw [lastShown_cons_of_none rfl]
    have hreg : l ∉ reg := (mem_backfill.mp hl).2
    exact lastShown_cons_of_some (by simp [rowShown, hreg])
  refine (backfill_sat settings tenant hshown).bind (fun h _ _ => ?_) (fun _ _ _ => trivial)
  refine (sat_of_tombstones (Only.each (fun l _ => Only.perform ⟨_, Or.inr rfl⟩))).bind
    (fun h _ _ => ?_) (fun _ _ _ => trivial)
  refine (sat_of_tombstones (Only.each (fun l _ => Only.perform ⟨_, Or.inl rfl⟩))).bind
    (fun h _ _ => ?_) (fun _ _ _ => trivial)
  exact Sat.each (I := fun _ _ => True)
    (fun l _ h _ => (deleteAbsent_sat tenant l h).mono (fun _ r _ => by cases r <;> trivial))
    (fun _ _ => trivial) trivial

/-- `reconcile` keeps the contract. -/
theorem reconcile_sat (settings : Settings) (h : List CallEvent) :
    Sat (discipline true) (fun _ _ => True) h (reconcile settings) := by
  have hlist : Only Quiet listNamespaces := Only.bind (Only.perform rfl) (fun _ => trivial)
  refine (sat_of_quiet hlist).bind (fun h namespaces _ => ?_) (fun _ _ _ => trivial)
  refine Sat.each (I := fun _ _ => True) (fun tenant _ h _ => ?_) (fun _ _ => trivial) trivial
  exact (sweepNamespace_sat settings tenant h).tryCatch (fun _ _ _ => trivial)
    (fun _ _ _ => trivial)

/-- Every operation keeps the contract from its start. -/
theorem operation_sat [Python] [Engines] [Backend] [Sqlglot] (settings : Settings)
    (op : Operation) : Sat (discipline op.isSweep) (fun _ _ => True) [] (op.program settings) := by
  have hinit : Unrecorded [] := fun _ h => nomatch h
  have hdone {b : Bool} {α : Type} {p : Tool α} (hp : Sat (discipline b) (fun _ _ => True) [] p) :
      Sat (discipline b) (fun _ _ => True) [] (do let _ ← p) :=
    hp.bind (fun _ _ _ => trivial) (fun _ _ _ => trivial)
  cases op with
  | ingest tenant label source mode tags target =>
    exact hdone (ingestObject_sat settings tenant label source mode tags target hinit)
  | derive tenant newLabel sql mode tags target =>
    exact hdone (deriveObject_sat settings tenant newLabel sql mode tags target hinit)
  | put schema target chunks => exact doPut_sat settings target chunks hinit
  | describe tenant label => exact hdone (describeObject_sat settings tenant label [])
  | drop tenant label => exact hdone (dropObject_sat tenant label [])
  | sweep => exact reconcile_sat settings []

/-- In every run of operations each call keeps the contract of its operation. -/
theorem run_disciplined [Python] [Engines] [Backend] [Sqlglot] {ι : Type} [DecidableEq ι]
    {settings : Settings} {ops : ι → Operation} {s : Stores} {log : Log Call Answer PyError ι}
    {threads : ι → Tool Unit} (h : Run machine (fun i => (ops i).program settings) s log threads) :
    Along (fun older entry => (discipline (ops entry.1).isSweep).guarantee
      (history entry.1 older) entry.2.call) log :=
  (h.sat (K := fun i => discipline (ops i).isSweep) (fun i => operation_sat settings (ops i))
    (h.possible.imp (fun _ _ hpossible _ => discipline_assume hpossible.1 _))).2

end Memcove
