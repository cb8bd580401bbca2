import Memcove.Drift.Discipline

/-!
# Racing writers

Any number of replace-mode writes of one object, all of whose calls succeed. Data and metadata are
committed in two stores without a version that ties them, so the metadata that remains is that of
the write which recorded last, whichever write committed its data last.
-/

namespace Memcove

open Programs KeyedTables

/-- What a write is to record. A derive also has the labels that its statement references. -/
structure Metadata where
  row : ObjectRow
  tags : List String
  references : Option (List String)

section

variable [Python] [Sqlglot]

/-- The metadata of a write, from its arguments alone. -/
def Operation.metadata (settings : Settings) : Operation → Option Metadata
  | ingest tenant label source _ tags _ =>
    match validateLabel label, source with
    | .ok label, .ok resolved =>
      some ⟨ingestRow settings tenant label resolved.kind resolved.ref, tags.getD [], none⟩
    | _, _ => none
  | derive tenant newLabel sql _ tags _ =>
    match validateLabel newLabel, validateSelect (deriveParams settings tenant) sql with
    | .ok newLabel, .ok guarded =>
      some ⟨deriveRow settings tenant newLabel guarded.sql, tags.getD [],
        some guarded.referencedLabels⟩
    | _, _ => none
  | put _ target _ =>
    match target with
    | .ok (tenant, name, _) => some ⟨streamRow settings tenant name, [], none⟩
    | .error _ => none
  | _ => none

section

variable {settings : Settings} {tenant label name sql mode target : String}
  {source : PyM ResolvedSource} {resolved : ResolvedSource} {guarded : GuardedQuery}
  {tags : Option (List String)} {w : Metadata}

/-- The metadata of an ingest, by its definition. -/
theorem Operation.metadata_ingest_eq :
    (Operation.ingest tenant label source mode tags target).metadata settings =
      match validateLabel label, source with
      | .ok label, .ok resolved =>
        some ⟨ingestRow settings tenant label resolved.kind resolved.ref, tags.getD [], none⟩
      | _, _ => none := rfl

/-- The metadata of a derive, by its definition. -/
theorem Operation.metadata_derive_eq :
    (Operation.derive tenant label sql mode tags target).metadata settings =
      match validateLabel label, validateSelect (deriveParams settings tenant) sql with
      | .ok label, .ok guarded => some ⟨deriveRow settings tenant label guarded.sql, tags.getD [],
          some guarded.referencedLabels⟩
      | _, _ => none := rfl

/-- The metadata of an ingest with a valid label and a source. -/
theorem Operation.metadata_ingest (hlabel : validateLabel label = .ok name)
    (hsource : source = .ok resolved) :
    (Operation.ingest tenant label source mode tags target).metadata settings =
      some ⟨ingestRow settings tenant name resolved.kind resolved.ref, tags.getD [], none⟩ := by
  rw [Operation.metadata_ingest_eq, hlabel, hsource]

/-- The metadata of a derive with a valid label and a guarded query. -/
theorem Operation.metadata_derive (hlabel : validateLabel label = .ok name)
    (hguarded : validateSelect (deriveParams settings tenant) sql = .ok guarded) :
    (Operation.derive tenant label sql mode tags target).metadata settings =
      some ⟨deriveRow settings tenant name guarded.sql, tags.getD [],
        some guarded.referencedLabels⟩ := by
  rw [Operation.metadata_derive_eq, hlabel, hguarded]

/-- An ingest with metadata has a valid label and a source. -/
theorem Operation.metadata_ingest_ok
    (hw : (Operation.ingest tenant label source mode tags target).metadata settings = some w) :
    ∃ name resolved, validateLabel label = .ok name ∧ source = .ok resolved := by
  rw [Operation.metadata_ingest_eq] at hw
  split at hw
  · exact ⟨_, _, ‹_›, rfl⟩
  · cases hw

/-- A derive with metadata has a valid label and a guarded query. -/
theorem Operation.metadata_derive_ok
    (hw : (Operation.derive tenant label sql mode tags target).metadata settings = some w) :
    ∃ name guarded, validateLabel label = .ok name ∧
      validateSelect (deriveParams settings tenant) sql = .ok guarded := by
  rw [Operation.metadata_derive_eq] at hw
  generalize validateSelect (deriveParams settings tenant) sql = result at hw ⊢
  split at hw
  · exact ⟨_, _, ‹_›, rfl⟩
  · cases hw

end

/-- The operation is a replace-mode write of the key into the lakehouse. -/
def Operation.Replaces (k : Key) : Operation → Prop
  | ingest tenant label _ mode _ target =>
    mode = "replace" ∧ target = "lakehouse" ∧ tenant = k.1 ∧ validateLabel label = .ok k.2
  | derive tenant newLabel _ mode _ target =>
    mode = "replace" ∧ target = "lakehouse" ∧ tenant = k.1 ∧ validateLabel newLabel = .ok k.2
  | put _ target _ => ∃ mode : Json, target = .ok (k.1, k.2, mode) ∧ mode.isStr "replace" = true
  | _ => False

end

/-- The parents of a derive are the referenced labels for which it found a table; other writes
record no parents. -/
def ParentsOf (w : Metadata) (h : List CallEvent) (parents : Option (List String)) : Prop :=
  match w.references, parents with
  | none, none => True
  | some labels, some parents => ∀ l, l ≠ w.row.label →
      (l ∈ parents ↔ l ∈ labels ∧ ⟨.tableExists (w.row.tenant, l), .ok true⟩ ∈ h)
  | _, _ => False

/-- The registry shows the metadata of a write with the given history. -/
structure Reflects (w : Metadata) (h : List CallEvent) (R : Registry) : Prop where
  row : R.row w.row.key = some w.row
  tags : R.tagsFor w.row.key = Registry.sorted (Registry.fromKeys w.tags)
  lineage : ∀ labels, w.references = some labels → ∀ l, l ∈ R.getParents w.row.key ↔
    l ≠ w.row.label ∧ l ∈ labels ∧ ⟨.tableExists (w.row.tenant, l), .ok true⟩ ∈ h

/-- A write records its own metadata only and deletes nothing. It relies on answers that are no
errors, and on finding a row once it has recorded. -/
def racing (k : Key) (m : Option Metadata) : Contract Call Answer PyError where
  guarantee h c :=
    match c with
    | .recordObject row tags parents =>
      ∃ w ∈ m, row = w.row ∧ row.key = k ∧ tags = w.tags ∧ ParentsOf w h parents
    | .deleteObject _ => False
    | _ => True
  assume h event :=
    event.answer.isOk = true ∧ (event = ⟨.getObject k, .ok none⟩ → Unrecorded h)

/-- Something has been recorded. -/
def Recorded (h : List CallEvent) : Prop := ∃ event ∈ h, (recorded event).isSome = true

/-- What has been recorded remains so. -/
theorem Recorded.cons {h : List CallEvent} (hh : Recorded h) (event : CallEvent) :
    Recorded (event :: h) := by
  obtain ⟨e, he, hsome⟩ := hh
  exact ⟨e, List.mem_cons_of_mem event he, hsome⟩

section

variable {k : Key} {m : Option Metadata} {h : List CallEvent}

/-- The contract permits plain calls. -/
theorem plain_guarantee {c : Call} (hc : Plain c) : (racing k m).guarantee h c := by
  cases c <;> trivial

/-- A program of plain calls keeps the contract. -/
theorem sat_of_plain {α : Type} {p : Tool α} (hp : Only Plain p) :
    Sat (racing k m) (fun _ _ => True) h p :=
  hp.sat (I := fun _ => True) (fun _ _ _ hc => plain_guarantee hc) (fun _ _ _ _ _ => trivial)
    trivial

/-- A program of plain calls keeps what has been recorded. -/
theorem sat_recorded {α : Type} {p : Tool α} (hp : Only Plain p) (hh : Recorded h) :
    Sat (racing k m) (fun h _ => Recorded h) h p :=
  hp.sat (fun _ _ _ hc => plain_guarantee hc) (fun _ _ _ hi _ => hi.cons _) hh

/-- A producer that records its own metadata keeps the contract, and when it ends without an error
it has recorded. -/
theorem recordObjectGuarded_racing [Backend] {w : Metadata} (parents : Option (List String))
    (hw : w ∈ m) (hkey : w.row.key = k)
    (hparents : ParentsOf w (⟨.openRegistry, .ok ⟨⟩⟩ :: h) parents) :
    Sat (racing k m) (fun h r => ∀ ok, r = .ok ok → ok = true ∧ Recorded h) h
      (recordObjectGuarded w.row w.tags parents) := by
  refine Sat.perform_bind trivial (fun _ _ => ?_) (fun _ _ _ hok => nomatch hok)
  have hrecord : Sat (racing k m) (fun h r => (∃ ok, r = .ok ok) ∧ ∀ ok, r = .ok ok → ok = true ∧
      Recorded h) (⟨.openRegistry, .ok ⟨⟩⟩ :: h)
      (call (.recordObject w.row w.tags parents) >>= fun _ => pure true) := by
    refine Sat.perform_bind ⟨w, hw, rfl, hkey, rfl, hparents⟩ (fun _ _ => ⟨⟨true, rfl⟩, ?_⟩)
      (fun _ hassume => ?_)
    · rintro _ ⟨⟩
      exact ⟨rfl, _, List.mem_cons_self, rfl⟩
    · cases hassume.1
  refine hrecord.tryCatch (fun _ _ hdone => hdone.2) (fun _ _ hdone => ?_)
  obtain ⟨_, hok⟩ := hdone.1
  cases hok

variable [Engines]

/-- The row of one's own object is found, so that nothing is repaired. -/
theorem describeObject_racing [Python] (settings : Settings) {tenant label : String}
    (hlabel : validateLabel label = .ok label) (hh : Recorded h) :
    Sat (racing (tenant, label) m) (fun h _ => Recorded h) h
      (describeObject settings tenant label) := by
  refine Sat.lift_bind (fun label' hvalid => ?_) (fun _ _ => hh)
  rw [hlabel] at hvalid
  cases hvalid
  refine Sat.perform_bind trivial (fun found hassume => ?_) (fun _ _ => hh.cons _)
  cases found with
  | some found =>
    refine sat_recorded ?_ (hh.cons _)
    exact (describeRow_idle settings tenant label (some found)).mono
      (fun _ hc => hc.quiet.plain)
  | none =>
    obtain ⟨event, hevent, hsome⟩ := hh
    rw [hassume.2 rfl event hevent] at hsome
    cases hsome

/-- What a write does after its data: it records, and describes the object. -/
theorem recordAndDescribe_racing [Python] [Backend] (settings : Settings) {w : Metadata}
    {parents : Option (List String)} {pending : Tool MemoryObject} (hw : w ∈ m)
    (hlabel : validateLabel w.row.label = .ok w.row.label)
    (hparents : ParentsOf w (⟨.openRegistry, .ok ⟨⟩⟩ :: h) parents) :
    Sat (racing w.row.key m) (fun h r => ∀ a, r = .ok a → Recorded h) h (do
      let ok ← recordObjectGuarded w.row w.tags parents
      if ok then describeObject settings w.row.tenant w.row.label else pending) := by
  refine (recordObjectGuarded_racing parents hw rfl hparents).bind (fun h' ok hdone => ?_)
    (fun _ _ _ _ ha => nomatch ha)
  obtain ⟨rfl, hrecorded⟩ := hdone ok rfl
  exact (describeObject_racing settings hlabel hrecorded).mono (fun _ _ hi _ _ => hi)

end

/-- A plain call that looks at no table but that of the key. -/
def Local (k : Key) (c : Call) : Prop := Plain c ∧ ∀ k', c = .tableExists k' → k' = k

/-- No table but that of the key has been found. -/
def Unprobed (k : Key) (h : List CallEvent) : Prop :=
  ∀ l, l ≠ k.2 → ⟨.tableExists (k.1, l), .ok true⟩ ∉ h

/-- Local calls find no table but that of the key. -/
theorem sat_unprobed {k : Key} {m : Option Metadata} {h : List CallEvent} {α : Type} {p : Tool α}
    (hp : Only (Local k) p) (hh : Unprobed k h) :
    Sat (racing k m) (fun h _ => Unprobed k h) h p := by
  refine hp.sat (fun _ _ _ hc => plain_guarantee hc.1) (fun h c r hi hc l hl hmem => ?_) hh
  rcases List.mem_cons.mp hmem with hevent | hmem
  · cases hevent
    exact hl (congrArg Prod.snd (hc.2 _ rfl))
  · exact hi l hl hmem

/-- The labels that are selected are those for which the loop found a table. -/
theorem selectParents_racing {k : Key} {m : Option Metadata} (tenant : String)
    (labels : List String) {h : List CallEvent} :
    Sat (racing k m) (fun h' r => ∀ parents, r = .ok parents → ∃ probes, h' = probes ++ h ∧
        (∀ l, l ∈ parents ↔ ⟨.tableExists (tenant, l), .ok true⟩ ∈ probes) ∧
        ∀ l, ⟨.tableExists (tenant, l), .ok true⟩ ∈ probes → l ∈ labels) h
      (Program.select (fun label => tableExists tenant label) labels) := by
  induction labels generalizing h with
  | nil =>
    rintro _ ⟨⟩
    exact ⟨[], rfl, by simp, by simp⟩
  | cons label labels ih =>
    refine Sat.perform_bind trivial (fun found _ => ?_) (fun _ _ _ hr => nomatch hr)
    refine ih.bind (fun h' parents hselected => ?_) (fun _ _ _ _ hr => nomatch hr)
    obtain ⟨probes, rfl, hparents, hlabels⟩ := hselected parents rfl
    rintro _ ⟨⟩
    refine ⟨probes ++ [⟨.tableExists (tenant, label), .ok found⟩], by simp, fun l => ?_,
      fun l hl => ?_⟩
    · cases found <;> simp [hparents, or_comm]
    · simp only [List.mem_append, List.mem_singleton] at hl
      rcases hl with hl | hl
      · exact List.mem_cons_of_mem label (hlabels l hl)
      · cases hl
        exact List.mem_cons_self

section

variable [Python]

/-- `write_arrow` makes plain calls only. -/
theorem writeArrow_plain (tenant label : String) (table : ArrowTable) (mode : Json) :
    Only Plain (writeArrow tenant label table mode) := by
  have hcall (c : Call) (hc : Plain c) : Only Plain (call c) := Only.perform hc
  have hnew : Only Plain (createAndAppend (tenant, label) table) :=
    Only.bind (hcall _ trivial) (fun _ => hcall _ trivial)
  refine Only.bind (hcall _ trivial) (fun _ => Only.bind (hcall _ trivial) (fun exists_ => ?_))
  refine Only.bind ?_ (fun _ => trivial)
  unfold commitArrow
  repeat' split
  all_goals
    first
    | trivial
    | exact hnew
    | exact Only.bind (hcall _ trivial) (fun _ => Only.bind Only.lift (fun _ => hcall _ trivial))

/-- The data part of an upload makes plain calls only. -/
theorem putData_plain {schema : Columns} (settings : Settings) (tenant name : String) (mode : Json)
    (chunks : List (Option (Batch schema))) :
    Only Plain (putData settings tenant name mode chunks) := by
  have hflush (s : PutState schema) : Only Plain (flush tenant name mode s) := by
    unfold flush
    split
    · trivial
    · exact Only.bind (writeArrow_plain _ _ _ _) (fun _ => trivial)
  have hchunks (s : PutState schema) :
      Only Plain (putChunks settings tenant name mode chunks s) := by
    induction chunks generalizing s with
    | nil => trivial
    | cons chunk chunks ih =>
      cases chunk with
      | none => exact ih s
      | some batch =>
        unfold putChunks
        split
        · exact ih s
        · dsimp only
          split
          · exact Only.bind (hflush _) (fun s => ih s)
          · exact ih _
  refine Only.bind (hchunks _) (fun s => Only.bind (hflush s) (fun s => ?_))
  split
  · exact Only.bind (writeArrow_plain _ _ _ _) (fun _ => trivial)
  · trivial

/-- The checks of a derive are local. -/
theorem checkDerive_local [Engines] (tenant newLabel : String) (sql : List Token) (mode : String)
    (exists_ : Bool) :
    Only (Local (tenant, newLabel)) (checkDerive tenant newLabel sql mode exists_) := by
  have hschema : Only (Local (tenant, newLabel)) (loadSchema tenant newLabel) := by
    refine Only.bind (Only.perform ⟨trivial, by rintro _ ⟨⟩; rfl⟩) (fun exists_ => ?_)
    split
    · exact Only.bind (Only.perform ⟨trivial, by rintro _ ⟨⟩⟩) (fun _ => trivial)
    · trivial
  unfold checkDerive
  split
  · trivial
  · split
    · refine Only.bind hschema (fun _ => ?_)
      refine Only.bind (Only.perform ⟨trivial, by rintro _ ⟨⟩⟩) (fun _ => ?_)
      dsimp only
      split <;> trivial
    · trivial

variable [Engines] [Backend]

/-- The lakehouse path of `derive_object` keeps the contract. -/
theorem deriveToLakehouse_racing [Sqlglot] (settings : Settings) {tenant newLabel : String}
    {guarded : GuardedQuery} (mode : String) {tags : List String} {m : Option Metadata}
    (hlabel : validateLabel newLabel = .ok newLabel)
    (hw : ⟨deriveRow settings tenant newLabel guarded.sql, tags,
      some guarded.referencedLabels⟩ ∈ m) :
    Sat (racing (tenant, newLabel) m) (fun h r => ∀ a, r = .ok a → Recorded h) []
      (deriveToLakehouse settings tenant newLabel guarded mode tags) := by
  have hlocal (c : Call) (hc : Local (tenant, newLabel) c) : Only (Local (tenant, newLabel))
      (call c) := Only.perform hc
  have hexists : Only (Local (tenant, newLabel)) (tableExists tenant newLabel) :=
    hlocal _ ⟨trivial, by rintro _ ⟨⟩; rfl⟩
  have hinit : Unprobed (tenant, newLabel) [] := by
    intro _ _ hmem
    cases hmem
  refine (sat_unprobed hexists hinit).bind (fun h exists_ hh => ?_) (fun _ _ _ _ ha => nomatch ha)
  refine (sat_unprobed (checkDerive_local _ _ _ _ _) hh).bind (fun h _ hh => ?_)
    (fun _ _ _ _ ha => nomatch ha)
  have hschema := hlocal (.ensureSchema tenant) ⟨trivial, by rintro _ ⟨⟩⟩
  have hcreate := hlocal (.createTableAs (mode == "replace") (tenant, newLabel) guarded.sql)
    ⟨trivial, by rintro _ ⟨⟩⟩
  refine (sat_unprobed hschema hh).bind (fun h _ hh => ?_) (fun _ _ _ _ ha => nomatch ha)
  refine (sat_unprobed hcreate hh).bind (fun h _ hh => ?_) (fun _ _ _ _ ha => nomatch ha)
  refine (selectParents_racing tenant guarded.referencedLabels).bind
    (fun h' parents hselected => ?_) (fun _ _ _ _ ha => nomatch ha)
  obtain ⟨probes, rfl, hparents, hlabels⟩ := hselected parents rfl
  refine recordAndDescribe_racing settings hw hlabel (fun l hl => ?_)
  have hprobe : ⟨.tableExists (tenant, l), .ok true⟩ ∈ ⟨.openRegistry, .ok ⟨⟩⟩ :: (probes ++ h) ↔
      (⟨.tableExists (tenant, l), .ok true⟩ : CallEvent) ∈ probes := by
    simp [hh l hl]
  exact (hparents l).trans ⟨fun h => ⟨hlabels l h, hprobe.mpr h⟩, fun h => hprobe.mp h.2⟩

/-- `ingest_object` in replace mode keeps the contract. -/
theorem ingestObject_racing (settings : Settings) {tenant label name : String}
    {source : PyM ResolvedSource} {tags : Option (List String)} {m : Option Metadata}
    (hlabel : validateLabel label = .ok name)
    (hw : ∀ resolved, source = .ok resolved →
      ⟨ingestRow settings tenant name resolved.kind resolved.ref, tags.getD [], none⟩ ∈ m) :
    Sat (racing (tenant, name) m) (fun h r => ∀ a, r = .ok a → Recorded h) []
      (ingestObject settings tenant label source "replace" tags "lakehouse") := by
  refine Sat.lift_bind (fun name' hvalid => ?_) (fun _ _ _ ha => nomatch ha)
  rw [hlabel] at hvalid
  cases hvalid
  rw [if_neg (by simp)]
  refine Sat.lift_bind (fun resolved hsource => ?_) (fun _ _ _ ha => nomatch ha)
  rw [if_neg (by simp)]
  refine (sat_of_plain (writeArrow_plain _ _ _ _)).bind (fun h _ _ => ?_)
    (fun _ _ _ _ ha => nomatch ha)
  exact recordAndDescribe_racing settings (hw resolved hsource)
    (validateLabel_label (validateLabel_ok hlabel)) trivial

/-- `derive_object` in replace mode keeps the contract. -/
theorem deriveObject_racing [Sqlglot] (settings : Settings) {tenant newLabel name sql : String}
    {tags : Option (List String)} {m : Option Metadata} (hlabel : validateLabel newLabel = .ok name)
    (hw : ∀ guarded, validateSelect (deriveParams settings tenant) sql = .ok guarded →
      ⟨deriveRow settings tenant name guarded.sql, tags.getD [],
        some guarded.referencedLabels⟩ ∈ m) :
    Sat (racing (tenant, name) m) (fun h r => ∀ a, r = .ok a → Recorded h) []
      (deriveObject settings tenant newLabel sql "replace" tags "lakehouse") := by
  refine Sat.lift_bind (fun name' hvalid => ?_) (fun _ _ _ ha => nomatch ha)
  rw [hlabel] at hvalid
  cases hvalid
  rw [if_neg (by simp), if_neg (by simp)]
  generalize validateSelect (deriveParams settings tenant) sql = result at hw ⊢
  refine Sat.lift_bind (fun guarded hguarded => ?_) (fun _ _ _ ha => nomatch ha)
  rw [if_neg (by simp)]
  exact deriveToLakehouse_racing settings _ (validateLabel_label (validateLabel_ok hlabel))
    (hw guarded hguarded)

/-- A replace-mode write keeps the contract of its metadata and records. -/
theorem operation_racing [Sqlglot] (settings : Settings) {k : Key} {op : Operation}
    (hop : op.Replaces k) : Sat (racing k (op.metadata settings))
      (fun h r => ∀ a, r = .ok a → Recorded h) [] (op.program settings) := by
  obtain ⟨tenant, name⟩ := k
  have hdone {m : Option Metadata} {α : Type} {p : Tool α}
      (hp : Sat (racing (tenant, name) m) (fun h r => ∀ a, r = .ok a → Recorded h) [] p) :
      Sat (racing (tenant, name) m) (fun h r => ∀ a, r = .ok a → Recorded h) [] (do let _ ← p) :=
    hp.bind (fun _ a hrecorded _ _ => hrecorded a rfl) (fun _ _ _ _ ha => nomatch ha)
  cases op with
  | ingest tenant' label source mode tags target =>
    obtain ⟨rfl, rfl, rfl, hlabel⟩ := hop
    refine hdone (ingestObject_racing settings hlabel (fun resolved hsource => ?_))
    exact Operation.metadata_ingest hlabel hsource
  | derive tenant' newLabel sql mode tags target =>
    obtain ⟨rfl, rfl, rfl, hlabel⟩ := hop
    refine hdone (deriveObject_racing settings hlabel (fun guarded hguarded => ?_))
    exact Operation.metadata_derive hlabel hguarded
  | put schema target chunks =>
    obtain ⟨mode, rfl, hmode⟩ := hop
    refine (sat_of_plain (putData_plain settings tenant name mode chunks)).bind (fun h _ _ => ?_)
      (fun _ _ _ _ ha => nomatch ha)
    exact (recordObjectGuarded_racing (w := ⟨streamRow settings tenant name, [], none⟩) none rfl rfl
      trivial).bind (fun h ok hrecorded _ _ => (hrecorded ok rfl).2) (fun _ _ _ _ ha => nomatch ha)
  | describe tenant label => exact hop.elim
  | drop tenant label => exact hop.elim
  | sweep => exact hop.elim

end

/-- An event that writes no objects leaves the row, the tags and the lineage of every key alone. -/
theorem registry_unchanged [Engines] {s : Stores} {event : CallEvent}
    (hrecorded : recorded event = none) (hdeleted : deleted event = none) :
    (storesAfter s event).registry.objects = s.registry.objects ∧
      (storesAfter s event).registry.tags = s.registry.tags ∧
      (storesAfter s event).registry.lineage = s.registry.lineage := by
  obtain ⟨c, r⟩ := event
  cases r with
  | error e => exact ⟨rfl, rfl, rfl⟩
  | ok a =>
    cases c with
    | recordObject row tags parents => cases hrecorded
    | deleteObject k => cases hdeleted
    | _ => exact ⟨rfl, rfl, rfl⟩

/-- A record is reflected right after it. -/
theorem reflects_record [Engines] {s : Stores} {w : Metadata} {h : List CallEvent}
    {parents : Option (List String)} (hparents : ParentsOf w h parents) :
    Reflects w h (s.registry.recordObject w.row w.tags parents) where
  row := Registry.row_recordObject_self
  tags := Registry.tagsFor_recordObject_self
  lineage := by
    intro labels hlabels l
    unfold ParentsOf at hparents
    rw [hlabels] at hparents
    cases parents with
    | none => exact hparents.elim
    | some parents =>
      rw [Registry.mem_getParents, Registry.lineage_recordObject_self, List.mem_filter,
        Registry.fromKeys, List.mem_eraseDups]
      change l ∈ parents ∧ (l != w.row.label) = true ↔ _
      rw [bne_iff_ne, and_comm]
      exact and_congr_right (fun hl => hparents l hl)

variable {ι : Type}

/-- What was reflected before a segment without records and deletes is reflected after it. -/
theorem reflects_after [Engines] {s : Stores} {w : Metadata} {h : List CallEvent}
    {newer : Log Call Answer PyError ι}
    (hquiet : ∀ entry ∈ newer, recorded entry.2 = none ∧ deleted entry.2 = none)
    (hreflects : Reflects w h s.registry) : Reflects w h (machine.after s newer).registry := by
  induction newer with
  | nil => exact hreflects
  | cons entry newer ih =>
    have hnewer := ih (fun e he => hquiet e (List.mem_cons_of_mem entry he))
    obtain ⟨hrecorded, hdeleted⟩ := hquiet entry List.mem_cons_self
    obtain ⟨hobjects, htags, hlineage⟩ :=
      registry_unchanged (s := machine.after s newer) hrecorded hdeleted
    rw [Machine.after_cons]
    change Reflects w h (storesAfter _ _).registry
    refine ⟨?_, ?_, fun labels hlabels l => ?_⟩
    · rw [Registry.row, hobjects]
      exact hnewer.row
    · rw [Registry.tagsFor, htags]
      exact hnewer.tags
    · rw [Registry.getParents, hlineage]
      exact hnewer.lineage labels hlabels l

/-- In a pool of writes nothing is deleted, and what is recorded is recorded for the key. -/
theorem deleted_of_racing {k : Key} {m : Option Metadata} {h : List CallEvent}
    {event : CallEvent}
    (hguarantee : (racing k m).guarantee h event.call) : deleted event = none ∧
      ∀ row, recorded event = some row → row.key = k := by
  obtain ⟨c, r⟩ := event
  cases r with
  | error e => cases c <;> exact ⟨rfl, fun _ h => nomatch h⟩
  | ok a =>
    cases c with
    | recordObject row tags parents =>
      obtain ⟨w, _, _, hkey, _⟩ := hguarantee
      refine ⟨rfl, ?_⟩
      rintro _ ⟨⟩
      exact hkey
    | deleteObject k' => exact hguarantee.elim
    | _ => exact ⟨rfl, fun _ h => nomatch h⟩

section

variable [DecidableEq ι] [Engines] {s : Stores} {log : Log Call Answer PyError ι}

/-- In a pool of writes a key that was recorded has a row. -/
theorem row_of_racing {k : Key} {m : ι → Option Metadata}
    (hguarantees : Along (fun older entry =>
      (racing k (m entry.1)).guarantee (history entry.1 older) entry.2.call) log)
    (hrecorded : ∃ entry ∈ log, (recorded entry.2).isSome = true) :
    ((machine.after s log).registry.row k).isSome = true := by
  induction log with
  | nil =>
    obtain ⟨_, hmem, _⟩ := hrecorded
    cases hmem
  | cons entry log ih =>
    obtain ⟨hdeleted, hkey⟩ := deleted_of_racing hguarantees.1
    rw [Machine.after_cons]
    change ((storesAfter _ _).registry.row k).isSome = true
    rw [row_storesAfter]
    cases hevent : recorded entry.2 with
    | some row => simp [hkey row hevent]
    | none =>
      obtain ⟨e, hmem, hsome⟩ := hrecorded
      rcases List.mem_cons.mp hmem with rfl | hmem
      · simp [hevent] at hsome
      · simpa [hdeleted] using ih hguarantees.2 ⟨e, hmem, hsome⟩

variable [Python] [Backend] [Sqlglot] {settings : Settings} {ops : ι → Operation}
  {k : Key} {threads : ι → Tool Unit}

/-- In a run of writes whose calls all succeed, every write keeps its contract, and when it is
over it has recorded. -/
theorem run_racing (hops : ∀ i, (ops i).Replaces k)
    (h : Run machine (fun i => (ops i).program settings) s log threads)
    (hok : ∀ entry ∈ log, entry.2.answer.isOk = true) :
    (∀ i, threads i = .pure ⟨⟩ → Recorded (history i log)) ∧ Along (fun older entry =>
      (racing k ((ops entry.1).metadata settings)).guarantee (history entry.1 older) entry.2.call)
      log := by
  have hassume : Along (fun older entry => Along (fun older entry =>
      (racing k ((ops entry.1).metadata settings)).guarantee (history entry.1 older) entry.2.call)
        older → (racing k ((ops entry.1).metadata settings)).assume (history entry.1 older)
          entry.2) log := by
    refine ((along_iff_forall.mpr hok).and h.possible).imp (fun older entry hall hguarantees => ?_)
    refine ⟨hall.1.1, fun hevent => ?_⟩
    by_contra hnot
    simp only [Unrecorded, not_forall] at hnot
    obtain ⟨event, hmem, hsome⟩ := hnot
    have hrow := row_of_racing (s := s) (m := fun i => (ops i).metadata settings) hguarantees
      ⟨_, mem_history.mp hmem, Option.isSome_iff_ne_none.mpr hsome⟩
    have hpossible := hall.1.2
    rw [hevent] at hpossible
    have hfound : none = (machine.after s older).registry.getObject k := hpossible
    rw [Registry.getObject_eq_none.mp hfound.symm] at hrow
    cases hrow
  obtain ⟨hsat, hguarantees⟩ := h.sat (fun i => operation_racing settings (hops i)) hassume
  refine ⟨fun i hdone => ?_, hguarantees⟩
  have hi := hsat i
  rw [hdone] at hi
  exact hi _ rfl

/-- When any number of replace-mode writes of one object have returned and all their calls have
succeeded, the registry shows the metadata of the write whose record was committed last. -/
theorem metadata_of_last_record [Nonempty ι] (hops : ∀ i, (ops i).Replaces k)
    (h : Run machine (fun i => (ops i).program settings) s log threads)
    (hok : ∀ entry ∈ log, entry.2.answer.isOk = true) (hdone : ∀ i, threads i = .pure ⟨⟩) :
    ∃ i w newer record older, log = newer ++ (i, record) :: older ∧
      (ops i).metadata settings = some w ∧ recorded record = some w.row ∧
      (∀ entry ∈ newer, recorded entry.2 = none) ∧
      Reflects w (history i older) (machine.after s log).registry := by
  obtain ⟨hrecords, hguarantees⟩ := run_racing hops h hok
  obtain ⟨j⟩ := ‹Nonempty ι›
  obtain ⟨event, hevent, hsome⟩ := hrecords j (hdone j)
  have hfind : (log.find? (fun entry => (recorded entry.2).isSome)).isSome = true :=
    List.find?_isSome.mpr ⟨_, mem_history.mp hevent, hsome⟩
  obtain ⟨⟨i, record⟩, hlast⟩ := Option.isSome_iff_exists.mp hfind
  obtain ⟨hrecord, newer, older, rfl, hnewer⟩ := List.find?_eq_some_iff_append.mp hlast
  have hquiet : ∀ entry ∈ newer, recorded entry.2 = none := by
    intro entry hentry
    simpa using hnewer entry hentry
  have hdeletes : ∀ entry ∈ newer, deleted entry.2 = none := by
    have hall := along_iff_forall.mp (hguarantees.imp (R := fun _ entry => deleted entry.2 = none)
      (fun _ _ hentry => (deleted_of_racing hentry.1).1))
    exact fun entry hentry => hall entry (List.mem_append_left _ hentry)
  obtain ⟨row, hrow⟩ := Option.isSome_iff_exists.mp hrecord
  obtain ⟨c, r⟩ := record
  cases c <;> cases r <;> cases hrow
  obtain ⟨w, hw, rfl, hkey, rfl, hparents⟩ := hguarantees.older.1
  refine ⟨i, w, newer, _, older, rfl, hw, rfl, hquiet, ?_⟩
  rw [Machine.after_append]
  exact reflects_after (fun entry hentry => ⟨hquiet entry hentry, hdeletes entry hentry⟩)
    (reflects_record hparents)

end

/-- The write whose data commit came last. -/
def lastCommitter (k : Key) (log : Log Call Answer PyError ι) : Option ι :=
  (log.find? (fun entry => committed entry.2 = some k)).map (·.1)

/-- The registry shows the metadata of the write whose data commit came last. -/
def AgreesWithData [DecidableEq ι] [Python] [Engines] [Sqlglot] (settings : Settings)
    (ops : ι → Operation) (k : Key) (s : Stores) (log : Log Call Answer PyError ι) : Prop :=
  ∀ i w, lastCommitter k log = some i → (ops i).metadata settings = some w →
    Reflects w (history i log) (machine.after s log).registry

section

attribute [local instance] asciiPython eventsSqlglot textEngines externalBackend

/-- Two ingests of `events` with different tags. -/
def twoIngests : Bool → Operation
  | false => ingestEvents ["a"] "replace" ["first"]
  | true => ingestEvents ["b"] "replace" ["second"]

/-- The first ingest commits its data first and its metadata last. -/
def crossedCommits : List Bool :=
  List.replicate 4 false ++ List.replicate 6 true ++ List.replicate 7 false ++ List.replicate 5 true

/-- Both ingests replace `events`. -/
theorem twoIngests_replaces (i : Bool) : (twoIngests i).Replaces ("t_acme", "events") := by
  cases i <;> exact ⟨rfl, rfl, rfl, rfl⟩

/-- All calls of this run succeed. -/
theorem crossedCommits_ok :
    ∀ entry ∈ (playOps twoIngests crossedCommits).1, entry.2.answer.isOk = true := by
  decide +kernel

/-- Both ingests return in this run. -/
theorem crossedCommits_done (i : Bool) :
    (playOps twoIngests crossedCommits).2 i = .pure ⟨⟩ := by
  cases i <;> rfl

/-- The second ingest commits its data last, and the tags that remain are those of the first. -/
theorem crossedCommits_disagree : ∃ log threads,
    Run machine (fun i => (twoIngests i).program {}) {} log threads ∧
      (∀ i, (twoIngests i).Replaces ("t_acme", "events")) ∧
      (∀ entry ∈ log, entry.2.answer.isOk = true) ∧ (∀ i, threads i = .pure ⟨⟩) ∧
      ¬ AgreesWithData {} twoIngests ("t_acme", "events") {} log := by
  refine ⟨_, _, playOps_run twoIngests crossedCommits, twoIngests_replaces, crossedCommits_ok,
    crossedCommits_done, fun hagrees => ?_⟩
  have hlast : lastCommitter ("t_acme", "events") (playOps twoIngests crossedCommits).1 =
      some true := by decide +kernel
  have htags := (hagrees true ⟨ingestRow {} "t_acme" "events" .inline none, ["second"], none⟩ hlast
    rfl).tags
  revert htags
  decide +kernel

/-- The tags are those of the first ingest, which recorded last. -/
theorem crossedCommits_metadata : ∃ i w newer record older,
    (playOps twoIngests crossedCommits).1 = newer ++ (i, record) :: older ∧
      (twoIngests i).metadata {} = some w ∧ recorded record = some w.row ∧
      (∀ entry ∈ newer, recorded entry.2 = none) ∧
      Reflects w (history i older)
        (machine.after {} (playOps twoIngests crossedCommits).1).registry :=
  metadata_of_last_record twoIngests_replaces (playOps_run twoIngests crossedCommits)
    crossedCommits_ok crossedCommits_done

end

end Memcove
