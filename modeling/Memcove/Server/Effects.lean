import Memcove.Flight.Authority
import Memcove.Server.Acts

/-!
# The operations as acts on their object

Each operation of the service on the machine of its object: what it has done when it returned, and
what it may have done when it raised. The description that a producer returns is one of the object
that it leaves.
-/

namespace Memcove

open Programs

section

variable [Sqlglot] [Federation] [Engines] {settings : Settings} {k : Key} {moment : ℕ → Site}
  {o : ObjectState} {α β : Type}

/-- The object is unchanged, and a returned value is right. -/
def Tells (P : α → Prop) (o o' : ObjectState) (r : Except PyError α) : Prop :=
  o' = o ∧ ∀ a, r = .ok a → P a

omit [Sqlglot] [Federation] [Engines] in
/-- An error says nothing. -/
theorem Tells.error {P : α → Prop} (e : PyError) : Tells P o o (.error e) :=
  ⟨rfl, fun _ h => nomatch h⟩

omit [Sqlglot] [Federation] [Engines] in
/-- A right value. -/
theorem Tells.ok {P : α → Prop} {a : α} (ha : P a) : Tells P o o (.ok a) :=
  ⟨rfl, fun _ h => Except.ok.inj h ▸ ha⟩

/-- A right value, and what follows it. -/
theorem tells_bind {P : α → Prop} {Q : β → Prop} {p : Tool α} {f : α → Tool β}
    (hp : EndsIn (objectMachine settings k moment) o p (Tells P o))
    (hf : ∀ a, P a → EndsIn (objectMachine settings k moment) o (f a) (Tells Q o)) :
    EndsIn (objectMachine settings k moment) o (p >>= f) (Tells Q o) := by
  refine hp.bind (fun o' a ha => ?_) (fun o' e he => ?_)
  · obtain ⟨rfl, ha⟩ := ha
    exact hf a (ha a rfl)
  · obtain ⟨rfl, _⟩ := he
    exact .error e

/-- A program that changes no table, of whose value nothing is said. -/
theorem tells_stable {p : Tool α} (hp : Only Stable p) :
    EndsIn (objectMachine settings k moment) o p (Tells (fun _ => True) o) :=
  (ends_stable hp).mono (fun _ _ ho => ⟨ho, fun _ _ => trivial⟩)

/-- The columns of the object. -/
theorem loadSchema_acts : EndsIn (objectMachine settings k moment) o (loadSchema k.1 k.2)
    (Tells (fun columns => ∃ d, o.dataset = some d ∧ columns = d.schema) o) := by
  refine ends_exists_bind (fun e => .error e) ?_
  cases hd : o.dataset with
  | none => exact .raise (.error _)
  | some d =>
    refine ends_load_bind (fun e => .error e) (fun handle d' _ hd' hcolumns => ?_)
    refine .pure (.ok ⟨d', hd.symm.trans hd', ?_⟩)
    rw [hcolumns]
    rfl

/-- The number of its rows. -/
theorem rowCount_acts : EndsIn (objectMachine settings k moment) o (rowCount k.1 k.2)
    (Tells (fun count => count = none ∨
      ∃ d, o.dataset = some d ∧ count = some (d.rows.length : Int)) o) := by
  have hcount : EndsIn (objectMachine settings k moment) o (call (.countRows k))
      (Tells (fun count => ∃ d, o.dataset = some d ∧ count = some (d.rows.length : Int)) o) := by
    refine EndsIn.perform (fun r hr => ?_)
    cases r with
    | error e => exact .error e
    | ok count =>
      rw [effect_of_stable (c := .countRows k) rfl]
      obtain ⟨σ, n, hdataset, _, _, t, ht, rfl⟩ := hr
      exact .ok ⟨t.dataset, hdataset.symm.trans (dataset_of_table ht), rfl⟩
  refine hcount.tryCatch (fun o' a ha => ⟨ha.1, fun a' h => Or.inr (ha.2 a' h)⟩)
    (fun o' e he => ?_)
  obtain ⟨rfl, _⟩ := he
  exact .pure (.ok (Or.inl rfl))

omit [Sqlglot] [Federation] in
/-- A description is put together from both. -/
theorem describes_of {object : MemoryObject} {columns : List ColumnSchema} {count : Option Int}
    {state : Option Dataset} (hcolumns : ∃ d, state = some d ∧ columns = d.schema)
    (hcount : count = none ∨ ∃ d, state = some d ∧ count = some (d.rows.length : Int))
    (hschema : object.schema = columns) (hrows : object.rowCount = count) :
    Describes object state := by
  obtain ⟨d, rfl, rfl⟩ := hcolumns
  refine ⟨d, rfl, hschema, ?_⟩
  rw [hrows]
  rcases hcount with rfl | ⟨d', hd', rfl⟩
  · exact Or.inl rfl
  · cases hd'
    exact Or.inr rfl

/-- The description for a registry row. -/
theorem describeRow_acts (reg : Option (ObjectRow × List String)) :
    EndsIn (objectMachine settings k moment) o (describeRow settings k.1 k.2 reg)
      (Tells (fun object => Describes object o.dataset) o) := by
  cases reg with
  | none => exact .raise (.error _)
  | some found =>
    refine tells_bind loadSchema_acts (fun columns hcolumns => ?_)
    refine tells_bind (tells_stable (Only.perform rfl)) (fun parents _ => ?_)
    exact tells_bind rowCount_acts (fun count hcount =>
      .pure (.ok (describes_of hcolumns hcount rfl rfl)))

/-- The response for a row that could not be recorded. -/
theorem pendingObject_acts {row : ObjectRow} (hrow : row.key = k) (tags parents : List String) :
    EndsIn (objectMachine settings k moment) o (pendingObject row tags parents)
      (Tells (fun object => Describes object o.dataset) o) := by
  obtain rfl := hrow
  refine tells_bind loadSchema_acts (fun columns hcolumns => ?_)
  exact tells_bind rowCount_acts (fun count hcount =>
    .pure (.ok (describes_of hcolumns hcount rfl rfl)))

variable [Python]

/-- `describe_object`. -/
theorem describeObject_acts {name : String} (hname : validateLabel name = .ok k.2) :
    EndsIn (objectMachine settings k moment) o (describeObject settings k.1 name)
      (Tells (fun object => Describes object o.dataset) o) := by
  refine EndsIn.lift_bind (fun label hlabel => ?_) (fun e _ => .error e)
  obtain rfl : k.2 = label := Except.ok.inj (hname.symm.trans hlabel)
  refine tells_bind (tells_stable (Only.perform rfl)) (fun found _ => ?_)
  refine tells_bind (P := fun _ => True) (tells_stable ?_)
    (fun reg _ => describeRow_acts reg)
  cases found with
  | some found => trivial
  | none =>
    refine Only.bind (tableExists_stable _ _) (fun exists_ => ?_)
    cases exists_ with
    | false => trivial
    | true => exact Only.bind (Only.perform rfl) (fun _ => Only.perform rfl)

variable [Backend]

/-- What a producer does after its data. -/
theorem finish_acts (row : ObjectRow) (hrow : row.key = k) (hlabel : validateLabel k.2 = .ok k.2)
    (tags : List String) (parents : Option (List String)) (shown : List String) :
    EndsIn (objectMachine settings k moment) o (do
      let ok ← recordObjectGuarded row tags parents
      if ok then describeObject settings row.tenant row.label
      else pendingObject row tags shown)
      (Tells (fun object => Describes object o.dataset) o) := by
  refine tells_bind (tells_stable (recordObjectGuarded_stable row tags parents))
    (fun ok _ => ?_)
  cases ok with
  | true =>
    obtain rfl := hrow
    exact describeObject_acts hlabel
  | false => exact pendingObject_acts hrow tags shown

/-- What an ingest does: it stores the rows of its source and describes the object, or it raises
after nothing or a part of this. -/
def Ingests (source : PyM ResolvedSource) (mode : String) (o o' : ObjectState)
    (r : PyM MemoryObject) : Prop :=
  o'.derived = o.derived ∧
    match r with
    | .ok object => Describes object o'.dataset ∧ ∃ resolved, source = .ok resolved ∧
      Placed resolved.table.schema resolved.table.rows (.str mode) o.dataset o'.dataset
    | .error _ => o'.dataset = o.dataset ∨ ∃ resolved, source = .ok resolved ∧
      Interrupted resolved.table.schema (· = resolved.table.rows) (.str mode) o.dataset o'.dataset

/-- `ingest_object` of the lakehouse. -/
theorem ingestObject_acts {name : String} (hname : validateLabel name = .ok k.2)
    (source : PyM ResolvedSource) (mode : String) (tags : Option (List String)) :
    EndsIn (objectMachine settings k moment) o
      (ingestObject settings k.1 name source mode tags "lakehouse") (Ingests source mode o) := by
  have hunchanged (e : PyError) : Ingests source mode o o (.error e) := ⟨rfl, Or.inl rfl⟩
  refine EndsIn.lift_bind (fun label hlabel => ?_) (fun e _ => hunchanged e)
  obtain rfl : k.2 = label := Except.ok.inj (hname.symm.trans hlabel)
  rw [if_neg (by decide)]
  refine EndsIn.lift_bind (fun resolved hresolved => ?_) (fun e _ => hunchanged e)
  rw [if_neg (by decide)]
  refine (writeArrow_acts resolved.table (.str mode)).bind (fun o' _ ho' => ?_)
    (fun o' e ho' => ?_)
  · refine (finish_acts (ingestRow settings k.1 k.2 resolved.kind resolved.ref) rfl
      (validateLabel_label (validateLabel_ok hname)) (tags.getD []) none []).mono
      (fun o'' r hr => ?_)
    obtain ⟨rfl, hdescribes⟩ := hr
    refine ⟨ho'.1, ?_⟩
    cases r with
    | ok object => exact ⟨hdescribes object rfl, resolved, hresolved, ho'.2⟩
    | error e => exact Or.inr ⟨resolved, hresolved, Or.inr (Or.inr ⟨_, rfl, ho'.2⟩)⟩
  · refine ⟨ho'.1, ?_⟩
    rcases ho'.2 with hsame | hcreated | ⟨_, hfalse, _⟩
    · exact Or.inl hsame
    · exact Or.inr ⟨resolved, hresolved, Or.inr (Or.inl hcreated)⟩
    · exact hfalse.elim

/-- What an upload does: it stores the rows of its chunks, or it raises after nothing or a part of
this. -/
def Uploads (schema : Columns) (rows : Rows) (mode : Json) (o o' : ObjectState) (r : PyM PUnit) :
    Prop := Writes schema rows (· <+: rows) mode o o' r

/-- `do_put`. -/
theorem doPut_acts {schema : Columns} (mode : Json) (chunks : List (Option (Batch schema))) :
    EndsIn (objectMachine settings k moment) o (doPut settings (.ok (k.1, k.2, mode)) chunks)
      (Uploads schema (uploadRows chunks) mode o) := by
  rw [doPut_eq]
  refine (uploadWrites_acts (uploadWrites_plan _ mode chunks)).bind (fun o' _ ho' => ?_)
    (fun o' e ho' => ho')
  have hrecord : Only Stable (do
      let _ ← recordObjectGuarded (streamRow settings k.1 k.2) [] none
      return PUnit.unit : Tool PUnit) :=
    Only.bind (recordObjectGuarded_stable _ _ _) (fun _ => trivial)
  refine (ends_stable hrecord).mono (fun o'' r hr => ?_)
  obtain rfl := hr
  refine ⟨ho'.1, ?_⟩
  cases r with
  | ok a => exact ho'.2
  | error e => exact Or.inr (Or.inr ⟨_, List.prefix_refl _, ho'.2⟩)

/-- The result of a query was stored in the object, which did not exist or is replaced. -/
def DerivedFrom (settings : Settings) (moment : ℕ → Site) (mode : String) (sql : List Token)
    (o o' : ObjectState) : Prop :=
  (mode = "replace" ∨ o.dataset = none) ∧
    o' = ⟨some (.ofResult ((moment o.derived).selected settings sql)), o.derived + 1⟩

/-- What a derive does: it stores the result of its guarded query and describes the object, or it
raises after nothing or after this. -/
def Derives (settings : Settings) (moment : ℕ → Site) (k : Key) (sql mode : String)
    (o o' : ObjectState) (r : PyM MemoryObject) : Prop :=
  match r with
  | .ok object => Describes object o'.dataset ∧
    ∃ guarded, validateSelect (deriveParams settings k.1) sql = .ok guarded ∧
      DerivedFrom settings moment mode guarded.sql o o'
  | .error _ => o' = o ∨
    ∃ guarded, validateSelect (deriveParams settings k.1) sql = .ok guarded ∧
      DerivedFrom settings moment mode guarded.sql o o'

/-- The lakehouse path of `derive_object`. -/
theorem deriveToLakehouse_acts (hlabel : validateLabel k.2 = .ok k.2) (guarded : GuardedQuery)
    (mode : String) (tags : List String) :
    EndsIn (objectMachine settings k moment) o
      (deriveToLakehouse settings k.1 k.2 guarded mode tags) (fun o' r => match r with
        | .ok object => Describes object o'.dataset ∧
          DerivedFrom settings moment mode guarded.sql o o'
        | .error _ => o' = o ∨ DerivedFrom settings moment mode guarded.sql o o') := by
  refine ends_exists_bind (fun e => Or.inl rfl) ?_
  refine (ends_stable ((checkDerive_idle k.1 k.2 guarded.sql mode _).mono
    (fun _ => Idle.stable))).bind (fun o' _ ho' => ?_) (fun o' e ho' => Or.inl ho')
  obtain rfl := ho'
  refine ends_stable_bind (c := .ensureSchema k.1) rfl (fun _ _ => ?_) (fun e => Or.inl rfl)
  have hcreate : EndsIn (objectMachine settings k moment) o'
      (call (.createTableAs (mode == "replace") k guarded.sql)) _ := ends_change rfl
  refine hcreate.bind (fun u _ hu => ?_) (fun u e hu => Or.inl hu)
  obtain ⟨⟨σ, n, hdataset, _, hnew, _⟩, rfl⟩ := hu
  have hderived : DerivedFrom settings moment mode guarded.sql o'
      (o'.after settings moment (.createTableAs (mode == "replace") k guarded.sql)) := by
    refine ⟨?_, rfl⟩
    rcases hnew with hmode | hnone
    · exact Or.inl (beq_iff_eq.mp hmode)
    · right
      have htable : σ.stores.lakehouse.table k = none := hnone
      rw [← hdataset, Site.dataset, Lakehouse.dataset, htable]
      rfl
  refine (ends_stable (Only.select (fun label _ => tableExists_stable k.1 label))).bind
    (fun u parents hu => ?_) (fun u e hu => ?_)
  · obtain rfl := hu
    refine (finish_acts (deriveRow settings k.1 k.2 guarded.sql) rfl hlabel tags
      (some parents) parents).mono (fun u r hr => ?_)
    obtain ⟨rfl, hdescribes⟩ := hr
    cases r with
    | ok object => exact ⟨hdescribes object rfl, hderived⟩
    | error e => exact Or.inr hderived
  · obtain rfl := hu
    exact Or.inr hderived

/-- `derive_object` of the lakehouse. -/
theorem deriveObject_acts {name : String} (hname : validateLabel name = .ok k.2)
    (sql mode : String) (tags : Option (List String)) :
    EndsIn (objectMachine settings k moment) o
      (deriveObject settings k.1 name sql mode tags "lakehouse")
      (Derives settings moment k sql mode o) := by
  have hlabel := validateLabel_label (validateLabel_ok hname)
  have hderive (guarded : GuardedQuery)
      (hguarded : validateSelect (deriveParams settings k.1) sql = .ok guarded) :
      EndsIn (objectMachine settings k moment) o
        (deriveToLakehouse settings k.1 k.2 guarded mode (tags.getD []))
        (Derives settings moment k sql mode o) := by
    refine (deriveToLakehouse_acts hlabel guarded mode (tags.getD [])).mono (fun o' r hr => ?_)
    cases r with
    | ok object => exact ⟨hr.1, guarded, hguarded, hr.2⟩
    | error e => exact hr.imp_right (fun hr => ⟨guarded, hguarded, hr⟩)
  have hunchanged (e : PyError) : Derives settings moment k sql mode o o (.error e) := Or.inl rfl
  refine EndsIn.lift_bind (fun label h => ?_) (fun e _ => hunchanged e)
  obtain rfl : k.2 = label := Except.ok.inj (hname.symm.trans h)
  generalize validateSelect (deriveParams settings k.1) sql = result at hderive
  split
  · exact .raise (hunchanged _)
  · rw [if_neg (by decide)]
    refine EndsIn.lift_bind (fun guarded hguarded => ?_) (fun e _ => hunchanged e)
    rw [if_neg (by decide)]
    exact hderive guarded hguarded

omit [Engines] [Backend] in
/-- What a drop does: it removes the object, or it raises after nothing or after this. -/
def Drops {α : Type} (o o' : ObjectState) (r : PyM α) : Prop :=
  match r with
  | .ok _ => o.dataset.isSome = true ∧ o' = { o with dataset := none }
  | .error _ => o' = o ∨ o' = { o with dataset := none }

omit [Backend] in
/-- `drop_object`. -/
theorem dropObject_acts {name : String} (hname : validateLabel name = .ok k.2) :
    EndsIn (objectMachine settings k moment) o (dropObject k.1 name) (Drops o) := by
  refine EndsIn.lift_bind (fun label hlabel => ?_) (fun e _ => Or.inl rfl)
  obtain rfl : k.2 = label := Except.ok.inj (hname.symm.trans hlabel)
  have hdrop : EndsIn (objectMachine settings k moment) o (dropTable k.1 k.2) (Drops o) := by
    refine ends_exists_bind (fun e => Or.inl rfl) ?_
    split
    · rename_i hsome
      have hchange : EndsIn (objectMachine settings k moment) o (call (.dropTable k)) _ :=
        ends_change rfl
      refine hchange.mono (fun o' r hr => ?_)
      cases r with
      | ok a => exact ⟨hsome, hr.2⟩
      | error e => exact Or.inl hr
    · exact .raise (Or.inl rfl)
  refine hdrop.bind (fun o' _ ho' => ?_) (fun o' e ho' => ho')
  obtain ⟨hsome, rfl⟩ := ho'
  have hdelete : Only Stable (do
      let _ ← call (.deleteObject k)
      return k.2 : Tool String) := Only.bind (Only.perform rfl) (fun _ => trivial)
  refine (ends_stable hdelete).mono (fun o' r hr => ?_)
  obtain rfl := hr
  cases r with
  | ok label => exact ⟨hsome, rfl⟩
  | error e => exact Or.inr rfl

end

end Memcove
