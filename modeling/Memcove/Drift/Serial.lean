import Memcove.Drift.Racing
import Memcove.Lib.Runs
import Memcove.Lib.Sequential

/-!
# One operation after the other

The operations of the service without concurrency. The stores answer truthfully, and a call fails
only where it cannot return, except that the registry may be unreachable when metadata is
recorded, that Trino may refuse a query, and that the scratchpad may fail. This file says what the
parts of the tools do to the stores in a complete run.
-/

namespace Memcove

open Programs KeyedTables

/-- What goes wrong while an operation runs. -/
structure Faults where
  registryDown : Bool := false
  trinoRefuses : Bool := false
  deriving DecidableEq

/-- Every table is in a namespace of the catalog. -/
def Listed (L : Lakehouse) : Prop := ∀ k, (L.table k).isSome = true → k.1 ∈ L.namespaces

variable [Engines]

/-- Listings are complete, and a probe shows the columns of its query. -/
def Truthful (s : Stores) : (c : Call) → Answer c → Prop
  | .listTables ns, labels => ∀ l, l ∈ labels ↔ (s.lakehouse.table (ns, l)).isSome = true
  | .listNamespaces, namespaces => namespaces.Perm (s.lakehouse.namespaces.map (fun ns => [ns]))
  | .probeColumns _ sql, names => names = (Engines.select s.lakehouse sql).1.map (·.1)
  | _, _ => True

/-- A call that can go through. -/
def Faults.permits (faults : Faults) : Call → Prop
  | .recordObject _ _ _ => faults.registryDown = false
  | _ => True

variable [Backend]

/-- An error of a call that could return. -/
def Faults.fails (faults : Faults) : Call → PyError → Prop
  | .scratch _, _ => True
  | .probeColumns _ _, _ | .createTableAs _ _ _, _ => faults.trinoRefuses = true
  | .recordObject _ _ _, e => faults.registryDown = true ∧ Backend.isConnectionDown e = true
  | _, _ => False

/-- The stores while one operation runs. -/
def serial (faults : Faults) : Machine Call Answer PyError Stores where
  possible s event :=
    match event with
    | ⟨c, .ok a⟩ => Returns s c a ∧ Truthful s c a ∧ faults.permits c
    | ⟨c, .error e⟩ => faults.fails c e ∨ ∀ a, ¬ Returns s c a
  effect := storesAfter

/-- The answers of the stores, where an unreachable registry fails every record. -/
def serialAnswer (faults : Faults) (s : Stores) (c : Call) : Except PyError (Answer c) :=
  match c with
  | .recordObject row tags parents =>
    if faults.registryDown then .error (externalError "registry unreachable")
    else answerOf s (.recordObject row tags parents)
  | c => answerOf s c

/-- These answers are possible, when the backend sees that the registry is unreachable. -/
theorem serialAnswer_possible {faults : Faults} (hdown : faults.registryDown = true →
    Backend.isConnectionDown (externalError "registry unreachable") = true)
    (s : Stores) (c : Call) :
    (serial faults).possible s ⟨c, serialAnswer faults s c⟩ := by
  have hreturns := answerOf_possible s c
  cases c with
  | createTable k schema =>
    cases htable : s.lakehouse.table k with
    | none => simp [serial, serialAnswer, answerOf, Returns, Truthful, Faults.permits, htable]
    | some t => simp [serial, serialAnswer, answerOf, Returns, htable]
  | loadTable k =>
    cases htable : s.lakehouse.table k with
    | none => simp [serial, serialAnswer, answerOf, Returns, htable]
    | some t => simp [serial, serialAnswer, answerOf, Returns, Truthful, Faults.permits, htable]
  | overwrite handle rows | append handle rows =>
    by_cases huuid : (s.lakehouse.table handle.key).any (fun t => t.uuid == handle.uuid) = true
    · simp only [machine, serial, serialAnswer, answerOf, huuid, if_true] at hreturns ⊢
      exact ⟨hreturns, trivial, trivial⟩
    · simp only [serial, serialAnswer, answerOf, huuid]
      refine Or.inr ?_
      rintro a ⟨t, ht, heq⟩
      rw [ht] at huuid
      simp [heq] at huuid
  | dropTable k =>
    by_cases htable : (s.lakehouse.table k).isSome = true
    · simp only [serial, serialAnswer, answerOf, htable, if_true]
      exact ⟨htable, trivial, trivial⟩
    · simp only [serial, serialAnswer, answerOf, htable]
      exact Or.inr (fun _ hreturns => htable hreturns)
  | createTableAs replace k sql =>
    by_cases hnew : (replace || (s.lakehouse.table k).isNone) = true
    · simp only [machine, serial, serialAnswer, answerOf, if_pos hnew] at hreturns ⊢
      exact ⟨hreturns, trivial, trivial⟩
    · simp only [serial, serialAnswer, answerOf, hnew]
      refine Or.inr (fun _ hreturns => hnew ?_)
      rw [Bool.or_eq_true, Option.isNone_iff_eq_none]
      exact hreturns
  | recordObject row tags parents =>
    unfold serialAnswer
    cases hregistry : faults.registryDown with
    | false => exact ⟨trivial, trivial, hregistry⟩
    | true => exact Or.inl ⟨hregistry, hdown hregistry⟩
  | listTables ns =>
    refine ⟨trivial, fun l => ?_, trivial⟩
    rw [Lakehouse.table, Option.isSome_map, lookup_isSome_iff]
    simp
  | listNamespaces => exact ⟨trivial, List.Perm.refl _, trivial⟩
  | probeColumns tenant sql => exact ⟨trivial, rfl, trivial⟩
  | _ => exact ⟨hreturns, trivial, trivial⟩

variable {faults : Faults} {s : Stores} {α : Type}

/-- An idle call has no effect. -/
theorem idle_effect (c : Call) (hc : Idle c) (t : Stores) (r : Except PyError (Answer c)) :
    (serial faults).effect t ⟨c, r⟩ = t := hc.storesAfter_eq t r

/-- A call that can return and may not fail. -/
theorem ends_call {c : Call} (hreturns : ∃ a, Returns s c a) (hfails : ∀ e, ¬ faults.fails c e) :
    EndsIn (serial faults) s (call c) (fun u r =>
      (∃ a, r = .ok a ∧ Returns s c a ∧ Truthful s c a) ∧
        u = ⟨lakehouseAfter s.lakehouse c, registryAfter s.registry c⟩) := by
  obtain ⟨a, ha⟩ := hreturns
  refine EndsIn.perform (fun r hr => ?_)
  cases r with
  | ok a => exact ⟨⟨a, rfl, hr.1, hr.2.1⟩, rfl⟩
  | error e =>
    rcases hr with hfail | hno
    · exact (hfails e hfail).elim
    · exact (hno a ha).elim

/-- The rule for a call that can return and may not fail. -/
theorem ends_call_bind {c : Call} {f : Answer c → Tool α} {Q : Stores → Except PyError α → Prop}
    (hreturns : ∃ a, Returns s c a) (hfails : ∀ e, ¬ faults.fails c e)
    (hok : ∀ a, Returns s c a → Truthful s c a → EndsIn (serial faults)
      ⟨lakehouseAfter s.lakehouse c, registryAfter s.registry c⟩ (f a) Q) :
    EndsIn (serial faults) s (call c >>= f) Q := by
  refine (ends_call hreturns hfails).bind (fun u a hu => ?_) (fun _ _ hu => ?_)
  · obtain ⟨⟨_, ha, hreturned, htrue⟩, rfl⟩ := hu
    cases ha
    exact hok a hreturned htrue
  · obtain ⟨⟨_, he, _⟩, _⟩ := hu
    cases he

/-- The rule for an idle call that can return and may not fail. -/
theorem ends_idle_bind {c : Call} {f : Answer c → Tool α} {Q : Stores → Except PyError α → Prop}
    (hidle : Idle c) (hreturns : ∃ a, Returns s c a) (hfails : ∀ e, ¬ faults.fails c e)
    (hok : ∀ a, Returns s c a → Truthful s c a → EndsIn (serial faults) s (f a) Q) :
    EndsIn (serial faults) s (call c >>= f) Q := by
  refine ends_call_bind hreturns hfails (fun a ha htrue => ?_)
  have hsame : storesAfter s ⟨c, .ok a⟩ = s := hidle.storesAfter_eq s (.ok a)
  change EndsIn (serial faults) (storesAfter s ⟨c, .ok a⟩) (f a) Q
  rw [hsame]
  exact hok a ha htrue

/-- The listing of a namespace. -/
theorem listLabels_ends (tenant : String) :
    EndsIn (serial faults) s (listLabels tenant) (fun u r => u = s ∧ ∃ live, r = .ok live ∧
      ∀ l, l ∈ live ↔ (s.lakehouse.table (tenant, l)).isSome = true) := by
  refine (ends_call (c := .listTables tenant) ⟨[], trivial⟩ (fun _ => id)).tryCatch
    (fun u live hu => ?_) (fun u e hu => ?_)
  · obtain ⟨⟨_, hlive, _, htrue⟩, rfl⟩ := hu
    cases hlive
    exact ⟨rfl, live, rfl, htrue⟩
  · obtain ⟨⟨_, he, _⟩, _⟩ := hu
    cases he

/-- The namespaces of the catalog. -/
theorem listNamespaces_ends : EndsIn (serial faults) s listNamespaces (fun u r => u = s ∧
    ∃ namespaces, r = .ok namespaces ∧ ∀ ns ∈ s.lakehouse.namespaces, ns ∈ namespaces) := by
  refine ends_idle_bind trivial ⟨[], trivial⟩ (fun _ => id) (fun found _ hfound => ?_)
  refine .pure ⟨rfl, _, rfl, fun ns hns => ?_⟩
  refine List.mem_filterMap.mpr ⟨[ns], ?_, rfl⟩
  exact hfound.mem_iff.mpr (List.mem_map.mpr ⟨ns, hns, rfl⟩)

/-- A program of idle calls has no effect. -/
theorem ends_idle {p : Tool α} (hp : Only Idle p) :
    EndsIn (serial faults) s p (fun u _ => u = s) := hp.ends idle_effect

/-- The rule for `table_exists`. -/
theorem ends_tableExists_bind {k : Key} {f : Bool → Tool α} {Q : Stores → Except PyError α → Prop}
    (hok : EndsIn (serial faults) s (f (s.lakehouse.table k).isSome) Q) :
    EndsIn (serial faults) s (call (.tableExists k) >>= f) Q := by
  refine ends_idle_bind trivial ⟨_, rfl⟩ (fun _ => id) (fun exists_ hexists _ => ?_)
  obtain rfl : exists_ = (s.lakehouse.table k).isSome := hexists
  exact hok

/-- The rule for a call that loads a table. -/
theorem ends_loadTable_bind {k : Key} {t : LakeTable} {f : TableHandle → Tool α}
    {Q : Stores → Except PyError α → Prop} (ht : s.lakehouse.table k = some t)
    (hok : EndsIn (serial faults) s (f (handleOf k t)) Q) :
    EndsIn (serial faults) s (call (.loadTable k) >>= f) Q := by
  refine ends_idle_bind trivial ⟨_, t, ht, rfl⟩ (fun _ => id) (fun handle hhandle _ => ?_)
  obtain ⟨t', ht', rfl⟩ := hhandle
  rw [ht] at ht'
  cases ht'
  exact hok

/-- The schema of an existing table is loaded. -/
theorem loadSchema_ends {tenant label : String} {t : LakeTable}
    (ht : s.lakehouse.table (tenant, label) = some t) :
    EndsIn (serial faults) s (loadSchema tenant label) (fun u r => u = s ∧
      r = .ok (t.columns.map (fun column => ⟨column.1, Engines.typeText column.2⟩))) := by
  refine ends_tableExists_bind ?_
  rw [ht]
  exact ends_loadTable_bind ht (.pure ⟨rfl, rfl⟩)

/-- Counting rows never fails. -/
theorem rowCount_ends (tenant label : String) :
    EndsIn (serial faults) s (rowCount tenant label) (fun u r => u = s ∧ ∃ n, r = .ok n) := by
  have hcount : EndsIn (serial faults) s (call (.countRows (tenant, label)))
      (fun u _ => u = s) := ends_idle (Only.perform trivial)
  exact hcount.tryCatch (fun _ n hu => ⟨hu, n, rfl⟩) (fun _ _ hu => .pure ⟨hu, none, rfl⟩)

/-- The description of an object has the provenance of its row and the recorded parents. -/
structure Reports (R : Registry) (k : Key) (row : ObjectRow) (object : MemoryObject) : Prop where
  key : (object.tenant, object.label) = k
  source : object.source = row.source
  producingSql : object.producingSql = row.producingSql
  parents : object.parents = R.getParents k

/-- An object with a row and a table is described. -/
theorem describeRow_ends (settings : Settings) {tenant label : String}
    {found : ObjectRow × List String}
    (ht : (s.lakehouse.table (tenant, label)).isSome = true) :
    EndsIn (serial faults) s (describeRow settings tenant label (some found))
      (fun u r => u = s ∧
        ∃ object, r = .ok object ∧ Reports s.registry (tenant, label) found.1 object) := by
  obtain ⟨t, ht⟩ := Option.isSome_iff_exists.mp ht
  refine (loadSchema_ends ht).bind (fun u schema hu => ?_) (fun _ _ hu => nomatch hu.2)
  obtain ⟨rfl, _⟩ := hu
  refine ends_idle_bind trivial ⟨_, rfl⟩ (fun _ => id) (fun parents hparents _ => ?_)
  refine (rowCount_ends tenant label).bind (fun u n hu => ?_) (fun _ _ hu => nomatch hu.2)
  exact .pure ⟨hu.1, _, rfl, rfl, rfl, rfl, hparents⟩

/-- Describing an object with a row and a table changes nothing. -/
theorem describeObject_ends [Python] (settings : Settings) {tenant label name : String}
    {row : ObjectRow} (hlabel : validateLabel label = .ok name)
    (hrow : s.registry.row (tenant, name) = some row)
    (ht : (s.lakehouse.table (tenant, name)).isSome = true) :
    EndsIn (serial faults) s (describeObject settings tenant label)
      (fun u r => u = s ∧
        ∃ object, r = .ok object ∧ Reports s.registry (tenant, name) row object) := by
  refine EndsIn.lift_bind (fun name' hname => ?_) (fun _ he => ?_)
  · rw [hlabel] at hname
    cases hname
    refine ends_idle_bind trivial ⟨_, rfl⟩ (fun _ => id) (fun found hfound _ => ?_)
    obtain rfl : found = some (row, s.registry.tagsFor (tenant, name)) :=
      hfound.trans (Registry.getObject_of_row hrow)
    have hdescribe : EndsIn (serial faults) s (describeRow settings tenant name
        (some (row, s.registry.tagsFor (tenant, name)))) _ := describeRow_ends settings ht
    exact hdescribe
  · rw [hlabel] at he
    cases he

/-- Read-repair writes a reconciled row, when the object has a table. -/
theorem readRepair_ends (settings : Settings) (tenant label : String) :
    EndsIn (serial {}) s (readRepair settings tenant label) (fun u r =>
      if (s.lakehouse.table (tenant, label)).isSome then
        u = ⟨s.lakehouse, s.registry.recordObject (reconciledRow settings tenant label) [] none⟩ ∧
          ∃ tags, r = .ok (some (reconciledRow settings tenant label, tags))
      else u = s ∧ r = .ok none) := by
  refine ends_tableExists_bind ?_
  split
  · refine ends_call_bind ⟨⟨⟩, trivial⟩ (fun _ hfail => Bool.false_ne_true hfail.1)
      (fun _ _ _ => ?_)
    refine (ends_call (c := .getObject (tenant, label)) ⟨_, rfl⟩ (fun _ => id)).mono
      (fun u r hu => ?_)
    obtain ⟨⟨found, rfl, hfound, _⟩, rfl⟩ := hu
    have hrow : (s.registry.recordObject (reconciledRow settings tenant label) [] none).row
        (tenant, label) = some (reconciledRow settings tenant label) :=
      Registry.row_recordObject_self
    exact ⟨rfl, _, congrArg Except.ok (Eq.trans hfound (Registry.getObject_of_row hrow))⟩
  · exact .pure ⟨rfl, rfl⟩

/-- The response for a pending object changes nothing. -/
theorem pendingObject_ends {row : ObjectRow} {tags parents : List String}
    (ht : (s.lakehouse.table row.key).isSome = true) :
    EndsIn (serial faults) s (pendingObject row tags parents)
      (fun u r => u = s ∧ ∃ object, r = .ok object) := by
  obtain ⟨t, ht⟩ := Option.isSome_iff_exists.mp ht
  refine (loadSchema_ends ht).bind (fun u schema hu => ?_) (fun _ _ hu => nomatch hu.2)
  obtain ⟨rfl, _⟩ := hu
  refine (rowCount_ends row.tenant row.label).bind (fun u n hu => ?_) (fun _ _ hu => nomatch hu.2)
  exact .pure ⟨hu.1, _, rfl⟩

/-- The stores after a guarded record. -/
def Stores.record (faults : Faults) (s : Stores) (row : ObjectRow) (tags : List String)
    (parents : Option (List String)) : Stores :=
  if faults.registryDown then s
  else { s with registry := s.registry.recordObject row tags parents }

omit [Engines] [Backend] in
/-- A record leaves the catalog alone. -/
@[simp] theorem Stores.lakehouse_record (row : ObjectRow) (tags : List String)
    (parents : Option (List String)) :
    (s.record faults row tags parents).lakehouse = s.lakehouse := by
  unfold Stores.record
  split <;> rfl

/-- A guarded record does not fail. -/
theorem recordObjectGuarded_ends (row : ObjectRow) (tags : List String)
    (parents : Option (List String)) :
    EndsIn (serial faults) s (recordObjectGuarded row tags parents)
      (fun u r => u = s.record faults row tags parents ∧ r = .ok (!faults.registryDown)) := by
  refine ends_idle_bind trivial ⟨⟨⟩, trivial⟩ (fun _ => id) (fun _ _ _ => ?_)
  have hrecord : EndsIn (serial faults) s (do
      call (.recordObject row tags parents)
      return true) (fun u r =>
        (∀ ok, r = .ok ok → u = s.record faults row tags parents ∧ ok = !faults.registryDown) ∧
        ∀ e, r = .error e →
          u = s ∧ faults.registryDown = true ∧ Backend.isConnectionDown e = true) := by
    refine EndsIn.perform_bind (fun _ hpossible => .pure ?_) (fun e hpossible => ?_)
    · have hup : faults.registryDown = false := hpossible.2.2
      simp only [Stores.record, hup]
      refine ⟨?_, fun _ he => nomatch he⟩
      rintro _ ⟨⟩
      exact ⟨rfl, rfl⟩
    · refine ⟨fun _ hok => (nomatch hok), ?_⟩
      rintro _ ⟨⟩
      rcases hpossible with hdown | hno
      · exact ⟨rfl, hdown⟩
      · exact (hno ⟨⟩ trivial).elim
  refine hrecord.tryCatch (fun u ok hu => ?_) (fun u e hu => ?_)
  · obtain ⟨hlater, hok⟩ := hu.1 ok rfl
    exact ⟨hlater, congrArg _ hok⟩
  obtain ⟨rfl, hdown, he⟩ := hu.2 e rfl
  rw [if_pos he]
  refine .pure ⟨?_, ?_⟩
  · simp [Stores.record, hdown]
  · rw [hdown]
    rfl

/-- What a tool does after its data: it records, and describes the object. -/
theorem recordAndDescribe_ends [Python] (settings : Settings) (row : ObjectRow)
    {tags pendingParents : List String} {parents : Option (List String)}
    (hlabel : validateLabel row.label = .ok row.label)
    (ht : (s.lakehouse.table row.key).isSome = true) :
    EndsIn (serial faults) s (do
      let ok ← recordObjectGuarded row tags parents
      if ok then describeObject settings row.tenant row.label
      else pendingObject row tags pendingParents)
      (fun u r => u = s.record faults row tags parents ∧ ∃ object, r = .ok object) := by
  refine (recordObjectGuarded_ends row tags parents).bind (fun u ok hu => ?_)
    (fun _ _ hu => nomatch hu.2)
  obtain ⟨rfl, hok⟩ := hu
  cases hok
  cases hdown : faults.registryDown with
  | true =>
    simp only [Stores.record, hdown]
    exact pendingObject_ends ht
  | false =>
    simp only [Stores.record, hdown]
    have hrow : (s.registry.recordObject row tags parents).row row.key = some row :=
      Registry.row_recordObject_self
    have hdescribe : EndsIn (serial faults)
        ⟨s.lakehouse, s.registry.recordObject row tags parents⟩
        (describeObject settings row.tenant row.label) _ :=
      describeObject_ends settings hlabel hrow ht
    refine hdescribe.mono (fun u r hu => ?_)
    obtain ⟨hsame, object, hobject, _⟩ := hu
    exact ⟨hsame, object, hobject⟩

end Memcove
