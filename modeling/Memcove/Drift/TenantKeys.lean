import Memcove.Drift.Isolation
import Memcove.Drift.Racing
import Memcove.Flight.Authority

/-!
# Whose rows the registry holds

Every request goes through the tenancy seam before it records a row. The reconciler does not: it
takes the namespaces of the catalog as they are, so that a sweep records the tables of a namespace
that is no tenant's, such as a shared reference schema, under that namespace.
-/

namespace Memcove

open Programs KeyedTables

section

variable [Python] {settings : Settings}

/-- A tenant namespace: `normalize_tenant` leaves it as it is. -/
def TenantKey (settings : Settings) (ns : String) : Prop :=
  normalizeTenant settings (some ns) = .ok ns

/-- These are the namespaces that `normalize_tenant` returns. -/
theorem tenantKey_iff {ns : String} : TenantKey settings ns ↔ IsNamespace ns :=
  ⟨normalizeTenant_ok, normalizeTenant_namespace⟩

/-- A tenant namespace that is not one of the shared reference schemas. -/
def Sweepable (settings : Settings) (ns : String) : Prop :=
  TenantKey settings ns ∧ ns ∉ sharedNames settings.sharedSchemas

/-- A command acts for a tenant namespace. -/
theorem tenantKey_of_command {cmd : Fields} {tenant : String}
    (h : commandTenant settings cmd = .ok tenant) : TenantKey settings tenant := by
  refine tenantKey_iff.mpr ?_
  unfold commandTenant at h
  split at h
  · exact normalizeTenant_ok h
  · split at h
    · cases h
    · exact normalizeTenant_ok h

/-- A request acts for a tenant namespace. -/
theorem tenantKey_of_caller [Sha256] {caller : Caller} {tenant : String}
    (h : callerTenant settings caller = .ok tenant) : TenantKey settings tenant :=
  tenantKey_iff.mpr (callerTenant_ok h)

variable [Orjson] [Hmac]

/-- An upload is for a tenant namespace. -/
theorem tenantKey_of_doPutTarget {now : Int} {raw : Bytes} {tenant name : String} {mode : Json}
    (h : doPutTarget settings now raw = .ok (tenant, name, mode)) : TenantKey settings tenant := by
  obtain ⟨cmd, hverify, _⟩ := bind_eq_ok h
  exact tenantKey_of_command (doPutTarget_ok hverify h).2.1

/-- The tenant of the operation is one that the request context or the ticket resolves to. -/
def Operation.Admitted [Sha256] (settings : Settings) : Operation → Prop
  | ingest tenant .. | derive tenant .. | describe tenant _ | drop tenant _ =>
    ∃ caller, callerTenant settings caller = .ok tenant
  | put _ target _ => ∃ now raw, target = doPutTarget settings now raw
  | sweep => True

end

section

variable {P : String → Prop}

/-- The row that the call is to record, if it is to, has a tenant of the given kind. -/
def RecordsFor (P : String → Prop) (c : Call) : Prop :=
  match c with
  | .recordObject row _ _ => P row.tenant
  | _ => True

/-- A call that writes nothing to the registry records nothing. -/
theorem Plain.recordsFor {c : Call} (hc : Plain c) : RecordsFor P c := by
  cases c with
  | recordObject row tags parents => exact hc.elim
  | _ => trivial

/-- A row that such a call has recorded. -/
theorem recordsFor_recorded {event : CallEvent} (hevent : RecordsFor P event.call)
    {row : ObjectRow} (hrow : recorded event = some row) : P row.tenant := by
  obtain ⟨c, r⟩ := event
  cases c with
  | recordObject new tags parents =>
    cases r with
    | error e => cases hrow
    | ok a =>
      cases hrow
      exact hevent
  | _ => cases hrow

/-- An idle call records nothing. -/
theorem Idle.recordsFor {c : Call} (hc : Idle c) : RecordsFor P c := hc.quiet.plain.recordsFor

variable [Python] [Engines] (settings : Settings) {tenant : String}

/-- Describing records a row of the tenant at most. -/
theorem describeObject_recordsFor (htenant : P tenant) (label : String) :
    Only (RecordsFor P) (describeObject settings tenant label) :=
  describeObject_only settings tenant label (fun _ => Idle.recordsFor) (fun _ => htenant)

omit [Engines] in
/-- Forgetting records nothing. -/
theorem dropObject_recordsFor (label : String) :
    Only (RecordsFor P) (dropObject tenant label) := by
  have hcall (c : Call) (hc : RecordsFor P c) : Only (RecordsFor P) (call c) := Only.perform hc
  refine Only.bind Only.lift (fun label => ?_)
  refine Only.bind ?_ (fun _ => Only.bind (hcall _ trivial) (fun _ => trivial))
  refine Only.bind (hcall _ trivial) (fun exists_ => ?_)
  split
  · exact hcall _ trivial
  · trivial

variable [Backend]

/-- What a producer does after its data records rows of the tenant. -/
theorem recordAndDescribe_recordsFor (row : ObjectRow) (hrow : P row.tenant) (tags : List String)
    (parents : Option (List String)) (shown : List String) : Only (RecordsFor P) (do
      let ok ← recordObjectGuarded row tags parents
      if ok then describeObject settings row.tenant row.label
      else pendingObject row tags shown) :=
  recordAndDescribe_only settings row tags parents shown (fun _ => Idle.recordsFor) hrow
    (fun _ => hrow)

/-- An ingest records rows of its tenant. -/
theorem ingestObject_recordsFor (htenant : P tenant) (label : String)
    (source : PyM ResolvedSource) (mode : String) (tags : Option (List String)) (target : String) :
    Only (RecordsFor P) (ingestObject settings tenant label source mode tags target) := by
  refine Only.bind Only.lift (fun label => ?_)
  split
  · trivial
  · refine Only.bind Only.lift (fun resolved => ?_)
    split
    · exact (ingestToScratch_idle _ _ _ _ _ _).mono (fun _ => Idle.recordsFor)
    · refine Only.bind ((writeArrow_plain _ _ _ _).mono (fun _ => Plain.recordsFor)) (fun _ => ?_)
      exact recordAndDescribe_recordsFor settings
        (ingestRow settings tenant label resolved.kind resolved.ref) htenant _ none []

/-- A derive records rows of its tenant. -/
theorem deriveObject_recordsFor [Sqlglot] (htenant : P tenant) (newLabel sql mode : String)
    (tags : Option (List String)) (target : String) :
    Only (RecordsFor P) (deriveObject settings tenant newLabel sql mode tags target) := by
  have hexists (label : String) : Only (RecordsFor P) (tableExists tenant label) :=
    Only.perform trivial
  refine Only.bind Only.lift (fun newLabel => ?_)
  split
  · trivial
  · split
    · trivial
    · generalize validateSelect (deriveParams settings tenant) sql = result
      refine Only.bind Only.lift (fun guarded => ?_)
      split
      · exact (deriveToScratch_idle _ _ _ _ _).mono (fun _ => Idle.recordsFor)
      · refine Only.bind (hexists newLabel) (fun exists_ => ?_)
        refine Only.bind ((checkDerive_idle _ _ _ _ _).mono (fun _ => Idle.recordsFor))
          (fun _ => ?_)
        refine Only.bind (Only.perform trivial) (fun _ => ?_)
        refine Only.bind (Only.perform trivial) (fun _ => ?_)
        refine Only.bind (Only.select (fun label _ => hexists label)) (fun parents => ?_)
        exact recordAndDescribe_recordsFor settings
          (deriveRow settings tenant newLabel guarded.sql) htenant _ (some parents) parents

omit [Engines] in
/-- An upload records a row of its tenant. -/
theorem doPut_recordsFor {schema : Columns} {target : PyM (String × String × Json)}
    (htarget : ∀ tenant name mode, target = .ok (tenant, name, mode) → P tenant)
    (chunks : List (Option (Batch schema))) :
    Only (RecordsFor P) (doPut settings target chunks) := by
  cases target with
  | error e => trivial
  | ok t =>
    obtain ⟨tenant, name, mode⟩ := t
    have hdata := (putData_plain settings tenant name mode chunks).mono
      (fun _ => Plain.recordsFor (P := P))
    have hrecord : Only (RecordsFor P)
        (recordObjectGuarded (streamRow settings tenant name) [] none) :=
      recordObjectGuarded_only trivial (htarget tenant name mode rfl)
    change Only (RecordsFor P) (do
      let _ ← putData settings tenant name mode chunks
      let _ ← recordObjectGuarded (streamRow settings tenant name) [] none
      return PUnit.unit)
    exact Only.bind hdata (fun _ => Only.bind hrecord (fun _ => trivial))

end

/-- The namespace in which the call has listed tables. -/
def listedIn : CallEvent → Option String
  | ⟨.listTables ns, .ok labels⟩ => if labels = [] then none else some ns
  | _ => none

/-- Rows are recorded for tenants of the given kind only. A sweep relies on being shown the tables
of such tenants only. -/
def tenantRows (sweeping : Bool) (P : String → Prop) : Contract Call Answer PyError where
  guarantee _ c := RecordsFor P c
  assume _ event := sweeping = true → ∀ ns ∈ listedIn event, P ns

section

variable {P : String → Prop} {settings : Settings}

/-- A program that records such rows alone keeps the contract. -/
theorem sat_of_recordsFor {b : Bool} {α : Type} {p : Tool α} {h : List CallEvent}
    (hp : Only (RecordsFor P) p) : Sat (tenantRows b P) (fun _ _ => True) h p :=
  hp.sat (I := fun _ => True) (fun _ _ _ hc => hc) (fun _ _ _ _ _ => trivial) trivial

/-- A plan without a backfill records nothing. -/
theorem applyPlan_recordsFor {tenant : String} {plan : NamespacePlan}
    (hplan : plan.backfill ≠ [] → P tenant) :
    Only (RecordsFor P) (applyPlan settings tenant plan) :=
  applyPlan_only (fun _ hl => hplan (List.ne_nil_of_mem hl)) (fun _ => trivial) (fun _ => trivial)
    (fun _ => trivial) (fun _ => trivial)

/-- The sweep of a namespace records rows only when tables were listed in it. -/
theorem sweepNamespace_tenantRows (tenant : String) (h : List CallEvent) :
    Sat (tenantRows true P) (fun _ _ => True) h (sweepNamespace settings tenant) := by
  have hlist : Sat (tenantRows true P) (fun _ r => ∀ live, r = .ok live → live ≠ [] → P tenant) h
      (listLabels tenant) := by
    refine Sat.tryCatch (Ψ := fun _ r => ∀ live, r = .ok live → live ≠ [] → P tenant)
      (Sat.perform trivial (fun r hr => ?_)) (fun _ _ hlive => hlive) (fun _ _ _ => ?_)
    · cases r with
      | ok labels =>
        rintro _ ⟨⟩ hne
        exact hr rfl tenant (if_neg hne)
      | error e => exact fun _ hlive => nomatch hlive
    · rintro _ ⟨⟩ hne
      exact absurd rfl hne
  refine hlist.bind (fun h live hlive => ?_) (fun _ _ _ => trivial)
  refine Sat.perform_bind trivial (fun reg _ => ?_) (fun _ _ => trivial)
  refine Sat.perform_bind trivial (fun tombstones _ => ?_) (fun _ _ => trivial)
  refine sat_of_recordsFor (applyPlan_recordsFor (fun hplan => hlive live rfl ?_))
  obtain ⟨l, hl⟩ := List.exists_mem_of_ne_nil _ hplan
  exact List.ne_nil_of_mem (mem_backfill.mp hl).1

/-- The reconciler keeps the contract. -/
theorem reconcile_tenantRows (h : List CallEvent) :
    Sat (tenantRows true P) (fun _ _ => True) h (reconcile settings) := by
  have hlist : Only (RecordsFor P) listNamespaces :=
    Only.bind (Only.perform trivial) (fun _ => trivial)
  refine (sat_of_recordsFor hlist).bind (fun h namespaces _ => ?_) (fun _ _ _ => trivial)
  refine Sat.each (I := fun _ _ => True) (fun tenant _ h _ => ?_) (fun _ _ => trivial) trivial
  exact (sweepNamespace_tenantRows tenant h).tryCatch (fun _ _ _ => trivial)
    (fun _ _ _ => trivial)

end

section

variable [Python] [Engines] {settings : Settings}

/-- The tenants whose rows an operation may record. -/
def Operation.records (settings : Settings) (op : Operation) : String → Prop :=
  if op.isSweep = true then Sweepable settings else TenantKey settings

omit [Engines] in
/-- They are tenant namespaces. -/
theorem Operation.records_tenantKey {op : Operation} {ns : String}
    (h : op.records settings ns) : TenantKey settings ns := by
  unfold Operation.records at h
  split at h
  · exact h.1
  · exact h

/-- An admitted operation records rows of tenant namespaces only, and a sweep no shared tables. -/
theorem operation_tenantRows [Backend] [Sqlglot] [Sha256] [Orjson] [Hmac] {op : Operation}
    (hop : op.Admitted settings) :
    Sat (tenantRows op.isSweep (op.records settings)) (fun _ _ => True) []
      (op.program settings) := by
  have hdone {b : Bool} {P : String → Prop} {α : Type} {p : Tool α} (hp : Only (RecordsFor P) p) :
      Sat (tenantRows b P) (fun _ _ => True) [] (do let _ ← p) :=
    sat_of_recordsFor (Only.bind hp (fun _ => trivial))
  cases op with
  | ingest tenant label source mode tags target =>
    obtain ⟨caller, hcaller⟩ := hop
    exact hdone (ingestObject_recordsFor settings (tenantKey_of_caller hcaller) ..)
  | derive tenant newLabel sql mode tags target =>
    obtain ⟨caller, hcaller⟩ := hop
    exact hdone (deriveObject_recordsFor settings (tenantKey_of_caller hcaller) ..)
  | put schema target chunks =>
    obtain ⟨now, raw, rfl⟩ := hop
    refine sat_of_recordsFor (doPut_recordsFor settings (fun tenant name mode htarget => ?_) chunks)
    exact tenantKey_of_doPutTarget htarget
  | describe tenant label =>
    obtain ⟨caller, hcaller⟩ := hop
    exact hdone (describeObject_recordsFor settings (tenantKey_of_caller hcaller) label)
  | drop tenant label => exact hdone (dropObject_recordsFor label)
  | sweep => exact reconcile_tenantRows []

omit [Python] in
/-- A row that is in the registry after a call was there before, or has been recorded by it. -/
theorem mem_objects_storesAfter {s : Stores} {event : CallEvent} {row : ObjectRow}
    (h : row ∈ (storesAfter s event).registry.objects) :
    row ∈ s.registry.objects ∨ recorded event = some row := by
  obtain ⟨c, r⟩ := event
  cases r with
  | error e => exact Or.inl h
  | ok a =>
    cases c with
    | recordObject new tags parents =>
      change row ∈ (s.registry.recordObject new tags parents).objects at h
      rw [Registry.objects_recordObject] at h
      rcases mem_upsert h with hold | rfl | ⟨_, _, _, rfl⟩
      · exact Or.inl hold
      · exact Or.inr rfl
      · exact Or.inr rfl
    | deleteObject k => exact Or.inl (List.mem_of_mem_filter h)
    | _ => exact Or.inl h

omit [Python] in
/-- The rows after a log are rows from before it and rows that its calls recorded. -/
theorem mem_objects_after {ι : Type} {s : Stores} {log : Log Call Answer PyError ι}
    {row : ObjectRow} (h : row ∈ (machine.after s log).registry.objects) :
    row ∈ s.registry.objects ∨ ∃ entry ∈ log, recorded entry.2 = some row := by
  induction log with
  | nil => exact Or.inl h
  | cons entry log ih =>
    rcases mem_objects_storesAfter h with h | h
    · rcases ih h with h | ⟨old, hold, hrecorded⟩
      · exact Or.inl h
      · exact Or.inr ⟨old, List.mem_cons_of_mem entry hold, hrecorded⟩
    · exact Or.inr ⟨entry, List.mem_cons_self, h⟩

section

variable [Backend] [Sqlglot] [Sha256] [Orjson] [Hmac] {ι : Type} [DecidableEq ι]
  {ops : ι → Operation} {s : Stores} {log : Log Call Answer PyError ι} {threads : ι → Tool Unit}

/-- Every row that an operation of the run records is one that it may record. -/
theorem records_of_run (hops : ∀ i, (ops i).Admitted settings)
    (hrun : Run machine (fun i => (ops i).program settings) s log threads)
    (hlisted : ∀ entry ∈ log, (ops entry.1).isSweep = true →
      ∀ ns ∈ listedIn entry.2, Sweepable settings ns) :
    ∀ entry ∈ log, ∀ row ∈ recorded entry.2, (ops entry.1).records settings row.tenant := by
  let K (i : ι) := tenantRows (ops i).isSweep ((ops i).records settings)
  have hassume : Along (fun older entry => (K entry.1).assume (history entry.1 older) entry.2)
      log := by
    refine along_iff_forall.mpr (fun entry hentry hsweep ns hns => ?_)
    rw [Operation.records, if_pos hsweep]
    exact hlisted entry hentry hsweep ns hns
  have hguarantees := (hrun.sat (K := K) (fun i => operation_tenantRows (hops i))
    (hassume.imp (fun _ _ h _ => h.1))).2
  intro entry hentry row hrow
  have hcall := along_iff_forall.mp hguarantees entry hentry
  exact recordsFor_recorded hcall hrow

/-- When every sweep is shown the tables of tenants only, and none of a shared reference schema,
every row is one of a tenant, and no sweep records a shared table. -/
theorem rows_tenantKeys (hops : ∀ i, (ops i).Admitted settings)
    (hrows : ∀ row ∈ s.registry.objects, TenantKey settings row.tenant)
    (hrun : Run machine (fun i => (ops i).program settings) s log threads)
    (hlisted : ∀ entry ∈ log, (ops entry.1).isSweep = true →
      ∀ ns ∈ listedIn entry.2, Sweepable settings ns) :
    (∀ row ∈ (machine.after s log).registry.objects, TenantKey settings row.tenant) ∧
      ∀ entry ∈ log, (ops entry.1).isSweep = true → ∀ row ∈ recorded entry.2,
        row.tenant ∉ sharedNames settings.sharedSchemas := by
  have hrecords := records_of_run hops hrun hlisted
  refine ⟨fun row hrow => ?_, fun entry hentry hsweep row hrow => ?_⟩
  · rcases mem_objects_after hrow with hold | ⟨entry, hentry, hrecorded⟩
    · exact hrows row hold
    · exact Operation.records_tenantKey (hrecords entry hentry row hrecorded)
  · have hsweepable := hrecords entry hentry row hrow
    rw [Operation.records, if_pos hsweep] at hsweepable
    exact hsweepable.2

end

end

section

variable [Engines] [Backend] {settings : Settings} {s t : Stores}

omit [Engines] [Backend] in
/-- The labels with a row after the sweep of their namespace: those with a table, and otherwise
some of those with a row before it. -/
theorem AfterSweep.row {tenant l : String} (h : AfterSweep settings s tenant t) :
    ((s.lakehouse.table (tenant, l)).isSome = true →
        (t.registry.row (tenant, l)).isSome = true) ∧
      ((t.registry.row (tenant, l)).isSome = true → (s.registry.row (tenant, l)).isSome = true ∨
        (s.lakehouse.table (tenant, l)).isSome = true) := by
  obtain ⟨plan, hplan, hsame⟩ := h
  have hrow : t.registry.row (tenant, l) = _ :=
    (hsame.row l).symm.trans (row_applied hplan.nodups (tenant, l))
  obtain ⟨live, reg, counts, hlive, hreg, _, rfl⟩ := hplan
  rw [hrow]
  by_cases hdelete : l ∈ (planNamespace settings live reg counts).delete
  · rw [if_pos ⟨rfl, hdelete⟩]
    have hnot := (mem_absent (Or.inl hdelete)).2.1
    exact ⟨fun htable => absurd ((hlive l).mpr htable) hnot, fun h => nomatch h⟩
  · rw [if_neg (fun h => hdelete h.2)]
    by_cases hbackfill : l ∈ (planNamespace settings live reg counts).backfill
    · rw [if_pos ⟨rfl, hbackfill⟩]
      exact ⟨fun _ => rfl, fun _ => Or.inr ((hlive l).mp (mem_backfill.mp hbackfill).1)⟩
    · rw [if_neg (fun h => hbackfill h.2)]
      refine ⟨fun htable => (hreg l).mp ?_, Or.inl⟩
      by_contra hnot
      exact hbackfill (mem_backfill.mpr ⟨(hlive l).mpr htable, hnot⟩)

/-- A sweep in which nothing fails leaves rows of tenants only exactly when every namespace of the
catalog that has a table is a tenant's. -/
theorem reconcile_tenantKeys_iff [Python] (hs : s.Distinct)
    (hnamespaces : ∀ k, (s.lakehouse.table k).isSome = true → k.1 ∈ s.lakehouse.namespaces)
    (hrows : ∀ row ∈ s.registry.objects, TenantKey settings row.tenant)
    {r : Except PyError PUnit} (hrun : Completes (failing ∅) s (reconcile settings) r t) :
    (∀ row ∈ t.registry.objects, TenantKey settings row.tenant) ↔
      ∀ k, (s.lakehouse.table k).isSome = true → TenantKey settings k.1 := by
  have hreconciled (tenant : String) : Reconciled settings s tenant [] t :=
    (reconcile_reconciled (Set.notMem_empty tenant) hs).completes hrun
  have hold (k : Key) (hk : (s.registry.row k).isSome = true) : TenantKey settings k.1 := by
    obtain ⟨row, hrow, rfl⟩ := lookup_isSome_iff.mp hk
    exact hrows row hrow
  constructor
  · rintro hall ⟨ns, l⟩ htable
    have hswept := (hreconciled ns).swept List.not_mem_nil (hnamespaces _ htable)
    obtain ⟨row, hrow, hkey⟩ := lookup_isSome_iff.mp (hswept.row.1 htable)
    have htenant : row.tenant = ns := congrArg Prod.fst hkey
    exact htenant ▸ hall row hrow
  · intro hall row hrow
    have hfound : (t.registry.row (row.tenant, row.label)).isSome = true :=
      lookup_isSome_iff.mpr ⟨row, hrow, rfl⟩
    by_cases hlisted : row.tenant ∈ s.lakehouse.namespaces
    · have hswept := (hreconciled row.tenant).swept List.not_mem_nil hlisted
      exact (hswept.row.2 hfound).elim (hold (row.tenant, row.label)) (hall (row.tenant, row.label))
    · have hsame := (hreconciled row.tenant).unswept (Or.inr hlisted)
      rw [← hsame.row] at hfound
      exact hold (row.tenant, row.label) hfound

end

section

attribute [local instance] asciiPython eventsSqlglot textEngines externalBackend constantSha256
  plainOrjson plainHmac

/-- A catalog with a shared reference schema and nothing registered. -/
def referenceStores : Stores where
  lakehouse := {
    namespaces := ["ref_market"]
    tables := [(("ref_market", "prices"), ⟨0, [("v", .string true)], []⟩)] }

/-- One sweep of that catalog, the only operation of its run. -/
def referenceSweep : Log Call Answer PyError Unit × (Unit → Tool Unit) :=
  play machine answerOf referenceStores (List.replicate 5 ((), none)) []
    (fun _ => Operation.sweep.program {})

/-- The sweep records the reference table under the shared schema, which is no tenant. -/
theorem reference_recorded :
    ¬ ∀ (settings : Settings) (ops : Unit → Operation) (s : Stores)
        (log : Log Call Answer PyError Unit) (threads : Unit → Tool Unit),
      (∀ i, (ops i).Admitted settings) →
      (∀ row ∈ s.registry.objects, TenantKey settings row.tenant) →
      Run machine (fun i => (ops i).program settings) s log threads →
      (∀ row ∈ (machine.after s log).registry.objects, TenantKey settings row.tenant) ∧
        ∀ entry ∈ log, (ops entry.1).isSweep = true → ∀ row ∈ recorded entry.2,
          row.tenant ∉ sharedNames settings.sharedSchemas := by
  intro h
  have hrun : Run machine (fun _ => Operation.sweep.program {}) referenceStores referenceSweep.1
      referenceSweep.2 := play_run answerOf_possible (fun _ _ _ => trivial) .start
  have hempty : ∀ row ∈ referenceStores.registry.objects, TenantKey {} row.tenant :=
    fun _ hrow => (List.not_mem_nil hrow).elim
  obtain ⟨hrows, -⟩ := h {} (fun _ => .sweep) _ _ _ (fun _ => trivial) hempty hrun
  have hrow := hrows (reconciledRow {} "ref_market" "prices") (by decide +kernel)
  have hnormal : normalizeTenant {} (some "ref_market") = .ok "t_ref_market" := rfl
  exact absurd (Except.ok.inj (hnormal.symm.trans hrow)) (by decide)

/-- `events` is ingested (`0`) and the catalog swept (`1`). -/
def sweptIngest : Fin 2 → Operation
  | 0 => ingestEvents ["a"] "create" []
  | 1 => .sweep

/-- A sweep after an ingest is shown the tables of the tenant alone. -/
theorem sweptIngest_tenantKeys :
    (∀ row ∈ (machine.after {} (playOps sweptIngest
        (List.replicate 6 0 ++ List.replicate 4 1)).1).registry.objects,
      TenantKey {} row.tenant) ∧
      ∀ entry ∈ (playOps sweptIngest (List.replicate 6 0 ++ List.replicate 4 1)).1,
        (sweptIngest entry.1).isSweep = true → ∀ row ∈ recorded entry.2,
          row.tenant ∉ sharedNames ({} : Settings).sharedSchemas := by
  have hshown : ∀ entry ∈ (playOps sweptIngest (List.replicate 6 0 ++ List.replicate 4 1)).1,
      ∀ ns ∈ listedIn entry.2, ns = "t_acme" := by decide +kernel
  refine rows_tenantKeys (fun i => ?_) (fun _ hrow => nomatch hrow)
    (playOps_run sweptIngest _) (fun entry hentry _ ns hns => ?_)
  · match i with
    | 0 => exact ⟨acmeCaller, rfl⟩
    | 1 => exact trivial
  · rw [hshown entry hentry ns hns]
    exact ⟨rfl, by decide⟩

end

end Memcove
