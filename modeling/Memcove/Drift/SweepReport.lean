import Memcove.Lib.Notes
import Memcove.Drift.Operations

/-!
# The report of a sweep

`reconcile` fills in a `SweepReport` while it works, and the report outlives the exceptions of
single namespaces. Without the report it is the reconciler. Whatever the calls of a sweep answer,
the report tells what was backfilled, and of what was deleted in a namespace all rows, or all but
one at most when the namespace failed.
-/

namespace Memcove

open Programs

/-- What is appended to a report. -/
inductive ReportEntry where
  | backfilled (k : Key)
  | deleted (k : Key)
  | skipped (tenant : String)
  | capped (tenant : String)
  | errored (tenant : String)
  deriving DecidableEq

/-- A program that fills in a report. -/
abbrev ReportTool (α : Type) := NotedProgram Call Answer ReportEntry PyError α

/-- A call of such a program, or an entry, with its answer. -/
abbrev ReportEvent := Programs.Event (Noted Call ReportEntry) (Noted.Answer Answer) PyError

/-- `SweepReport`. -/
structure SweepReport where
  backfilled : List Key
  deleted : List Key
  skippedNamespaces : List String
  cappedNamespaces : List String
  erroredNamespaces : List String
  deriving DecidableEq

namespace ReportEntry

/-- The key of a backfilled row. -/
def backfilled? : ReportEntry → Option Key
  | backfilled k => some k
  | _ => none

/-- The key of a deleted row. -/
def deleted? : ReportEntry → Option Key
  | deleted k => some k
  | _ => none

/-- A namespace whose listing was not trusted. -/
def skipped? : ReportEntry → Option String
  | skipped tenant => some tenant
  | _ => none

/-- A namespace over the deletion cap. -/
def capped? : ReportEntry → Option String
  | capped tenant => some tenant
  | _ => none

/-- A namespace that failed. -/
def errored? : ReportEntry → Option String
  | errored tenant => some tenant
  | _ => none

end ReportEntry

/-- An entry that was appended. -/
def ReportEvent.entry? : ReportEvent → Option ReportEntry
  | ⟨.note entry, _⟩ => some entry
  | ⟨.call _, _⟩ => none

/-- The report after a history. -/
def SweepReport.of (h : List ReportEvent) : SweepReport :=
  let entries := h.reverse.filterMap ReportEvent.entry?
  { backfilled := entries.filterMap ReportEntry.backfilled?
    deleted := entries.filterMap ReportEntry.deleted?
    skippedNamespaces := entries.filterMap ReportEntry.skipped?
    cappedNamespaces := entries.filterMap ReportEntry.capped?
    erroredNamespaces := entries.filterMap ReportEntry.errored? }

/-- One label of the delete phase. -/
def deleteAbsentReport (tenant label : String) : ReportTool PUnit := do
  let exists_ ← (tableExists tenant label).silent
  if exists_ then (call (.clearTombstone (tenant, label))).silent
  else do
    let _ ← (call (.deleteObject (tenant, label))).silent
    let _ ← (call (.clearTombstone (tenant, label))).silent
    note (.deleted (tenant, label))

/-- `apply_plan`. -/
def applyPlanReport (settings : Settings) (tenant : String) (plan : NamespacePlan) :
    ReportTool PUnit := do
  Program.each (fun label => do
    let _ ← (backfill settings tenant label).silent
    note (.backfilled (tenant, label))) plan.backfill
  Program.each (fun label => (call (.clearTombstone (tenant, label))).silent) plan.tombstoneClear
  Program.each (fun label => (call (.bumpTombstone (tenant, label))).silent) plan.tombstoneBump
  Program.each (deleteAbsentReport tenant) plan.delete
  noteIf plan.skipped (.skipped tenant)
  noteIf plan.capped (.capped tenant)

/-- The sweep of one namespace. -/
def sweepNamespaceReport (settings : Settings) (tenant : String) : ReportTool PUnit := do
  let live ← (listLabels tenant).silent
  let reg ← (call (.labelsForTenant tenant)).silent
  let tombstones ← (call (.tombstonesForTenant tenant)).silent
  applyPlanReport settings tenant (planNamespace settings live reg tombstones)

/-- `reconcile`. -/
def reconcileReport (settings : Settings) : ReportTool PUnit := do
  let namespaces ← listNamespaces.silent
  Program.each (fun tenant =>
    Program.tryCatch (sweepNamespaceReport settings tenant) (fun _ => note (.errored tenant)))
    namespaces

/-- One label of the delete phase. -/
theorem deleteAbsentReport_withoutNotes (tenant label : String) :
    (deleteAbsentReport tenant label).withoutNotes = deleteAbsent tenant label := by
  unfold deleteAbsentReport deleteAbsent
  rw [withoutNotes_bind, withoutNotes_silent]
  refine congrArg _ (funext fun exists_ => ?_)
  cases exists_ with
  | true => exact withoutNotes_silent _
  | false =>
    refine (withoutNotes_bind _ _).trans (congrArg₂ _ (withoutNotes_silent _) (funext fun _ => ?_))
    exact (withoutNotes_bind _ _).trans ((congrArg₂ _ (withoutNotes_silent _) rfl).trans
      (bind_pure _))

/-- A plan. -/
theorem applyPlanReport_withoutNotes (settings : Settings) (tenant : String)
    (plan : NamespacePlan) :
    (applyPlanReport settings tenant plan).withoutNotes = applyPlan settings tenant plan := by
  have hbackfill (label : String) : (do
      let _ ← (backfill settings tenant label).silent
      note (.backfilled (tenant, label)) : ReportTool PUnit).withoutNotes =
        backfill settings tenant label := by
    rw [withoutNotes_bind, withoutNotes_silent]
    exact bind_pure _
  unfold applyPlanReport applyPlan
  simp only [withoutNotes_bind, withoutNotes_each, hbackfill, withoutNotes_silent,
    deleteAbsentReport_withoutNotes, withoutNotes_noteIf]
  refine congrArg _ (funext fun _ => congrArg _ (funext fun _ => congrArg _ (funext fun _ => ?_)))
  exact bind_pure (Program.each (deleteAbsent tenant) plan.delete)

/-- Without its report `reconcile` is the reconciler. -/
theorem reconcileReport_withoutNotes (settings : Settings) :
    (reconcileReport settings).withoutNotes = reconcile settings := by
  have hsweep (tenant : String) :
      (sweepNamespaceReport settings tenant).withoutNotes = sweepNamespace settings tenant := by
    unfold sweepNamespaceReport sweepNamespace
    simp only [withoutNotes_bind, withoutNotes_silent, applyPlanReport_withoutNotes]
  unfold reconcileReport reconcile
  simp only [withoutNotes_bind, withoutNotes_silent, withoutNotes_each, withoutNotes_tryCatch,
    hsweep]
  rfl

/-- The key of a row that was recorded. -/
def ReportEvent.recorded? : ReportEvent → Option Key
  | ⟨.call (.recordObject row _ _), .ok _⟩ => some row.key
  | _ => none

/-- The key of a row that was deleted. -/
def ReportEvent.deleted? : ReportEvent → Option Key
  | ⟨.call (.deleteObject k), .ok _⟩ => some k
  | _ => none

/-- The entries of one kind, newest first. -/
def noted {β : Type} (select : ReportEntry → Option β) (h : List ReportEvent) : List β :=
  h.filterMap (fun event => event.entry?.bind select)

/-- The lists of the report are what was noted. -/
theorem SweepReport.of_eq (h : List ReportEvent) : SweepReport.of h =
    { backfilled := (noted ReportEntry.backfilled? h).reverse
      deleted := (noted ReportEntry.deleted? h).reverse
      skippedNamespaces := (noted ReportEntry.skipped? h).reverse
      cappedNamespaces := (noted ReportEntry.capped? h).reverse
      erroredNamespaces := (noted ReportEntry.errored? h).reverse } := by
  have hentries {β : Type} (select : ReportEntry → Option β) :
      (h.reverse.filterMap ReportEvent.entry?).filterMap select = (noted select h).reverse := by
    rw [List.filterMap_filterMap, List.filterMap_reverse]
    rfl
  rw [SweepReport.of, hentries, hentries, hentries, hentries, hentries]

/-- How many of the keys lie in a namespace. -/
def keysIn (tenant : String) (keys : List Key) : ℕ := keys.countP (fun k => k.1 == tenant)

/-- What was noted, while a delete may be owed in some namespaces: every recorded row, and of the
rows deleted in a namespace all but one for each of its failures. -/
structure Balanced (owed : List String) (h : List ReportEvent) : Prop where
  backfilled : noted ReportEntry.backfilled? h = h.filterMap ReportEvent.recorded?
  deleted : (noted ReportEntry.deleted? h).Sublist (h.filterMap ReportEvent.deleted?)
  complete : ∀ tenant, keysIn tenant (h.filterMap ReportEvent.deleted?) ≤
    keysIn tenant (noted ReportEntry.deleted? h) + (noted ReportEntry.errored? h).count tenant +
      owed.count tenant

section

variable {T : CallEvent → Prop} {h : List ReportEvent} {owed : List String}
  {tenant label : String}

/-- At the start nothing is noted. -/
theorem Balanced.nil : Balanced [] [] := ⟨rfl, List.Sublist.refl _, fun _ => le_rfl⟩

/-- More may be owed. -/
theorem Balanced.mono (hb : Balanced [] h) : Balanced owed h :=
  ⟨hb.backfilled, hb.deleted, fun other => (hb.complete other).trans (by simp)⟩

/-- A call that neither records nor deletes a row. -/
theorem Balanced.call {c : Call} {r : Except PyError (Answer c)} (hb : Balanced owed h)
    (hrecord : ReportEvent.recorded? ⟨.call c, r⟩ = none)
    (hdelete : ReportEvent.deleted? ⟨.call c, r⟩ = none) :
    Balanced owed (⟨.call c, r⟩ :: h) := by
  refine ⟨?_, ?_, ?_⟩
  · rw [List.filterMap_cons_none hrecord]
    exact hb.backfilled
  · rw [List.filterMap_cons_none hdelete]
    exact hb.deleted
  · rw [List.filterMap_cons_none hdelete]
    exact hb.complete

/-- A note that is neither a key nor a failure. -/
theorem Balanced.note {entry : ReportEntry} {r : Except PyError PUnit} (hb : Balanced owed h)
    (hbackfilled : entry.backfilled? = none) (hdeleted : entry.deleted? = none)
    (herrored : entry.errored? = none) : Balanced owed (⟨.note entry, r⟩ :: h) := by
  have hnoted {β : Type} {select : ReportEntry → Option β} (hentry : select entry = none) :
      noted select (⟨.note entry, r⟩ :: h) = noted select h := List.filterMap_cons_none hentry
  refine ⟨?_, ?_, ?_⟩
  · rw [hnoted hbackfilled]
    exact hb.backfilled
  · rw [hnoted hdeleted]
    exact hb.deleted
  · rw [hnoted hdeleted, hnoted herrored]
    exact hb.complete

/-- The entry of a failed namespace settles what is owed. -/
theorem Balanced.error {r : Except PyError PUnit} (hb : Balanced (tenant :: owed) h) :
    Balanced owed (⟨.note (.errored tenant), r⟩ :: h) := by
  refine ⟨hb.backfilled, hb.deleted, fun other => ?_⟩
  have hcomplete := hb.complete other
  change keysIn other (h.filterMap ReportEvent.deleted?) ≤
    keysIn other (noted ReportEntry.deleted? h) +
      (tenant :: noted ReportEntry.errored? h).count other + _
  rw [List.count_cons] at hcomplete ⊢
  omega

/-- A row that was recorded, and its entry. -/
theorem Balanced.backfill (hb : Balanced owed h) (row : ObjectRow) {tags : List String}
    {parents : Option (List String)} {a r} : Balanced owed (⟨.note (.backfilled row.key), r⟩ ::
      ⟨.call (.recordObject row tags parents), .ok a⟩ :: h) :=
  ⟨congrArg (row.key :: ·) hb.backfilled, hb.deleted, hb.complete⟩

/-- A row that was deleted, and later its entry. -/
theorem Balanced.delete (hb : Balanced owed h) {k : Key} {a r c x}
    (hrecord : ReportEvent.recorded? ⟨.call c, x⟩ = none)
    (hdelete : ReportEvent.deleted? ⟨.call c, x⟩ = none) :
    Balanced owed (⟨.note (.deleted k), r⟩ :: ⟨.call c, x⟩ ::
      ⟨.call (.deleteObject k), .ok a⟩ :: h) := by
  have hdeleted : (⟨.note (.deleted k), r⟩ :: ⟨.call c, x⟩ ::
      ⟨.call (.deleteObject k), .ok a⟩ :: h : List ReportEvent).filterMap ReportEvent.deleted? =
        k :: h.filterMap ReportEvent.deleted? := by
    rw [List.filterMap_cons_none rfl, List.filterMap_cons_none hdelete]
    rfl
  refine ⟨?_, ?_, ?_⟩
  · rw [List.filterMap_cons_none rfl, List.filterMap_cons_none hrecord]
    exact hb.backfilled
  · rw [hdeleted]
    exact List.Sublist.cons_cons k hb.deleted
  · rw [hdeleted]
    intro other
    have hcomplete := hb.complete other
    change _ ≤ keysIn other (k :: noted ReportEntry.deleted? h) +
      (noted ReportEntry.errored? h).count other + _
    unfold keysIn at hcomplete ⊢
    rw [List.countP_cons, List.countP_cons]
    omega

/-- A row whose delete has no entry yet. -/
theorem Balanced.owe (hb : Balanced owed h) {k : Key} {a} :
    Balanced (k.1 :: owed) (⟨.call (.deleteObject k), .ok a⟩ :: h) := by
  refine ⟨hb.backfilled, hb.deleted.trans (List.sublist_cons_self _ _), fun other => ?_⟩
  have hcomplete := hb.complete other
  change keysIn other (k :: h.filterMap ReportEvent.deleted?) ≤
    keysIn other (noted ReportEntry.deleted? h) + (noted ReportEntry.errored? h).count other + _
  unfold keysIn at hcomplete ⊢
  rw [List.countP_cons, List.count_cons]
  omega

/-- What a part of the sweep of a namespace ends with: it may owe an entry when it raises. -/
def Tallied {α : Type} (tenant : String) (h : List ReportEvent) (r : Except PyError α) : Prop :=
  match r with
  | .ok _ => Balanced [] h
  | .error _ => Balanced [tenant] h

/-- A loop whose steps report. -/
theorem tallied_each {f : String → ReportTool PUnit}
    (hf : ∀ l h, Balanced [] h → Sat (noting T) (Tallied tenant) h (f l)) (hb : Balanced [] h)
    (l : List String) : Sat (noting T) (Tallied tenant) h (Program.each f l) := by
  refine Sat.each (I := fun _ h => Balanced [] h) (fun x _ h hb => ?_) (fun _ hb => hb) hb
  refine (hf x h hb).mono (fun h r hr => ?_)
  cases r with
  | ok a => exact hr
  | error e => exact hr

/-- A call that neither records nor deletes. -/
theorem tallied_call {c : Call} (hb : Balanced [] h)
    (hrecord : ∀ r, ReportEvent.recorded? ⟨.call c, r⟩ = none)
    (hdelete : ∀ r, ReportEvent.deleted? ⟨.call c, r⟩ = none) :
    Sat (noting T) (Tallied tenant) h (Memcove.call c).silent := by
  refine sat_silent (fun r _ => ?_)
  have hcall := hb.call (hrecord r) (hdelete r)
  cases r with
  | ok a => exact hcall
  | error e => exact hcall.mono

/-- What is left after a call whose result is still to be reported. -/
def Performed {α : Type} (tenant : String) (c : Call) (h h' : List ReportEvent)
    (r : Except PyError α) : Prop :=
  match r with
  | .ok _ => ∃ a, h' = ⟨.call c, .ok a⟩ :: h
  | .error _ => Balanced [tenant] h'

variable (tenant) in
/-- A call that records or deletes. -/
theorem performed_call {c : Call} (hb : Balanced [tenant] h)
    (hrecord : ∀ e, ReportEvent.recorded? ⟨.call c, .error e⟩ = none)
    (hdelete : ∀ e, ReportEvent.deleted? ⟨.call c, .error e⟩ = none) :
    Sat (noting T) (Performed tenant c h) h (Memcove.call c).silent := by
  refine sat_silent (fun r _ => ?_)
  cases r with
  | ok a => exact ⟨a, rfl⟩
  | error e => exact hb.call (hrecord e) (hdelete e)

/-- A part of a sweep and what follows it. -/
theorem tallied_bind {α β : Type} {p : ReportTool α} {f : α → ReportTool β}
    (hp : Sat (noting T) (Tallied tenant) h p)
    (hf : ∀ h a, Balanced [] h → Sat (noting T) (Tallied tenant) h (f a)) :
    Sat (noting T) (Tallied tenant) h (p >>= f) :=
  hp.bind (fun h a hb => hf h a hb) (fun _ _ hb => hb)

/-- A backfill. -/
theorem backfill_tallied {settings : Settings} (hb : Balanced [] h) :
    Sat (noting T) (Tallied tenant) h (do
      let _ ← (backfill settings tenant label).silent
      note (.backfilled (tenant, label)) : ReportTool PUnit) := by
  have hrecord := performed_call tenant (T := T)
    (c := .recordObject (reconciledRow settings tenant label) [] none) (hb.mono)
    (fun _ => rfl) (fun _ => rfl)
  refine hrecord.bind (fun h' _ hh' => ?_) (fun _ _ hb => hb)
  obtain ⟨a, rfl⟩ := hh'
  exact sat_note (hb.backfill (reconciledRow settings tenant label))

/-- One label of the delete phase. -/
theorem deleteAbsentReport_tallied (hb : Balanced [] h) :
    Sat (noting T) (Tallied tenant) h (deleteAbsentReport tenant label) := by
  refine tallied_bind (tallied_call hb (fun _ => rfl) (fun _ => rfl)) (fun h exists_ hb => ?_)
  split
  · exact tallied_call hb (fun _ => rfl) (fun _ => rfl)
  · have hdelete := performed_call tenant (T := T) (c := .deleteObject (tenant, label))
      (hb.mono) (fun _ => rfl) (fun _ => rfl)
    refine hdelete.bind (fun h' _ hh' => ?_) (fun _ _ hb => hb)
    obtain ⟨a, rfl⟩ := hh'
    have howed : Balanced [tenant] (⟨.call (.deleteObject (tenant, label)), .ok a⟩ :: h) :=
      hb.owe (k := (tenant, label))
    have hclear := performed_call tenant (T := T) (c := .clearTombstone (tenant, label)) howed
      (fun _ => rfl) (fun _ => rfl)
    refine hclear.bind (fun h' _ hh' => ?_) (fun _ _ hb => hb)
    obtain ⟨x, rfl⟩ := hh'
    exact sat_note (hb.delete rfl rfl)

/-- A note at the end of a plan. -/
theorem noteIf_tallied {c : Bool} {entry : ReportEntry} (hb : Balanced [] h)
    (hbackfilled : entry.backfilled? = none) (hdeleted : entry.deleted? = none)
    (herrored : entry.errored? = none) : Sat (noting T) (Tallied tenant) h (noteIf c entry) := by
  cases c with
  | true => exact sat_note (hb.note hbackfilled hdeleted herrored)
  | false => exact hb

/-- A plan. -/
theorem applyPlanReport_tallied {settings : Settings} {plan : NamespacePlan}
    (hb : Balanced [] h) :
    Sat (noting T) (Tallied tenant) h (applyPlanReport settings tenant plan) := by
  refine tallied_bind (tallied_each (fun _ _ => backfill_tallied) hb _) (fun h _ hb => ?_)
  refine tallied_bind (tallied_each (fun _ _ hb => tallied_call hb (fun _ => rfl) (fun _ => rfl))
    hb _) (fun h _ hb => ?_)
  refine tallied_bind (tallied_each (fun _ _ hb => tallied_call hb (fun _ => rfl) (fun _ => rfl))
    hb _) (fun h _ hb => ?_)
  refine tallied_bind (tallied_each (fun _ _ => deleteAbsentReport_tallied) hb _)
    (fun h _ hb => ?_)
  refine tallied_bind (noteIf_tallied hb rfl rfl rfl) (fun h _ hb => ?_)
  exact noteIf_tallied hb rfl rfl rfl

/-- A namespace, with the entry of its failure. -/
theorem sweep_tallied {settings : Settings} (hb : Balanced [] h) :
    Sat (noting T) (fun h r => r = .ok ⟨⟩ ∧ Balanced [] h) h
      (Program.tryCatch (sweepNamespaceReport settings tenant)
        (fun _ => note (.errored tenant))) := by
  refine Sat.tryCatch (Ψ := Tallied tenant) ?_ (fun _ _ hb => ⟨rfl, hb⟩) (fun h _ hb => ?_)
  · have hlist : Sat (noting T) (Tallied tenant) h (listLabels tenant).silent :=
      ⟨trivial, fun r _ => by cases r <;> exact hb.call rfl rfl⟩
    refine tallied_bind hlist (fun h _ hb => ?_)
    refine tallied_bind (tallied_call hb (fun _ => rfl) (fun _ => rfl)) (fun h _ hb => ?_)
    refine tallied_bind (tallied_call hb (fun _ => rfl) (fun _ => rfl)) (fun h _ hb => ?_)
    exact applyPlanReport_tallied hb
  · have herror : Balanced [tenant] h := hb
    exact sat_note ⟨rfl, herror.error⟩

end

/-- The call is no entry of a failed namespace. -/
def NoFailure : Noted Call ReportEntry → Prop
  | .call _ => True
  | .note entry => entry.errored? = none

/-- The sweep of a namespace leaves the entry of its failure to its caller. -/
theorem sweepNamespaceReport_noFailure (settings : Settings) (tenant : String) :
    Only NoFailure (sweepNamespaceReport settings tenant) := by
  have hsilent {α : Type} (p : Tool α) : Only NoFailure (p.silent : ReportTool α) :=
    only_silent (fun _ => trivial) p
  have hnote {entry : ReportEntry} (hentry : entry.errored? = none) :
      Only NoFailure (note entry : ReportTool PUnit) := ⟨hentry, fun _ => .lift⟩
  have hnoteIf {c : Bool} {entry : ReportEntry} (hentry : entry.errored? = none) :
      Only NoFailure (noteIf c entry : ReportTool PUnit) := by
    cases c with
    | true => exact hnote hentry
    | false => trivial
  refine (hsilent _).bind fun live => (hsilent _).bind fun reg => (hsilent _).bind fun marks => ?_
  refine Only.bind (.each fun label _ => (hsilent _).bind fun _ => hnote rfl) fun _ => ?_
  refine Only.bind (.each fun label _ => hsilent _) fun _ => ?_
  refine Only.bind (.each fun label _ => hsilent _) fun _ => ?_
  refine Only.bind (.each fun label _ => ?_) fun _ => (hnoteIf rfl).bind fun _ => hnoteIf rfl
  refine (hsilent _).bind fun exists_ => ?_
  split
  · exact hsilent _
  · exact (hsilent _).bind fun _ => (hsilent _).bind fun _ => hnote rfl

/-- No namespace has failed twice, and those still to come have not failed. -/
structure FailsOnce (todo : List String) (h : List ReportEvent) : Prop where
  once : (noted ReportEntry.errored? h).Nodup
  fresh : ∀ tenant ∈ todo, tenant ∉ noted ReportEntry.errored? h

/-- A call of the sweep of a namespace adds no failure. -/
theorem FailsOnce.cons {todo : List String} {h : List ReportEvent} {c : Noted Call ReportEntry}
    {r : Except PyError (Noted.Answer Answer c)} (hf : FailsOnce todo h) (hc : NoFailure c) :
    FailsOnce todo (⟨c, r⟩ :: h) := by
  have hnoted : noted ReportEntry.errored? (⟨c, r⟩ :: h) = noted ReportEntry.errored? h := by
    cases c with
    | call c => rfl
    | note entry => exact List.filterMap_cons_none hc
  exact ⟨hnoted ▸ hf.once, hnoted ▸ hf.fresh⟩

/-- A namespace, with the entry of its failure. -/
theorem sweep_failsOnce {T : CallEvent → Prop} {settings : Settings} {tenant : String}
    {todo : List String} {h : List ReportEvent} (htodo : tenant ∉ todo)
    (hf : FailsOnce (tenant :: todo) h) : Sat (noting T) (fun h _ => FailsOnce todo h) h
      (Program.tryCatch (sweepNamespaceReport settings tenant)
        (fun _ => note (.errored tenant))) := by
  have hsweep : Sat (noting T) (fun h _ => FailsOnce (tenant :: todo) h) h
      (sweepNamespaceReport settings tenant) :=
    (sweepNamespaceReport_noFailure settings tenant).sat (fun _ _ _ _ => trivial)
      (fun _ _ _ hf hc => hf.cons hc) hf
  refine hsweep.tryCatch (fun h _ hf => ?_) (fun h _ hf => sat_note ?_)
  · exact ⟨hf.once, fun other hother => hf.fresh other (List.mem_cons_of_mem _ hother)⟩
  · refine ⟨List.nodup_cons.mpr ⟨hf.fresh tenant List.mem_cons_self, hf.once⟩,
      fun other hother hmem => ?_⟩
    rcases List.mem_cons.mp hmem with rfl | hmem
    · exact htodo hother
    · exact hf.fresh other (List.mem_cons_of_mem _ hother) hmem

/-- The namespace of a row that is to be deleted. -/
def ReportEvent.deletes? : ReportEvent → Option String
  | ⟨.call (.deleteObject k), _⟩ => some k.1
  | _ => none

/-- A namespace that was skipped or capped. -/
def ReportEntry.withheld? (entry : ReportEntry) : Option String :=
  entry.skipped?.or entry.capped?

/-- Nothing is deleted of the namespaces that were skipped or capped, and those still to come were
not met yet. -/
structure Withholds (todo : List String) (h : List ReportEvent) : Prop where
  apart : ∀ tenant ∈ noted ReportEntry.withheld? h, tenant ∉ h.filterMap ReportEvent.deletes?
  fresh : ∀ tenant ∈ todo, tenant ∉ noted ReportEntry.withheld? h ∧
    tenant ∉ h.filterMap ReportEvent.deletes?

section

variable {T : CallEvent → Prop} {h : List ReportEvent} {tenant label : String}
  {todo : List String}

/-- At the start nothing was deleted or withheld. -/
theorem Withholds.nil : Withholds todo [] :=
  ⟨nofun, fun _ _ => ⟨List.not_mem_nil, List.not_mem_nil⟩⟩

/-- A namespace that is left behind. -/
theorem Withholds.tail (hw : Withholds (tenant :: todo) h) : Withholds todo h :=
  ⟨hw.apart, fun other hother => hw.fresh other (List.mem_cons_of_mem _ hother)⟩

/-- A call that deletes no row. -/
theorem Withholds.call {c : Call} {r : Except PyError (Answer c)} (hw : Withholds todo h)
    (hc : ReportEvent.deletes? ⟨.call c, r⟩ = none) : Withholds todo (⟨.call c, r⟩ :: h) := by
  refine ⟨fun other hother => ?_, fun other hother => ?_⟩
  · rw [List.filterMap_cons_none hc]
    exact hw.apart other hother
  · rw [List.filterMap_cons_none hc]
    exact hw.fresh other hother

/-- A delete in a namespace that is neither withheld nor still to come. -/
theorem Withholds.delete {r : Except PyError PUnit} (hw : Withholds todo h)
    (htodo : tenant ∉ todo) (hnot : tenant ∉ noted ReportEntry.withheld? h) :
    Withholds todo (⟨.call (.deleteObject (tenant, label)), r⟩ :: h) := by
  refine ⟨fun other hother hdeleted => ?_, fun other hother => ⟨?_, fun hdeleted => ?_⟩⟩
  · rcases List.mem_cons.mp hdeleted with rfl | hdeleted
    · exact hnot hother
    · exact hw.apart other hother hdeleted
  · exact (hw.fresh other hother).1
  · rcases List.mem_cons.mp hdeleted with rfl | hdeleted
    · exact htodo hother
    · exact (hw.fresh other hother).2 hdeleted

/-- An entry that withholds nothing. -/
theorem Withholds.note {entry : ReportEntry} {r : Except PyError PUnit} (hw : Withholds todo h)
    (hentry : entry.withheld? = none) : Withholds todo (⟨.note entry, r⟩ :: h) := by
  have hnoted : noted ReportEntry.withheld? (⟨.note entry, r⟩ :: h) =
      noted ReportEntry.withheld? h := List.filterMap_cons_none hentry
  exact ⟨by rw [hnoted]; exact hw.apart, by rw [hnoted]; exact hw.fresh⟩

/-- A namespace is withheld of which nothing was deleted. -/
theorem Withholds.withhold {entry : ReportEntry} {r : Except PyError PUnit}
    (hw : Withholds todo h) (hentry : entry.withheld? = some tenant) (htodo : tenant ∉ todo)
    (hnot : tenant ∉ h.filterMap ReportEvent.deletes?) :
    Withholds todo (⟨.note entry, r⟩ :: h) := by
  have hnoted : noted ReportEntry.withheld? (⟨.note entry, r⟩ :: h) =
      tenant :: noted ReportEntry.withheld? h := List.filterMap_cons_some hentry
  refine ⟨fun other hother => ?_, fun other hother => ⟨fun hmem => ?_, (hw.fresh other hother).2⟩⟩
  · rw [hnoted] at hother
    rcases List.mem_cons.mp hother with rfl | hother
    · exact hnot
    · exact hw.apart other hother
  · rw [hnoted] at hmem
    rcases List.mem_cons.mp hmem with rfl | hmem
    · exact htodo hother
    · exact (hw.fresh other hother).1 hmem

/-- A plan that withholds its deletions has none. -/
theorem delete_of_withheld {settings : Settings} {live reg : List String}
    {tombstones : List (String × Int)}
    (h : (planNamespace settings live reg tombstones).delete ≠ []) :
    (planNamespace settings live reg tombstones).skipped = false ∧
      (planNamespace settings live reg tombstones).capped = false := by
  unfold planNamespace at h ⊢
  dsimp only at h ⊢
  split at h
  · exact absurd rfl h
  · rename_i hskip
    rw [if_neg hskip]
    split at h
    · exact absurd rfl h
    · rename_i hcap
      rw [if_neg hcap]
      exact ⟨rfl, rfl⟩

/-- A plan up to its deletions. -/
theorem sat_before_delete {settings : Settings} {plan : NamespacePlan} {rest : ReportTool PUnit}
    {Φ : List ReportEvent → Except PyError PUnit → Prop}
    (hw : Withholds (tenant :: todo) h)
    (hrest : ∀ h, Withholds (tenant :: todo) h → Sat (noting T) Φ h rest)
    (herror : ∀ h e, Withholds todo h → Φ h (.error e)) :
    Sat (noting T) Φ h (do
      Program.each (fun label => do
        let _ ← (backfill settings tenant label).silent
        note (.backfilled (tenant, label))) plan.backfill
      Program.each (fun label => (call (.clearTombstone (tenant, label))).silent)
        plan.tombstoneClear
      Program.each (fun label => (call (.bumpTombstone (tenant, label))).silent)
        plan.tombstoneBump
      rest) := by
  have hloop {l : List String} {f : String → ReportTool PUnit} {h : List ReportEvent}
      (hf : ∀ label h, Withholds (tenant :: todo) h →
        Sat (noting T) (fun h _ => Withholds (tenant :: todo) h) h (f label))
      (hw : Withholds (tenant :: todo) h) :
      Sat (noting T) (fun h _ => Withholds (tenant :: todo) h) h (Program.each f l) :=
    Sat.each (I := fun _ h => Withholds (tenant :: todo) h)
      (fun x _ h hw => (hf x h hw).mono (fun _ r hr => by cases r <;> exact hr))
      (fun _ hw => hw) hw
  refine (hloop (fun label h hw => ?_) hw).bind (fun h _ hw => ?_)
    (fun h e hw => herror h e hw.tail)
  · exact Sat.bind (Ψ := fun h _ => Withholds (tenant :: todo) h)
      (sat_silent (fun r _ => hw.call rfl)) (fun h _ hw => sat_note (hw.note rfl))
      (fun _ _ hw => hw)
  · refine (hloop (fun label h hw => sat_silent (fun r _ => hw.call rfl)) hw).bind
      (fun h _ hw => ?_) (fun h e hw => herror h e hw.tail)
    exact (hloop (fun label h hw => sat_silent (fun r _ => hw.call rfl)) hw).bind
      (fun h _ hw => hrest h hw) (fun h e hw => herror h e hw.tail)

/-- One label of the delete phase. -/
theorem deleteAbsentReport_withholds (htodo : tenant ∉ todo) (hw : Withholds todo h)
    (hnot : tenant ∉ noted ReportEntry.withheld? h) : Sat (noting T)
      (fun h _ => Withholds todo h ∧ tenant ∉ noted ReportEntry.withheld? h) h
      (deleteAbsentReport tenant label) := by
  refine Sat.bind (Ψ := fun h _ => Withholds todo h ∧ tenant ∉ noted ReportEntry.withheld? h)
    (sat_silent (fun r _ => ⟨hw.call rfl, hnot⟩)) (fun h exists_ hw => ?_) (fun _ _ hw => hw)
  split
  · exact sat_silent (fun r _ => ⟨hw.1.call rfl, hw.2⟩)
  · refine Sat.bind (Ψ := fun h _ => Withholds todo h ∧ tenant ∉ noted ReportEntry.withheld? h)
      (sat_silent (fun r _ => ⟨hw.1.delete htodo hw.2, hw.2⟩)) (fun h _ hw => ?_) (fun _ _ hw => hw)
    refine Sat.bind (Ψ := fun h _ => Withholds todo h ∧ tenant ∉ noted ReportEntry.withheld? h)
      (sat_silent (fun r _ => ⟨hw.1.call rfl, hw.2⟩)) (fun h _ hw => ?_) (fun _ _ hw => hw)
    exact sat_note ⟨hw.1.note rfl, hw.2⟩

/-- A note at the end of a plan without deletions. -/
theorem noteIf_withholds {c : Bool} {entry : ReportEntry} (htodo : tenant ∉ todo)
    (hentry : entry.withheld? = some tenant) (hw : Withholds todo h)
    (hnot : tenant ∉ h.filterMap ReportEvent.deletes?) : Sat (noting T)
      (fun h _ => Withholds todo h ∧ tenant ∉ h.filterMap ReportEvent.deletes?) h
      (noteIf c entry) := by
  cases c with
  | true => exact sat_note ⟨hw.withhold hentry htodo hnot, hnot⟩
  | false => exact ⟨hw, hnot⟩

/-- The plan of a namespace. -/
theorem applyPlanReport_withholds {settings : Settings} {plan : NamespacePlan}
    (hplan : plan.delete ≠ [] → plan.skipped = false ∧ plan.capped = false)
    (htodo : tenant ∉ todo) (hw : Withholds (tenant :: todo) h) :
    Sat (noting T) (fun h _ => Withholds todo h) h (applyPlanReport settings tenant plan) := by
  refine sat_before_delete hw (fun h hw => ?_) (fun _ _ hw => hw)
  by_cases hdelete : plan.delete = []
  · rw [hdelete]
    refine (noteIf_withholds htodo rfl hw.tail (hw.fresh tenant List.mem_cons_self).2).bind
      (fun h _ hw => ?_) (fun _ _ hw => hw.1)
    exact (noteIf_withholds htodo rfl hw.1 hw.2).mono (fun _ _ hw => hw.1)
  · obtain ⟨hskipped, hcapped⟩ := hplan hdelete
    rw [hskipped, hcapped]
    refine (Sat.each (I := fun _ h => Withholds todo h ∧ tenant ∉ noted ReportEntry.withheld? h)
      (Φ := fun h _ => Withholds todo h) (fun x _ h hw => ?_) (fun _ hw => hw.1)
      ⟨hw.tail, (hw.fresh tenant List.mem_cons_self).1⟩).bind (fun h _ hw => hw) (fun _ _ hw => hw)
    refine (deleteAbsentReport_withholds htodo hw.1 hw.2).mono (fun _ r hw => ?_)
    cases r with
    | ok _ => exact hw
    | error _ => exact hw.1

/-- A namespace, with the entry of its failure. -/
theorem sweep_withholds {settings : Settings} (htodo : tenant ∉ todo)
    (hw : Withholds (tenant :: todo) h) : Sat (noting T) (fun h _ => Withholds todo h) h
      (Program.tryCatch (sweepNamespaceReport settings tenant)
        (fun _ => note (.errored tenant))) := by
  refine Sat.tryCatch (Ψ := fun h _ => Withholds todo h) ?_ (fun _ _ hw => hw)
    (fun h _ hw => sat_note (hw.note rfl))
  have hlist : Sat (noting T) (fun h _ => Withholds (tenant :: todo) h) h
      (listLabels tenant).silent :=
    ⟨trivial, fun r _ => by cases r <;> exact hw.call rfl⟩
  refine hlist.bind (fun h _ hw => ?_) (fun _ _ hw => hw.tail)
  refine Sat.bind (Ψ := fun h _ => Withholds (tenant :: todo) h)
    (sat_silent (fun r _ => hw.call rfl)) (fun h _ hw => ?_) (fun _ _ hw => hw.tail)
  refine Sat.bind (Ψ := fun h _ => Withholds (tenant :: todo) h)
    (sat_silent (fun r _ => hw.call rfl)) (fun h _ hw => ?_) (fun _ _ hw => hw.tail)
  exact applyPlanReport_withholds delete_of_withheld htodo hw

end

/-- A listing of the namespaces names each of them once. -/
def ListsOnce (event : CallEvent) : Prop :=
  ∀ namespaces, event = ⟨.listNamespaces, .ok namespaces⟩ →
    (namespaces.filterMap (fun ns => ns.head?)).Nodup

/-- What a report tells of a history: the rows that were recorded, in order; of the rows that were
deleted in a namespace all, or all but one at most when the namespace failed; and namespaces of
which nothing was deleted. -/
structure SweepReport.Faithful (report : SweepReport) (h : List ReportEvent) : Prop where
  backfilled : report.backfilled = h.reverse.filterMap ReportEvent.recorded?
  deleted : report.deleted.Sublist (h.reverse.filterMap ReportEvent.deleted?)
  complete : ∀ tenant, keysIn tenant (h.reverse.filterMap ReportEvent.deleted?) ≤
    keysIn tenant report.deleted + if tenant ∈ report.erroredNamespaces then 1 else 0
  withheld : ∀ tenant ∈ report.skippedNamespaces ++ report.cappedNamespaces, ∀ event ∈ h,
    ∀ label, event.call ≠ .call (.deleteObject (tenant, label))

/-- What was noted is the report. -/
theorem faithful_of_balanced {h : List ReportEvent} (hb : Balanced [] h) (hw : Withholds [] h)
    (hf : FailsOnce [] h) : (SweepReport.of h).Faithful h where
  backfilled := by
    rw [SweepReport.of_eq, List.filterMap_reverse, ← hb.backfilled]
  deleted := by
    rw [SweepReport.of_eq, List.filterMap_reverse]
    exact List.reverse_sublist.mpr hb.deleted
  complete tenant := by
    have hcomplete := hb.complete tenant
    have honce := List.nodup_iff_count_le_one.mp hf.once tenant
    rw [SweepReport.of_eq, List.filterMap_reverse]
    simp only [keysIn, List.countP_reverse, List.mem_reverse, List.count_nil] at hcomplete ⊢
    split
    · omega
    · rename_i hnot
      rw [List.count_eq_zero_of_not_mem hnot] at hcomplete
      omega
  withheld tenant htenant event hevent label hcall := by
    simp only [SweepReport.of_eq, List.mem_append, List.mem_reverse] at htenant
    refine hw.apart tenant ?_ (List.mem_filterMap.mpr ⟨event, hevent, ?_⟩)
    · simp only [noted, List.mem_filterMap, Option.bind_eq_some_iff] at htenant ⊢
      rcases htenant with ⟨event, hmem, entry, hentry, hselect⟩ |
        ⟨event, hmem, entry, hentry, hselect⟩
      · exact ⟨event, hmem, entry, hentry, by rw [ReportEntry.withheld?, hselect]; rfl⟩
      · refine ⟨event, hmem, entry, hentry, ?_⟩
        cases entry <;> cases hselect
        rfl
    · obtain ⟨call, answer⟩ := event
      obtain rfl : call = .call (.deleteObject (tenant, label)) := hcall
      rfl

/-- Whatever the calls of a sweep answer, as long as every namespace is listed once: the sweep is
the reconciler, its report is faithful, and it raises only when the namespaces cannot be listed. -/
theorem reconcileReport_faithful (settings : Settings) :
    (reconcileReport settings).withoutNotes = reconcile settings ∧
      Sat (noting ListsOnce) (fun h r => (SweepReport.of h).Faithful h ∧
        (r = .ok ⟨⟩ ∨ ∃ e, h = [⟨.call .listNamespaces, .error e⟩])) []
        (reconcileReport settings) := by
  refine ⟨reconcileReport_withoutNotes settings, trivial, fun r hr => ?_⟩
  cases r with
  | error e =>
    exact ⟨faithful_of_balanced (Balanced.nil.call rfl rfl) (Withholds.nil.call rfl)
      ⟨List.nodup_nil, nofun⟩, Or.inr ⟨e, rfl⟩⟩
  | ok namespaces =>
    have hnodup : (namespaces.filterMap (fun ns => ns.head?)).Nodup := hr namespaces rfl
    refine (Sat.each
      (I := fun todo h => todo.Nodup ∧ Balanced [] h ∧ Withholds todo h ∧ FailsOnce todo h)
      (Φ := fun h r => r = .ok ⟨⟩ ∧ (SweepReport.of h).Faithful h) (fun tenant todo h hi => ?_)
      (fun h hi => ⟨rfl, faithful_of_balanced hi.2.1 hi.2.2.1 hi.2.2.2⟩)
      ⟨hnodup, Balanced.nil.call rfl rfl, Withholds.nil.call rfl, List.nodup_nil,
        fun _ _ => List.not_mem_nil⟩).mono (fun _ _ hr => ⟨hr.2, Or.inl hr.1⟩)
    obtain ⟨hnodup, hb, hw, hf⟩ := hi
    obtain ⟨htodo, hnodup⟩ := List.nodup_cons.mp hnodup
    refine ((sweep_tallied hb).and ((sweep_withholds htodo hw).and
      (sweep_failsOnce htodo hf))).mono (fun h r hr => ?_)
    obtain ⟨⟨rfl, hb⟩, hw, hf⟩ := hr
    exact ⟨hnodup, hb, hw, hf⟩

/-- A sweep of a namespace whose row `events` is due to be deleted, and whose tombstone cannot be
cleared afterwards. -/
def halfDeleted : (c : Noted Call ReportEntry) → PyM (Noted.Answer Answer c)
  | .note _ => .ok ⟨⟩
  | .call .listNamespaces => .ok [["t_acme"]]
  | .call (.listTables _) => .ok ["other"]
  | .call (.labelsForTenant _) => .ok ["other", "events"]
  | .call (.tombstonesForTenant _) => .ok [("events", 1)]
  | .call (.tableExists _) => .ok false
  | .call (.deleteObject _) => .ok ⟨⟩
  | .call _ => .error (externalError "connection refused")

/-- Its report lists the namespace as errored, and misses the row. -/
theorem halfDeleted_reported :
    let h := ((reconcileReport {}).answered halfDeleted []).1
    SweepReport.of h = ⟨[], [], [], [], ["t_acme"]⟩ ∧
      h.reverse.filterMap ReportEvent.deleted? = [("t_acme", "events")] ∧
      (SweepReport.of h).Faithful h := by
  have hassume : ∀ (h : List ReportEvent) c, (noting ListsOnce).assume h ⟨c, halfDeleted c⟩ := by
    intro h c
    cases c with
    | note entry => rfl
    | call c =>
      rintro namespaces ⟨⟩
      simp
  exact ⟨by decide +kernel, by decide +kernel,
    ((reconcileReport_faithful {}).2.answered hassume).1⟩

end Memcove
