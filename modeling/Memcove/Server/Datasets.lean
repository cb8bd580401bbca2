import Memcove.Lib.Turns
import Memcove.Server.Isolation

/-!
# One object of the site

An object is, for those who use it, the columns and the rows of its table. A machine with no more
state than that answers calls about the object as the whole site may answer them, and changes it as
the site changes its table. While only some requests of a run write an object, the object goes
through the states of this machine.
-/

namespace Memcove

open KeyedTables Programs

/-- The columns and the rows of a table. -/
structure Dataset where
  columns : Columns
  rows : Rows

/-- What a table of the catalog holds. -/
def LakeTable.dataset (t : LakeTable) : Dataset := ⟨t.columns, t.rows⟩

/-- What an object holds, if it exists. -/
def Lakehouse.dataset (L : Lakehouse) (k : Key) : Option Dataset :=
  (L.table k).map LakeTable.dataset

/-- What an object holds, if it exists. -/
def Site.dataset (σ : Site) (k : Key) : Option Dataset := σ.stores.lakehouse.dataset k

/-- What a query stores. -/
def Dataset.ofResult (result : Columns × Rows) : Dataset := ⟨result.1, result.2⟩

/-- The object, and how often it has been derived from a query. -/
structure ObjectState where
  dataset : Option Dataset
  derived : ℕ

section

variable [Sqlglot] [Federation] [Engines] (settings : Settings) (k : Key) (moment : ℕ → Site)

/-- The object after a call that changed it and returned. The query of its next derive is evaluated
on the site of the given moment. -/
def ObjectState.after (o : ObjectState) : Call → ObjectState
  | .createTable _ schema => { o with dataset := some ⟨Engines.readBack schema, []⟩ }
  | .overwrite _ rows => { o with dataset := o.dataset.map (fun d => { d with rows := rows }) }
  | .append _ rows =>
    { o with dataset := o.dataset.map (fun d => { d with rows := d.rows ++ rows }) }
  | .dropTable _ => { o with dataset := none }
  | .createTableAs _ _ sql =>
    ⟨some (.ofResult ((moment o.derived).selected settings sql)), o.derived + 1⟩
  | _ => o

/-- The object as a machine for the calls of the tools: a call may return what some site with this
object returns. -/
def objectMachine : Machine Call Answer PyError ObjectState where
  possible o event :=
    match event with
    | ⟨c, .ok a⟩ => ∃ (σ : Site) (n : ℕ), σ.dataset k = o.dataset ∧
      σ.Returns settings (.tool c) (a, n)
    | ⟨_, .error _⟩ => True
  effect o event :=
    match event with
    | ⟨c, .ok _⟩ => if c.changes = some k then o.after settings moment c else o
    | ⟨_, .error _⟩ => o

/-- The object as a machine for all calls of the service. -/
def objectSite : Machine SiteCall SiteAnswer PyError ObjectState where
  possible o event :=
    match event with
    | ⟨c, .ok a⟩ => ∃ σ : Site, σ.dataset k = o.dataset ∧ σ.Returns settings c a
    | ⟨_, .error _⟩ => True
  effect o event :=
    match event with
    | ⟨.tool c, r⟩ => (objectMachine settings k moment).effect o ⟨c, r.map Prod.fst⟩
    | _ => o

variable {settings k moment} {o : ObjectState}

/-- What a tool establishes of the object it establishes within a request. -/
theorem endsIn_runTool {α : Type} {p : Tool α} {Q : ObjectState → Except PyError α → Prop}
    (hp : EndsIn (objectMachine settings k moment) o p Q) :
    EndsIn (objectSite settings k moment) o (runTool p) Q := by
  refine EndsIn.of_completes (fun r t hrun => hp.completes ?_)
  clear hp
  induction p generalizing o with
  | pure a =>
    cases hrun
    exact .pure
  | raise e =>
    cases hrun
    exact .raise
  | call c next ih =>
    cases hrun with
    | @call _ _ _ answer _ _ hpossible hrest =>
      refine .call (r := answer.map Prod.fst) ?_ (ih _ hrest)
      cases answer with
      | error e => trivial
      | ok a =>
        obtain ⟨σ, hdataset, hreturns⟩ := hpossible
        exact ⟨σ, a.2, hdataset, hreturns⟩

/-- The call stores the result of a query in the object. -/
def Call.derives (k : Key) : Call → Bool
  | .createTableAs _ k' _ => k' == k
  | _ => false

/-- A call of a tool does to the object what it does on the machine of the object. -/
theorem dataset_afterTool {σ : Site} {c : Call} {n : ℕ} (hdataset : σ.dataset k = o.dataset)
    (hmoment : c.derives k = true → moment o.derived = σ) :
    (σ.afterTool settings c n).dataset k =
      (if c.changes = some k then o.after settings moment c else o).dataset := by
  have hdrawn : (σ.stores.drawn n).lakehouse.table k = σ.stores.lakehouse.table k := rfl
  have hset (L : Lakehouse) (t : LakeTable) : (L.setTable k t).dataset k = some t.dataset := by
    rw [Lakehouse.dataset, Lakehouse.table_setTable_self]
    rfl
  split
  · rename_i hchanges
    cases c <;> simp only [Call.changes, reduceCtorEq, Option.some.injEq] at hchanges
    case createTable k' schema =>
      subst hchanges
      exact hset _ _
    case overwrite handle rows | append handle rows =>
      subst hchanges
      rw [ObjectState.after, ← hdataset, Site.dataset, Lakehouse.dataset]
      simp only [Site.afterTool, Site.dataset, lakehouseAfter, hdrawn]
      cases htable : σ.stores.lakehouse.table handle.key with
      | none =>
        simp only [Lakehouse.dataset, hdrawn, htable]
        rfl
      | some t =>
        refine (hset _ _).trans ?_
        simp only [Lakehouse.dataset, htable]
        rfl
    case dropTable k' =>
      subst hchanges
      rw [ObjectState.after]
      simp only [Site.afterTool, Site.dataset, lakehouseAfter, Lakehouse.dataset, Lakehouse.table]
      rw [lookup_remove_self]
      rfl
    case createTableAs replace k' sql =>
      subst hchanges
      rw [ObjectState.after, hmoment (beq_self_eq_true _)]
      simp only [Site.afterTool, Site.dataset, Lakehouse.dataset, lakehouseAfter]
      rw [@Lakehouse.table_createTableAs_self (σ.engines settings)]
      rfl
  · rename_i hchanges
    rw [← hdataset]
    simp only [Site.afterTool, Site.dataset, Lakehouse.dataset]
    rw [@table_lakehouseAfter (σ.engines settings) _ _ _ hchanges]
    rfl

/-- The event stored the result of a query in the object. -/
def derivesObject (k : Key) : SiteEvent → Bool
  | ⟨.tool c, .ok _⟩ => c.derives k
  | _ => false

/-- The call changes another object or none. -/
def SiteCall.Leaves (k : Key) : SiteCall → Prop
  | .tool c => c.changes ≠ some k
  | _ => True

/-- What the call runs as a query only reads. -/
def SiteCall.Reads : SiteCall → Prop
  | .select _ sql _ => IsQuery sql
  | _ => True

variable (moment o) in
/-- The object after an event of the site, and how often it has been derived then. -/
theorem dataset_after {σ : Site} {event : SiteEvent} (hdataset : σ.dataset k = o.dataset)
    (hreads : event.call.Reads) (hmoment : derivesObject k event = true → moment o.derived = σ) :
    (⟨(σ.after settings event).dataset k, o.derived + (derivesObject k event).toNat⟩ :
      ObjectState) = (objectSite settings k moment).effect o event := by
  obtain ⟨c, r⟩ := event
  cases c with
  | tool c =>
    cases r with
    | error e => exact congrArg (ObjectState.mk · o.derived) hdataset
    | ok a =>
      obtain ⟨a, n⟩ := a
      have htable : (σ.afterTool settings c n).dataset k =
          (if c.changes = some k then o.after settings moment c else o).dataset :=
        dataset_afterTool hdataset hmoment
      change _ = if c.changes = some k then o.after settings moment c else o
      refine (congrArg (ObjectState.mk · _) htable).trans ?_
      split
      · cases c with
        | createTableAs replace k' sql =>
          rename_i hchanges
          obtain rfl : k' = k := Option.some.inj hchanges
          simp [derivesObject, Call.derives, ObjectState.after]
        | _ => rfl
      · rename_i hchanges
        cases c with
        | createTableAs replace k' sql =>
          have hne : (k' == k) = false := beq_eq_false_iff_ne.mpr (fun h => hchanges (h ▸ rfl))
          simp [derivesObject, Call.derives, hne]
        | _ => rfl
  | select runAs sql wrapping =>
    rw [after_select hreads]
    exact congrArg (ObjectState.mk · o.derived) hdataset
  | _ => exact congrArg (ObjectState.mk · o.derived) hdataset

/-- A call that leaves the object alone. -/
theorem dataset_after_of_leaves {σ : Site} {event : SiteEvent} (hreads : event.call.Reads)
    (hleaves : event.call.Leaves k) :
    (σ.after settings event).dataset k = σ.dataset k ∧ derivesObject k event = false := by
  have hderives : derivesObject k event = false := by
    obtain ⟨c, r⟩ := event
    cases c with
    | tool c =>
      cases r with
      | error e => rfl
      | ok a =>
        cases c with
        | createTableAs replace k' sql =>
          exact beq_eq_false_iff_ne.mpr (fun h => hleaves (h ▸ rfl))
        | _ => rfl
    | _ => rfl
  refine ⟨?_, hderives⟩
  have hobject : (⟨(σ.after settings event).dataset k, 0 + (derivesObject k event).toNat⟩ :
      ObjectState) = (objectSite settings k (fun _ => σ)).effect ⟨σ.dataset k, 0⟩ event :=
    dataset_after (fun _ => σ) ⟨σ.dataset k, 0⟩ rfl hreads (fun _ => rfl)
  have heffect : (objectSite settings k (fun _ => σ)).effect ⟨σ.dataset k, 0⟩ event =
      ⟨σ.dataset k, 0⟩ := by
    obtain ⟨c, r⟩ := event
    cases c with
    | tool c =>
      cases r with
      | error e => rfl
      | ok a => exact if_neg hleaves
    | _ => rfl
  rw [heffect] at hobject
  exact congrArg ObjectState.dataset hobject

section

variable {ι : Type} (settings k) (fragile : SiteCall → Prop) (σ : Site)

/-- The sites at which the object was derived, the last one first. -/
def derivations : Log SiteCall SiteAnswer PyError ι → List Site
  | [] => []
  | entry :: older =>
    if derivesObject k entry.2 then (site settings fragile).after σ older :: derivations older
    else derivations older

/-- The object after the calls of a log. -/
def objectAt (log : Log SiteCall SiteAnswer PyError ι) : ObjectState :=
  ⟨((site settings fragile).after σ log).dataset k, (derivations settings k fragile σ log).length⟩

/-- The site at the derive of the given number. -/
def derivedAt (log : Log SiteCall SiteAnswer PyError ι) (n : ℕ) : Site :=
  ((derivations settings k fragile σ log).reverse[n]?).getD σ

end

section

variable {ι : Type} {fragile : SiteCall → Prop} {σ : Site}
  {log : Log SiteCall SiteAnswer PyError ι}

/-- The derives of the older part of a log come first. -/
theorem derivations_append (newer older : Log SiteCall SiteAnswer PyError ι) :
    ∃ later, derivations settings k fragile σ (newer ++ older) =
      later ++ derivations settings k fragile σ older := by
  induction newer with
  | nil => exact ⟨[], rfl⟩
  | cons entry newer ih =>
    obtain ⟨later, hlater⟩ := ih
    rw [List.cons_append, derivations]
    split
    · exact ⟨_ :: later, by rw [hlater, List.cons_append]⟩
    · exact ⟨later, hlater⟩

/-- The derive of an entry that stored a result. -/
theorem derivedAt_split {newer older : Log SiteCall SiteAnswer PyError ι}
    {entry : ι × SiteEvent} (hlog : log = newer ++ entry :: older)
    (hderives : derivesObject k entry.2 = true) :
    derivedAt settings k fragile σ log (derivations settings k fragile σ older).length =
      (site settings fragile).after σ older := by
  obtain ⟨later, hlater⟩ : ∃ later, derivations settings k fragile σ (newer ++ entry :: older) =
      later ++ derivations settings k fragile σ (entry :: older) :=
    derivations_append newer (entry :: older)
  rw [derivations, if_pos hderives] at hlater
  rw [derivedAt, hlog, hlater]
  simp

/-- While only the sharing requests write the object, it goes through the states of its machine. -/
theorem objectAt_tracks {shares : ι → Prop} (hreads : ∀ entry ∈ log, entry.2.call.Reads)
    (hothers : ∀ entry ∈ log, ¬ shares entry.1 → entry.2.call.Leaves k)
    (hpossible : Along (fun older entry =>
      (site settings fragile).possible ((site settings fragile).after σ older) entry.2) log) :
    Tracks (objectSite settings k (derivedAt settings k fragile σ log)) shares
      (objectAt settings k fragile σ) log := by
  refine along_of_split (fun newer entry older hlog => ?_)
  have hmem : entry ∈ log := by
    rw [hlog]
    exact List.mem_append_right newer List.mem_cons_self
  refine ⟨fun _ => ⟨?_, ?_⟩, fun hnot => ?_⟩
  · obtain ⟨i, c, r⟩ := entry
    rw [hlog] at hpossible
    cases r with
    | error e => trivial
    | ok a => exact ⟨_, rfl, hpossible.older.1⟩
  · rw [← dataset_after _ _ rfl (hreads entry hmem) (derivedAt_split hlog)]
    simp only [objectAt, derivations, Machine.after_cons]
    cases derivesObject k entry.2 <;> rfl
  · obtain ⟨hdataset, hderives⟩ : (((site settings fragile).after σ older).after settings
        entry.2).dataset k = ((site settings fragile).after σ older).dataset k ∧
        derivesObject k entry.2 = false :=
      dataset_after_of_leaves (hreads entry hmem) (hothers entry hmem hnot)
    simp only [objectAt, derivations, Machine.after_cons, hderives]
    exact congrArg (ObjectState.mk · _) hdataset

end

end

end Memcove
