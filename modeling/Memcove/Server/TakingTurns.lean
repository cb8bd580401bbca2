import Memcove.Server.Effects

/-!
# Requests that take turns on an object

The requests that write or describe one object may run while any others do. As long as no two of
them overlap, each does to the object what its operation is for, beginning with what the one before
it has left behind, and its response says so.
-/

namespace Memcove

open Programs

section

variable [Python] [Sha256] [Sqlglot] [Orjson] [Hmac] [ObjectStore] [ArrowIo] (settings : Settings)

/-- The object that a request describes. -/
def ServiceRequest.described : ServiceRequest → Option Key
  | tool caller (.inspectDataset name) =>
    (callerTenant settings caller).toOption.bind (fun tenant =>
      (validateLabel name).toOption.map (fun label => (tenant, label)))
  | tool caller (.datasetResource uriTenant name) =>
    (authorizedTenant settings caller uriTenant).toOption.bind (fun tenant =>
      (validateLabel name).toOption.map (fun label => (tenant, label)))
  | _ => none

/-- The request writes, drops or describes the object. -/
def ServiceRequest.Concerns (k : Key) (request : ServiceRequest) : Prop :=
  request.object settings = some k ∨ request.described settings = some k

instance instDecidablePredConcerns (k : Key) :
    DecidablePred (ServiceRequest.Concerns settings k) :=
  fun _ => inferInstanceAs (Decidable (_ ∨ _))

/-- The response of a request that has returned or raised. -/
def responseTo : PyM Response → Response
  | .ok response => response
  | .error exc => .failed exc

/-- The response tells the result of a tool, of which `Q` holds. -/
def Responds {α : Type} (g : α → Response) (Q : PyM α → Prop) (response : Response) : Prop :=
  ∃ r, Q r ∧ response = responseTo (r.map g)

variable [Federation] [Engines] (moment : ℕ → Site) (k : Key)

/-- What a request does to the object, and how it is answered. -/
def ServiceRequest.Acts (o o' : ObjectState) (response : Response) : ServiceRequest → Prop
  | tool _ (.rememberDataset _ source mode _ _) =>
    Responds .object (Ingests (tableFromSource settings source k.1) mode o o') response
  | tool _ (.deriveDataset _ sql mode _ _) =>
    Responds .object (Derives settings moment k sql mode o o') response
  | tool _ (.forgetDataset _) => Responds .forgotten (Drops o o') response
  | doPut raw now schema chunks => ∃ mode, doPutTarget settings now raw = .ok (k.1, k.2, mode) ∧
    Responds (fun _ => .done) (Uploads schema (uploadRows chunks) mode o o') response
  | tool _ (.inspectDataset _) | tool _ (.datasetResource _ _) =>
    Responds .object (Tells (fun object => Describes object o.dataset) o o') response
  | _ => False

end

section

variable [Sqlglot] [Federation] [Engines] {settings : Settings} {k : Key} {moment : ℕ → Site}
  {o : ObjectState} {α : Type}

/-- A request that runs a tool responds with its result. -/
theorem responds_runTool {p : Tool α} {Q : ObjectState → PyM α → Prop}
    (hp : EndsIn (objectMachine settings k moment) o p Q) (g : α → Response) :
    EndsIn (objectSite settings k moment) o (do return g (← runTool p))
      (fun o' r => Responds g (Q o') (responseTo r)) :=
  (endsIn_runTool hp).bind (fun _ a ha => .pure ⟨.ok a, ha, rfl⟩)
    (fun _ e he => ⟨.error e, he, rfl⟩)

/-- So does one that finds out its tenant first. -/
theorem responds_for {x : PyM String} (hx : x = .ok k.1) {p : String → Tool α}
    {Q : ObjectState → PyM α → Prop}
    (hp : EndsIn (objectMachine settings k moment) o (p k.1) Q) (g : α → Response) :
    EndsIn (objectSite settings k moment) o (do
      let tenant ← Program.lift x
      return g (← runTool (p tenant)))
      (fun o' r => Responds g (Q o') (responseTo r)) := by
  subst hx
  exact responds_runTool hp g

end

section

variable [Python] [Sha256] [Sqlglot] [Orjson] [Hmac] [ObjectStore] [ArrowIo] [Federation] [Engines]
  [Backend] {settings : Settings} {k : Key} {moment : ℕ → Site} {o : ObjectState}

omit [Sha256] [Sqlglot] [Orjson] [Hmac] [ObjectStore] [ArrowIo] [Federation] [Engines] [Backend] in
/-- The object of a label in the namespace of a tenant. -/
theorem key_of_label {tenant name : String}
    (h : (validateLabel name).toOption.map (fun label => (tenant, label)) = some k) :
    tenant = k.1 ∧ validateLabel name = .ok k.2 := by
  obtain ⟨label, hlabel, rfl⟩ := Option.map_eq_some_iff.mp h
  exact ⟨rfl, toOption_eq_some.mp hlabel⟩

omit [Sha256] [Sqlglot] [Orjson] [Hmac] [ObjectStore] [ArrowIo] [Federation] [Engines] [Backend] in
/-- The object of a label that is written in the lakehouse. -/
theorem key_of_target {tenant name target : String}
    (h : (if target = "lakehouse" then
      (validateLabel name).toOption.map (fun label => (tenant, label)) else none) = some k) :
    target = "lakehouse" ∧ tenant = k.1 ∧ validateLabel name = .ok k.2 := by
  split at h
  · rename_i htarget
    exact ⟨htarget, key_of_label h⟩
  · cases h

/-- A request that writes or drops the object. -/
theorem ServiceRequest.serve_writes {request : ServiceRequest}
    (hobject : request.object settings = some k) :
    EndsIn (objectSite settings k moment) o (request.serve settings)
      (fun o' r => request.Acts settings moment k o o' (responseTo r)) := by
  obtain ⟨op, hop, hk⟩ := Option.bind_eq_some_iff.mp hobject
  cases request with
  | tool caller request =>
    cases request with
    | rememberDataset name source mode tags target =>
      obtain ⟨tenant, htenant, rfl⟩ := Option.map_eq_some_iff.mp hop
      obtain ⟨rfl, rfl, hname⟩ := key_of_target hk
      exact responds_for (toOption_eq_some.mp htenant) (ingestObject_acts hname _ mode tags) _
    | deriveDataset newName sql mode tags target =>
      obtain ⟨tenant, htenant, rfl⟩ := Option.map_eq_some_iff.mp hop
      obtain ⟨rfl, rfl, hname⟩ := key_of_target hk
      exact responds_for (toOption_eq_some.mp htenant) (deriveObject_acts hname sql mode tags) _
    | forgetDataset name =>
      obtain ⟨tenant, htenant, rfl⟩ := Option.map_eq_some_iff.mp hop
      obtain ⟨rfl, hname⟩ := key_of_label hk
      exact responds_for (toOption_eq_some.mp htenant)
        (p := fun tenant => dropObject tenant name) (dropObject_acts hname) _
    | _ => cases hop
  | doPut raw now schema chunks =>
    obtain rfl := Option.some.inj hop
    obtain ⟨⟨tenant, name, mode⟩, htarget, rfl⟩ := Option.map_eq_some_iff.mp hk
    have hput : EndsIn (objectMachine settings (tenant, name) moment) o
        (Memcove.doPut settings (.ok (tenant, name, mode)) chunks)
        (Uploads schema (uploadRows chunks) mode o) := doPut_acts mode chunks
    rw [← toOption_eq_some.mp htarget] at hput
    refine (responds_runTool hput (fun _ => .done)).mono (fun o' r hr => ?_)
    exact ⟨mode, toOption_eq_some.mp htarget, hr⟩
  | _ => cases hop

/-- A request that describes the object. -/
theorem ServiceRequest.serve_describes {request : ServiceRequest}
    (hobject : request.described settings = some k) :
    EndsIn (objectSite settings k moment) o (request.serve settings)
      (fun o' r => request.Acts settings moment k o o' (responseTo r)) := by
  cases request with
  | tool caller request =>
    cases request with
    | inspectDataset name | datasetResource uriTenant name =>
      obtain ⟨tenant, htenant, hk⟩ := Option.bind_eq_some_iff.mp hobject
      obtain ⟨rfl, hname⟩ := key_of_label hk
      exact responds_for (toOption_eq_some.mp htenant)
        (p := fun tenant => describeObject settings tenant name) (describeObject_acts hname) _
    | _ => cases hobject
  | _ => cases hobject

/-- What a request has responded, and what it has done to the object until then. -/
def ServiceRequest.Answered (settings : Settings) (moment : ℕ → Site) (k : Key)
    (request : ServiceRequest) (o : ObjectState) (h : List SiteEvent) : Prop :=
  ∃ response r earlier, h = ⟨.respond response, r⟩ :: earlier ∧
    request.Acts settings moment k o ((objectSite settings k moment).run o h) response

/-- A request about the object, alone with it. -/
theorem ServiceRequest.program_acts {request : ServiceRequest}
    (hconcerns : request.Concerns settings k) :
    Sat (alone (objectSite settings k moment) o)
      (fun h _ => request.Answered settings moment k o h) [] (request.program settings) := by
  have hserve : EndsIn (objectSite settings k moment) o (request.serve settings)
      (fun o' r => request.Acts settings moment k o o' (responseTo r)) :=
    hconcerns.elim serve_writes serve_describes
  refine Sat.bind (Ψ := fun h r => ∃ response, r = .ok response ∧
    request.Acts settings moment k o ((objectSite settings k moment).run o h) response)
    (Sat.tryCatch (hserve o [] rfl) (fun h response hacts => ⟨response, rfl, hacts⟩)
      (fun h exc hacts => ⟨.failed exc, rfl, hacts⟩)) ?_ ?_
  · rintro h result ⟨response, hresponse, hacts⟩
    obtain rfl : result = response := Except.ok.inj hresponse
    exact Sat.perform_bind trivial (fun a _ => ⟨result, .ok a, h, rfl, hacts⟩)
      (fun e _ => ⟨result, .error e, h, rfl, hacts⟩)
  · rintro h e ⟨response, hresponse, _⟩
    cases hresponse

/-- What a request runs as a query only reads. -/
theorem ServiceRequest.program_reads {request : ServiceRequest}
    (hquery : request.ReadOnly settings) :
    Calls SiteCall.Reads TrueSiteHandle (request.program settings) := by
  refine request.program_calls False (fun tenant c _ hc _ => ?_) (fun _ => trivial) hquery
    (fun h => h.elim)
  cases c with
  | select runAs sql wrapping => exact hc.1.2
  | _ => trivial

/-- A request that does not concern the object leaves it alone. -/
theorem ServiceRequest.program_spares {request : ServiceRequest}
    (hquery : request.ReadOnly settings) :
    Calls (fun c => ¬ request.Concerns settings k → c.Leaves k) TrueSiteHandle
      (request.program settings) := by
  by_cases hconcerns : request.Concerns settings k
  · exact (request.program_reads hquery).mono (fun _ _ hnot => absurd hconcerns hnot)
  · have hobject : request.object settings ≠ some k := fun h => hconcerns (Or.inl h)
    exact (request.program_leaves hobject).mono (fun _ hc _ => hc)

/-- What a request of a run has done in its turn: what its calls make of the object that it found,
which is what its response says once it has ended. -/
def ServedInTurn {ι : Type} [DecidableEq ι] (settings : Settings) (moment : ℕ → Site) (k : Key)
    (requests : ι → ServiceRequest) (log : Log SiteCall SiteAnswer PyError ι)
    (threads : ι → SiteProgram Unit) (i : ι) (o o' : ObjectState) : Prop :=
  o' = (objectSite settings k moment).run o (history i log) ∧
    (threads i = .pure () → (requests i).Answered settings moment k o (history i log))

/-- Requests that take turns on an object act on it one after the other, whatever other requests
do at the same time. The queries of their derives are evaluated on the site at that moment. -/
theorem object_serialized {ι : Type} [DecidableEq ι] {fragile : SiteCall → Prop}
    {requests : ι → ServiceRequest} (k : Key) (hqueries : ∀ i, (requests i).ReadOnly settings)
    {σ : Site} {log : Log SiteCall SiteAnswer PyError ι} {threads : ι → SiteProgram Unit}
    (hrun : Run (site settings fragile) (fun i => (requests i).program settings) σ log threads)
    (hturns : TakeTurns (fun i => (requests i).Concerns settings k) log) :
    InTurn (ServedInTurn settings (derivedAt settings k fragile σ log) k requests log threads)
      ⟨σ.dataset k, 0⟩ (turns (fun i => (requests i).Concerns settings k) log)
      (objectAt settings k fragile σ log) := by
  have htracks : Tracks (objectSite settings k (derivedAt settings k fragile σ log))
      (fun i => (requests i).Concerns settings k) (objectAt settings k fragile σ) log :=
    objectAt_tracks
      (hrun.calls (fun i => (requests i).program_reads (hqueries i)) (fun _ _ => trueSiteHandle))
      (hrun.calls (fun i => (requests i).program_spares (hqueries i)) (fun _ _ => trueSiteHandle))
      hrun.possible
  have hserial := hrun.inTurn (fun i hi v => (requests i).program_acts hi) htracks hturns
  refine hserial.mono (fun i _ o o' hturn => ⟨hturn.1, fun hended => ?_⟩)
  have hanswered := hturn.2
  rw [hended] at hanswered
  exact hanswered

end

/-- What is done to the `events` of a tenant. -/
inductive EventsTask where
  | inspect
  | query
  | forget
  deriving DecidableEq

section

attribute [local instance] asciiPython oneTableSqlglot oneTableFederation constantSha256
  emptyStore noArrowIo textEngines externalBackend plainOrjson plainHmac

/-- A tenant inspects its `events`, queries them and forgets them. -/
def inspectQueryForget : EventsTask → ServiceRequest
  | .inspect => .tool acmeCaller (.inspectDataset "events")
  | .query => .tool acmeCaller (.queryMemory "SELECT * FROM events" none)
  | .forget => .tool acmeCaller (.forgetDataset "events")

/-- The query starts during the inspection and ends after the object is forgotten. -/
def inspectQueryForgetSchedule : List (EventsTask × Option PyError) :=
  ([.inspect, .inspect, .query] ++ List.replicate 12 .inspect ++ List.replicate 6 .forget ++
    [.query] : List EventsTask).map (fun task => (task, none))

/-- The run of the requests in this order. -/
def inspectQueryForgetRun :
    Log SiteCall SiteAnswer PyError EventsTask × (EventsTask → SiteProgram Unit) :=
  play (site {} (fun _ => True)) (siteAnswer {}) twoTenantsSite inspectQueryForgetSchedule []
    (fun i => (inspectQueryForget i).program {})

/-- It is a run. -/
theorem inspectQueryForgetRun_run :
    Run (site {} (fun _ => True)) (fun i => (inspectQueryForget i).program {}) twoTenantsSite
      inspectQueryForgetRun.1 inspectQueryForgetRun.2 := playSite_run _

/-- The object is inspected and then forgotten, and both requests are answered. -/
theorem inspectQueryForget_serialized :
    (inspectQueryForgetRun.2 .inspect = .pure () ∧ inspectQueryForgetRun.2 .forget = .pure ()) ∧
      turns (fun i => (inspectQueryForget i).Concerns {} ("t_acme", "events"))
        inspectQueryForgetRun.1 = [.forget, .inspect] ∧
      (objectAt {} ("t_acme", "events") (fun _ => True) twoTenantsSite
        inspectQueryForgetRun.1).dataset.isNone = true ∧
      InTurn (ServedInTurn {} (derivedAt {} ("t_acme", "events") (fun _ => True) twoTenantsSite
          inspectQueryForgetRun.1) ("t_acme", "events") inspectQueryForget
          inspectQueryForgetRun.1 inspectQueryForgetRun.2)
        ⟨twoTenantsSite.dataset ("t_acme", "events"), 0⟩
        (turns (fun i => (inspectQueryForget i).Concerns {} ("t_acme", "events"))
          inspectQueryForgetRun.1)
        (objectAt {} ("t_acme", "events") (fun _ => True) twoTenantsSite
          inspectQueryForgetRun.1) := by
  refine ⟨⟨rfl, rfl⟩, by decide +kernel, by decide +kernel, ?_⟩
  refine object_serialized ("t_acme", "events") (fun i => ?_) inspectQueryForgetRun_run
    (by decide +kernel)
  cases i with
  | inspect | forget => exact fun _ h => by cases h
  | query =>
    rintro _ ⟨⟩
    exact selectEvents_onlyReads

end

end Memcove
