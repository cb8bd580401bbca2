import Memcove.Flight.Server

/-!
# Flight authority is confined to what the control plane granted

Every envelope in circulation carries, up to key order, a command that the control plane minted
for a resolved caller; re-issuing keeps the command. The accept paths re-normalise the tenant and
the label of the command, which leaves names that were resolved before unchanged.
-/

namespace Memcove

open Json Runs

/-- A given optional text is a text. -/
theorem given_some {v : Option String} (h : given v = true) : v = some (v.getD "") := by
  cases v with
  | none => simp [given] at h
  | some text => rfl

section

variable [Python]

/-- `cmd[key]` is `cmd.get(key)` when it does not raise. -/
theorem requireKey_ok {cmd : Fields} {key : String} {v : Json} (h : requireKey cmd key = .ok v) :
    get cmd key = v := by
  unfold requireKey at h
  split at h
  · rename_i found hfound
    cases h
    rw [Json.get, hfound, Option.getD_some]
  · cases h

/-- The label of a command is that of its text. -/
theorem commandLabel_ok {cmd : Fields} {label : String} (h : commandLabel cmd = .ok label) :
    ∃ name, get cmd "name" = .str name ∧ validateLabel name = .ok label := by
  obtain ⟨v, hv, h⟩ := bind_eq_ok h
  cases v with
  | str name => exact ⟨name, requireKey_ok hv, h⟩
  | _ =>
    dsimp only at h
    split at h <;> cases h

/-- The label of a command whose name is a text. -/
theorem commandLabel_text {cmd : Fields} {raw : String} (hname : get cmd "name" = .str raw) :
    commandLabel cmd = validateLabel raw := by
  have hrequire : requireKey cmd "name" = .ok (.str raw) := by
    rw [requireKey, dictGet_of_get hname (by simp)]
  rw [commandLabel, hrequire]
  rfl

/-- A command that names a namespace is a command for that namespace. -/
theorem commandTenant_namespace {settings : Settings} {cmd : Fields} {tenant : String}
    (hget : get cmd "tenant" = .str tenant) (hns : IsNamespace tenant) :
    commandTenant settings cmd = .ok tenant := by
  unfold commandTenant
  rw [hget]
  exact normalizeTenant_namespace hns

/-- A label that was validated before validates to itself, and to nothing else. -/
theorem validateLabel_twice {name label again : String} (h : validateLabel name = .ok label)
    (hagain : validateLabel label = .ok again) : again = label := by
  rw [validateLabel_label (validateLabel_ok h), Except.ok.injEq] at hagain
  exact hagain.symm

/-- What `open_ingest_stream` mints. -/
theorem openIngestStream_ok [Sha256] {settings : Settings} {caller : Caller} {name : String}
    {mode : IngestMode} {cmd : Fields} (h : openIngestStream settings caller name mode = .ok cmd) :
    ∃ tenant label, callerTenant settings caller = .ok tenant ∧
      validateLabel name = .ok label ∧ cmd = ingestCommand tenant label mode.text := by
  obtain ⟨tenant, htenant, h⟩ := bind_eq_ok h
  obtain ⟨label, hlabel, h⟩ := bind_eq_ok h
  cases h
  exact ⟨tenant, label, htenant, hlabel, rfl⟩

/-- The two ways in which `do_get` and `get_flight_info` read a command. -/
inductive ReadsAs [Sqlglot] (settings : Settings) (cmd : Fields) (tenant : String) :
    List Token → Prop
  | dataset {name label guarded} : get cmd "op" = .str "read" → get cmd "name" = .str name →
      validateLabel name = .ok label →
      validateSelect (flightParams settings tenant) ("SELECT * FROM " ++ label) = .ok guarded →
      ReadsAs settings cmd tenant guarded.sql
  | query {sql guarded} : get cmd "op" = .str "query" → get cmd "sql" = .str sql →
      validateSelect (flightParams settings tenant) sql = .ok guarded →
      ReadsAs settings cmd tenant guarded.sql

section

variable [Sqlglot] {settings : Settings} {cmd : Fields} {tenant : String} {sql : List Token}

/-- A command that is read is one of the two read operations. -/
theorem ReadsAs.op (h : ReadsAs settings cmd tenant sql) :
    get cmd "op" = .str "read" ∨ get cmd "op" = .str "query" := by
  cases h with
  | dataset hop => exact Or.inl hop
  | query hop => exact Or.inr hop

/-- A `read` command reads its dataset behind the guard. -/
theorem ReadsAs.of_read (h : ReadsAs settings cmd tenant sql) (hop : get cmd "op" = .str "read")
    {given : String} (hname : get cmd "name" = .str given) :
    ∃ label guarded, validateLabel given = .ok label ∧
      validateSelect (flightParams settings tenant) ("SELECT * FROM " ++ label) = .ok guarded ∧
      sql = guarded.sql := by
  cases h with
  | dataset _ hgiven hlabel hguarded =>
    rw [hname, Json.str.injEq] at hgiven
    subst hgiven
    exact ⟨_, _, hlabel, hguarded, rfl⟩
  | query hquery => simp [hop] at hquery

/-- A `query` command reads its SQL behind the guard. -/
theorem ReadsAs.of_query (h : ReadsAs settings cmd tenant sql)
    (hop : get cmd "op" = .str "query") {given : String} (hsql : get cmd "sql" = .str given) :
    ∃ guarded, validateSelect (flightParams settings tenant) given = .ok guarded ∧
      sql = guarded.sql := by
  cases h with
  | dataset hread => simp [hop] at hread
  | query _ hgiven hguarded =>
    rw [hsql, Json.str.injEq] at hgiven
    subst hgiven
    exact ⟨_, hguarded, rfl⟩

end

/-- What a validated query is: the command's tenant, and its dataset or SQL behind the guard. -/
theorem validatedQuery_ok [Sqlglot] {settings : Settings} {cmd : Fields} {tenant : String}
    {sql : List Token} (h : validatedQuery settings cmd = .ok (tenant, sql)) :
    commandTenant settings cmd = .ok tenant ∧ ReadsAs settings cmd tenant sql := by
  obtain ⟨tenant', htenant, h⟩ := bind_eq_ok h
  dsimp only at h
  split at h
  · rename_i hop
    obtain ⟨label, hlabel, h⟩ := bind_eq_ok h
    obtain ⟨guarded, hguarded, h⟩ := bind_eq_ok h
    cases h
    obtain ⟨name, hname, hlabel⟩ := commandLabel_ok hlabel
    exact ⟨htenant, .dataset (isStr_iff.mp hop) hname hlabel hguarded⟩
  · split at h
    · rename_i hop
      obtain ⟨v, hv, h⟩ := bind_eq_ok h
      obtain ⟨text, htext, h⟩ := bind_eq_ok h
      obtain ⟨guarded, hguarded, h⟩ := bind_eq_ok h
      cases h
      rw [expectStr_ok htext] at hv
      exact ⟨htenant, .query (isStr_iff.mp hop) (requireKey_ok hv) hguarded⟩
    · cases h

/-- What `stream_dataset` mints: a read command for a label or a query command for a text, for
the caller's tenant. -/
inductive StreamsAs [Sha256] (settings : Settings) (caller : Caller) :
    Option String → Option String → Fields → Prop
  | dataset {name sql tenant label} : callerTenant settings caller = .ok tenant →
      validateLabel name = .ok label →
      StreamsAs settings caller (some name) sql (readCommand tenant label)
  | query {name sql tenant} : callerTenant settings caller = .ok tenant →
      StreamsAs settings caller name (some sql) (queryCommand tenant sql)

/-- `stream_dataset` mints such a command only. -/
theorem streamDataset_ok [Sha256] [Sqlglot] {settings : Settings} {caller : Caller}
    {name sql : Option String} {cmd : Fields}
    (h : streamDataset settings caller name sql = .ok cmd) :
    StreamsAs settings caller name sql cmd := by
  unfold streamDataset at h
  split at h
  · cases h
  · rename_i hone
    obtain ⟨tenant, htenant, h⟩ := bind_eq_ok h
    split at h
    · rename_i hname
      obtain ⟨label, hlabel, h⟩ := bind_eq_ok h
      cases h
      rw [given_some hname]
      exact .dataset htenant hlabel
    · rename_i hname
      obtain ⟨guarded, _, h⟩ := bind_eq_ok h
      cases h
      have hsql : given sql = true := by
        cases hgiven : given sql with
        | true => rfl
        | false => simp_all
      rw [given_some hsql]
      exact .query htenant

/-- What `do_get` serves. -/
theorem doGet_ok [Sqlglot] [Orjson] [Hmac] {settings : Settings} {now : Int} {raw : Bytes}
    {cmd : Fields} {tenant : String}
    {sql : List Token} (hverify : verify settings now raw = .ok cmd)
    (h : doGet settings now raw = .ok (tenant, sql)) :
    commandTenant settings cmd = .ok tenant ∧ ReadsAs settings cmd tenant sql := by
  unfold doGet at h
  rw [hverify] at h
  split at h
  · rename_i query hquery
    cases h
    exact validatedQuery_ok hquery
  · cases h

/-- What `do_put` writes to. -/
theorem doPutTarget_ok [Orjson] [Hmac] {settings : Settings} {now : Int} {raw : Bytes}
    {cmd : Fields}
    {tenant label : String} {mode : Json} (hverify : verify settings now raw = .ok cmd)
    (h : doPutTarget settings now raw = .ok (tenant, label, mode)) :
    get cmd "op" = .str "ingest" ∧ commandTenant settings cmd = .ok tenant ∧
      (∃ name, get cmd "name" = .str name ∧ validateLabel name = .ok label) ∧
      mode = (dictGet cmd "mode").getD (.str "create") := by
  unfold doPutTarget at h
  rw [hverify] at h
  change (if _ then _ else _) = _ at h
  split at h
  · cases h
  · rename_i hop
    obtain ⟨tenant', htenant, h⟩ := bind_eq_ok h
    obtain ⟨label', hlabel, h⟩ := bind_eq_ok h
    cases h
    have hop' : get cmd "op" = .str "ingest" := isStr_iff.mp (by simpa using hop)
    exact ⟨hop', htenant, commandLabel_ok hlabel, rfl⟩

/-- A re-issued ticket is signed for a validated query. -/
theorem getFlightInfo_ok [Sqlglot] [Orjson] [Hmac] {settings : Settings} {now : Int}
    {nonce : String} {raw out : Bytes} {cmd : Fields} (hverify : verify settings now raw = .ok cmd)
    (h : getFlightInfo settings now nonce raw = .ok out) :
    ∃ tenant sql, ReadsAs settings cmd tenant sql := by
  obtain ⟨cmd', hcmd, h⟩ := bind_eq_ok h
  rw [hverify, Except.ok.injEq] at hcmd
  subst hcmd
  obtain ⟨⟨tenant, sql⟩, hquery, _⟩ := bind_eq_ok h
  exact ⟨tenant, sql, (validatedQuery_ok hquery).2⟩

/-- The command and the expiry that presented bytes verify with are those of the envelope whose
signature they carry. -/
theorem verify_carried [Orjson] [Hmac] {settings : Settings} {now : Int} {raw : Bytes}
    {origin : Signed} {cmd : Fields} (hcarries : Carries raw origin)
    (hverify : verify settings now raw = .ok cmd) :
    SameUpToOrder (.obj cmd) (get origin.env "cmd") ∧
      (∀ deadline, get origin.env "exp" = .int deadline → now ≤ deadline) := by
  obtain ⟨outer, env, signature, text, hdecode, hparts, htext, horigin⟩ := hcarries
  obtain ⟨outer', env', signature', exp, hdecode', hparts', _, hexp, hnow, hcmd⟩ :=
    verify_ok hverify
  rw [hdecode, Except.ok.injEq] at hdecode'
  subst hdecode'
  rw [hparts, Option.some.injEq, Prod.mk.injEq] at hparts'
  obtain ⟨rfl, rfl⟩ := hparts'
  have hsame := canon_injective htext horigin
  constructor
  · rw [← hcmd]
    exact hsame.get "cmd"
  · intro deadline hdeadline
    have hget : get env "exp" = .int deadline := (hdeadline ▸ hsame.get "exp").eq_int
    rw [dictGet_of_get hget Json.noConfusion, Option.getD_some, toInt, Except.ok.injEq] at hexp
    rwa [hexp]

variable [Sha256] [Sqlglot]

/-- The envelope carries, up to key order, a command that a logged event minted. Unless the Flight
server re-issued it, it expires when the minted ticket does; a re-issued one carries no ingest. -/
def Backed (settings : Settings) (log : List Event) (s : Signed) : Prop :=
  ∃ e ∈ log, ∃ minted t, e.Mints settings minted t ∧
    SameUpToOrder (get s.env "cmd") (.obj minted) ∧
    s.deadline = t + settings.flightTicketTtlSeconds ∧
    (s.reissued = false → get s.env "exp" = .int s.deadline) ∧
    (s.reissued = true → get minted "op" ≠ .str "ingest")

/-- A longer log backs what a shorter one does. -/
theorem Backed.cons {settings : Settings} {log : List Event} {s : Signed} {e : Event}
    (h : Backed settings log s) : Backed settings (e :: log) s := by
  obtain ⟨e', he, h⟩ := h
  exact ⟨e', List.mem_cons_of_mem _ he, h⟩

/-- A presented command is a minted one, up to key order. -/
theorem Backed.presented [Orjson] [Hmac] {settings : Settings} {log : List Event} {now : Int}
    {raw : Bytes}
    {origin : Signed} {cmd : Fields} (h : Backed settings log origin)
    (hcarries : Carries raw origin) (hverify : verify settings now raw = .ok cmd) :
    ∃ e ∈ log, ∃ minted t, e.Mints settings minted t ∧ SameUpToOrder (.obj cmd) (.obj minted) ∧
      origin.deadline = t + settings.flightTicketTtlSeconds ∧
      (origin.reissued = false → now ≤ origin.deadline) ∧
      (origin.reissued = true → get minted "op" ≠ .str "ingest") := by
  obtain ⟨e, he, minted, t, hmints, hsame, hdeadline, hexp, hop⟩ := h
  obtain ⟨hcmd, hnow⟩ := verify_carried hcarries hverify
  exact ⟨e, he, minted, t, hmints, Eq.trans hcmd hsame, hdeadline,
    fun hfirst => hnow _ (hexp hfirst), hop⟩

/-- The envelope of a freshly minted command is backed by the event that minted it. -/
theorem backed_minted {settings : Settings} {log : List Event} {e : Event} {now : Int}
    {nonce : String} {cmd : Fields} (hmints : e.Mints settings cmd now) :
    Backed settings (e :: log)
      ⟨envelope settings now nonce cmd, now + settings.flightTicketTtlSeconds, false⟩ :=
  ⟨e, List.mem_cons_self, cmd, now, hmints, rfl, rfl, fun _ => rfl, fun h => Bool.noConfusion h⟩

/-- Every step keeps every signed envelope backed. -/
theorem backed_step [Orjson] [Hmac] {settings : Settings} {w w' : World} {a : Action}
    (hinv : ∀ s ∈ w.signed, Backed settings w.log s) (hstep : FlightStep settings w a w') :
    ∀ s ∈ w'.signed, Backed settings w'.log s := by
  cases hstep with
  | streamDataset hcmd _ =>
    intro s hs
    rcases List.mem_cons.mp hs with rfl | hs
    · exact backed_minted ⟨hcmd, rfl⟩
    · exact (hinv s hs).cons
  | openIngestStream hcmd _ =>
    intro s hs
    rcases List.mem_cons.mp hs with rfl | hs
    · exact backed_minted ⟨hcmd, rfl⟩
    · exact (hinv s hs).cons
  | getFlightInfo horigin hcarries hverify hinfo =>
    intro s hs
    rcases List.mem_cons.mp hs with rfl | hs
    · obtain ⟨e, he, minted, t, hmints, hsame, hdeadline, _, _⟩ :=
        (hinv _ horigin).presented hcarries hverify
      refine ⟨e, he, minted, t, hmints, hsame, hdeadline, fun h => Bool.noConfusion h,
        fun _ hop => ?_⟩
      obtain ⟨tenant, sql, hreads⟩ := getFlightInfo_ok hverify hinfo
      have hcmd := hsame.get "op"
      rw [hop] at hcmd
      have hread := hreads.op
      rw [hcmd.eq_str] at hread
      simp at hread
    · exact hinv s hs
  | doGet => exact fun s hs => (hinv s hs).cons
  | doPut => exact fun s hs => (hinv s hs).cons

/-- Some earlier `stream_dataset` call of a caller of the tenant named the dataset or the SQL that
the text reads behind the guard, and the presented command is the one minted for it. -/
def GrantedRead (settings : Settings) (earlier : List Event) (tenant : String)
    (sql : List Token) (cmd : Fields) : Prop :=
  ∃ caller name text t, .streamed caller name text t ∈ earlier ∧
    callerTenant settings caller = .ok tenant ∧
    ((∃ given label guarded, name = some given ∧ validateLabel given = .ok label ∧
        SameUpToOrder (.obj cmd) (.obj (readCommand tenant label)) ∧
        validateSelect (flightParams settings tenant) ("SELECT * FROM " ++ label) = .ok guarded ∧
        sql = guarded.sql) ∨
      ∃ given guarded, text = some given ∧
        SameUpToOrder (.obj cmd) (.obj (queryCommand tenant given)) ∧
        validateSelect (flightParams settings tenant) given = .ok guarded ∧ sql = guarded.sql)

/-- Some earlier `open_ingest_stream` call of a caller of the tenant named the label and the mode,
and the presented command is the one minted for it. -/
def GrantedWrite (settings : Settings) (earlier : List Event) (tenant label : String)
    (mode : Json) (cmd : Fields) : Prop :=
  ∃ caller name m t, .opened caller name m t ∈ earlier ∧
    callerTenant settings caller = .ok tenant ∧ validateLabel name = .ok label ∧
    mode = .str m.text ∧ SameUpToOrder (.obj cmd) (.obj (ingestCommand tenant label m.text))

/-- Everything served was granted before to a caller of the same tenant. -/
def Confined (settings : Settings) : List Event → Prop
  | [] => True
  | .got tenant sql cmd _ :: earlier =>
    GrantedRead settings earlier tenant sql cmd ∧ Confined settings earlier
  | .put tenant label mode cmd _ :: earlier =>
    GrantedWrite settings earlier tenant label mode cmd ∧ Confined settings earlier
  | _ :: earlier => Confined settings earlier

/-- A read or a query is accepted only with a command minted by `stream_dataset`, and serves what
that call named. -/
theorem grantedRead_of_minted {settings : Settings} {log : List Event} {e : Event}
    {cmd minted : Fields} {t : Int} {tenant : String} {sql : List Token} (he : e ∈ log)
    (hmints : e.Mints settings minted t) (hsame : SameUpToOrder (.obj cmd) (.obj minted))
    (htenant : commandTenant settings cmd = .ok tenant) (hreads : ReadsAs settings cmd tenant sql) :
    GrantedRead settings log tenant sql cmd := by
  have htenantOf {tenant' : String} (hget : get minted "tenant" = .str tenant')
      (hns : IsNamespace tenant') : tenant' = tenant := by
    have hcmd := (hget ▸ hsame.get "tenant").eq_str
    rw [commandTenant_namespace hcmd hns, Except.ok.injEq] at htenant
    exact htenant
  cases e with
  | streamed caller name text now =>
    cases streamDataset_ok hmints.1 with
    | dataset hcaller hlabel =>
      have heq := htenantOf rfl (callerTenant_ok hcaller)
      subst heq
      have hread : get cmd "op" = .str "read" := (hsame.get "op").eq_str
      have hname : get cmd "name" = .str _ := (hsame.get "name").eq_str
      obtain ⟨_, guarded, hagain, hguarded, hsql⟩ := hreads.of_read hread hname
      have hlabels := validateLabel_twice hlabel hagain
      subst hlabels
      exact ⟨caller, _, text, now, he, hcaller,
        Or.inl ⟨_, _, guarded, rfl, hlabel, hsame, hguarded, hsql⟩⟩
    | query hcaller =>
      have heq := htenantOf rfl (callerTenant_ok hcaller)
      subst heq
      have hquery : get cmd "op" = .str "query" := (hsame.get "op").eq_str
      have hminted : get cmd "sql" = .str _ := (hsame.get "sql").eq_str
      obtain ⟨guarded, hguarded, hsql⟩ := hreads.of_query hquery hminted
      exact ⟨caller, name, _, now, he, hcaller, Or.inr ⟨_, guarded, rfl, hsame, hguarded, hsql⟩⟩
  | opened caller name mode now =>
    obtain ⟨_, _, _, _, rfl⟩ := openIngestStream_ok hmints.1
    have hingest : get cmd "op" = .str "ingest" := (hsame.get "op").eq_str
    have hop := hreads.op
    simp [hingest] at hop
  | got => exact hmints.elim
  | put => exact hmints.elim

/-- An upload is accepted only with a command minted by `open_ingest_stream`, and writes where
that call said. -/
theorem grantedWrite_of_minted {settings : Settings} {log : List Event} {e : Event}
    {cmd minted : Fields} {t : Int} {tenant label name : String} {mode : Json} (he : e ∈ log)
    (hmints : e.Mints settings minted t) (hsame : SameUpToOrder (.obj cmd) (.obj minted))
    (hop : get cmd "op" = .str "ingest") (htenant : commandTenant settings cmd = .ok tenant)
    (hname : get cmd "name" = .str name) (hlabel : validateLabel name = .ok label)
    (hmode : mode = (dictGet cmd "mode").getD (.str "create")) :
    GrantedWrite settings log tenant label mode cmd := by
  cases e with
  | streamed caller _ text now =>
    cases streamDataset_ok hmints.1 with
    | dataset =>
      have hread : get cmd "op" = .str "read" := (hsame.get "op").eq_str
      simp [hread] at hop
    | query =>
      have hquery : get cmd "op" = .str "query" := (hsame.get "op").eq_str
      simp [hquery] at hop
  | opened caller given m now =>
    obtain ⟨tenant', label', hcaller, hgiven, rfl⟩ := openIngestStream_ok hmints.1
    have hcmdTenant : get cmd "tenant" = .str tenant' := (hsame.get "tenant").eq_str
    have hcmdName : get cmd "name" = .str label' := (hsame.get "name").eq_str
    have hcmdMode : get cmd "mode" = .str m.text := (hsame.get "mode").eq_str
    rw [commandTenant_namespace hcmdTenant (callerTenant_ok hcaller), Except.ok.injEq] at htenant
    subst htenant
    rw [hcmdName, Json.str.injEq] at hname
    subst hname
    have hlabels := validateLabel_twice hgiven hlabel
    subst hlabels
    rw [dictGet_of_get hcmdMode Json.noConfusion, Option.getD_some] at hmode
    exact ⟨caller, given, m, now, he, hcaller, hgiven, hmode, hsame⟩
  | got => exact hmints.elim
  | put => exact hmints.elim

variable [Orjson] [Hmac]

/-- One step keeps the log confined. -/
theorem confined_step {settings : Settings} {w w' : World} {a : Action}
    (hbacked : ∀ s ∈ w.signed, Backed settings w.log s) (hconfined : Confined settings w.log)
    (hstep : FlightStep settings w a w') : Confined settings w'.log := by
  cases hstep with
  | streamDataset => exact hconfined
  | openIngestStream => exact hconfined
  | getFlightInfo => exact hconfined
  | doGet horigin hcarries hverify hget =>
    obtain ⟨e, he, minted, t, hmints, hsame, _⟩ :=
      (hbacked _ horigin).presented hcarries hverify
    obtain ⟨htenant, hreads⟩ := doGet_ok hverify hget
    exact ⟨grantedRead_of_minted he hmints hsame htenant hreads, hconfined⟩
  | doPut horigin hcarries hverify hput =>
    obtain ⟨e, he, minted, t, hmints, hsame, _⟩ :=
      (hbacked _ horigin).presented hcarries hverify
    obtain ⟨hop, htenant, ⟨name, hname, hlabel⟩, hmode⟩ := doPutTarget_ok hverify hput
    exact ⟨grantedWrite_of_minted he hmints hsame hop htenant hname hlabel hmode, hconfined⟩

/-- In every run, whatever bytes are presented, each read and each upload was granted by the
control plane to a caller who resolved to the same tenant. -/
theorem flight_confined {settings : Settings} {w : World}
    (h : (flightSystem settings).Reach (fun _ _ => True) w) : Confined settings w.log := by
  have hinv : (∀ s ∈ w.signed, Backed settings w.log s) ∧ Confined settings w.log := by
    refine h.invariant (I := fun w =>
      (∀ s ∈ w.signed, Backed settings w.log s) ∧ Confined settings w.log) ?_ ?_
    · rintro w rfl
      exact ⟨by simp, trivial⟩
    · intro w a w' ⟨hbacked, hconfined⟩ _ hstep
      exact ⟨backed_step hbacked hstep, confined_step hbacked hconfined hstep⟩
  exact hinv.2

end

section

attribute [local instance] asciiPython constantSha256 plainOrjson plainHmac

/-- A caller behind the trusted-header proxy. -/
def acmeCaller : Caller where
  headers := [("x-memcove-tenant", "acme")]

/-- The command that grants the upload of `events`. -/
def eventsUpload : Fields := ingestCommand "t_acme" "events" "create"

/-- The ticket that the control plane signs for it at time `0`. -/
def eventsTicket : Json :=
  .obj [("env", .obj (envelope {} 0 "00" eventsUpload)), ("sig", .str "c2ln")]

/-- A granted upload is served, and the log is confined. -/
theorem flight_confined_upload :
    let _ : Sqlglot := plainSqlglot []
    ∃ w, (flightSystem {}).Reach (fun _ _ => True) w ∧
      w.log.head? = some (.put "t_acme" "events" (.str "create") eventsUpload 1) ∧
      Confined {} w.log := by
  intro _
  have hcmd : openIngestStream {} acmeCaller "events" .create = .ok eventsUpload := by rfl
  have hsign : sign {} 0 "00" eventsUpload = .ok eventsTicket := by rfl
  have hverify : verify {} 1 eventsTicket = .ok eventsUpload := by rfl
  have htarget : doPutTarget {} 1 eventsTicket = .ok ("t_acme", "events", .str "create") := by
    rfl
  have hopened : (flightSystem {}).Reach (fun _ _ => True)
      ⟨[⟨envelope {} 0 "00" eventsUpload, 300, false⟩], [.opened acmeCaller "events" .create 0]⟩ :=
    .step (.init rfl) trivial (.openIngestStream hcmd hsign)
  have hcarries : Carries eventsTicket ⟨envelope {} 0 "00" eventsUpload, 300, false⟩ :=
    ⟨eventsTicket, envelope {} 0 "00" eventsUpload, "c2ln", _, rfl, rfl, rfl, rfl⟩
  have hput : (flightSystem {}).Reach (fun _ _ => True)
      ⟨[⟨envelope {} 0 "00" eventsUpload, 300, false⟩],
        [.put "t_acme" "events" (.str "create") eventsUpload 1,
          .opened acmeCaller "events" .create 0]⟩ :=
    .step hopened trivial (.doPut List.mem_cons_self hcarries hverify htarget)
  exact ⟨_, hput, rfl, flight_confined hput⟩

end

end Memcove
