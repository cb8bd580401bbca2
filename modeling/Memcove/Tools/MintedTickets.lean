import Memcove.Flight.Lifetime
import Memcove.Flight.Verification
import Memcove.Tools.ByName

/-!
# Minted tickets are honoured

The control plane validates a caller's request and signs a command; the Flight server verifies the
bytes, normalises the tenant, validates the label and runs the guard once more. What the one side
validated is what the other side serves, except for a read by a name that is not parsed.
-/

namespace Memcove

open Json

/-- A value made of texts, integers and objects without repeated keys. -/
inductive Json.Textual : Json → Prop
  | str (s : String) : Textual (.str s)
  | int (i : Int) : Textual (.int i)
  | obj {fields : Fields} : (fields.map Prod.fst).Nodup → (∀ f ∈ fields, Textual f.2) →
      Textual (.obj fields)

/-- A request for a ticket, as `stream_dataset` and `open_ingest_stream` receive it. -/
inductive TicketRequest where
  | stream (name sql : Option String)
  | ingest (name : String) (mode : IngestMode)

section

variable [Python] [Orjson]

/-- The JSON library decodes its own encoding of such values. -/
def DecodesOwn : Prop :=
  ∀ v raw, v.Textual → Orjson.dumps v = .ok raw → Orjson.loads raw = .ok v

variable [Hmac]

/-- A signed ticket verifies until it expires. -/
theorem verify_sign (hdecodes : DecodesOwn) {settings : Settings}
    (hdigest : ∀ text, isAscii (Hmac.digest settings.flightTicketSecret text) = true)
    {now later : Int} {nonce : String} {cmd : Fields} {raw : Bytes}
    (hcmd : (Json.obj cmd).Textual) (hsign : sign settings now nonce cmd = .ok raw)
    (hlater : later ≤ now + settings.flightTicketTtlSeconds) :
    verify settings later raw = .ok cmd := by
  obtain ⟨signature, hsig, hencode⟩ := bind_eq_ok hsign
  have henv : (Json.obj (envelope settings now nonce cmd)).Textual := by
    refine .obj (by simp [envelope]) ?_
    simp only [envelope, List.forall_mem_cons, List.not_mem_nil, false_imp_iff, implies_true,
      and_true]
    exact ⟨hcmd, .int _, .str _⟩
  have hticket : (Json.obj [("env", .obj (envelope settings now nonce cmd)),
      ("sig", .str signature)]).Textual := by
    refine .obj (by simp) ?_
    simp only [List.forall_mem_cons, List.not_mem_nil, false_imp_iff, implies_true, and_true]
    exact ⟨henv, .str _⟩
  have hdecode : decode raw = .ok _ := hdecodes _ _ hticket hencode
  have hparts : ticketParts (.obj [("env", .obj (envelope settings now nonce cmd)),
      ("sig", .str signature)]) = some (envelope settings now nonce cmd, signature) := rfl
  obtain ⟨text, _, hsignature⟩ := bind_eq_ok hsig
  have hascii : isAscii signature = true := by
    cases hsignature
    exact hdigest text
  have hexp : ((dictGet (envelope settings now nonce cmd) "exp").getD (.int 0)).toInt =
      .ok (now + settings.flightTicketTtlSeconds) := rfl
  have hget : get (envelope settings now nonce cmd) "cmd" = .obj cmd := rfl
  rw [verify_eq_checkedCommand hdecode hparts, hsig]
  change checkedCommand later _ (compareDigest signature signature) = _
  rw [compareDigest_ascii hascii hascii, beq_self_eq_true, checkedCommand_true, hexp]
  change (if now + settings.flightTicketTtlSeconds < later then _ else _) = _
  rw [if_neg (not_lt.mpr hlater), hget]

variable [Sha256] [Sqlglot]

/-- The command that is minted for a request. -/
def TicketRequest.mint (settings : Settings) (caller : Caller) : TicketRequest → PyM Fields
  | stream name sql => streamDataset settings caller name sql
  | ingest name mode => openIngestStream settings caller name mode

/-- Until it expires, `do_get` serves the query for the ticket, and for every ticket that
`get_flight_info` re-issues for it meanwhile, until that one expires. -/
structure Streams (settings : Settings) (now : Int) (raw : Bytes) (tenant : String)
    (guarded : GuardedQuery) : Prop where
  served : ∀ later, later ≤ now + settings.flightTicketTtlSeconds →
    doGet settings later raw = .ok (tenant, guarded.sql)
  reissued : ∀ later nonce again, later ≤ now + settings.flightTicketTtlSeconds →
    getFlightInfo settings later nonce raw = .ok again →
    ∀ last, last ≤ later + settings.flightTicketTtlSeconds →
      doGet settings last again = .ok (tenant, guarded.sql)

/-- The ticket leads to what was validated for the request: the guarded query of the text, the
read of the label, or the upload. -/
def TicketRequest.Served (settings : Settings) (caller : Caller) (now : Int) (raw : Bytes) :
    TicketRequest → Prop
  | stream name sql => ∃ tenant guarded, callerTenant settings caller = .ok tenant ∧
      Streams settings now raw tenant guarded ∧
      if given name then ∃ label, validateLabel (name.getD "") = .ok label ∧
        previewQuery settings tenant label = .ok guarded
      else validateSelect (flightParams settings tenant) (sql.getD "") = .ok guarded
  | ingest name mode => ∃ tenant label, callerTenant settings caller = .ok tenant ∧
      validateLabel name = .ok label ∧
      ∀ later, later ≤ now + settings.flightTicketTtlSeconds →
        doPutTarget settings later raw = .ok (tenant, label, .str mode.text)

/-- The request is to read by a name that the parser rejects after `SELECT * FROM`. -/
def TicketRequest.Unparsed : TicketRequest → Prop
  | stream name _ => given name = true ∧ ∃ label, validateLabel (name.getD "") = .ok label ∧
      (Sqlglot.parse (readText label)).isOk = false
  | ingest _ _ => False

omit [Orjson] [Hmac] [Sha256] in
/-- A query command is validated to its query. -/
theorem validatedQuery_query {settings : Settings} {tenant sql : String} {guarded : GuardedQuery}
    (htenant : IsNamespace tenant)
    (hguard : validateSelect (flightParams settings tenant) sql = .ok guarded) :
    validatedQuery settings (queryCommand tenant sql) = .ok (tenant, guarded.sql) := by
  have hcommand : commandTenant settings (queryCommand tenant sql) = .ok tenant :=
    commandTenant_namespace rfl htenant
  have hop : get (queryCommand tenant sql) "op" = .str "query" := rfl
  have hrequire : requireKey (queryCommand tenant sql) "sql" = .ok (.str sql) := rfl
  have hread : (Json.str "query").isStr "read" = false := by simp [isStr]
  have hquery : (Json.str "query").isStr "query" = true := by simp [isStr]
  unfold validatedQuery
  generalize (validateSelect : GuardParams → String → PyM GuardedQuery) = validate at hguard ⊢
  simp only [hcommand, hop, hrequire, hread, hquery, Bool.false_eq_true, if_false, if_true]
  change validate (flightParams settings tenant) sql >>= _ = _
  rw [hguard]
  rfl

omit [Orjson] [Hmac] [Sha256] in
/-- A read command is validated to the query that reads its label, if there is one. -/
theorem validatedQuery_label (settings : Settings) {tenant label : String}
    (htenant : IsNamespace tenant) (hlabel : IsLabel label) :
    validatedQuery settings (readCommand tenant label) =
      (previewQuery settings tenant label).map fun guarded => (tenant, guarded.sql) := by
  have hcommand : commandTenant settings (readCommand tenant label) = .ok tenant :=
    commandTenant_namespace rfl htenant
  have hread : readQuery settings (readCommand tenant label) = previewQuery settings tenant label :=
    readQuery_label htenant (validateLabel_label hlabel) rfl rfl
  rw [validatedQuery_read rfl, hcommand, hread]
  generalize previewQuery settings tenant label = read
  cases read <;> rfl

omit [Sha256] in
/-- A command that is validated is served for its ticket and for every re-issue of it. -/
theorem streams_of_validatedQuery (hdecodes : DecodesOwn) {settings : Settings}
    (hdigest : ∀ text, isAscii (Hmac.digest settings.flightTicketSecret text) = true)
    {now : Int} {nonce tenant : String} {cmd : Fields} {raw : Bytes} {guarded : GuardedQuery}
    (hcmd : (Json.obj cmd).Textual) (hsign : sign settings now nonce cmd = .ok raw)
    (hquery : validatedQuery settings cmd = .ok (tenant, guarded.sql)) :
    Streams settings now raw tenant guarded := by
  have hserve {raw : Bytes} {later : Int} (hverify : verify settings later raw = .ok cmd) :
      doGet settings later raw = .ok (tenant, guarded.sql) := by
    have hbind : verify settings later raw >>= validatedQuery settings =
        .ok (tenant, guarded.sql) := by
      rw [hverify]
      exact hquery
    rw [doGet, hbind]
  refine ⟨fun later hlater => hserve (verify_sign hdecodes hdigest hcmd hsign hlater), ?_⟩
  intro later nonce' again hlater hagain last hlast
  obtain ⟨cmd', hverify, hagain⟩ := bind_eq_ok hagain
  obtain ⟨_, _, hsign'⟩ := bind_eq_ok hagain
  rw [verify_sign hdecodes hdigest hcmd hsign hlater, Except.ok.injEq] at hverify
  subst hverify
  exact hserve (verify_sign hdecodes hdigest hcmd hsign' hlast)

omit [Sha256] [Sqlglot] in
/-- The upload of a ticket is that of its command. -/
theorem doPutTarget_ingest (hdecodes : DecodesOwn) {settings : Settings}
    (hdigest : ∀ text, isAscii (Hmac.digest settings.flightTicketSecret text) = true)
    {now later : Int} {nonce tenant label mode : String} {raw : Bytes}
    (htenant : IsNamespace tenant) (hlabel : IsLabel label)
    (hcmd : (Json.obj (ingestCommand tenant label mode)).Textual)
    (hsign : sign settings now nonce (ingestCommand tenant label mode) = .ok raw)
    (hlater : later ≤ now + settings.flightTicketTtlSeconds) :
    doPutTarget settings later raw = .ok (tenant, label, .str mode) := by
  have hcommand : commandTenant settings (ingestCommand tenant label mode) = .ok tenant :=
    commandTenant_namespace rfl htenant
  have hname : commandLabel (ingestCommand tenant label mode) = .ok label :=
    (commandLabel_text rfl).trans (validateLabel_label hlabel)
  have hop : get (ingestCommand tenant label mode) "op" = .str "ingest" := rfl
  have hingest : (Json.str "ingest").isStr "ingest" = true := by simp [isStr]
  unfold doPutTarget
  rw [verify_sign hdecodes hdigest hcmd hsign hlater]
  change pure (ingestCommand tenant label mode) >>= _ = _
  rw [pure_bind]
  simp only [hop, hingest, hcommand, hname, Bool.not_true, Bool.false_eq_true, if_false]
  rfl

omit [Orjson] [Hmac] in
/-- What is minted consists of texts. -/
theorem TicketRequest.mint_textual {settings : Settings} {caller : Caller} {request : TicketRequest}
    {cmd : Fields} (h : request.mint settings caller = .ok cmd) : (Json.obj cmd).Textual := by
  cases request with
  | stream name sql =>
    cases streamDataset_ok h with
    | dataset _ _ =>
      refine .obj (by simp [readCommand]) ?_
      simp [readCommand, Textual.str]
    | query _ =>
      refine .obj (by simp [queryCommand]) ?_
      simp [queryCommand, Textual.str]
  | ingest name mode =>
    obtain ⟨_, _, _, _, rfl⟩ := openIngestStream_ok h
    refine .obj (by simp [ingestCommand]) ?_
    simp [ingestCommand, Textual.str]

omit [Orjson] [Hmac] in
/-- What is minted for a name is a read of its label. -/
theorem streamDataset_name {settings : Settings} {caller : Caller} {name sql : Option String}
    {cmd : Fields} (hname : given name = true)
    (h : streamDataset settings caller name sql = .ok cmd) :
    ∃ tenant label, callerTenant settings caller = .ok tenant ∧
      validateLabel (name.getD "") = .ok label ∧ cmd = readCommand tenant label := by
  unfold streamDataset at h
  generalize (validateSelect : GuardParams → String → PyM GuardedQuery) = validate at h
  split at h
  · cases h
  · obtain ⟨tenant, htenant, h⟩ := bind_eq_ok h
    obtain ⟨label, hlabel, h⟩ := bind_eq_ok h
    cases h
    exact ⟨tenant, label, htenant, hlabel, rfl⟩

omit [Orjson] [Hmac] in
/-- What is minted for a text is a query of it, behind the guard. -/
theorem streamDataset_sql {settings : Settings} {caller : Caller} {name sql : Option String}
    {cmd : Fields} (hname : given name = false)
    (h : streamDataset settings caller name sql = .ok cmd) :
    ∃ tenant guarded, callerTenant settings caller = .ok tenant ∧
      validateSelect (flightParams settings tenant) (sql.getD "") = .ok guarded ∧
      cmd = queryCommand tenant (sql.getD "") := by
  unfold streamDataset at h
  split at h
  · cases h
  · obtain ⟨tenant, htenant, h⟩ := bind_eq_ok h
    rw [if_neg (by simp [hname])] at h
    obtain ⟨guarded, hguarded, h⟩ := bind_eq_ok h
    cases h
    exact ⟨tenant, guarded, htenant, hguarded, rfl⟩

section

variable {settings : Settings} {caller : Caller} {name sql : Option String} {now : Int}
  {nonce : String} {cmd : Fields} {raw : Bytes}

/-- A ticket for an upload is served. -/
theorem served_ingest (hdecodes : DecodesOwn)
    (hdigest : ∀ text, isAscii (Hmac.digest settings.flightTicketSecret text) = true)
    {name : String} {mode : IngestMode}
    (hmint : (TicketRequest.ingest name mode).mint settings caller = .ok cmd)
    (hsign : sign settings now nonce cmd = .ok raw) :
    (TicketRequest.ingest name mode).Served settings caller now raw := by
  have hcmd := TicketRequest.mint_textual hmint
  obtain ⟨tenant, label, htenant, hlabel, rfl⟩ := openIngestStream_ok hmint
  refine ⟨tenant, label, htenant, hlabel, fun later hlater => ?_⟩
  exact doPutTarget_ingest hdecodes hdigest (callerTenant_ok htenant) (validateLabel_ok hlabel)
    hcmd hsign hlater

/-- A ticket for a query is served. -/
theorem served_sql (hdecodes : DecodesOwn)
    (hdigest : ∀ text, isAscii (Hmac.digest settings.flightTicketSecret text) = true)
    (hname : given name = false)
    (hmint : (TicketRequest.stream name sql).mint settings caller = .ok cmd)
    (hsign : sign settings now nonce cmd = .ok raw) :
    (TicketRequest.stream name sql).Served settings caller now raw := by
  have hcmd := TicketRequest.mint_textual hmint
  obtain ⟨tenant, guarded, htenant, hguarded, rfl⟩ := streamDataset_sql hname hmint
  refine ⟨tenant, guarded, htenant, ?_, ?_⟩
  · exact streams_of_validatedQuery hdecodes hdigest hcmd hsign
      (validatedQuery_query (callerTenant_ok htenant) hguarded)
  · rw [if_neg (by simp [hname])]
    exact hguarded

/-- A ticket for a name is served if and only if the guard accepts the read of its label. -/
theorem served_name_iff (hdecodes : DecodesOwn)
    (hdigest : ∀ text, isAscii (Hmac.digest settings.flightTicketSecret text) = true)
    (hname : given name = true) {tenant label : String}
    (htenant : callerTenant settings caller = .ok tenant)
    (hlabel : validateLabel (name.getD "") = .ok label)
    (hcmd : (Json.obj (readCommand tenant label)).Textual)
    (hsign : sign settings now nonce (readCommand tenant label) = .ok raw) :
    (TicketRequest.stream name sql).Served settings caller now raw ↔
      ∃ guarded, previewQuery settings tenant label = .ok guarded := by
  have hread := validatedQuery_label settings (callerTenant_ok htenant) (validateLabel_ok hlabel)
  constructor
  · rintro ⟨tenant', guarded, htenant', _, hserved⟩
    rw [if_pos hname] at hserved
    obtain ⟨label', hlabel', hguarded⟩ := hserved
    rw [htenant, Except.ok.injEq] at htenant'
    rw [hlabel, Except.ok.injEq] at hlabel'
    subst htenant' hlabel'
    exact ⟨guarded, hguarded⟩
  · rintro ⟨guarded, hguarded⟩
    refine ⟨tenant, guarded, htenant, ?_, ?_⟩
    · refine streams_of_validatedQuery hdecodes hdigest hcmd hsign ?_
      rw [hread, hguarded]
      rfl
    · rw [if_pos hname]
      exact ⟨label, hlabel, hguarded⟩

end

/-- A minted ticket verifies until it expires, and leads to what was validated for the request if
and only if that is no read by a name that is not parsed. -/
theorem mint_honoured_iff (hwords : ParsesWords) (hdecodes : DecodesOwn) {settings : Settings}
    (hdigest : ∀ text, isAscii (Hmac.digest settings.flightTicketSecret text) = true)
    {caller : Caller} {request : TicketRequest} {now : Int} {nonce : String} {cmd : Fields}
    {raw : Bytes}
    (hmint : request.mint settings caller = .ok cmd)
    (hsign : sign settings now nonce cmd = .ok raw) :
    (∀ later, later ≤ now + settings.flightTicketTtlSeconds →
      verify settings later raw = .ok cmd) ∧
      (request.Served settings caller now raw ↔ ¬ request.Unparsed) := by
  have hcmd := request.mint_textual hmint
  refine ⟨fun later hlater => verify_sign hdecodes hdigest hcmd hsign hlater, ?_⟩
  cases request with
  | ingest name mode => exact iff_of_true (served_ingest hdecodes hdigest hmint hsign) id
  | stream name sql =>
    cases hname : given name with
    | false =>
      refine iff_of_true (served_sql hdecodes hdigest hname hmint hsign) (fun h => ?_)
      have hgiven : given name = true := h.1
      rw [hname] at hgiven
      cases hgiven
    | true =>
      obtain ⟨tenant, label, htenant, hlabel, rfl⟩ := streamDataset_name hname hmint
      rw [served_name_iff hdecodes hdigest hname htenant hlabel hcmd hsign,
        previewQuery_ok_iff hwords settings tenant (validateLabel_ok hlabel),
        ← Bool.not_eq_false]
      refine not_congr ⟨fun h => ⟨hname, label, hlabel, h⟩, ?_⟩
      rintro ⟨_, label', hlabel', hunparsed⟩
      rw [hlabel, Except.ok.injEq] at hlabel'
      rwa [hlabel']

end

section

attribute [local instance] asciiPython constantSha256 keywordSqlglot plainOrjson plainHmac

/-- The JSON library of the small instance decodes what it encodes. -/
theorem plainOrjson_decodesOwn : DecodesOwn := by
  intro v raw _ hdumps
  cases hdumps
  rfl

/-- The control plane mints a ticket to read the dataset `from`, which `do_get` refuses. -/
theorem from_not_served :
    ¬ ∀ (settings : Settings) (caller : Caller) (request : TicketRequest) (now : Int)
        (nonce : String) (cmd : Fields) (raw : Bytes), request.mint settings caller = .ok cmd →
        sign settings now nonce cmd = .ok raw → request.Served settings caller now raw := by
  intro h
  obtain ⟨tenant, guarded, _, hstreams, _⟩ := h {} acmeCaller (.stream (some "from") none) 0 "00"
    (readCommand "t_acme" "from") _ rfl rfl
  cases hstreams.served 0 (by decide)

/-- A ticket to read `events` is honoured for the 300 seconds that it lives. -/
theorem events_served :
    (∀ later, later ≤ 300 → verify {} later (readTicket 0) = .ok eventsRead) ∧
      (TicketRequest.stream (some "events") none).Served {} acmeCaller 0 (readTicket 0) := by
  have hdigest : isAscii "c2ln" = true := by decide
  have hlabel : validateLabel "events" = .ok "events" := rfl
  have hcommand : (TicketRequest.stream (some "events") none).mint {} acmeCaller =
      .ok eventsRead := rfl
  have hsign : sign {} 0 "00" eventsRead = .ok (readTicket 0) := rfl
  have hmint := mint_honoured_iff keywordSqlglot_words plainOrjson_decodesOwn (fun _ => hdigest)
    hcommand hsign
  refine ⟨hmint.1, hmint.2.mpr ?_⟩
  rintro ⟨_, label, hlabel', hunparsed⟩
  cases hlabel.symm.trans hlabel'
  cases hunparsed

end

end Memcove
