import Memcove.Flight.Tickets
import Memcove.Lib.Runs
import Memcove.Sql.Guard

/-!
# The control plane and the Flight server

The two processes that share the ticket secret: `server.py` mints tickets for resolved callers,
`data_plane/flight_server.py` accepts bytes from anyone. Their runs are the runs of one transition
system whose state holds every envelope ever signed and the log of what was granted and served.
-/

namespace Memcove

open Json Runs

section

variable [Python]

/-- What the request context says about a caller: verified token claims or request headers. -/
structure Caller where
  claims : Option Fields := none
  headers : List (String × String) := []

/-- `server._tenant`. -/
def callerTenant [Sha256] (settings : Settings) (caller : Caller) : PyM String :=
  if settings.oauthEnabled then
    match caller.claims with
    | none => raise .tenancyError "unauthenticated request"
    | some claims => resolveTenantFromClaims settings claims
  else resolveTenant settings caller.headers

/-- Every resolved caller acts for a namespace. -/
theorem callerTenant_ok [Sha256] {settings : Settings} {caller : Caller} {tenant : String}
    (h : callerTenant settings caller = .ok tenant) : IsNamespace tenant := by
  unfold callerTenant at h
  split at h
  · split at h
    · cases h
    · exact resolveTenantFromClaims_ok h
  · exact resolveTenant_ok h

/-- `tickets.read_command`. -/
def readCommand (tenant name : String) : Fields :=
  [("op", .str "read"), ("tenant", .str tenant), ("name", .str name)]

/-- `tickets.query_command`. -/
def queryCommand (tenant sql : String) : Fields :=
  [("op", .str "query"), ("tenant", .str tenant), ("sql", .str sql)]

/-- `tickets.ingest_command`. -/
def ingestCommand (tenant name mode : String) : Fields :=
  [("op", .str "ingest"), ("tenant", .str tenant), ("name", .str name), ("mode", .str mode)]

/-- The values that `open_ingest_stream` admits for `mode`. -/
inductive IngestMode where
  | create | replace | append
  deriving DecidableEq, Repr

/-- A mode as it is written in a command. -/
def IngestMode.text : IngestMode → String
  | create => "create"
  | replace => "replace"
  | append => "append"

/-- The guard's arguments in the streaming paths, which have no scratchpad. -/
def flightParams (settings : Settings) (tenant : String) : GuardParams where
  tenantNs := tenant
  catalog := settings.trinoCatalog
  sharedSchemas := settings.sharedSchemas

/-- `bool(v)` of an optional text. -/
def given (v : Option String) : Bool := v.getD "" != ""

/-- The command that `server.stream_dataset` signs. -/
def streamDataset [Sha256] [Sqlglot] (settings : Settings) (caller : Caller)
    (name sql : Option String) : PyM Fields :=
  if given name == given sql then raise .valueError "provide exactly one of 'name' or 'sql'"
  else do
    let tenant ← callerTenant settings caller
    if given name then
      return readCommand tenant (← validateLabel (name.getD ""))
    else
      let _ ← validateSelect (flightParams settings tenant) (sql.getD "")
      return queryCommand tenant (sql.getD "")

/-- The command that `server.open_ingest_stream` signs. -/
def openIngestStream [Sha256] (settings : Settings) (caller : Caller) (name : String)
    (mode : IngestMode) : PyM Fields := do
  let tenant ← callerTenant settings caller
  let label ← validateLabel name
  return ingestCommand tenant label mode.text

/-- `normalize_tenant(cmd.get("tenant"))`. -/
def commandTenant (settings : Settings) (cmd : Fields) : PyM String :=
  match get cmd "tenant" with
  | .str raw => normalizeTenant settings (some raw)
  | v =>
    if v.truthy then
      raise .attributeError s!"'{v.typeName}' object has no attribute 'strip'"
    else normalizeTenant settings none

/-- `cmd[key]`. -/
def requireKey (cmd : Fields) (key : String) : PyM Json :=
  match dictGet cmd key with
  | some v => .ok v
  | none => raise .keyError (Python.repr key)

variable [Sqlglot]

/-- `validate_label(cmd["name"])`. What is falsy counts as the empty text. -/
def commandLabel (cmd : Fields) : PyM String := do
  match ← requireKey cmd "name" with
  | .str raw => validateLabel raw
  | v =>
    if v.truthy then raise .attributeError s!"'{v.typeName}' object has no attribute 'strip'"
    else invalidLabel v.repr

/-- `MemcoveFlightServer._validated_query`. -/
def validatedQuery (settings : Settings) (cmd : Fields) : PyM (String × List Token) := do
  let tenant ← commandTenant settings cmd
  let op := get cmd "op"
  if op.isStr "read" then
    let name ← commandLabel cmd
    let guarded ← validateSelect (flightParams settings tenant) ("SELECT * FROM " ++ name)
    return (tenant, guarded.sql)
  else if op.isStr "query" then
    let sql ← (← requireKey cmd "sql").expectStr "strip"
    let guarded ← validateSelect (flightParams settings tenant) sql
    return (tenant, guarded.sql)
  else raise .flightError s!"unsupported DoGet op {op.repr}"

variable [Orjson] [Hmac]

/-- `MemcoveFlightServer.do_get` up to the query that it streams: as whom, and which text. -/
def doGet (settings : Settings) (now : Int) (raw : Bytes) : PyM (String × List Token) :=
  match verify settings now raw >>= validatedQuery settings with
  | .ok query => .ok query
  | .error exc => raise .flightError exc.message

/-- `MemcoveFlightServer.get_flight_info`: the ticket of the endpoint, when the query engine
answers the schema request. -/
def getFlightInfo (settings : Settings) (now : Int) (nonce : String) (raw : Bytes) :
    PyM Bytes := do
  let cmd ← verify settings now raw
  let _ ← validatedQuery settings cmd
  sign settings now nonce cmd

/-- `MemcoveFlightServer.do_put` up to the first write: the tenant, the name and the mode. -/
def doPutTarget (settings : Settings) (now : Int) (raw : Bytes) :
    PyM (String × String × Json) := do
  let cmd ← verify settings now raw
  let op := get cmd "op"
  if !op.isStr "ingest" then raise .flightError s!"unsupported DoPut op {op.repr}"
  else
    let tenant ← commandTenant settings cmd
    let name ← commandLabel cmd
    return (tenant, name, (dictGet cmd "mode").getD (.str "create"))

/-- A signed envelope. Two ghost fields remember the expiry of the control-plane ticket that the
chain of re-issues started from, and whether the Flight server signed it. -/
structure Signed where
  env : Fields
  deadline : Int
  reissued : Bool

/-- What was granted by the control plane and served by the Flight server, and when. -/
inductive Event where
  | streamed (caller : Caller) (name sql : Option String) (now : Int)
  | opened (caller : Caller) (name : String) (mode : IngestMode) (now : Int)
  | got (tenant : String) (sql : List Token) (cmd : Fields) (now : Int)
  | put (tenant label : String) (mode : Json) (cmd : Fields) (now : Int)

/-- Every envelope signed so far, and the log, newest first. -/
structure World where
  signed : List Signed := []
  log : List Event := []

/-- The calls that clients make. A presented byte string comes with the signed envelope whose
signature it carries. -/
inductive Action where
  | streamDataset (caller : Caller) (name sql : Option String) (now : Int) (nonce : String)
  | openIngestStream (caller : Caller) (name : String) (mode : IngestMode) (now : Int)
      (nonce : String)
  | getFlightInfo (raw : Bytes) (origin : Signed) (now : Int) (nonce : String)
  | doGet (raw : Bytes) (origin : Signed) (now : Int)
  | doPut (raw : Bytes) (origin : Signed) (now : Int)

/-- The bytes carry an envelope with the canonical text of a signed one. That some signed envelope
is carried whenever a signature verifies is the unforgeability of the HMAC. -/
def Carries (raw : Bytes) (origin : Signed) : Prop :=
  ∃ outer env signature text, decode raw = .ok outer ∧
    ticketParts outer = some (env, signature) ∧ canon env = .ok text ∧
    canon origin.env = .ok text

/-- The successful calls. A call that raises signs nothing and serves nothing. -/
inductive FlightStep [Sha256] (settings : Settings) : World → Action → World → Prop
  | streamDataset {w caller name sql now nonce cmd raw} :
      streamDataset settings caller name sql = .ok cmd →
      sign settings now nonce cmd = .ok raw →
      FlightStep settings w (.streamDataset caller name sql now nonce)
        { signed := ⟨envelope settings now nonce cmd, now + settings.flightTicketTtlSeconds,
            false⟩ :: w.signed
          log := .streamed caller name sql now :: w.log }
  | openIngestStream {w caller name mode now nonce cmd raw} :
      openIngestStream settings caller name mode = .ok cmd →
      sign settings now nonce cmd = .ok raw →
      FlightStep settings w (.openIngestStream caller name mode now nonce)
        { signed := ⟨envelope settings now nonce cmd, now + settings.flightTicketTtlSeconds,
            false⟩ :: w.signed
          log := .opened caller name mode now :: w.log }
  | getFlightInfo {w raw origin now nonce cmd out} :
      origin ∈ w.signed → Carries raw origin →
      verify settings now raw = .ok cmd →
      getFlightInfo settings now nonce raw = .ok out →
      FlightStep settings w (.getFlightInfo raw origin now nonce)
        { w with signed := ⟨envelope settings now nonce cmd, origin.deadline, true⟩ :: w.signed }
  | doGet {w raw origin now cmd tenant sql} :
      origin ∈ w.signed → Carries raw origin →
      verify settings now raw = .ok cmd →
      doGet settings now raw = .ok (tenant, sql) →
      FlightStep settings w (.doGet raw origin now)
        { w with log := .got tenant sql cmd now :: w.log }
  | doPut {w raw origin now cmd tenant label mode} :
      origin ∈ w.signed → Carries raw origin →
      verify settings now raw = .ok cmd →
      doPutTarget settings now raw = .ok (tenant, label, mode) →
      FlightStep settings w (.doPut raw origin now)
        { w with log := .put tenant label mode cmd now :: w.log }

/-- The control plane and the Flight server together, from a start with no ticket signed. -/
def flightSystem [Sha256] (settings : Settings) : System World Action where
  init w := w = {}
  step := FlightStep settings

/-- A command is minted at time `t` by an event of the control plane. -/
def Event.Mints [Sha256] (settings : Settings) (cmd : Fields) (t : Int) : Event → Prop
  | .streamed caller name sql now => streamDataset settings caller name sql = .ok cmd ∧ now = t
  | .opened caller name mode now => openIngestStream settings caller name mode = .ok cmd ∧ now = t
  | _ => False

end

end Memcove
