import Mathlib.Data.List.Infix
import Memcove.Core.Statements
import Memcove.Lib.Transactions

/-!
# Sessions with a registry database

The functions of `core/registry.py` that a guarded write goes through, request by request, and the
three backends of `core/registry_backends.py` that carry the requests out. A backend is built when
it is first used, and again when the DSN has changed. Giving a connection back neither fails nor
changes a table, so it is no request here; the translation of placeholders is left out.
-/

namespace Memcove

open KeyedTables Programs Transactions

/-- The databases that a registry can be kept in. -/
inductive Scheme where
  | postgres | sqlite | mysql
  deriving DecidableEq, Repr

/-- The class of an exception, as `is_connection_down` looks at it: an `OperationalError` or an
`InterfaceError` of a driver, one of their subclasses, or any other. -/
inductive DriverErrorClass where
  | operationalError (driver : Scheme)
  | interfaceError (driver : Scheme)
  | other
  deriving DecidableEq, Repr

/-- An exception out of a backend. -/
structure DriverError where
  cls : DriverErrorClass
  message : String
  deriving DecidableEq, Repr

/-- What a backend asks of its driver outside a transaction. -/
inductive SetupRequest where
  | openPool (dsn : String)
  | openFile (path : String)
  | enableForeignKeys
  | parseUrl (dsn : String)
  | close (driver : Scheme)
  | connect
  deriving DecidableEq

/-- A program that talks to a driver. -/
abbrev DriverM := Client SetupRequest RegistryStatement DriverError

/-- Which requests a driver refuses, and with which exception. -/
abbrev Refusals := Request SetupRequest RegistryStatement → Option DriverError

/-- A database behind its driver. What it says against a statement is none of the errors that
`is_connection_down` knows. -/
def Database.server (db : Database) (refuses : Refusals) :
    Server SetupRequest RegistryStatement Registry DriverError where
  step R statement := (db.step R statement).mapError (fun e => ⟨.other, e.message⟩)
  refuses := refuses

namespace Sessions

/-- `cur.execute(sql, params)`. -/
def execute (statement : RegistryStatement) : DriverM PUnit := Program.perform (.execute statement)

/-- A request outside a transaction. -/
def setup (o : SetupRequest) : DriverM PUnit := Program.perform (.setup o)

/-- The text before the first occurrence of a separator. -/
def textBefore (separator : List Char) : List Char → List Char
  | [] => []
  | c :: cs => if separator <+: c :: cs then [] else c :: textBefore separator cs

/-- `needle in s`. -/
def occursIn (needle s : String) : Bool := decide (needle.toList <:+: s.toList)

section

variable [Python]

/-- `dsn.split("://", 1)[0].lower()`. -/
def schemeText (dsn : String) : String :=
  lower (String.ofList (textBefore "://".toList dsn.toList))

/-- The backend that `make_backend` chooses for a DSN. -/
def schemeOf (dsn : String) : Option Scheme :=
  let scheme := schemeText dsn
  if scheme == "postgresql" || scheme == "postgres" then some .postgres
  else if scheme == "sqlite" then some .sqlite
  else if scheme == "mysql" || scheme == "mariadb" then some .mysql
  else none

/-- `is_connection_down`. -/
def isConnectionDown (scheme : Scheme) (exc : DriverError) : Bool :=
  match scheme with
  | .postgres => exc.cls == .operationalError .postgres || exc.cls == .interfaceError .postgres
  | .sqlite =>
    exc.cls == .operationalError .sqlite &&
      (let msg := lower exc.message
      occursIn "unable to open" msg || occursIn "disk i/o" msg)
  | .mysql => exc.cls == .operationalError .mysql || exc.cls == .interfaceError .mysql

/-- `_backend` and `_backend_dsn`: a backend is always the one of its DSN. -/
structure RegistryBackend where
  dsn : String
  scheme : Scheme
  scheme_eq : schemeOf dsn = some scheme

/-- `_sqlite_path`. -/
def sqlitePath (url : String) : String :=
  let rest := url.toList.drop "sqlite://".length
  let rest := if rest.head? == some '/' then rest.drop 1 else rest
  if rest.isEmpty || rest == ":memory:".toList then ":memory:" else String.ofList rest

/-- The error of a DSN with another scheme. -/
def unsupportedScheme (dsn : String) : DriverError :=
  let scheme := Python.repr (schemeText dsn)
  ⟨.other, s!"unsupported registry DSN scheme {scheme}; expected postgresql, sqlite, or mysql"⟩

/-- `make_backend`, with the constructors of the backends. -/
def makeBackend (dsn : String) : DriverM RegistryBackend :=
  match h : schemeOf dsn with
  | some .postgres => do
    setup (.openPool dsn)
    return ⟨dsn, .postgres, h⟩
  | some .sqlite => do
    setup (.openFile (sqlitePath dsn))
    setup .enableForeignKeys
    return ⟨dsn, .sqlite, h⟩
  | some .mysql => do
    setup (.parseUrl dsn)
    return ⟨dsn, .mysql, h⟩
  | none => .raise (unsupportedScheme dsn)

/-- `close`: a MySQL backend has nothing to close. -/
def RegistryBackend.close (b : RegistryBackend) : DriverM PUnit :=
  match b.scheme with
  | .mysql => .pure ⟨⟩
  | scheme => setup (.close scheme)

/-- `_get`: the process-wide backend, which is `current` before the call and the result after
it. -/
def getBackend (current : Option RegistryBackend) (dsn : String) : DriverM RegistryBackend := do
  match current with
  | some b =>
    if b.dsn = dsn then return b
    else
      b.close
      makeBackend dsn
  | none => makeBackend dsn

/-- `with b.connection() as conn`: SQLite shares one connection, the others take one for each use.
The context of the Postgres pool ignores the failure of a rollback. -/
def RegistryBackend.connection (b : RegistryBackend) (body : DriverM PUnit) : DriverM PUnit :=
  match b.scheme with
  | .postgres => do
    setup .connect
    transaction (Program.tryCatch (Program.perform .rollback) (fun _ => .pure ⟨⟩)) body
  | .sqlite => transaction (Program.perform .rollback) body
  | .mysql => do
    setup .connect
    transaction (Program.perform .rollback) body

end

/-- `_replace_tags`. -/
def replaceTags (k : Key) (tags : Option (List String)) : DriverM PUnit := do
  execute (.deleteTags k)
  Program.each (fun tag => execute (.insertTag k tag)) (Registry.fromKeys (tags.getD []))

/-- `_upsert_object`. -/
def upsertObject (row : ObjectRow) (tags : Option (List String)) : DriverM PUnit := do
  execute (.upsertObject row)
  replaceTags row.key tags

/-- `_set_lineage`. -/
def setLineage (child : Key) (parents : List String) : DriverM PUnit := do
  execute (.deleteLineage child)
  Program.each (fun parent =>
    if parent == child.2 then .pure ⟨⟩ else execute (.insertLineage child parent))
    (Registry.fromKeys parents)

/-- `record_object_guarded`. The backend is built outside the `try`. -/
def recordObjectGuarded [Python] (current : Option RegistryBackend) (dsn : String)
    (row : ObjectRow) (tags : Option (List String)) (parents : Option (List String)) :
    DriverM Bool := do
  let b ← getBackend current dsn
  Program.tryCatch (do
      b.connection (do
        upsertObject row tags
        match parents with
        | some parents => setLineage row.key parents
        | none => .pure ⟨⟩)
      return true)
    (fun exc => if isConnectionDown b.scheme exc then .pure false else .raise exc)

end Sessions

end Memcove
