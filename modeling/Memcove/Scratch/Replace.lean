import Memcove.Scratch.Writes
import Memcove.Tools.Replay
import Memcove.Drift.Operations

/-!
# Replacing a scratch table

`derive_object` into the scratchpad in replace mode drops the table before it computes the new one.
Its result is that of the `SELECT` before the call; but when the `CREATE TABLE AS` fails without the
table, as when the `SELECT` reads the table or has two columns of one name, the table is lost.
-/

namespace Memcove

open Programs

section

variable [Python] [Engines] [Backend] [Sqlglot] [Federated] {failures : Bool}
  {settings : Settings} {s : TrinoState} {tenant label sql : String} {tags : Option (List String)}

/-- How a replace ends: nothing is changed and it raises; the table has the result of the `SELECT`
in the state before the call; or it raises and the table is gone. -/
inductive ReplaceEnd (failures : Bool) (settings : Settings) (s : TrinoState)
    (tenant label sql : String) (u : TrinoState) : Except PyError MemoryObject → Prop
  | unchanged (e : PyError) (htables : SameTables u s) :
      ReplaceEnd failures settings s tenant label sql u (.error e)
  | replaced (r : Except PyError MemoryObject) (name : String) (guarded : GuardedQuery)
      (result : QueryResult) (hlabel : validateLabel label = .ok name)
      (hguarded : validateSelect (deriveParams settings tenant) sql = .ok guarded)
      (hothers : ∀ ident, ident ≠ scratchIdent settings tenant name →
        u.table ident = s.table ident)
      (htable : u.table (scratchIdent settings tenant name) = some result)
      (hresult : (Federated.evaluate s (.query guarded.sql)).toOption = some result)
      (hok : failures = false → r.isOk = true) :
      ReplaceEnd failures settings s tenant label sql u r
  | lost (e : PyError) (name : String) (guarded : GuardedQuery)
      (hlabel : validateLabel label = .ok name)
      (hguarded : validateSelect (deriveParams settings tenant) sql = .ok guarded)
      (htables : SameTables u (s.dropTable (scratchIdent settings tenant name)))
      (hwhy : failures = false → (Federated.ctas (s.dropTable (scratchIdent settings tenant name))
        (scratchIdent settings tenant name) (.query guarded.sql)).toOption = none) :
      ReplaceEnd failures settings s tenant label sql u (.error e)

omit [Federated] in
/-- An accepted derive into the scratchpad. -/
theorem deriveObject_scratch {name mode : String} {guarded : GuardedQuery}
    (hlabel : validateLabel label = .ok name) (hmode : mode = "create" ∨ mode = "replace")
    (hguarded : validateSelect (deriveParams settings tenant) sql = .ok guarded) :
    deriveObject settings tenant label sql mode tags "scratch" =
      deriveToScratch settings tenant name guarded mode := by
  have hmode' : ¬ (mode ≠ "create" ∧ mode ≠ "replace") :=
    fun h => hmode.elim h.1 h.2
  have htarget : ¬ ("scratch" ≠ "lakehouse" ∧ "scratch" ≠ "scratch") := fun h => h.2 rfl
  unfold deriveObject
  rw [hlabel, Program.lift_ok_bind, if_neg hmode', if_neg htarget, hguarded, Program.lift_ok_bind,
    if_pos rfl]

/-- Every replace ends in one of these ways. -/
theorem deriveObject_replaceEnd : EndsIn (trino failures) s
    (deriveObject settings tenant label sql "replace" tags "scratch")
    (ReplaceEnd failures settings s tenant label sql) := by
  cases hlabel : validateLabel label with
  | error e =>
    unfold deriveObject
    rw [hlabel]
    exact .raise (.unchanged e (fun _ => rfl))
  | ok name =>
    generalize hguard : validateSelect (deriveParams settings tenant) sql = guard
    cases guard with
    | error e =>
      unfold deriveObject
      rw [hlabel, hguard]
      exact .raise (.unchanged e (fun _ => rfl))
    | ok guarded =>
      rw [deriveObject_scratch hlabel (Or.inr rfl) hguard]
      refine (deriveToScratch_ends guarded "replace").mono (fun u r hu => ?_)
      cases hu with
      | unchanged e htables _ => exact .unchanged e htables
      | failed e htables hwhy =>
        refine .lost e name guarded hlabel hguard htables (fun hf => ?_)
        exact (hwhy hf).resolve_left (fun h => h TrinoState.table_dropTable_self)
      | done _ result hothers htable _ hresult hok =>
        exact .replaced r name guarded result hlabel hguard hothers htable hresult hok

/-- The new table is computed from the state before the call, or the old one is still in place. -/
def ReplacedOrKept (settings : Settings) (s : TrinoState) (tenant name : String)
    (guarded : GuardedQuery) (u : TrinoState) (r : Except PyError MemoryObject) : Prop :=
  (∃ result, (Federated.evaluate s (.query guarded.sql)).toOption = some result ∧
    u.table (scratchIdent settings tenant name) = some result) ∨
  r.isOk = false ∧ u.table (scratchIdent settings tenant name) =
    s.table (scratchIdent settings tenant name)

omit [Python] [Engines] [Backend] in
/-- Where the table is gone and the old or the new one should be in place, there was none. -/
theorem ReplacedOrKept.was_none {name : String} {guarded : GuardedQuery} {u : TrinoState}
    {r : Except PyError MemoryObject} (h : ReplacedOrKept settings s tenant name guarded u r)
    (hgone : u.table (scratchIdent settings tenant name) = none) :
    s.table (scratchIdent settings tenant name) = none := by
  rcases h with ⟨result, _, htable⟩ | ⟨_, hsame⟩
  · cases hgone.symm.trans htable
  · exact hsame.symm.trans hgone

omit [Python] [Engines] [Backend] [Sqlglot] [Federated] in
/-- With the scratchpad on and its catalog there, a replace is not given up. -/
theorem not_givenUp_replace {name : String} (hensurable : Ensurable settings s tenant)
    (hcatalog : catalogFor settings tenant ∈ s.catalogs) :
    ¬ GivenUp settings s tenant name "replace" := by
  rintro (hdisabled | hmissing | ⟨hmode, _⟩ | hnot)
  · rw [hensurable.1] at hdisabled
    cases hdisabled
  · exact hmissing hcatalog
  · simp at hmode
  · exact hnot hensurable

/-- A replace ends with the result of the `SELECT` in the state before the call, or raises; and
where Trino does not fail, the old table is lost exactly when there was one and the
`CREATE TABLE AS` fails without it. -/
theorem deriveObject_replaces (settings : Settings) (s : TrinoState) (tenant label sql : String)
    (tags : Option (List String)) :
    (∀ failures r u, Completes (trino failures) s
      (deriveObject settings tenant label sql "replace" tags "scratch") r u →
        ReplaceEnd failures settings s tenant label sql u r) ∧
    ∀ name guarded, validateLabel label = .ok name →
      validateSelect (deriveParams settings tenant) sql = .ok guarded →
      Ensurable settings s tenant → catalogFor settings tenant ∈ s.catalogs →
      ((∀ r u, Completes (trino false) s
        (deriveObject settings tenant label sql "replace" tags "scratch") r u →
          ReplacedOrKept settings s tenant name guarded u r) ↔
        s.table (scratchIdent settings tenant name) = none ∨
          (Federated.ctas (s.dropTable (scratchIdent settings tenant name))
            (scratchIdent settings tenant name) (.query guarded.sql)).isOk = true) := by
  refine ⟨fun failures r u hrun => deriveObject_replaceEnd.completes hrun,
    fun name guarded hlabel hguarded hensurable hcatalog => ?_⟩
  rw [deriveObject_scratch hlabel (Or.inr rfl) hguarded]
  have hends : EndsIn (trino false) s (deriveToScratch settings tenant name guarded "replace") _ :=
    deriveToScratch_ends guarded "replace"
  constructor
  · intro hkept
    by_contra hlost
    rw [not_or] at hlost
    obtain ⟨r, u, hrun⟩ : ∃ r u, Completes (trino false) s
        (deriveToScratch settings tenant name guarded "replace") r u :=
      ⟨_, _, Program.execute_completes (trinoAnswer_possible false)⟩
    cases hends.completes hrun with
    | unchanged e htables hwhy => exact not_givenUp_replace hensurable hcatalog (hwhy rfl)
    | failed e htables hwhy =>
      have hgone : u.table (scratchIdent settings tenant name) = none :=
        (htables _).trans TrinoState.table_dropTable_self
      exact hlost.1 ((hkept _ u hrun).was_none hgone)
    | done _ result hothers htable hbefore hresult hok =>
      rw [beforeCtas, if_pos (by rfl)] at hbefore
      rw [toOption_eq_some.mp hbefore] at hlost
      exact hlost.2 rfl
  · intro hcondition r u hrun
    cases hends.completes hrun with
    | unchanged e htables hwhy => exact Or.inr ⟨rfl, htables _⟩
    | failed e htables hwhy =>
      have hgone : u.table (scratchIdent settings tenant name) = none :=
        (htables _).trans TrinoState.table_dropTable_self
      have hfails := (hwhy rfl).resolve_left (fun h => h TrinoState.table_dropTable_self)
      rcases hcondition with habsent | hok
      · exact Or.inr ⟨rfl, hgone.trans habsent.symm⟩
      · rw [beforeCtas, if_pos (by rfl), toOption_eq_none] at hfails
        rw [hfails] at hok
        cases hok
    | done _ result hothers htable hbefore hresult hok => exact Or.inl ⟨result, hresult, htable⟩

end

/-- The columns of a new table have names, and different ones. -/
def storeNamed (result : QueryResult) : Except PyError Unit :=
  if "" ∈ result.columns.map Prod.fst then
    .error (externalError "Column name not specified")
  else if (result.columns.map Prod.fst).Nodup then .ok ()
  else .error (externalError "Column name specified more than once")

/-- Trino on a fixed list of tables that every `SELECT` reads, in this order. -/
@[reducible] def readingEngine (idents : List TableIdent) : Federated where
  reads _ := idents
  evaluate s _ :=
    if idents.all (fun ident => (s.table ident).isSome) then
      .ok ⟨[("v", "varchar")], idents.flatMap (fun ident => ((s.table ident).map (·.rows)).getD [])⟩
    else .error (externalError "table does not exist")
  stores _ _ := storeNamed
  evaluate_missing hread hnone := by
    refine ⟨_, if_neg ?_⟩
    intro hall
    have hsome := List.all_eq_true.mp hall _ hread
    rw [hnone] at hsome
    cases hsome
  evaluate_congr {s t _} h := by
    have hall : idents.all (fun ident => (s.table ident).isSome) =
        idents.all (fun ident => (t.table ident).isSome) := by
      rw [Bool.eq_iff_iff, List.all_eq_true, List.all_eq_true]
      exact forall₂_congr (fun ident hident => by rw [h ident hident])
    have hrows : idents.flatMap (fun ident => ((s.table ident).map (·.rows)).getD []) =
        idents.flatMap (fun ident => ((t.table ident).map (·.rows)).getD []) :=
      List.flatMap_congr (fun ident hident => by rw [h ident hident])
    rw [hall, hrows]

/-- A scratchpad with the table `x` of one row. -/
def scratchWithX : TrinoState where
  catalogs := ["iceberg", "scratch"]
  schemas := [("scratch", "t_acme")]
  tables := [(("scratch", "t_acme", "x"), ⟨[("v", "varchar")], [[.str "a"]]⟩)]

section

attribute [local instance] asciiPython recordedSqlglot textEngines externalBackend

/-- The tenant's settings. -/
def scratchOn : Settings := { scratchEnabled := true }

/-- Replacing `x` by a `SELECT` over `scratch.x` raises, and `x` is gone. -/
theorem selfReplace_loses :
    let _ : Federated := readingEngine [("scratch", "t_acme", "x")]
    ∃ guarded, validateSelect (deriveParams scratchOn "t_acme") "SELECT * FROM scratch.x" =
        .ok guarded ∧
      ∃ r u, Completes (trino false) scratchWithX
          (deriveObject scratchOn "t_acme" "x" "SELECT * FROM scratch.x" "replace" none "scratch")
          r u ∧
        r.isOk = false ∧ u.table ("scratch", "t_acme", "x") = none ∧
        ¬ ReplacedOrKept scratchOn scratchWithX "t_acme" "x" guarded u r := by
  intro engine
  have hguarded : validateSelect (deriveParams scratchOn "t_acme") "SELECT * FROM scratch.x" =
      .ok ⟨.node .select (readStar ⟨"x", "t_acme", "scratch"⟩), [], ["x"]⟩ := by rfl
  refine ⟨_, hguarded, ?_⟩
  obtain ⟨r, u, hrun⟩ : ∃ r u, Completes (trino false) scratchWithX (deriveObject scratchOn
      "t_acme" "x" "SELECT * FROM scratch.x" "replace" none "scratch") r u :=
    ⟨_, _, Program.execute_completes (trinoAnswer_possible false)⟩
  have hlabel : validateLabel "x" = .ok "x" := by rfl
  have hends := hrun
  rw [deriveObject_scratch hlabel (Or.inr rfl) hguarded] at hends
  cases (deriveToScratch_ends _ "replace").completes hends with
  | unchanged e htables hwhy =>
    have hcatalog : catalogFor scratchOn "t_acme" ∈ scratchWithX.catalogs := by decide
    exact (not_givenUp_replace ⟨rfl, Or.inr ⟨rfl, hcatalog⟩⟩ hcatalog (hwhy rfl)).elim
  | failed e htables hwhy =>
    have hgone : u.table ("scratch", "t_acme", "x") = none :=
      (htables _).trans TrinoState.table_dropTable_self
    refine ⟨_, u, hrun, rfl, hgone, fun hkept => ?_⟩
    cases hkept.was_none hgone
  | done _ result hothers htable hbefore hresult hok => cases hbefore

/-- Replacing `x` by a `SELECT` over `events` keeps or replaces it. -/
theorem otherReplace_keeps :
    let _ : Federated := readingEngine [("iceberg", "t_acme", "events")]
    let stocked := scratchWithX.addTable ("iceberg", "t_acme", "events")
      ⟨[("v", "varchar")], [[.str "b"]]⟩
    ∃ guarded, ∀ r u, Completes (trino false) stocked
      (deriveObject scratchOn "t_acme" "x" "SELECT * FROM events" "replace" none "scratch") r u →
        ReplacedOrKept scratchOn stocked "t_acme" "x" guarded u r := by
  intro engine stocked
  have hlabel : validateLabel "x" = .ok "x" := by rfl
  have hguarded : validateSelect (deriveParams scratchOn "t_acme") "SELECT * FROM events" =
      .ok ⟨.node .select (readStar ⟨"events", "t_acme", "iceberg"⟩), ["events"], []⟩ := by rfl
  obtain ⟨_, hiff⟩ := deriveObject_replaces scratchOn stocked "t_acme" "x" "SELECT * FROM events"
    none
  exact ⟨_, (hiff "x" _ hlabel hguarded ⟨rfl, Or.inr ⟨rfl, by decide⟩⟩ (by decide)).mpr
    (Or.inr rfl)⟩

end

end Memcove
