import Memcove.Flight.Tickets

/-!
# How verification fails

`tickets.verify` reads bytes that anyone may send. It is to raise `TicketError` and nothing else,
but three of its steps raise errors of their own on a decoded envelope: printing it again, comparing
a signature outside ASCII, and converting the expiry of an envelope with a valid signature.
-/

namespace Memcove

open Json

/-- `str.isascii`. -/
def isAscii (s : String) : Bool := s.toList.all (·.val < 128)

/-- The values that `int(v)` converts: numbers, booleans and the texts of whole numbers. -/
def Json.Numeric [Python] : Json → Prop
  | .bool _ => True
  | .int _ => True
  | .float _ => True
  | .str s => (Python.intOfStr s).isSome = true
  | .null => False
  | .arr _ => False
  | .obj _ => False

/-- Exactly these values are converted, and the others raise no `TicketError`. -/
theorem Json.toInt_numeric [Python] (v : Json) :
    (v.Numeric ∧ ∃ i, v.toInt = .ok i) ∨
      (¬ v.Numeric ∧ ∃ e, v.toInt = .error e ∧ e.cls ≠ .ticketError) := by
  cases v with
  | null => exact Or.inr ⟨id, _, rfl, by decide⟩
  | bool b => exact Or.inl ⟨trivial, _, rfl⟩
  | int i => exact Or.inl ⟨trivial, _, rfl⟩
  | float r => exact Or.inl ⟨trivial, _, rfl⟩
  | str s =>
    cases hread : Python.intOfStr s with
    | none =>
      refine Or.inr ⟨by simp [Numeric, hread], _, by simp only [toInt, hread]; rfl, ?_⟩
      exact ErrorClass.noConfusion
    | some i => exact Or.inl ⟨by simp [Numeric, hread], i, by simp only [toInt, hread]⟩
  | arr items => exact Or.inr ⟨id, _, rfl, by decide⟩
  | obj fields => exact Or.inr ⟨id, _, rfl, by decide⟩

/-- Texts in ASCII are compared. -/
theorem compareDigest_ascii {a b : String} (ha : isAscii a = true) (hb : isAscii b = true) :
    compareDigest a b = .ok (a == b) := if_pos (by rw [Bool.and_eq_true]; exact ⟨ha, hb⟩)

/-- A text outside ASCII raises `TypeError`. -/
theorem compareDigest_nonAscii {a b : String} (ha : isAscii a = false) :
    ∃ e, compareDigest a b = .error e ∧ e.cls ≠ .ticketError := by
  refine ⟨_, if_neg ?_, by decide⟩
  change ¬ (isAscii a && _) = true
  simp [ha]

section

variable [Python] [Orjson] [Hmac]

/-- The envelope and the signature of decoded bytes take verification to its own checks: the
envelope is within the nesting that the JSON library prints, the signature is in ASCII, and an
envelope with a valid signature has a numeric expiry. -/
structure Checkable (settings : Settings) (env : Fields) (signature : String) : Prop where
  printed : ∃ text, canon env = .ok text
  ascii : isAscii signature = true
  expiry : sig settings env = .ok signature → ((dictGet env "exp").getD (.int 0)).Numeric

/-- Every envelope that the bytes carry is checkable. -/
def CheckableTicket (settings : Settings) (raw : Bytes) : Prop :=
  ∀ outer env signature, decode raw = .ok outer → ticketParts outer = some (env, signature) →
    Checkable settings env signature

/-- Verification from the comparison on. -/
def checkedCommand (now : Int) (env : Fields) (comparison : PyM Bool) : PyM Fields := do
  if !(← comparison) then raise .ticketError "invalid ticket signature"
  else if (← ((dictGet env "exp").getD (.int 0)).toInt) < now then
    raise .ticketError "ticket expired"
  else
    match get env "cmd" with
    | .obj cmd => .ok cmd
    | _ => raise .ticketError "malformed ticket command"

/-- Verification of an envelope compares its signature and then checks the rest. -/
theorem verify_eq_checkedCommand {settings : Settings} {now : Int} {raw : Bytes} {outer : Json}
    {env : Fields} {signature : String} (hdecode : decode raw = .ok outer)
    (hparts : ticketParts outer = some (env, signature)) :
    verify settings now raw = sig settings env >>= fun expected =>
      checkedCommand now env (compareDigest signature expected) := by
  unfold verify
  simp only [hdecode, hparts]
  rfl

omit [Orjson] [Hmac] in
/-- With an equal signature the expiry is converted. -/
theorem checkedCommand_true (now : Int) (env : Fields) :
    checkedCommand now env (.ok true) =
      ((dictGet env "exp").getD (.int 0)).toInt >>= fun exp =>
        if exp < now then raise .ticketError "ticket expired"
        else match get env "cmd" with
          | .obj cmd => .ok cmd
          | _ => raise .ticketError "malformed ticket command" := rfl

omit [Orjson] [Hmac] in
/-- With an equal signature only the conversion of the expiry raises anything else. -/
theorem checkedCommand_equal (now : Int) (env : Fields) :
    (∀ e, checkedCommand now env (.ok true) = .error e → e.cls = .ticketError) ↔
      ((dictGet env "exp").getD (.int 0)).Numeric := by
  rw [checkedCommand_true]
  rcases ((dictGet env "exp").getD (.int 0)).toInt_numeric with
    ⟨hnumeric, exp, hexp⟩ | ⟨hnumeric, e, hexp, he⟩
  · rw [hexp]
    refine iff_of_true (fun e herror => ?_) hnumeric
    change (if exp < now then _ else _) = _ at herror
    split at herror
    · cases herror
      rfl
    · split at herror
      · cases herror
      · cases herror
        rfl
  · rw [hexp]
    exact iff_of_false (fun h => he (h e rfl)) hnumeric

/-- From the envelope on verification raises only `TicketError` if and only if the envelope is
checkable. -/
theorem verifyParts_iff {settings : Settings} {now : Int} {raw : Bytes} {outer : Json}
    {env : Fields} {signature : String}
    (hdumps : ∀ v e, Orjson.dumps v = .error e → e.cls ≠ .ticketError)
    (hdigest : ∀ text, isAscii (Hmac.digest settings.flightTicketSecret text) = true)
    (hdecode : decode raw = .ok outer) (hparts : ticketParts outer = some (env, signature)) :
    (∀ e, verify settings now raw = .error e → e.cls = .ticketError) ↔
      Checkable settings env signature := by
  rw [verify_eq_checkedCommand hdecode hparts]
  cases hcanon : canon env with
  | error e =>
    have hsig : sig settings env = .error e := by rw [sig, hcanon]; rfl
    rw [hsig]
    refine iff_of_false (fun h => hdumps _ _ hcanon (h e rfl)) ?_
    rintro ⟨⟨text, htext⟩, _, _⟩
    rw [hcanon] at htext
    cases htext
  | ok text =>
    have hsig : sig settings env = .ok (Hmac.digest settings.flightTicketSecret text) := by
      rw [sig, hcanon]
      rfl
    have hequal : (sig settings env = .ok signature) ↔
        signature = Hmac.digest settings.flightTicketSecret text := by
      rw [hsig, Except.ok.injEq, eq_comm]
    cases hascii : isAscii signature with
    | false =>
      obtain ⟨e, hcompare, he⟩ :=
        compareDigest_nonAscii (b := Hmac.digest settings.flightTicketSecret text) hascii
      rw [hsig]
      change (∀ e, checkedCommand now env (compareDigest signature _) = _ → _) ↔ _
      rw [hcompare]
      refine iff_of_false (fun h => he (h e rfl)) (fun h => ?_)
      rw [h.ascii] at hascii
      cases hascii
    | true =>
      have hcheckable : Checkable settings env signature ↔
          (sig settings env = .ok signature → ((dictGet env "exp").getD (.int 0)).Numeric) :=
        ⟨fun h => h.expiry, fun h => ⟨⟨text, hcanon⟩, hascii, h⟩⟩
      rw [hcheckable, hequal, hsig]
      change (∀ e, checkedCommand now env (compareDigest signature _) = _ → _) ↔ _
      rw [compareDigest_ascii hascii (hdigest text)]
      by_cases hsame : signature = Hmac.digest settings.flightTicketSecret text
      · rw [beq_iff_eq.mpr hsame, checkedCommand_equal]
        simp [hsame]
      · rw [beq_eq_false_iff_ne.mpr hsame]
        refine iff_of_true (fun e herror => ?_) (fun h => absurd h hsame)
        cases herror
        rfl

/-- Verification raises only `TicketError` if and only if the ticket is checkable. -/
theorem verify_ticketError_iff {settings : Settings} {now : Int} {raw : Bytes}
    (hdumps : ∀ v e, Orjson.dumps v = .error e → e.cls ≠ .ticketError)
    (hdigest : ∀ text, isAscii (Hmac.digest settings.flightTicketSecret text) = true) :
    (∀ e, verify settings now raw = .error e → e.cls = .ticketError) ↔
      CheckableTicket settings raw := by
  have hrefused (hnone : ∀ outer env signature, decode raw = .ok outer →
      ticketParts outer ≠ some (env, signature)) (e : PyError)
      (he : verify settings now raw = .error e) : e.cls = .ticketError := by
    unfold verify at he
    split at he
    · cases he
      rfl
    · rename_i outer hdecode
      split at he
      · cases he
        rfl
      · rename_i env signature hparts
        exact absurd hparts (hnone outer env signature hdecode)
  by_cases hparts : ∃ outer env signature, decode raw = .ok outer ∧
      ticketParts outer = some (env, signature)
  · obtain ⟨outer, env, signature, hdecode, hparts⟩ := hparts
    rw [verifyParts_iff hdumps hdigest hdecode hparts]
    constructor
    · intro h outer' env' signature' hdecode' hparts'
      rw [hdecode] at hdecode'
      cases hdecode'
      rw [hparts] at hparts'
      cases hparts'
      exact h
    · exact fun h => h outer env signature hdecode hparts
  · have hnone : ∀ outer env signature, decode raw = .ok outer →
        ticketParts outer ≠ some (env, signature) :=
      fun outer env signature hdecode hsome => hparts ⟨outer, env, signature, hdecode, hsome⟩
    exact iff_of_true (hrefused hnone)
      (fun outer env signature hdecode hsome => absurd hsome (hnone outer env signature hdecode))

end

section

attribute [local instance] asciiPython plainOrjson plainHmac

/-- A well-formed ticket whose signature is the letter `é`. -/
def accentedTicket : Json := .obj [("env", .obj []), ("sig", .str "é")]

/-- It raises `TypeError`. -/
theorem verify_accented :
    ¬ ∀ raw e, verify {} 0 raw = .error e → e.cls = .ticketError := by
  intro h
  have hclass : ErrorClass.typeError = .ticketError := h accentedTicket _ rfl
  cases hclass

/-- A ticket with a valid signature and no expiry. -/
def unexpiringTicket : Json := .obj [("env", .obj []), ("sig", .str "c2ln")]

/-- It is checkable, and refused as expired. -/
theorem verify_unexpiring : CheckableTicket {} unexpiringTicket ∧
    ∀ e, verify {} 1 unexpiringTicket = .error e → e.cls = .ticketError := by
  have hdigest : isAscii "c2ln" = true := by decide
  have hcheckable : CheckableTicket {} unexpiringTicket := by
    intro outer env signature hdecode hparts
    cases hdecode
    cases hparts
    exact ⟨⟨_, rfl⟩, by decide, fun _ => trivial⟩
  exact ⟨hcheckable,
    (verify_ticketError_iff (fun _ _ h => by cases h) (fun _ => hdigest)).mpr hcheckable⟩

end

end Memcove
