import Memcove.Json
import Memcove.Core.Settings

/-!
# Signed tickets

`data_plane/tickets.py`: a ticket is the JSON text of `{"env": {"cmd", "exp", "nonce"}, "sig"}`,
where the signature is an HMAC of the envelope's canonical text. The JSON library and the HMAC
are not part of the repository; bytes are whatever the JSON library reads and writes.
-/

namespace Memcove

open Json

/-- The JSON library: reading and printing may both raise, and different values print
differently. -/
class Orjson where
  Bytes : Type
  loads : Bytes → PyM Json
  dumps : Json → PyM Bytes
  dumps_injective : ∀ {v v' : Json} {raw : Bytes}, dumps v = .ok raw → dumps v' = .ok raw → v = v'

export Orjson (Bytes)

/-- The base64 text of `hmac.new(secret, message, hashlib.sha256).digest()`. -/
class Hmac [Orjson] where
  digest : String → Bytes → String

/-- The entries of a JSON object. -/
abbrev Fields := List (String × Json)

/-- `hmac.compare_digest` on two texts: it refuses text outside ASCII. -/
def compareDigest (a b : String) : PyM Bool :=
  if a.toList.all (·.val < 128) && b.toList.all (·.val < 128) then .ok (a == b)
  else raise .typeError "comparing strings with non-ASCII characters is not supported"

/-- A comparison that succeeds compares equal texts. -/
theorem compareDigest_true {a b : String} (h : compareDigest a b = .ok true) : a = b := by
  unfold compareDigest at h
  split at h
  · simpa using h
  · cases h

section

variable [Orjson]

/-- `tickets.encode`. -/
def encode (command : Json) : PyM Bytes := Orjson.dumps command

/-- `tickets.decode`. -/
def decode (raw : Bytes) : PyM Json := Orjson.loads raw

/-- `tickets._canon`: the text with sorted keys. -/
def canon (env : Fields) : PyM Bytes := Orjson.dumps (Json.obj env).sortKeys

/-- Envelopes with one canonical text differ at most in the order of keys. -/
theorem canon_injective {env env' : Fields} {text : Bytes} (h : canon env = .ok text)
    (h' : canon env' = .ok text) : SameUpToOrder (.obj env) (.obj env') :=
  Orjson.dumps_injective h h'

variable [Hmac]

/-- `tickets._sig`. -/
def sig (settings : Settings) (env : Fields) : PyM String := do
  return Hmac.digest settings.flightTicketSecret (← canon env)

/-- The envelope that `tickets.sign` builds at time `now`, in whole seconds. -/
def envelope (settings : Settings) (now : Int) (nonce : String) (command : Fields) : Fields :=
  [("cmd", .obj command), ("exp", .int (now + settings.flightTicketTtlSeconds)),
    ("nonce", .str nonce)]

/-- `tickets.sign`. -/
def sign (settings : Settings) (now : Int) (nonce : String) (command : Fields) : PyM Bytes := do
  let env := envelope settings now nonce command
  let signature ← sig settings env
  encode (.obj [("env", .obj env), ("sig", .str signature)])

/-- The envelope and the signature of decoded ticket bytes, when both are there. -/
def ticketParts : Json → Option (Fields × String)
  | .obj outer =>
    match get outer "env", get outer "sig" with
    | .obj env, .str signature => some (env, signature)
    | _, _ => none
  | _ => none

/-- `tickets.verify`. -/
def verify [Python] (settings : Settings) (now : Int) (raw : Bytes) : PyM Fields :=
  match decode raw with
  | .error _ => raise .ticketError "malformed ticket"
  | .ok outer =>
    match ticketParts outer with
    | none => raise .ticketError "malformed ticket envelope"
    | some (env, signature) => do
      if !(← compareDigest signature (← sig settings env)) then
        raise .ticketError "invalid ticket signature"
      else if (← ((dictGet env "exp").getD (.int 0)).toInt) < now then
        raise .ticketError "ticket expired"
      else
        match get env "cmd" with
        | .obj cmd => .ok cmd
        | _ => raise .ticketError "malformed ticket command"

/-- What a verified ticket carries: an envelope with a valid signature, an expiry that has not
passed, and the command. -/
theorem verify_ok [Python] {settings : Settings} {now : Int} {raw : Bytes} {cmd : Fields}
    (h : verify settings now raw = .ok cmd) :
    ∃ outer env signature exp, decode raw = .ok outer ∧
      ticketParts outer = some (env, signature) ∧ sig settings env = .ok signature ∧
      ((dictGet env "exp").getD (.int 0)).toInt = .ok exp ∧ now ≤ exp ∧
      get env "cmd" = .obj cmd := by
  unfold verify at h
  split at h
  · cases h
  · rename_i outer hdecode
    split at h
    · cases h
    · rename_i env signature hparts
      obtain ⟨expected, hsig, h⟩ := bind_eq_ok h
      obtain ⟨equal, hequal, h⟩ := bind_eq_ok h
      cases equal with
      | false => cases h
      | true =>
        obtain ⟨exp, hexp, h⟩ := bind_eq_ok h
        split at h
        · cases h
        · rename_i hnow
          split at h
          · rename_i command hcommand
            cases h
            have hsignature : signature = expected := compareDigest_true hequal
            subst hsignature
            exact ⟨outer, env, signature, exp, hdecode, hparts, hsig, hexp, not_lt.mp hnow,
              hcommand⟩
          · cases h

end

/-- A JSON library whose bytes are the values themselves. -/
@[reducible] def plainOrjson : Orjson where
  Bytes := Json
  loads := .ok
  dumps := .ok
  dumps_injective h h' := by
    rw [Except.ok.injEq] at h h'
    rw [h, h']

/-- A digest for runs with a single secret, in which signatures are not compared. -/
@[reducible] def plainHmac : @Hmac plainOrjson := @Hmac.mk plainOrjson (fun _ _ => "c2ln")

end Memcove
