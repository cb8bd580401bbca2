import Memcove.Flight.Authority

/-!
# How long a ticket lives

A ticket that the control plane signed is accepted for `flight_ticket_ttl_seconds`. Re-issuing
signs the same command with a fresh expiry, so a chain of re-issues outlives every bound unless
`do_get` receives re-issued tickets only while the ticket at the start of the chain is valid.
-/

namespace Memcove

open Json Runs

section

variable [Python] [Sha256] [Sqlglot] [Orjson] [Hmac]

/-- Some earlier event of the control plane minted the command at most one lifetime before. -/
def MintedRecently (settings : Settings) (earlier : List Event) (cmd : Fields) (now : Int) : Prop :=
  ∃ e ∈ earlier, ∃ minted t, e.Mints settings minted t ∧ SameUpToOrder (.obj cmd) (.obj minted) ∧
    now ≤ t + settings.flightTicketTtlSeconds

/-- Everything served was minted recently. -/
def ShortLived (settings : Settings) : List Event → Prop
  | [] => True
  | .got _ _ cmd now :: earlier =>
    MintedRecently settings earlier cmd now ∧ ShortLived settings earlier
  | .put _ _ _ cmd now :: earlier =>
    MintedRecently settings earlier cmd now ∧ ShortLived settings earlier
  | _ :: earlier => ShortLived settings earlier

/-- A re-issued ticket reaches `do_get` before the ticket at the start of its chain expires. -/
def ReissuedInTime (_ : World) : Action → Prop
  | .doGet _ origin now => origin.reissued = true → now ≤ origin.deadline
  | _ => True

/-- A presented command was minted recently, when the presented ticket is in time. -/
theorem Backed.mintedRecently {settings : Settings} {log : List Event} {now : Int} {raw : Bytes}
    {origin : Signed} {cmd : Fields} (h : Backed settings log origin)
    (hcarries : Carries raw origin) (hverify : verify settings now raw = .ok cmd)
    (htime : origin.reissued = true → now ≤ origin.deadline) :
    MintedRecently settings log cmd now := by
  obtain ⟨e, he, minted, t, hmints, hsame, hdeadline, hfirst, _⟩ := h.presented hcarries hverify
  refine ⟨e, he, minted, t, hmints, hsame, ?_⟩
  rw [← hdeadline]
  cases horigin : origin.reissued with
  | false => exact hfirst horigin
  | true => exact htime horigin

/-- A ticket that uploads is never a re-issued one. -/
theorem Backed.not_reissued {settings : Settings} {log : List Event} {now : Int} {raw : Bytes}
    {origin : Signed} {cmd : Fields} (h : Backed settings log origin)
    (hcarries : Carries raw origin) (hverify : verify settings now raw = .ok cmd)
    (hop : get cmd "op" = .str "ingest") : origin.reissued = false := by
  obtain ⟨_, _, minted, _, _, hsame, _, _, hread⟩ := h.presented hcarries hverify
  cases horigin : origin.reissued with
  | false => rfl
  | true =>
    have hminted : SameUpToOrder (get minted "op") (.str "ingest") := hop ▸ (hsame.get "op").symm
    exact absurd hminted.eq_str (hread horigin)

/-- One step in time keeps everything served short-lived. -/
theorem shortLived_step {settings : Settings} {w w' : World} {a : Action}
    (hbacked : ∀ s ∈ w.signed, Backed settings w.log s) (hlog : ShortLived settings w.log)
    (htime : ReissuedInTime w a) (hstep : FlightStep settings w a w') :
    ShortLived settings w'.log := by
  cases hstep with
  | streamDataset => exact hlog
  | openIngestStream => exact hlog
  | getFlightInfo => exact hlog
  | doGet horigin hcarries hverify _ =>
    exact ⟨(hbacked _ horigin).mintedRecently hcarries hverify htime, hlog⟩
  | doPut horigin hcarries hverify hput =>
    have hop := (doPutTarget_ok hverify hput).1
    have hfirst := (hbacked _ horigin).not_reissued hcarries hverify hop
    refine ⟨(hbacked _ horigin).mintedRecently hcarries hverify (fun h => ?_), hlog⟩
    rw [hfirst] at h
    cases h

/-- In every run that presents re-issued tickets in time, whatever is served was minted by the
control plane at most one lifetime before. -/
theorem flight_shortLived {settings : Settings} {w : World}
    (h : (flightSystem settings).Reach ReissuedInTime w) : ShortLived settings w.log := by
  have hinv : (∀ s ∈ w.signed, Backed settings w.log s) ∧ ShortLived settings w.log := by
    refine h.invariant (I := fun w =>
      (∀ s ∈ w.signed, Backed settings w.log s) ∧ ShortLived settings w.log) ?_ ?_
    · rintro w rfl
      exact ⟨by simp, trivial⟩
    · intro w a w' ⟨hbacked, hlog⟩ htime hstep
      exact ⟨backed_step hbacked hstep, shortLived_step hbacked hlog htime hstep⟩
  exact hinv.2

end

section

attribute [local instance] asciiPython constantSha256 eventsSqlglot plainOrjson plainHmac

/-- The command to read `events`. -/
def eventsRead : Fields := readCommand "t_acme" "events"

/-- The envelope that is signed for it at a given time. -/
def readEnvelope (now : Int) : Fields := envelope {} now "00" eventsRead

/-- The ticket with that envelope. -/
def readTicket (now : Int) : Json := .obj [("env", .obj (readEnvelope now)), ("sig", .str "c2ln")]

/-- The text that the ticket streams. -/
def eventsText : List Token :=
  generate (.node .select (readStar ⟨"events", "t_acme", "iceberg"⟩))

/-- The world after the control plane mints at time `0` and the Flight server re-issues at
`300`. -/
def reissuedWorld : World where
  signed := [⟨readEnvelope 300, 300, true⟩, ⟨readEnvelope 0, 300, false⟩]
  log := [.streamed acmeCaller (some "events") none 0]

/-- The bytes of a ticket carry its envelope. -/
theorem readTicket_carries (now deadline : Int) (reissued : Bool) :
    Carries (readTicket now) ⟨readEnvelope now, deadline, reissued⟩ :=
  ⟨readTicket now, readEnvelope now, "c2ln", _, rfl, rfl, rfl, rfl⟩

/-- Re-issuing at the last second of the first ticket reaches that world. -/
theorem reissuedWorld_reach : (flightSystem {}).Reach ReissuedInTime reissuedWorld := by
  have hcmd : streamDataset {} acmeCaller (some "events") none = .ok eventsRead := by rfl
  have hsign (now : Int) : sign {} now "00" eventsRead = .ok (readTicket now) := by rfl
  have hverify : verify {} 300 (readTicket 0) = .ok eventsRead := by rfl
  have hinfo : getFlightInfo {} 300 "00" (readTicket 0) = .ok (readTicket 300) := by rfl
  have hminted : (flightSystem {}).Reach ReissuedInTime
      ⟨[⟨readEnvelope 0, 300, false⟩], [.streamed acmeCaller (some "events") none 0]⟩ :=
    .step (a := .streamDataset acmeCaller (some "events") none 0 "00") (.init rfl) trivial
      (.streamDataset hcmd (hsign 0))
  exact .step (a := .getFlightInfo (readTicket 0) ⟨readEnvelope 0, 300, false⟩ 300 "00") hminted
    trivial (.getFlightInfo List.mem_cons_self (readTicket_carries 0 300 false) hverify hinfo)

/-- A re-issued ticket is served 600 seconds after the only minted one, twice its lifetime. -/
theorem reissued_not_shortLived :
    ∃ w, (flightSystem {}).Reach (fun _ _ => True) w ∧
      w.log.head? = some (.got "t_acme" eventsText eventsRead 600) ∧ ¬ ShortLived {} w.log := by
  have hverify : verify {} 600 (readTicket 300) = .ok eventsRead := by rfl
  have hget : doGet {} 600 (readTicket 300) = .ok ("t_acme", eventsText) := by rfl
  have hreach : (flightSystem {}).Reach (fun _ _ => True) reissuedWorld :=
    reissuedWorld_reach.mono (fun _ _ _ => trivial)
  refine ⟨_, .step (a := .doGet (readTicket 300) ⟨readEnvelope 300, 300, true⟩ 600) hreach trivial
    (.doGet List.mem_cons_self (readTicket_carries 300 300 true) hverify hget), rfl, ?_⟩
  rintro ⟨⟨e, he, minted, t, hmints, _, htime⟩, _⟩
  rw [reissuedWorld, List.mem_singleton] at he
  subst he
  obtain ⟨_, ht⟩ := hmints
  rw [← ht] at htime
  exact absurd htime (by decide)

/-- The same ticket served at second 300 is short-lived. -/
theorem reissued_shortLived :
    ∃ w, (flightSystem {}).Reach ReissuedInTime w ∧
      w.log.head? = some (.got "t_acme" eventsText eventsRead 300) ∧ ShortLived {} w.log := by
  have hverify : verify {} 300 (readTicket 300) = .ok eventsRead := by rfl
  have hget : doGet {} 300 (readTicket 300) = .ok ("t_acme", eventsText) := by rfl
  have hintime : ReissuedInTime reissuedWorld
      (.doGet (readTicket 300) ⟨readEnvelope 300, 300, true⟩ 300) := fun _ => le_refl _
  have hreach := System.Reach.step reissuedWorld_reach hintime
    (FlightStep.doGet List.mem_cons_self (readTicket_carries 300 300 true) hverify hget)
  exact ⟨_, hreach, rfl, flight_shortLived hreach⟩

end

end Memcove
