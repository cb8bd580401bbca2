import Mathlib.Data.List.Basic

/-!
# Generators

A generator function whose body is one `try` block: a `next` request runs the body up to the next
`yield`, to a `return` or to an exception, and the `finally` block runs when the body is left. A
generator that was never advanced has not entered the `try` block, so closing it runs nothing.
-/

namespace Generators

universe u v w x

/-- The body between two `yield`s, over local states `σ`, and the effect of the `finally` block on a
world that others can see. -/
structure Generator (σ : Type u) (α : Type v) (ε : Type w) (ω : Type x) where
  resume : σ → Except ε (Option (α × σ))
  final : ω → ω

/-- How a generator ended. -/
inductive Ending (ε : Type w) where
  | returned
  | raised (e : ε)
  | closed

/-- The life cycle of a generator object. -/
inductive Phase (σ : Type u) (ε : Type w) where
  | created (s : σ)
  | suspended (s : σ)
  | finished (ending : Ending ε)

/-- What a consumer does with the object. One that lets go of it, say after an exception of its own,
leaves it to be closed. -/
inductive Request where
  | next | close | abandon
  deriving DecidableEq

/-- A generator object and the world. -/
structure Live (σ : Type u) (ε : Type w) (ω : Type x) where
  phase : Phase σ ε
  world : ω

/-- The object has ended. -/
def Phase.isFinished {σ : Type u} {ε : Type w} : Phase σ ε → Bool
  | created _ => false
  | suspended _ => false
  | finished _ => true

/-- The object has ended by a `return`, which its consumer sees as exhaustion. -/
def Phase.isReturned {σ : Type u} {ε : Type w} : Phase σ ε → Bool
  | finished .returned => true
  | _ => false

/-- The local state of an object that can still be advanced. -/
def Phase.local? {σ : Type u} {ε : Type w} : Phase σ ε → Option σ
  | created s => some s
  | suspended s => some s
  | finished _ => none

namespace Generator

variable {σ : Type u} {α : Type v} {ε : Type w} {ω : Type x} (G : Generator σ α ε ω)

/-- The body runs from a local state on. -/
def advance (s : σ) (world : ω) : Live σ ε ω × Option α :=
  match G.resume s with
  | .ok (some (a, t)) => (⟨.suspended t, world⟩, some a)
  | .ok none => (⟨.finished .returned, G.final world⟩, none)
  | .error e => (⟨.finished (.raised e), G.final world⟩, none)

/-- The answer to one request, with the value that it yields. -/
def step (live : Live σ ε ω) : Request → Live σ ε ω × Option α
  | .next =>
    match live.phase with
    | .created s => G.advance s live.world
    | .suspended s => G.advance s live.world
    | .finished _ => (live, none)
  | _ =>
    match live.phase with
    | .created _ => (⟨.finished .closed, live.world⟩, none)
    | .suspended _ => (⟨.finished .closed, G.final live.world⟩, none)
    | .finished _ => (live, none)

/-- The answers to a list of requests, with the values that they yield. -/
def run : Live σ ε ω → List Request → Live σ ε ω × List α
  | live, [] => (live, [])
  | live, r :: requests =>
    let first := G.step live r
    let rest := run first.1 requests
    (rest.1, first.2.toList ++ rest.2)

/-- The object was advanced: the `finally` block has run exactly if it has ended. -/
def Entered (world : ω) (live : Live σ ε ω) : Prop :=
  (∀ s, live.phase ≠ .created s) ∧
    live.world = if live.phase.isFinished then G.final world else world

/-- Running the body enters it. -/
theorem entered_advance (s : σ) (world : ω) : G.Entered world (G.advance s world).1 := by
  unfold advance
  split
  · exact ⟨nofun, rfl⟩
  · exact ⟨nofun, rfl⟩
  · exact ⟨nofun, rfl⟩

variable {G} in
/-- An object that was advanced stays so. -/
theorem Entered.step {world : ω} {live : Live σ ε ω} (h : G.Entered world live) (r : Request) :
    G.Entered world (G.step live r).1 := by
  obtain ⟨phase, world'⟩ := live
  obtain ⟨hcreated, hworld⟩ := h
  cases phase with
  | created s => exact absurd rfl (hcreated s)
  | suspended s =>
    have hsame : world' = world := hworld
    subst hsame
    cases r with
    | next => exact G.entered_advance s world'
    | close => exact ⟨nofun, rfl⟩
    | abandon => exact ⟨nofun, rfl⟩
  | finished ending => cases r <;> exact ⟨nofun, hworld⟩

variable {G} in
/-- So it does over a run. -/
theorem Entered.run {world : ω} {live : Live σ ε ω} (h : G.Entered world live)
    (requests : List Request) : G.Entered world (G.run live requests).1 := by
  induction requests generalizing live with
  | nil => exact h
  | cons r requests ih => exact ih (h.step r)

/-- An object that has ended does nothing. -/
theorem run_finished (ending : Ending ε) (world : ω) (requests : List Request) :
    G.run ⟨.finished ending, world⟩ requests = (⟨.finished ending, world⟩, []) := by
  induction requests with
  | nil => rfl
  | cons r requests ih =>
    have hstep : G.step ⟨.finished ending, world⟩ r = (⟨.finished ending, world⟩, none) := by
      cases r <;> rfl
    simp only [run, hstep, ih, Option.toList_none, List.nil_append]

/-- An object that is closed before it was advanced leaves the world as it was. -/
theorem run_unadvanced (s : σ) (world : ω) {r : Request} (hr : r ≠ .next)
    (requests : List Request) :
    G.run ⟨.created s, world⟩ (r :: requests) = (⟨.finished .closed, world⟩, []) := by
  have hstep : G.step ⟨.created s, world⟩ r = (⟨.finished .closed, world⟩, none) := by
    cases r with
    | next => exact absurd rfl hr
    | close => rfl
    | abandon => rfl
  simp only [run, hstep, G.run_finished, Option.toList_none, List.nil_append]

/-- An object whose first request advances it has run its `finally` block exactly if it has
ended. -/
theorem run_advanced (s : σ) (world : ω) (requests : List Request) :
    G.Entered world (G.run ⟨.created s, world⟩ (.next :: requests)).1 :=
  (G.entered_advance s world).run requests

/-- A `finally` block without effect leaves the world as it is. -/
theorem run_world {world : ω} (hfinal : G.final world = world) {live : Live σ ε ω}
    (hlive : live.world = world) (requests : List Request) :
    (G.run live requests).1.world = world := by
  have hadvance (s : σ) : (G.advance s world).1.world = world := by
    unfold advance
    split
    · rfl
    · exact hfinal
    · exact hfinal
  induction requests generalizing live with
  | nil => exact hlive
  | cons r requests ih =>
    refine ih ?_
    obtain ⟨phase, world'⟩ := live
    obtain rfl : world' = world := hlive
    cases phase with
    | created s =>
      cases r with
      | next => exact hadvance s
      | close => rfl
      | abandon => rfl
    | suspended s =>
      cases r with
      | next => exact hadvance s
      | close => exact hfinal
      | abandon => exact hfinal
    | finished ending => cases r <;> rfl

/-- The values that the body yields from a local state to its `return`. -/
inductive Yields : σ → List α → Prop
  | returned {s : σ} : G.resume s = .ok none → Yields s []
  | yielded {s t : σ} {a : α} {values : List α} : G.resume s = .ok (some (a, t)) →
      Yields t values → Yields s (a :: values)

/-- An object that was consumed to the `return` has given all values. -/
theorem yields_of_run {live : Live σ ε ω} {s : σ} (hlocal : live.phase.local? = some s)
    {requests : List Request} (hreturned : (G.run live requests).1.phase.isReturned = true) :
    G.Yields s (G.run live requests).2 := by
  induction requests generalizing live s with
  | nil =>
    obtain ⟨phase, world⟩ := live
    cases phase with
    | created => cases hreturned
    | suspended => cases hreturned
    | finished => cases hlocal
  | cons r requests ih =>
    have hclosed (hstep : G.step live r = (⟨.finished .closed, (G.step live r).1.world⟩, none)) :
        G.Yields s (G.run live (r :: requests)).2 := by
      rw [run, hstep, G.run_finished] at hreturned
      cases hreturned
    cases r with
    | next =>
      have hstep : G.step live .next = G.advance s live.world := by
        obtain ⟨phase, world⟩ := live
        cases phase <;> cases hlocal <;> rfl
      rw [run, hstep] at hreturned ⊢
      cases hresume : G.resume s with
      | error e =>
        simp only [advance, hresume, G.run_finished] at hreturned
        cases hreturned
      | ok result =>
        cases result with
        | none =>
          simp only [advance, hresume, G.run_finished]
          exact .returned hresume
        | some yielded =>
          simp only [advance, hresume] at hreturned ⊢
          exact .yielded hresume (ih rfl hreturned)
    | close =>
      refine hclosed ?_
      obtain ⟨phase, world⟩ := live
      cases phase <;> cases hlocal <;> rfl
    | abandon =>
      refine hclosed ?_
      obtain ⟨phase, world⟩ := live
      cases phase <;> cases hlocal <;> rfl

/-- A consumer that asks often enough is given all values, and then the `finally` block has run. -/
theorem run_of_yields {s : σ} {values : List α} (h : G.Yields s values) {phase : Phase σ ε}
    (hlocal : phase.local? = some s) (world : ω) :
    G.run ⟨phase, world⟩ (List.replicate (values.length + 1) .next) =
      (⟨.finished .returned, G.final world⟩, values) := by
  have hstep {s : σ} {phase : Phase σ ε} (hlocal : phase.local? = some s) :
      G.step ⟨phase, world⟩ .next = G.advance s world := by
    cases phase <;> cases hlocal <;> rfl
  induction h generalizing phase with
  | returned hresume =>
    rw [List.length_nil, List.replicate_one, run, hstep hlocal]
    simp only [advance, hresume]
    rfl
  | @yielded s t a values hresume _ ih =>
    have hlocal' : (Phase.suspended t : Phase σ ε).local? = some t := rfl
    rw [List.length_cons, List.replicate_succ, run, hstep hlocal]
    simp only [advance, hresume, ih hlocal']
    rfl

end Generator

end Generators
