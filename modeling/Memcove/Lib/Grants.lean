import Memcove.Lib.Interleaving
import Mathlib.Algebra.Order.Ring.Int

/-!
# Objects and expiring grants

A store keeps one object for a key. Its owner measures, fetches and stores objects, and mints grants
for single keys; whoever holds a grant may fetch or store the object of its key until the deadline,
with no other credential. A call that fails may have been carried out all the same. In every run the
object of a key is that of the last call that stored one there, every grant comes from the call that
minted it, and no token is drawn twice.
-/

namespace Grants

open Programs

/-- What a grant permits. -/
inductive Verb where
  | fetch | store
  deriving DecidableEq

/-- A grant for one key, with the last moment at which it is good. -/
structure Grant (K : Type) where
  verb : Verb
  key : K
  deadline : ℤ
  deriving DecidableEq

/-- The calls on a store with keys `K` and objects `V`, and what else its owner asks for: a fresh
token, and time to pass. -/
inductive Request (K V : Type) where
  | draw
  | mint (verb : Verb) (key : K) (lifetime : ℤ)
  | measure (key : K)
  | fetch (key : K)
  | store (key : K) (object : V)
  | fetchBy (grant : Grant K)
  | storeBy (grant : Grant K) (object : V)
  | wait (duration : ℕ)

/-- The answers, where the tokens are of type `T`. -/
abbrev Reply (K V T : Type) : Request K V → Type
  | .draw => T
  | .mint .. => Grant K
  | .measure _ => ℤ
  | .fetch _ => V
  | .fetchBy _ => V
  | .store .. | .storeBy .. | .wait _ => Unit

/-- The objects, the grants that were minted, the tokens that were drawn, and the time. -/
structure Store (K V T : Type) where
  objects : K → Option V
  grants : List (Grant K)
  drawn : List T
  now : ℤ

variable {K V T E ι : Type}

/-- A grant that is good now. -/
def Store.Permits (s : Store K V T) (verb : Verb) (g : Grant K) : Prop :=
  g ∈ s.grants ∧ g.verb = verb ∧ s.now ≤ g.deadline

/-- What the tokens look like, how objects are measured, and after which errors a call was carried
out all the same. -/
structure Rules (V T E : Type) where
  size : V → ℤ
  IsToken : T → Prop
  late : E → Bool

/-- A call was carried out. -/
def Rules.carriedOut {α : Type} (R : Rules V T E) : Except E α → Bool
  | .ok _ => true
  | .error e => R.late e

/-- The events on a store. -/
abbrev StoreEvent (K V T E : Type) := Event (Request K V) (Reply K V T) E

/-- The object that an event stores, with its key. -/
def Rules.stored (R : Rules V T E) : StoreEvent K V T E → Option (K × V)
  | ⟨.store k v, r⟩ => if R.carriedOut r then some (k, v) else none
  | ⟨.storeBy g v, r⟩ => if R.carriedOut r then some (g.key, v) else none
  | _ => none

/-- The grant that an event mints. -/
def minted : StoreEvent K V T E → Option (Grant K)
  | ⟨.mint _ _ _, .ok g⟩ => some g
  | _ => none

/-- The token that an event draws. -/
def token : StoreEvent K V T E → Option T
  | ⟨.draw, .ok t⟩ => some t
  | _ => none

/-- The time that passes with an event. -/
def elapsed : StoreEvent K V T E → ℕ
  | ⟨.wait d, _⟩ => d
  | _ => 0

variable [DecidableEq K]

/-- The store as a machine. -/
def Rules.machine (R : Rules V T E) : Machine (Request K V) (Reply K V T) E (Store K V T) where
  possible s event := match event with
    | ⟨.draw, .ok t⟩ => R.IsToken t ∧ t ∉ s.drawn
    | ⟨.mint verb k lifetime, .ok g⟩ => g = ⟨verb, k, s.now + lifetime⟩
    | ⟨.measure k, .ok n⟩ => (s.objects k).map R.size = some n
    | ⟨.fetch k, .ok v⟩ => s.objects k = some v
    | ⟨.fetchBy g, .ok v⟩ => s.Permits .fetch g ∧ s.objects g.key = some v
    | ⟨.storeBy g _, r⟩ => R.carriedOut r = true → s.Permits .store g
    | _ => True
  effect s event :=
    { objects := match R.stored event with
        | some (k, v) => Function.update s.objects k (some v)
        | none => s.objects
      grants := (minted event).toList ++ s.grants
      drawn := (token event).toList ++ s.drawn
      now := s.now + elapsed event }

/-- Every answer in a log was possible. -/
abbrev Rules.Answered (R : Rules V T E) (s : Store K V T)
    (log : Log (Request K V) (Reply K V T) E ι) : Prop :=
  Along (fun older entry => R.machine.possible (R.machine.after s older) entry.2) log

/-- The entries of a log store nothing for the key. -/
def Rules.Untouched (R : Rules V T E) (k : K) (log : Log (Request K V) (Reply K V T) E ι) : Prop :=
  ∀ entry ∈ log, ∀ v, R.stored entry.2 ≠ some (k, v)

variable {R : Rules V T E} {s : Store K V T} {log : Log (Request K V) (Reply K V T) E ι}

/-- Measuring changes nothing. -/
@[simp] theorem effect_measure (k : K) (r : Except E ℤ) :
    R.machine.effect s ⟨.measure k, r⟩ = s := by
  simp [Rules.machine, Rules.stored, minted, token, elapsed]

/-- Fetching changes nothing. -/
@[simp] theorem effect_fetch (k : K) (r : Except E V) :
    R.machine.effect s ⟨.fetch k, r⟩ = s := by
  simp [Rules.machine, Rules.stored, minted, token, elapsed]

/-- The object of a key is the one that an event stores there, or else the one before. -/
theorem objects_effect (event : StoreEvent K V T E) (k : K) :
    (∃ v, R.stored event = some (k, v) ∧ (R.machine.effect s event).objects k = some v) ∨
      ((∀ v, R.stored event ≠ some (k, v)) ∧
        (R.machine.effect s event).objects k = s.objects k) := by
  cases hstored : R.stored event with
  | none => exact Or.inr ⟨by simp, by simp [Rules.machine, hstored]⟩
  | some entry =>
    obtain ⟨k', v⟩ := entry
    by_cases hk : k' = k
    · subst hk
      exact Or.inl ⟨v, rfl, by simp [Rules.machine, hstored]⟩
    · refine Or.inr ⟨fun v' heq => hk (congrArg Prod.fst (Option.some.inj heq)), ?_⟩
      simp [Rules.machine, hstored, Function.update_of_ne (Ne.symm hk)]

/-- A log that stores nothing for a key leaves its object as it is. -/
theorem objects_untouched {k : K} (h : R.Untouched k log) :
    (R.machine.after s log).objects k = s.objects k := by
  induction log with
  | nil => rfl
  | cons entry log ih =>
    obtain ⟨hentry, hlog⟩ := List.forall_mem_cons.mp h
    rw [Machine.after_cons]
    rcases objects_effect entry.2 k with ⟨v, hstored, _⟩ | ⟨_, hobjects⟩
    · exact absurd hstored (hentry v)
    · rw [hobjects, ih hlog]

/-- The object of a key is that of the last entry which stored one there. -/
theorem objects_stored {k : K} {v : V} {entry : ι × StoreEvent K V T E}
    {since before : Log (Request K V) (Reply K V T) E ι} (hentry : R.stored entry.2 = some (k, v))
    (hsince : R.Untouched k since) :
    (R.machine.after s (since ++ entry :: before)).objects k = some v := by
  rw [Machine.after_append, objects_untouched hsince, Machine.after_cons]
  rcases objects_effect (s := R.machine.after s before) entry.2 k with
    ⟨v', hstored, hobjects⟩ | ⟨hnone, _⟩
  · rw [hstored, Option.some.injEq, Prod.mk.injEq] at hentry
    rw [hobjects, hentry.2]
  · exact absurd hentry (hnone v)

/-- An object was there from the start, or comes from the last entry that stored one for its
key. -/
theorem stored_of_objects {k : K} {v : V} (h : (R.machine.after s log).objects k = some v) :
    (s.objects k = some v ∧ R.Untouched k log) ∨
      ∃ since entry before, log = since ++ entry :: before ∧
        R.stored entry.2 = some (k, v) ∧ R.Untouched k since := by
  induction log with
  | nil => exact Or.inl ⟨h, by simp [Rules.Untouched]⟩
  | cons entry log ih =>
    rw [Machine.after_cons] at h
    rcases objects_effect (s := R.machine.after s log) entry.2 k with
      ⟨v', hstored, hobjects⟩ | ⟨hnone, hobjects⟩
    · rw [hobjects, Option.some.injEq] at h
      subst h
      exact Or.inr ⟨[], entry, log, rfl, hstored, by simp [Rules.Untouched]⟩
    · rw [hobjects] at h
      rcases ih h with ⟨hstart, hlog⟩ | ⟨since, writer, before, rfl, hwriter, hsince⟩
      · exact Or.inl ⟨hstart, List.forall_mem_cons.mpr ⟨hnone, hlog⟩⟩
      · exact Or.inr ⟨entry :: since, writer, before, rfl, hwriter,
          List.forall_mem_cons.mpr ⟨hnone, hsince⟩⟩

/-- An object has the size that was measured, unless it was stored since. -/
theorem size_of_measured {i : ι} {k : K} {v : V} {n : ℤ}
    {since before : Log (Request K V) (Reply K V T) E ι}
    (hmeasured : R.machine.possible (R.machine.after s before) ⟨.measure k, .ok n⟩)
    (h : (R.machine.after s (since ++ (i, ⟨.measure k, .ok n⟩) :: before)).objects k = some v) :
    R.size v = n ∨ ∃ entry ∈ since, R.stored entry.2 = some (k, v) := by
  rw [Machine.after_append] at h
  rcases stored_of_objects h with ⟨hbefore, _⟩ | ⟨newer, entry, older, rfl, hstored, _⟩
  · rw [Machine.after_cons, effect_measure] at hbefore
    have hsize : ((R.machine.after s before).objects k).map R.size = some n := hmeasured
    rw [hbefore, Option.map_some, Option.some.injEq] at hsize
    exact Or.inl hsize
  · exact Or.inr ⟨entry, by simp, hstored⟩

/-- A grant was there from the start, or comes from the entry that minted it. -/
theorem minted_of_grants (hpossible : R.Answered s log) {g : Grant K}
    (h : g ∈ (R.machine.after s log).grants) :
    g ∈ s.grants ∨ ∃ since i lifetime before,
      log = since ++ (i, ⟨.mint g.verb g.key lifetime, .ok g⟩) :: before ∧
        g.deadline = (R.machine.after s before).now + lifetime := by
  induction log with
  | nil => exact Or.inl h
  | cons entry log ih =>
    rcases List.mem_append.mp h with hnew | hold
    · obtain ⟨i, c, r⟩ := entry
      have hminted : minted ⟨c, r⟩ = some g := by simpa using hnew
      have hnow := hpossible.1
      unfold minted at hminted
      split at hminted
      · rename_i verb k lifetime g' heq
        cases heq
        cases hminted
        obtain rfl : g = ⟨verb, k, (R.machine.after s log).now + lifetime⟩ := hnow
        exact Or.inr ⟨[], i, lifetime, log, rfl, rfl⟩
      · cases hminted
    · rcases ih hpossible.2 hold with hstart | ⟨since, i, lifetime, before, rfl, hdeadline⟩
      · exact Or.inl hstart
      · exact Or.inr ⟨entry :: since, i, lifetime, before, rfl, hdeadline⟩

/-- A token of the log has been drawn. -/
theorem drawn_of_mem {entry : ι × StoreEvent K V T E} {t : T} (h : entry ∈ log)
    (ht : token entry.2 = some t) : t ∈ (R.machine.after s log).drawn := by
  induction log with
  | nil => cases h
  | cons next log ih =>
    rw [Machine.after_cons]
    rcases List.mem_cons.mp h with rfl | h
    · exact List.mem_append_left _ (by simp [ht])
    · exact List.mem_append_right _ (ih h)

/-- What was drawn is a token. -/
theorem isToken_of_mem (hpossible : R.Answered s log) {i : ι} {t : T}
    (h : (i, ⟨.draw, .ok t⟩) ∈ log) : R.IsToken t := by
  induction log with
  | nil => cases h
  | cons entry log ih =>
    rcases List.mem_cons.mp h with rfl | h
    · exact hpossible.1.1
    · exact ih hpossible.2 h

/-- No two programs draw the same token. -/
theorem token_unique (hpossible : R.Answered s log) {i j : ι} {t : T}
    (hi : (i, ⟨.draw, .ok t⟩) ∈ log) (hj : (j, ⟨.draw, .ok t⟩) ∈ log) : i = j := by
  induction log with
  | nil => cases hi
  | cons entry log ih =>
    have hfresh {i' : ι} (hentry : entry = (i', ⟨.draw, .ok t⟩)) :
        ∀ j' : ι, (j', (⟨.draw, .ok t⟩ : StoreEvent K V T E)) ∉ log := by
      intro j' hj'
      subst hentry
      exact hpossible.1.2 (drawn_of_mem hj' rfl)
    rcases List.mem_cons.mp hi with hi | hi
    · rcases List.mem_cons.mp hj with hj | hj
      · exact congrArg Prod.fst (hi.trans hj.symm)
      · exact absurd hj (hfresh hi.symm j)
    · rcases List.mem_cons.mp hj with hj | hj
      · exact absurd hi (hfresh hj.symm i)
      · exact ih hpossible.2 hi hj

instance (verb : Verb) (g : Grant K) : Decidable (s.Permits verb g) :=
  inferInstanceAs (Decidable (g ∈ s.grants ∧ g.verb = verb ∧ s.now ≤ g.deadline))

/-- The answers of the store where `fresh` draws the tokens; what is not there or not permitted is
refused. -/
def Rules.answer (R : Rules V T E) (fresh : List T → T) (refused : E) (s : Store K V T) :
    (c : Request K V) → Except E (Reply K V T c)
  | .draw => .ok (fresh s.drawn)
  | .mint verb k lifetime => .ok ⟨verb, k, s.now + lifetime⟩
  | .measure k => match s.objects k with
    | some v => .ok (R.size v)
    | none => .error refused
  | .fetch k => match s.objects k with
    | some v => .ok v
    | none => .error refused
  | .fetchBy g => match s.objects g.key with
    | some v => if s.Permits .fetch g then .ok v else .error refused
    | none => .error refused
  | .storeBy g _ => if s.Permits .store g then .ok () else .error refused
  | .store _ _ => .ok ()
  | .wait _ => .ok ()

/-- These answers are possible, where a refused call is not carried out. -/
theorem answer_possible {fresh : List T → T} {refused : E}
    (hfresh : ∀ drawn, R.IsToken (fresh drawn) ∧ fresh drawn ∉ drawn)
    (hrefused : R.late refused = false) (c : Request K V) :
    R.machine.possible s ⟨c, R.answer fresh refused s c⟩ := by
  cases c with
  | draw => exact hfresh s.drawn
  | mint verb k lifetime => rfl
  | store k v => trivial
  | wait d => trivial
  | measure k =>
    cases hobject : s.objects k <;> simp [Rules.answer, Rules.machine, hobject]
  | fetch k =>
    cases hobject : s.objects k <;> simp [Rules.answer, Rules.machine, hobject]
  | fetchBy g =>
    cases hobject : s.objects g.key with
    | none => simp [Rules.answer, Rules.machine, hobject]
    | some v =>
      by_cases hpermits : s.Permits .fetch g <;>
        simp [Rules.answer, Rules.machine, hobject, hpermits]
  | storeBy g v =>
    by_cases hpermits : s.Permits .store g <;>
      simp [Rules.answer, Rules.machine, Rules.carriedOut, hpermits, hrefused]

end Grants
