import Mathlib.Tactic.TypeStar

/-!
# Programs that call out

A program either returns, or raises, or makes a call and goes on with the answer, which is a value
or an error. Programs form a monad with exceptions. A contract says what a program may call and
which answers it may rely on, both depending on the calls and answers that it has seen so far;
`Sat` is the program logic of contracts, with one rule for each way to build a program.
-/

namespace Programs

universe u

/-- A program over the calls `C`, with answers `A` and errors `E`. -/
inductive Program (C : Type) (A : C → Type) (E α : Type) where
  | pure (a : α)
  | raise (e : E)
  | call (c : C) (k : Except E (A c) → Program C A E α)

/-- A call together with its answer. -/
structure Event (C : Type) (A : C → Type) (E : Type) where
  call : C
  answer : Except E (A call)

variable {C : Type} {A : C → Type} {E α β : Type}

namespace Program

/-- One program after the other. -/
def bind : Program C A E α → (α → Program C A E β) → Program C A E β
  | .pure a, f => f a
  | .raise e, _ => .raise e
  | .call c k, f => .call c (fun r => bind (k r) f)

/-- `try … except`. -/
def tryCatch : Program C A E α → (E → Program C A E α) → Program C A E α
  | .pure a, _ => .pure a
  | .raise e, h => h e
  | .call c k, h => .call c (fun r => tryCatch (k r) h)

instance : Monad (Program C A E) where
  pure := .pure
  bind := bind

instance : MonadExceptOf E (Program C A E) where
  throw := .raise
  tryCatch := tryCatch

/-- Three programs one after the other. -/
theorem bind_assoc {γ : Type} (p : Program C A E α) (f : α → Program C A E β)
    (g : β → Program C A E γ) : (p.bind f).bind g = p.bind (fun a => (f a).bind g) := by
  induction p with
  | pure a => rfl
  | raise e => rfl
  | call c k ih => exact congrArg (Program.call c) (funext ih)

/-- Returning the result changes nothing. -/
theorem bind_pure (p : Program C A E α) : p.bind .pure = p := by
  induction p with
  | pure a => rfl
  | raise e => rfl
  | call c k ih => exact congrArg (Program.call c) (funext ih)

instance : LawfulMonad (Program C A E) :=
  LawfulMonad.mk' _ bind_pure (fun _ _ => rfl) (fun p f g => bind_assoc p f g)

/-- A computation that makes no call. -/
def lift : Except E α → Program C A E α
  | .ok a => .pure a
  | .error e => .raise e

/-- A computation that returns. -/
theorem lift_ok_bind (a : α) (f : α → Program C A E β) : lift (.ok a) >>= f = f a := rfl

/-- One call, whose error is raised. -/
def perform (c : C) : Program C A E (A c) := .call c lift

/-- `for x in xs: f(x)`. -/
def each {ι : Type} (f : ι → Program C A E PUnit) : List ι → Program C A E PUnit
  | [] => .pure ⟨⟩
  | x :: xs => bind (f x) (fun _ => each f xs)

/-- `[x for x in xs if p(x)]`. -/
def select {ι : Type} (p : ι → Program C A E Bool) : List ι → Program C A E (List ι)
  | [] => .pure []
  | x :: xs => bind (p x) (fun b => bind (select p xs)
      (fun ys => .pure (if b then x :: ys else ys)))

end Program

/-- What a program may call, and which answers it may rely on, after the events of the history,
newest first. -/
structure Contract (C : Type) (A : C → Type) (E : Type) where
  guarantee : List (Event C A E) → C → Prop
  assume : List (Event C A E) → Event C A E → Prop

/-- Every call that the program makes after the history `h` keeps the contract as long as the
answers do, and when it ends the postcondition holds of the history and the result. -/
def Sat (K : Contract C A E) (Ψ : List (Event C A E) → Except E α → Prop) :
    List (Event C A E) → Program C A E α → Prop
  | h, .pure a => Ψ h (.ok a)
  | h, .raise e => Ψ h (.error e)
  | h, .call c k => K.guarantee h c ∧ ∀ r, K.assume h ⟨c, r⟩ → Sat K Ψ (⟨c, r⟩ :: h) (k r)

variable {K : Contract C A E} {Ψ Ψ' : List (Event C A E) → Except E α → Prop}
  {h : List (Event C A E)} {p : Program C A E α}

/-- A weaker postcondition. -/
theorem Sat.mono (hp : Sat K Ψ h p) (himp : ∀ h r, Ψ h r → Ψ' h r) : Sat K Ψ' h p := by
  induction p generalizing h with
  | pure a => exact himp _ _ hp
  | raise e => exact himp _ _ hp
  | call c k ih => exact ⟨hp.1, fun r hr => ih r (hp.2 r hr)⟩

/-- Two postconditions. -/
theorem Sat.and (hp : Sat K Ψ h p) (hp' : Sat K Ψ' h p) :
    Sat K (fun h r => Ψ h r ∧ Ψ' h r) h p := by
  induction p generalizing h with
  | pure a => exact ⟨hp, hp'⟩
  | raise e => exact ⟨hp, hp'⟩
  | call c k ih => exact ⟨hp.1, fun r hr => ih r (hp.2 r hr) (hp'.2 r hr)⟩

/-- The rule for one program after the other. -/
theorem Sat.bind {Φ : List (Event C A E) → Except E β → Prop} {f : α → Program C A E β}
    (hp : Sat K Ψ h p) (hok : ∀ h a, Ψ h (.ok a) → Sat K Φ h (f a))
    (herror : ∀ h e, Ψ h (.error e) → Φ h (.error e)) : Sat K Φ h (p >>= f) := by
  change Sat K Φ h (p.bind f)
  induction p generalizing h with
  | pure a => exact hok _ _ hp
  | raise e => exact herror _ _ hp
  | call c k ih => exact ⟨hp.1, fun r hr => ih r (hp.2 r hr)⟩

/-- The rule for `try … except`. -/
theorem Sat.tryCatch {g : E → Program C A E α} (hp : Sat K Ψ h p)
    (hok : ∀ h a, Ψ h (.ok a) → Ψ' h (.ok a))
    (herror : ∀ h e, Ψ h (.error e) → Sat K Ψ' h (g e)) : Sat K Ψ' h (p.tryCatch g) := by
  induction p generalizing h with
  | pure a => exact hok _ _ hp
  | raise e => exact herror _ _ hp
  | call c k ih => exact ⟨hp.1, fun r hr => ih r (hp.2 r hr)⟩

/-- The rule for a computation without calls. -/
theorem Sat.lift {x : Except E α} (hx : Ψ h x) : Sat K Ψ h (Program.lift x) := by
  cases x with
  | ok a => exact hx
  | error e => exact hx

/-- The rule for one call. -/
theorem Sat.perform {c : C} {Φ : List (Event C A E) → Except E (A c) → Prop}
    (hc : K.guarantee h c) (hr : ∀ r, K.assume h ⟨c, r⟩ → Φ (⟨c, r⟩ :: h) r) :
    Sat K Φ h (Program.perform c) :=
  ⟨hc, fun r hassume => Sat.lift (hr r hassume)⟩

/-- The rule for one call and what follows it. -/
theorem Sat.perform_bind {c : C} {f : A c → Program C A E α} (hc : K.guarantee h c)
    (hok : ∀ a, K.assume h ⟨c, .ok a⟩ → Sat K Ψ (⟨c, .ok a⟩ :: h) (f a))
    (herror : ∀ e, K.assume h ⟨c, .error e⟩ → Ψ (⟨c, .error e⟩ :: h) (.error e)) :
    Sat K Ψ h (Program.perform c >>= f) := by
  refine ⟨hc, fun r hr => ?_⟩
  cases r with
  | ok a => exact hok a hr
  | error e => exact herror e hr

/-- The rule for a computation without calls and what follows it. -/
theorem Sat.lift_bind {x : Except E β} {f : β → Program C A E α}
    (hok : ∀ b, x = .ok b → Sat K Ψ h (f b)) (herror : ∀ e, x = .error e → Ψ h (.error e)) :
    Sat K Ψ h (Program.lift x >>= f) := by
  cases x with
  | ok b => exact hok b rfl
  | error e => exact herror e rfl

/-- The rule for a loop: an invariant of the history and of the elements still to come. -/
theorem Sat.each {ι : Type} {f : ι → Program C A E PUnit} {I : List ι → List (Event C A E) → Prop}
    {Φ : List (Event C A E) → Except E PUnit → Prop}
    (hstep : ∀ x xs h, I (x :: xs) h →
      Sat K (fun h r => match r with | .ok _ => I xs h | .error e => Φ h (.error e)) h (f x))
    (hend : ∀ h, I [] h → Φ h (.ok ⟨⟩)) {xs : List ι} {h : List (Event C A E)} (hinit : I xs h) :
    Sat K Φ h (Program.each f xs) := by
  induction xs generalizing h with
  | nil => exact hend _ hinit
  | cons x xs ih => exact (hstep x xs h hinit).bind (fun _ _ hi => ih hi) (fun _ _ he => he)

/-- The rule for a comprehension: an invariant of the history. -/
theorem Sat.select {ι : Type} {f : ι → Program C A E Bool} {I : List (Event C A E) → Prop}
    (hstep : ∀ x h, I h → Sat K (fun h _ => I h) h (f x)) {xs : List ι} {h : List (Event C A E)}
    (hinit : I h) : Sat K (fun h _ => I h) h (Program.select f xs) := by
  induction xs generalizing h with
  | nil => exact hinit
  | cons x xs ih =>
    refine (hstep x h hinit).bind (fun h b hi => ?_) (fun _ _ hi => hi)
    exact (ih hi).bind (fun _ _ hi => hi) (fun _ _ hi => hi)

/-- The history and the result of a program whose calls are answered by a function. -/
def Program.answered (answer : (c : C) → Except E (A c)) :
    Program C A E α → List (Event C A E) → List (Event C A E) × Except E α
  | .pure a, h => (h, .ok a)
  | .raise e, h => (h, .error e)
  | .call c k, h => (k (answer c)).answered answer (⟨c, answer c⟩ :: h)

/-- What was shown holds at the end of a run with such answers. -/
theorem Sat.answered {answer : (c : C) → Except E (A c)}
    (hassume : ∀ h c, K.assume h ⟨c, answer c⟩) (hp : Sat K Ψ h p) :
    Ψ (p.answered answer h).1 (p.answered answer h).2 := by
  induction p generalizing h with
  | pure a => exact hp
  | raise e => exact hp
  | call c k ih => exact ih (answer c) (hp.2 (answer c) (hassume h c))

/-- Every call of the program satisfies `Q`, whatever the answers are. -/
def Only (Q : C → Prop) : Program C A E α → Prop
  | .pure _ => True
  | .raise _ => True
  | .call c k => Q c ∧ ∀ r, Only Q (k r)

/-- One program after the other. -/
theorem Only.bind {Q : C → Prop} {f : α → Program C A E β} (hp : Only Q p)
    (hf : ∀ a, Only Q (f a)) : Only Q (p >>= f) := by
  change Only Q (p.bind f)
  induction p with
  | pure a => exact hf a
  | raise e => trivial
  | call c k ih => exact ⟨hp.1, fun r => ih r (hp.2 r)⟩

/-- `try … except`. -/
theorem Only.tryCatch {Q : C → Prop} {g : E → Program C A E α} (hp : Only Q p)
    (hg : ∀ e, Only Q (g e)) : Only Q (p.tryCatch g) := by
  induction p with
  | pure a => trivial
  | raise e => exact hg e
  | call c k ih => exact ⟨hp.1, fun r => ih r (hp.2 r)⟩

/-- A computation without calls. -/
theorem Only.lift {Q : C → Prop} {x : Except E α} : Only Q (Program.lift (A := A) x) := by
  cases x <;> trivial

/-- One call. -/
theorem Only.perform {Q : C → Prop} {c : C} (hc : Q c) :
    Only Q (Program.perform (A := A) (E := E) c) := ⟨hc, fun _ => Only.lift⟩

/-- A loop. -/
theorem Only.each {Q : C → Prop} {ι : Type} {f : ι → Program C A E PUnit} {xs : List ι}
    (hf : ∀ x ∈ xs, Only Q (f x)) : Only Q (Program.each f xs) := by
  induction xs with
  | nil => trivial
  | cons x xs ih =>
    exact Only.bind (hf x List.mem_cons_self)
      (fun _ => ih (fun y hy => hf y (List.mem_cons_of_mem x hy)))

/-- A comprehension. -/
theorem Only.select {Q : C → Prop} {ι : Type} {f : ι → Program C A E Bool} {xs : List ι}
    (hf : ∀ x ∈ xs, Only Q (f x)) : Only Q (Program.select f xs) := by
  induction xs with
  | nil => trivial
  | cons x xs ih =>
    refine Only.bind (hf x List.mem_cons_self) (fun b => ?_)
    exact Only.bind (ih (fun y hy => hf y (List.mem_cons_of_mem x hy))) (fun _ => trivial)

/-- A program may also make calls of a wider kind. -/
theorem Only.mono {Q R : C → Prop} (hp : Only Q p) (himp : ∀ c, Q c → R c) : Only R p := by
  induction p with
  | pure a => trivial
  | raise e => trivial
  | call c k ih => exact ⟨himp c hp.1, fun r => ih r (hp.2 r)⟩

/-- A program whose calls are harmless keeps a contract and every property of histories that they
keep. -/
theorem Only.sat {Q : C → Prop} {I : List (Event C A E) → Prop} (hp : Only Q p)
    (hcall : ∀ h c, I h → Q c → K.guarantee h c)
    (hkeep : ∀ h c r, I h → Q c → I (⟨c, r⟩ :: h)) (hinit : I h) :
    Sat K (fun h _ => I h) h p := by
  induction p generalizing h with
  | pure a => exact hinit
  | raise e => exact hinit
  | call c k ih =>
    exact ⟨hcall h c hinit hp.1, fun r _ => ih r (hp.2 r) (hkeep h c r hinit hp.1)⟩

end Programs
