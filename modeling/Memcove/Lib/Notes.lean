import Memcove.Lib.Noninterference

/-!
# Programs that take notes

A program may write down what it does, into a report that its exceptions do not undo. A note is a
call that always returns. Without its notes the program makes the calls of a plain program, and
what the notes say is compared with the history of these calls.
-/

namespace Programs

/-- A call of the program, or a note. -/
inductive Noted (C N : Type) where
  | call (c : C)
  | note (n : N)

/-- The type of the value that a call returns. -/
abbrev Noted.Answer {C N : Type} (A : C → Type) : Noted C N → Type
  | .call c => A c
  | .note _ => PUnit

/-- A program with notes. -/
abbrev NotedProgram (C : Type) (A : C → Type) (N E α : Type) :=
  Program (Noted C N) (Noted.Answer A) E α

variable {C N E α β : Type} {A : C → Type}

/-- The calls of a plain program among those of one with notes. -/
def plainCalls : Embedding C A (Noted C N) (Noted.Answer A) where
  call := .call
  answer _ a := a

/-- A plain program as a part of one with notes. -/
def Program.silent (p : Program C A E α) : NotedProgram C A N E α := p.embed plainCalls

/-- A note. -/
def note (n : N) : NotedProgram C A N E PUnit := .call (.note n) Program.lift

/-- `if c: …` around a note. -/
def noteIf (c : Bool) (n : N) : NotedProgram C A N E PUnit := if c then note n else .pure ⟨⟩

/-- The program without its notes. -/
def Program.withoutNotes : NotedProgram C A N E α → Program C A E α
  | .pure a => .pure a
  | .raise e => .raise e
  | .call (.call c) k => .call c (fun r => (k r).withoutNotes)
  | .call (.note _) k => (k (.ok ⟨⟩)).withoutNotes

/-- A plain program has none. -/
theorem withoutNotes_silent (p : Program C A E α) :
    (p.silent : NotedProgram C A N E α).withoutNotes = p := by
  induction p with
  | pure a => rfl
  | raise e => rfl
  | call c k ih =>
    refine congrArg (Program.call c) (funext fun r => ?_)
    cases r <;> exact ih _

/-- A plain program makes plain calls. -/
theorem only_silent {Q : Noted C N → Prop} (hQ : ∀ c, Q (.call c)) (p : Program C A E α) :
    Only Q (p.silent : NotedProgram C A N E α) := by
  induction p with
  | pure a => trivial
  | raise e => trivial
  | call c k ih => exact ⟨hQ c, fun r => by cases r <;> exact ih _⟩

/-- One program after the other. -/
theorem withoutNotes_bind (p : NotedProgram C A N E α) (f : α → NotedProgram C A N E β) :
    (p >>= f).withoutNotes = p.withoutNotes >>= fun a => (f a).withoutNotes := by
  change (p.bind f).withoutNotes = p.withoutNotes.bind _
  induction p with
  | pure a => rfl
  | raise e => rfl
  | call c k ih =>
    cases c with
    | call c => exact congrArg (Program.call c) (funext fun r => ih r)
    | note n => exact ih _

/-- `try … except`. -/
theorem withoutNotes_tryCatch (p : NotedProgram C A N E α) (f : E → NotedProgram C A N E α) :
    (p.tryCatch f).withoutNotes = p.withoutNotes.tryCatch (fun e => (f e).withoutNotes) := by
  induction p with
  | pure a => rfl
  | raise e => rfl
  | call c k ih =>
    cases c with
    | call c => exact congrArg (Program.call c) (funext fun r => ih r)
    | note n => exact ih _

/-- A loop. -/
theorem withoutNotes_each {ι : Type} (f : ι → NotedProgram C A N E PUnit) (xs : List ι) :
    (Program.each f xs).withoutNotes = Program.each (fun x => (f x).withoutNotes) xs := by
  induction xs with
  | nil => rfl
  | cons x xs ih =>
    refine (withoutNotes_bind (f x) _).trans ?_
    exact congrArg _ (funext fun _ => ih)

/-- A note under a condition. -/
theorem withoutNotes_noteIf (c : Bool) (n : N) :
    (noteIf c n : NotedProgram C A N E PUnit).withoutNotes = .pure ⟨⟩ := by
  cases c <;> rfl

/-- The contract of a program with notes: any calls, whose answers satisfy `T`, and notes that
return. -/
def noting (T : Event C A E → Prop) : Contract (Noted C N) (Noted.Answer A) E where
  guarantee _ _ := True
  assume _ event :=
    match event with
    | ⟨.call c, r⟩ => T ⟨c, r⟩
    | ⟨.note _, r⟩ => r = .ok ⟨⟩

section

variable {T : Event C A E → Prop}
  {Ψ : List (Event (Noted C N) (Noted.Answer A) E) → Except E α → Prop}
  {h : List (Event (Noted C N) (Noted.Answer A) E)}

/-- The rule for a note. -/
theorem sat_note {n : N} {Φ : List (Event (Noted C N) (Noted.Answer A) E) → Except E PUnit → Prop}
    (hn : Φ (⟨.note n, .ok ⟨⟩⟩ :: h) (.ok ⟨⟩)) : Sat (noting T) Φ h (note n) := by
  refine ⟨trivial, fun r hr => ?_⟩
  obtain rfl : r = .ok ⟨⟩ := hr
  exact hn

/-- The rule for one plain call. -/
theorem sat_silent {c : C} {Φ : List (Event (Noted C N) (Noted.Answer A) E) → Except E (A c) → Prop}
    (hc : ∀ r, T ⟨c, r⟩ → Φ (⟨.call c, r⟩ :: h) r) :
    Sat (noting T) Φ h (Program.silent (Program.perform c)) := by
  refine ⟨trivial, fun r hr => ?_⟩
  cases r with
  | ok a => exact hc (.ok a) hr
  | error e => exact hc (.error e) hr

end

end Programs
