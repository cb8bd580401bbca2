import Memcove.Lib.Programs
import Mathlib.Logic.Function.Basic

/-!
# Interleaved runs of programs over shared stores

Any number of programs run against one machine: the machine says which answers a call can get in
a state of the stores, and what an answered call does to them. A run interleaves the programs one
call at a time and is recorded in a log, newest entry first. What a program does in a run is
governed by its contract, and a given schedule can be played to obtain a concrete run.
-/

namespace Programs

/-- What the stores `S` answer, and what an answered call does to them. -/
structure Machine (C : Type) (A : C → Type) (E S : Type) where
  possible : S → Event C A E → Prop
  effect : S → Event C A E → S

variable {C : Type} {A : C → Type} {E S ι : Type}

/-- The calls of a run, each with the program that made it, newest first. -/
abbrev Log (C : Type) (A : C → Type) (E ι : Type) := List (ι × Event C A E)

/-- The stores after the calls of a log. -/
def Machine.after (M : Machine C A E S) (s : S) (log : Log C A E ι) : S :=
  log.foldr (fun entry t => M.effect t entry.2) s

/-- The stores before any call. -/
@[simp] theorem Machine.after_nil (M : Machine C A E S) (s : S) :
    M.after s ([] : Log C A E ι) = s := rfl

/-- The stores after one more call. -/
@[simp] theorem Machine.after_cons (M : Machine C A E S) (s : S) (entry : ι × Event C A E)
    (log : Log C A E ι) : M.after s (entry :: log) = M.effect (M.after s log) entry.2 := rfl

/-- The stores after a log whose older part is given. -/
theorem Machine.after_append (M : Machine C A E S) (s : S) (newer older : Log C A E ι) :
    M.after s (newer ++ older) = M.after (M.after s older) newer := by
  simp [Machine.after]

/-- Every entry of the log satisfies `Q` relative to the entries before it. -/
def Along (Q : Log C A E ι → ι × Event C A E → Prop) : Log C A E ι → Prop
  | [] => True
  | entry :: older => Q older entry ∧ Along Q older

/-- A decidable property of entries is decidable along a log. -/
instance instDecidableAlong {Q : Log C A E ι → ι × Event C A E → Prop}
    [∀ older entry, Decidable (Q older entry)] : (log : Log C A E ι) → Decidable (Along Q log)
  | [] => inferInstanceAs (Decidable True)
  | entry :: older =>
    let _ : Decidable (Along Q older) := instDecidableAlong older
    inferInstanceAs (Decidable (Q older entry ∧ Along Q older))

/-- A property of entries that follows from another one, which may be used of the log so far. -/
theorem Along.imp {Q R : Log C A E ι → ι × Event C A E → Prop} {log : Log C A E ι}
    (h : Along Q log) (himp : ∀ older entry, Along Q (entry :: older) → R older entry) :
    Along R log := by
  induction log with
  | nil => trivial
  | cons entry older ih => exact ⟨himp _ _ h, ih h.2⟩

/-- Two properties of entries. -/
theorem Along.and {Q R : Log C A E ι → ι × Event C A E → Prop} {log : Log C A E ι}
    (hQ : Along Q log) (hR : Along R log) :
    Along (fun older entry => Q older entry ∧ R older entry) log := by
  induction log with
  | nil => trivial
  | cons entry older ih => exact ⟨⟨hQ.1, hR.1⟩, ih hQ.2 hR.2⟩

/-- A property of single entries. -/
theorem along_iff_forall {Q : ι × Event C A E → Prop} {log : Log C A E ι} :
    Along (fun _ entry => Q entry) log ↔ ∀ entry ∈ log, Q entry := by
  induction log with
  | nil => exact ⟨fun _ _ h => (List.not_mem_nil h).elim, fun _ => trivial⟩
  | cons entry older ih => rw [List.forall_mem_cons, ← ih, Along]

/-- The property holds of every shorter log. -/
theorem Along.older {Q : Log C A E ι → ι × Event C A E → Prop} {newer older : Log C A E ι}
    (h : Along Q (newer ++ older)) : Along Q older := by
  induction newer with
  | nil => exact h
  | cons entry newer ih => exact ih h.2

/-- A property that every entry has relative to those before it. -/
theorem along_of_split {Q : Log C A E ι → ι × Event C A E → Prop} {log : Log C A E ι}
    (h : ∀ newer entry older, log = newer ++ entry :: older → Q older entry) : Along Q log := by
  induction log with
  | nil => trivial
  | cons entry log ih =>
    refine ⟨h [] entry log rfl, ih (fun newer entry' older hlog => ?_)⟩
    exact h (entry :: newer) entry' older (by rw [hlog, List.cons_append])

/-- A property of the stores along a log holds along its newer part from the stores before it. -/
theorem Along.newer {M : Machine C A E S} {s : S} {Q : S → ι × Event C A E → Prop}
    {newer older : Log C A E ι} (h : Along (fun rest entry => Q (M.after s rest) entry)
      (newer ++ older)) :
    Along (fun rest entry => Q (M.after (M.after s older) rest) entry) newer := by
  induction newer with
  | nil => trivial
  | cons entry newer ih =>
    have hentry : Q (M.after s (newer ++ older)) entry := h.1
    rw [M.after_append] at hentry
    exact ⟨hentry, ih h.2⟩

variable [DecidableEq ι]

/-- The calls of one program, newest first. -/
def history (i : ι) (log : Log C A E ι) : List (Event C A E) :=
  (log.filter (fun entry => decide (entry.1 = i))).map (·.2)

/-- A call of the program itself. -/
theorem history_cons_self (i : ι) (event : Event C A E) (log : Log C A E ι) :
    history i ((i, event) :: log) = event :: history i log := by
  simp [history]

/-- A call of another program. -/
theorem history_cons_of_ne {i j : ι} (hij : j ≠ i) (event : Event C A E) (log : Log C A E ι) :
    history i ((j, event) :: log) = history i log := by
  simp [history, hij]

/-- The events of a history are in the log. -/
theorem mem_history {i : ι} {event : Event C A E} {log : Log C A E ι} :
    event ∈ history i log ↔ (i, event) ∈ log := by
  simp [history]

/-- What the other programs have done since the program's last call. -/
def sinceOwn (i : ι) (log : Log C A E ι) : Log C A E ι :=
  log.takeWhile (fun entry => decide (entry.1 ≠ i))

/-- A log splits at a program's last call. -/
theorem split_sinceOwn {i : ι} {event : Event C A E} {h : List (Event C A E)} {log : Log C A E ι}
    (hlog : history i log = event :: h) :
    ∃ older, log = sinceOwn i log ++ (i, event) :: older := by
  induction log with
  | nil => cases hlog
  | cons entry log ih =>
    obtain ⟨j, event'⟩ := entry
    by_cases hj : j = i
    · subst hj
      rw [history_cons_self] at hlog
      cases hlog
      exact ⟨log, by simp [sinceOwn]⟩
    · rw [history_cons_of_ne hj] at hlog
      obtain ⟨older, hsplit⟩ := ih hlog
      refine ⟨older, ?_⟩
      have htake : sinceOwn i ((j, event') :: log) = (j, event') :: sinceOwn i log := by
        simp [sinceOwn, hj]
      rw [htake, List.cons_append, ← hsplit]

/-- The runs of the programs `start` from the stores `s`: their logs, and what is left to do of
every program. -/
inductive Run (M : Machine C A E S) (start : ι → Program C A E Unit) (s : S) :
    Log C A E ι → (ι → Program C A E Unit) → Prop
  | start : Run M start s [] start
  | call {log threads i c k r} : Run M start s log threads → threads i = .call c k →
      M.possible (M.after s log) ⟨c, r⟩ →
      Run M start s ((i, ⟨c, r⟩) :: log) (Function.update threads i (k r))

/-- Along every run each answered call was possible. -/
theorem Run.possible {M : Machine C A E S} {start : ι → Program C A E Unit} {s : S}
    {log : Log C A E ι} {threads : ι → Program C A E Unit} (h : Run M start s log threads) :
    Along (fun older entry => M.possible (M.after s older) entry.2) log := by
  induction h with
  | start => trivial
  | call _ _ hpossible ih => exact ⟨hpossible, ih⟩

section

variable {M : Machine C A E S} {start : ι → Program C A E Unit} {s : S} {K : ι → Contract C A E}
  {Ψ : ι → List (Event C A E) → Except E Unit → Prop}

/-- One call keeps all contracts: the caller's guarantee covers it, and with an answer that the
caller may rely on, what is left of every program satisfies its contract. -/
theorem sat_step {log : Log C A E ι} {threads : ι → Program C A E Unit} {i : ι} {c : C}
    {k : Except E (A c) → Program C A E Unit} {r : Except E (A c)}
    (hsat : ∀ j, Sat (K j) (Ψ j) (history j log) (threads j)) (hcall : threads i = .call c k)
    (hassume : (K i).assume (history i log) ⟨c, r⟩) :
    (K i).guarantee (history i log) c ∧
      ∀ j, Sat (K j) (Ψ j) (history j ((i, ⟨c, r⟩) :: log))
        (Function.update threads i (k r) j) := by
  have hi := hsat i
  rw [hcall] at hi
  refine ⟨hi.1, fun j => ?_⟩
  by_cases hj : j = i
  · subst hj
    rw [Function.update_self, history_cons_self]
    exact hi.2 r hassume
  · rw [Function.update_of_ne hj, history_cons_of_ne (Ne.symm hj)]
    exact hsat j

/-- Contracts are kept along every run whose answers respect the assumptions, where an answer may
be shown to do so from what the contracts guarantee of the calls before it. -/
theorem Run.sat {log : Log C A E ι} {threads : ι → Program C A E Unit}
    (hstart : ∀ j, Sat (K j) (Ψ j) [] (start j)) (h : Run M start s log threads)
    (hassume : Along (fun older entry =>
      Along (fun older entry => (K entry.1).guarantee (history entry.1 older) entry.2.call) older →
        (K entry.1).assume (history entry.1 older) entry.2) log) :
    (∀ j, Sat (K j) (Ψ j) (history j log) (threads j)) ∧
      Along (fun older entry => (K entry.1).guarantee (history entry.1 older) entry.2.call)
        log := by
  induction h with
  | start => exact ⟨hstart, trivial⟩
  | call hrun hcall hpossible ih =>
    obtain ⟨hsat, hguarantees⟩ := ih hassume.2
    obtain ⟨hguarantee, hsat⟩ := sat_step hsat hcall (hassume.1 hguarantees)
    exact ⟨hsat, hguarantee, hguarantees⟩

end

/-- Let the programs run in the order of a schedule, which names for each step the program, and
the error of its call if that is to fail. A program that has ended is passed over. -/
def play (M : Machine C A E S) (answer : S → (c : C) → Except E (A c)) (s : S) :
    List (ι × Option E) → Log C A E ι → (ι → Program C A E Unit) →
      Log C A E ι × (ι → Program C A E Unit)
  | [], log, threads => (log, threads)
  | (i, fault) :: rest, log, threads =>
    match threads i with
    | .call c k =>
      let r := match fault with
        | none => answer (M.after s log) c
        | some e => .error e
      play M answer s rest ((i, ⟨c, r⟩) :: log) (Function.update threads i (k r))
    | _ => play M answer s rest log threads

/-- What a schedule plays is a run, when the answers used are possible. -/
theorem play_run {M : Machine C A E S} {answer : S → (c : C) → Except E (A c)} {s : S}
    {start : ι → Program C A E Unit}
    (hanswer : ∀ t c, M.possible t ⟨c, answer t c⟩) (hfault : ∀ t c e, M.possible t ⟨c, .error e⟩)
    {schedule : List (ι × Option E)} {log : Log C A E ι} {threads : ι → Program C A E Unit}
    (h : Run M start s log threads) :
    Run M start s (play M answer s schedule log threads).1
      (play M answer s schedule log threads).2 := by
  induction schedule generalizing log threads with
  | nil => exact h
  | cons step rest ih =>
    obtain ⟨i, fault⟩ := step
    unfold play
    split
    · rename_i c k hcall
      refine ih (h.call hcall ?_)
      cases fault with
      | none => exact hanswer _ _
      | some e => exact hfault _ _ _
    · exact ih h

end Programs
