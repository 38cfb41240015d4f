import ApnsPusher.Effects.Monitor
import Mathlib.Data.List.Basic

/-!
# Periodic actions

A program that reads the clock, and acts when a full interval has passed since the
reading it took after it last acted. Nothing is assumed of the clock: two actions have
between them two readings, the later of which shows the interval to be over.
-/
namespace Effects

/-- How the entries of a log look to such a program. -/
structure Periodic (α : Type) where
  reading : α → Option Int
  acts : α → Bool
  interval : Int

namespace Periodic

variable {α : Type} (b : Periodic α)

def readings (log : List α) : List Int := log.filterMap b.reading

def Silent (log : List α) : Prop := ∀ e ∈ log, b.acts e = false

/-- One turn of the program, which starts with the reading `last` and ends with the
next: too early to act, or an action between a reading that shows it to be due and one
that is kept. -/
inductive Turn (last : Int) : List α → Int → Prop
  | early {turn : List α} (now : Int) (silent : b.Silent turn) (reads : now ∈ b.readings turn)
      (wait : now < last + b.interval) : Turn last turn last
  | due {front back : List α} {e : α} (now next : Int) (silent : b.Silent front)
      (silent' : b.Silent back) (acts : b.acts e = true) (reads : now ∈ b.readings front)
      (passed : last + b.interval ≤ now) (keeps : next ∈ b.readings back) :
      Turn last (front ++ e :: back) next

/-- Two readings in the log show that an interval has passed between them. -/
def Elapsed (log : List α) : Prop :=
  ∃ early late, [early, late].Sublist (b.readings log) ∧ early + b.interval ≤ late

/-- An interval passes between any two actions in the log. -/
def Spaced (log : List α) : Prop :=
  ∀ front first between second back, log = front ++ first :: (between ++ second :: back) →
    b.acts first = true → b.acts second = true → b.Elapsed between

variable {b} {log more front back : List α} {last next : Int}

@[simp] theorem readings_append (log more : List α) :
    b.readings (log ++ more) = b.readings log ++ b.readings more :=
  List.filterMap_append

theorem Silent.append (first : b.Silent log) (second : b.Silent more) : b.Silent (log ++ more) :=
  List.forall_mem_append.mpr ⟨first, second⟩

theorem Silent.not_acts (silent : b.Silent log) {e : α} (member : e ∈ log) : b.acts e ≠ true := by
  simp [silent e member]

/-! ### What goes on around a turn -/

theorem Turn.after (turn : b.Turn last log next) (silent : b.Silent front) :
    b.Turn last (front ++ log) next := by
  cases turn with
  | early now quiet reads wait =>
    exact .early now (silent.append quiet) (by simp [reads]) wait
  | due now next quiet quiet' acts reads passed keeps =>
    rw [← List.append_assoc]
    exact .due now next (silent.append quiet) quiet' acts (by simp [reads]) passed keeps

theorem Turn.before (turn : b.Turn last log next) (silent : b.Silent back) :
    b.Turn last (log ++ back) next := by
  cases turn with
  | early now quiet reads wait =>
    exact .early now (quiet.append silent) (by simp [reads]) wait
  | due now next quiet quiet' acts reads passed keeps =>
    rw [List.append_assoc, List.cons_append]
    exact .due now next quiet (quiet'.append silent) acts reads passed (by simp [keeps])

/-- A turn that reads nothing early is one with an action. -/
theorem Turn.acts_of_due (turn : b.Turn last log next)
    (due : ∀ now ∈ b.readings log, last + b.interval ≤ now) : ∃ e ∈ log, b.acts e = true := by
  cases turn with
  | early now _ reads wait => exact absurd (due now reads) (Int.not_le.mpr wait)
  | due now next _ _ acts => exact ⟨_, by simp, acts⟩

/-! ### Spacing -/

theorem Spaced.of_append (spaced : b.Spaced (log ++ more)) : b.Spaced log := by
  rintro front first between second back rfl acts acts'
  exact spaced front first between second (back ++ more) (by simp) acts acts'

theorem Spaced.snoc (spaced : b.Spaced log) (e : α)
    (late : b.acts e = true → ∀ front first between, log = front ++ first :: between →
      b.acts first = true → b.Elapsed between) : b.Spaced (log ++ [e]) := by
  intro front first between second back split acts acts'
  rcases List.eq_nil_or_concat back with rfl | ⟨back, latest, rfl⟩
  · rw [← List.cons_append, ← List.append_assoc] at split
    obtain ⟨rfl, same⟩ := List.append_inj' split rfl
    obtain rfl := List.singleton_inj.mp same
    exact late acts' front first between rfl acts
  · have split : log ++ [e] = (front ++ first :: (between ++ second :: back)) ++ [latest] := by
      simpa using split
    obtain ⟨rfl, _⟩ := List.append_inj' split rfl
    exact spaced front first between second back rfl acts acts'

theorem Spaced.silent (spaced : b.Spaced log) (silent : b.Silent more) : b.Spaced (log ++ more) := by
  induction more generalizing log with
  | nil => rwa [List.append_nil]
  | cons e rest ih =>
    rw [List.append_cons]
    refine ih (spaced.snoc e fun acts => ?_) fun e' member => silent e' (List.mem_cons_of_mem _ member)
    exact absurd acts (silent.not_acts (List.mem_cons_self ..))

/-- An action in a log that goes on silently is in its old part. -/
theorem split_of_silent (silent : b.Silent more) {e : α} (acts : b.acts e = true)
    (split : log ++ more = front ++ e :: back) :
    ∃ rest, log = front ++ e :: rest ∧ back = rest ++ more := by
  rcases List.append_eq_append_iff.mp split with ⟨inner, rfl, tail⟩ | ⟨inner, rfl, tail⟩
  · exact absurd acts (silent.not_acts (by simp [tail]))
  · cases inner with
    | nil =>
      have new : e ∈ more := by simp [← show e :: back = more from tail]
      exact absurd acts (silent.not_acts new)
    | cons e' rest =>
      obtain ⟨rfl, rfl⟩ := List.cons.inj tail
      exact ⟨rest, rfl, rfl⟩

/-! ### Any number of turns -/

/-- The log is spaced, and `last` was read in it after all its actions. -/
structure Kept (b : Periodic α) (log : List α) (last : Int) : Prop where
  spaced : b.Spaced log
  read : last ∈ b.readings log
  since : ∀ front e back, log = front ++ e :: back → b.acts e = true → last ∈ b.readings back

theorem kept_of_silent (silent : b.Silent log) (read : last ∈ b.readings log) : b.Kept log last where
  spaced := by
    rintro front first between second back rfl acts _
    exact absurd acts (silent.not_acts (by simp))
  read := read
  since := by
    rintro front e back rfl acts
    exact absurd acts (silent.not_acts (by simp))

theorem Kept.turn (kept : b.Kept log last) (turn : b.Turn last more next) :
    b.Kept (log ++ more) next := by
  cases turn with
  | early now silent _ _ =>
    refine ⟨kept.spaced.silent silent, by simp [kept.read], ?_⟩
    intro front e back split acts
    obtain ⟨rest, whole, rfl⟩ := split_of_silent silent acts split
    simp [kept.since front e rest whole acts]
  | @due before after e now next silent silent' acts reads passed keeps =>
    have parts : log ++ (before ++ e :: after) = log ++ before ++ [e] ++ after := by simp
    rw [parts]
    have acted : b.Spaced (log ++ before ++ [e]) := by
      refine (kept.spaced.silent silent).snoc e fun _ front first between split acts' => ?_
      obtain ⟨rest, whole, rfl⟩ := split_of_silent silent acts' split
      -- `last` was read after the earlier action, and `now` after that
      have early := List.singleton_sublist.mpr (kept.since front first rest whole acts')
      have late := List.singleton_sublist.mpr reads
      exact ⟨last, now, by simpa using early.append late, passed⟩
    have kept' (rest : List α) : next ∈ b.readings (rest ++ after) := by
      rw [readings_append]
      exact List.mem_append_right _ keeps
    refine ⟨acted.silent silent', kept' _, ?_⟩
    intro front e' back split acts'
    obtain ⟨rest, _, rfl⟩ := split_of_silent silent' acts' split
    exact kept' rest

theorem Kept.turns (kept : b.Kept log last) {turns : List (List α)}
    (follows : Follows b.Turn last turns next) : b.Kept (log ++ turns.flatten) next := by
  induction follows generalizing log with
  | nil => simpa using kept
  | cons first _ ih =>
    rw [List.flatten_cons, ← List.append_assoc]
    exact ih (kept.turn first)

theorem Turn.eq_of_silent (turn : b.Turn last log next) (silent : b.Silent log) : next = last := by
  cases turn with
  | early => rfl
  | due _ _ _ _ acts => exact absurd acts (silent.not_acts (by simp))

theorem eq_of_silent_turns {turns : List (List α)} (follows : Follows b.Turn last turns next)
    (silent : b.Silent turns.flatten) : next = last := by
  induction follows with
  | nil => rfl
  | cons first _ ih =>
    obtain ⟨now, later⟩ := List.forall_mem_append.mp silent
    exact (ih later).trans (first.eq_of_silent now)

/-- Nothing is put off: of some turns, the last of which is a full interval after the
log before them, one acts. -/
theorem Kept.acts_within (kept : b.Kept log last) {turns : List (List α)} {mid : Int}
    (follows : Follows b.Turn last turns mid) (turn : b.Turn mid more next)
    (due : ∀ old ∈ b.readings log, ∀ now ∈ b.readings more, old + b.interval ≤ now) :
    ∃ e ∈ turns.flatten ++ more, b.acts e = true := by
  by_contra none
  have silent : b.Silent (turns.flatten ++ more) := fun e member =>
    Bool.eq_false_iff.mpr fun acts => none ⟨e, member, acts⟩
  obtain ⟨before, now⟩ := List.forall_mem_append.mp silent
  -- the turns before have not moved the last reading
  obtain rfl := eq_of_silent_turns follows before
  obtain ⟨e, member, acts⟩ := turn.acts_of_due (due mid kept.read)
  exact Silent.not_acts now member acts

end Periodic
end Effects
