import Mathlib.Data.Int.ConditionallyCompleteOrder
import Mathlib.Data.List.Basic
import Mathlib.Order.ConditionallyCompleteLattice.Basic

/-!
# Cooling down

A log in which attempts are guarded by the time of the last failure: an attempt
follows a clock reading that lies more than a fixed wait after it, and a failed
attempt is followed by the reading that becomes the new time of failure. Entry
`n` of the log is made at `clk n`.
-/
namespace Effects

/-- How the entries of a log look to the guard. -/
structure Cooldown (α : Type) where
  reading : α → Option Int
  attempts : α → Prop
  fails : α → Prop
  wait : Int
  attempts_of_fails : ∀ e, fails e → attempts e

namespace Cooldown

variable {α : Type} (b : Cooldown α)

/-- Every clock reading in the log is the clock's value at its place. -/
def Clocked (clk : Nat → Int) (log : List α) : Prop :=
  ∀ n e t, log[n]? = some e → b.reading e = some t → t = clk n

def AttemptsAt (log : List α) (n : Nat) : Prop := ∃ e, log[n]? = some e ∧ b.attempts e

def FailsAt (log : List α) (n : Nat) : Prop := ∃ e, log[n]? = some e ∧ b.fails e

/-- The logs a guard produces that starts with the failure time `start` and ends
with `last`. -/
inductive Guarded (start : Int) : List α → Int → Prop
  | start : Guarded start [] start
  | other {log : List α} {last : Int} (e : α) (guarded : Guarded start log last)
      (idle : ¬ b.attempts e) : Guarded start (log ++ [e]) last
  | tried {log : List α} {last : Int} (clock e : α) (now : Int) (guarded : Guarded start log last)
      (idle : ¬ b.attempts clock) (reads : b.reading clock = some now) (ready : last < now - b.wait)
      (succeeds : ¬ b.fails e) : Guarded start (log ++ [clock, e]) last
  | failed {log : List α} {last : Int} (clock e caught : α) (now failedAt : Int)
      (guarded : Guarded start log last) (idle : ¬ b.attempts clock)
      (reads : b.reading clock = some now) (ready : last < now - b.wait) (fails : b.fails e)
      (idle' : ¬ b.attempts caught) (reads' : b.reading caught = some failedAt) :
      Guarded start (log ++ [clock, e, caught]) failedAt

variable {b}

/-- The shortest logs with an attempt in them. -/
theorem Guarded.attempt {start : Int} (clock e : α) (now : Int) (idle : ¬ b.attempts clock)
    (reads : b.reading clock = some now) (ready : start < now - b.wait) (succeeds : ¬ b.fails e) :
    b.Guarded start [clock, e] start := by
  simpa only [List.nil_append] using Guarded.tried clock e now .start idle reads ready succeeds

theorem Guarded.failure {start : Int} (clock e caught : α) (now failedAt : Int)
    (idle : ¬ b.attempts clock) (reads : b.reading clock = some now)
    (ready : start < now - b.wait) (fails : b.fails e) (idle' : ¬ b.attempts caught)
    (reads' : b.reading caught = some failedAt) : b.Guarded start [clock, e, caught] failedAt := by
  simpa only [List.nil_append] using
    Guarded.failed clock e caught now failedAt .start idle reads ready fails idle' reads'

theorem Guarded.trans {start mid last : Int} {log log' : List α} (first : b.Guarded start log mid)
    (second : b.Guarded mid log' last) : b.Guarded start (log ++ log') last := by
  induction second with
  | start => rwa [List.append_nil]
  | other e _ idle ih =>
    rw [← List.append_assoc]
    exact .other e ih idle
  | tried clock e now _ idle reads ready succeeds ih =>
    rw [← List.append_assoc]
    exact .tried clock e now ih idle reads ready succeeds
  | failed clock e caught now failedAt _ idle reads ready fails idle' reads' ih =>
    rw [← List.append_assoc]
    exact .failed clock e caught now failedAt ih idle reads ready fails idle' reads'

/-! ### Places in a log -/

theorem FailsAt.attemptsAt {log : List α} {n : Nat} (fails : b.FailsAt log n) :
    b.AttemptsAt log n := by
  obtain ⟨e, place, fails⟩ := fails
  exact ⟨e, place, b.attempts_of_fails e fails⟩

theorem AttemptsAt.lt_length {log : List α} {n : Nat} (attempts : b.AttemptsAt log n) :
    n < log.length := by
  obtain ⟨e, place, _⟩ := attempts
  exact (List.getElem?_eq_some_iff.mp place).1

theorem Clocked.of_append {clk : Nat → Int} {log more : List α} (clocked : b.Clocked clk (log ++ more)) :
    b.Clocked clk log := by
  intro n e t place reads
  refine clocked n e t ?_ reads
  rw [List.getElem?_append_left (List.getElem?_eq_some_iff.mp place).1]
  exact place

/-- A place in a log that has grown by `more` is an old place or one in `more`. -/
theorem attemptsAt_append {log more : List α} {n : Nat} (attempts : b.AttemptsAt (log ++ more) n) :
    b.AttemptsAt log n ∨ ∃ k, n = log.length + k ∧ b.AttemptsAt more k := by
  obtain ⟨e, place, attempts⟩ := attempts
  by_cases old : n < log.length
  · rw [List.getElem?_append_left old] at place
    exact Or.inl ⟨e, place, attempts⟩
  · rw [List.getElem?_append_right (by omega)] at place
    exact Or.inr ⟨n - log.length, by omega, e, place, attempts⟩

theorem FailsAt.append {log more : List α} {n : Nat} (fails : b.FailsAt log n) :
    b.FailsAt (log ++ more) n := by
  obtain ⟨e, place, fails⟩ := fails
  refine ⟨e, ?_, fails⟩
  rw [List.getElem?_append_left (List.getElem?_eq_some_iff.mp place).1]
  exact place

theorem failsAt_append {log more : List α} {n : Nat} (fails : b.FailsAt (log ++ more) n) :
    b.FailsAt log n ∨ ∃ k, n = log.length + k ∧ b.FailsAt more k := by
  obtain ⟨e, place, fails⟩ := fails
  by_cases old : n < log.length
  · rw [List.getElem?_append_left old] at place
    exact Or.inl ⟨e, place, fails⟩
  · rw [List.getElem?_append_right (by omega)] at place
    exact Or.inr ⟨n - log.length, by omega, e, place, fails⟩

/-! ### The law -/

/-- What a guarded log obeys at every point: no attempt comes within the wait of a
failure before it, and the guard knows the time of the last failure. -/
structure Obeys (clk : Nat → Int) (start : Int) (log : List α) (last : Int) : Prop where
  caught : ∀ i, b.FailsAt log i → ∃ e, log[i + 1]? = some e ∧ b.reading e = some (clk (i + 1))
  quiet : ∀ i j, i < j → b.FailsAt log i → b.AttemptsAt log j → clk (i + 1) + b.wait < clk j
  known : ∀ i, b.FailsAt log i → clk (i + 1) ≤ last
  source : last = start ∨ ∃ i, b.FailsAt log i ∧ last = clk (i + 1)

/-- Growing the log: only its second new entry may be an attempt, and a failure
there is read as the new time of failure. -/
theorem Obeys.append {clk : Nat → Int} {start last last' : Int} {log more : List α}
    (obeys : b.Obeys clk start log last)
    (attempts : ∀ k, b.AttemptsAt more k → k = 1 ∧
      ∀ i, b.FailsAt log i → clk (i + 1) + b.wait < clk (log.length + 1))
    (fails : ∀ k, b.FailsAt more k → last' = clk (log.length + 1 + 1) ∧
      ∃ e, more[2]? = some e ∧ b.reading e = some last')
    (known : ∀ i, b.FailsAt log i → clk (i + 1) ≤ last')
    (source : last' = last ∨ b.FailsAt (log ++ more) (log.length + 1) ∧
      last' = clk (log.length + 1 + 1)) : b.Obeys clk start (log ++ more) last' where
  caught := by
    intro i failed
    rcases failsAt_append failed with old | ⟨k, rfl, new⟩
    · obtain ⟨e, place, reads⟩ := obeys.caught i old
      refine ⟨e, ?_, reads⟩
      rw [List.getElem?_append_left (List.getElem?_eq_some_iff.mp place).1]
      exact place
    -- a new failure is the new attempt, and the reading comes right after it
    · obtain ⟨rfl, _⟩ := attempts k new.attemptsAt
      obtain ⟨read, e, place, reads⟩ := fails 1 new
      refine ⟨e, ?_, read ▸ reads⟩
      rw [List.getElem?_append_right (by omega), ← place]
      congr 1
      omega
  quiet := by
    intro i j before failed attempted
    rcases failsAt_append failed with old | ⟨k, rfl, new⟩
    -- an old failure: a new attempt keeps its distance from it
    · rcases attemptsAt_append attempted with old' | ⟨k, rfl, new⟩
      · exact obeys.quiet i j before old old'
      · obtain ⟨rfl, owed⟩ := attempts k new
        exact owed i old
    · obtain ⟨rfl, _⟩ := attempts k new.attemptsAt
      rcases attemptsAt_append attempted with old' | ⟨k', rfl, new'⟩
      · have bound := old'.lt_length
        omega
      · obtain ⟨rfl, _⟩ := attempts k' new'
        omega
  known := by
    intro i failed
    rcases failsAt_append failed with old | ⟨k, rfl, new⟩
    · exact known i old
    · obtain ⟨rfl, _⟩ := attempts k new.attemptsAt
      exact (fails 1 new).1.ge
  source := by
    rcases source with rfl | ⟨failed, read⟩
    · exact obeys.source.imp_right fun ⟨i, failed, read⟩ => ⟨i, failed.append, read⟩
    · exact Or.inr ⟨_, failed, read⟩

/-- What an attempt at the end of the log is owed. -/
theorem Obeys.attempt {clk : Nat → Int} {start last now : Int} {log : List α}
    (obeys : b.Obeys clk start log last) (monotone : Monotone clk) (read : now = clk log.length)
    (ready : last < now - b.wait) (i : Nat) (fails : b.FailsAt log i) :
    clk (i + 1) + b.wait < clk (log.length + 1) := by
  have known := obeys.known i fails
  have later := monotone (Nat.le_succ log.length)
  simp only [Nat.succ_eq_add_one] at later
  omega

theorem Guarded.obeys {clk : Nat → Int} (monotone : Monotone clk) {start last : Int}
    {log : List α} (guarded : b.Guarded start log last) (clocked : b.Clocked clk log) :
    b.Obeys clk start log last := by
  induction guarded with
  | start =>
    have none : ∀ i, ¬ b.FailsAt [] i := by
      rintro i ⟨e, place, _⟩
      simp at place
    exact ⟨fun i failed => absurd failed (none i), fun i _ _ failed => absurd failed (none i),
      fun i failed => absurd failed (none i), Or.inl rfl⟩
  | other e _ idle ih =>
    have obeys := ih clocked.of_append
    have none : ∀ k, ¬ b.AttemptsAt [e] k := by
      rintro k ⟨e', place, attempts⟩
      obtain rfl := List.mem_singleton.mp (List.mem_of_getElem? place)
      exact idle attempts
    exact obeys.append (fun k attempts => absurd attempts (none k))
      (fun k fails => absurd fails.attemptsAt (none k)) obeys.known (Or.inl rfl)
  | tried clock e now _ idle reads ready succeeds ih =>
    rename_i log last _
    have obeys := ih clocked.of_append
    have read : now = clk log.length := clocked _ clock _ (by simp) reads
    -- of the two new entries only the second is an attempt, and it does not fail
    have second : ∀ k, b.AttemptsAt [clock, e] k → k = 1 := by
      rintro k ⟨e', place, attempts⟩
      rcases k with _ | _ | k
      · obtain rfl : clock = e' := by simpa using place
        exact absurd attempts idle
      · rfl
      · simp at place
    have none : ∀ k, ¬ b.FailsAt [clock, e] k := by
      rintro k ⟨e', place, fails⟩
      obtain rfl := second k ⟨e', place, b.attempts_of_fails e' fails⟩
      obtain rfl : e = e' := by simpa using place
      exact succeeds fails
    exact obeys.append (fun k attempts => ⟨second k attempts, obeys.attempt monotone read ready⟩)
      (fun k fails => absurd fails (none k)) obeys.known (Or.inl rfl)
  | failed clock e caught now failedAt _ idle reads ready fails idle' reads' ih =>
    rename_i log last _
    have obeys := ih clocked.of_append
    have read : now = clk log.length := clocked _ clock _ (by simp) reads
    have read' : failedAt = clk (log.length + 1 + 1) :=
      clocked _ caught _ (by simp [Nat.add_assoc]) reads'
    -- of the three new entries only the second is an attempt
    have second : ∀ k, b.AttemptsAt [clock, e, caught] k → k = 1 := by
      rintro k ⟨e', place, attempts⟩
      rcases k with _ | _ | _ | k
      · obtain rfl : clock = e' := by simpa using place
        exact absurd attempts idle
      · rfl
      · obtain rfl : caught = e' := by simpa using place
        exact absurd attempts idle'
      · simp at place
    refine obeys.append (fun k attempts => ⟨second k attempts, obeys.attempt monotone read ready⟩)
      (fun _ _ => ⟨read', caught, rfl, reads'⟩) ?_ (Or.inr ⟨⟨e, by simp, fails⟩, read'⟩)
    -- the new time of failure is later than all before it
    intro i failed
    rw [read']
    have bound := failed.attemptsAt.lt_length
    exact monotone (by omega)

/-- Two failures are more than the wait apart. -/
theorem Obeys.apart {clk : Nat → Int} {start last : Int} {log : List α}
    (obeys : b.Obeys clk start log last) (monotone : Monotone clk) (i j : Nat) (before : i < j)
    (first : b.FailsAt log i) (second : b.FailsAt log j) :
    clk (i + 1) + b.wait < clk (j + 1) := by
  have quiet := obeys.quiet i j before first second.attemptsAt
  have later := monotone (Nat.le_succ j)
  simp only [Nat.succ_eq_add_one] at later
  omega

/-- A guard asked at a time later than every failure by more than the wait lets
the attempt through. -/
theorem Obeys.ready {clk : Nat → Int} {start last now : Int} {log : List α}
    (obeys : b.Obeys clk start log last) (fresh : start < now - b.wait)
    (cooled : ∀ i, b.FailsAt log i → clk (i + 1) + b.wait < now) : last < now - b.wait := by
  rcases obeys.source with same | ⟨i, failed, read⟩
  · rwa [same]
  · have past := cooled i failed
    omega

end Cooldown
end Effects
