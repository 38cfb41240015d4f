import ApnsPusher.APNS.Steps

/-!
# Dispatch

Conservation, order and bound: every pushed message is in one place, every
controller is given its messages in the order of the pushes, and no fill loop
brings a controller above `maxQueue`.
-/
namespace ApnsPusher.APNS

open Dispatch

variable {n : Nat} {maxQueue : Int} {s : APNS n}

/-! ### The send queue of one controller -/

/-- Between the test of the send queue and `add` there is room for one message. -/
structure SslThread.Within (maxQueue : Int) (t : SslThread) : Prop where
  room : t.pc = .dequeue ∨ t.hand ≠ [] → t.sendQueueSize < toSizeT maxQueue
  bound : t.sendQueueSize ≤ toSizeT maxQueue

theorem SslThread.within_of_pc {t t' : SslThread} (within : SslThread.Within maxQueue t)
    (size : t'.sendQueueSize ≤ t.sendQueueSize) (elsewhere : t'.pc ≠ .dequeue)
    (empty : t'.hand = []) : SslThread.Within maxQueue t' where
  room := by
    rintro (hpc | holds)
    · exact absurd hpc elsewhere
    · exact absurd empty holds
  bound := size.trans within.bound

theorem SslThread.Moves.within {done : Bool} {q q' : List Message} {t t' : SslThread}
    (moves : SslThread.Moves maxQueue done q t q' t') (within : SslThread.Within maxQueue t) :
    SslThread.Within maxQueue t' := by
  cases moves with
  | leaves | stays | full | empty | wakes =>
    exact within_of_pc within (Nat.le_refl _) (by simp) rfl
  | room hpc below => exact ⟨fun _ => below, within.bound⟩
  | takes hpc => exact ⟨fun _ => within.room (Or.inl hpc), within.bound⟩
  -- the message added is the one there was room for
  | adds msg hpc =>
    have room := within.room (Or.inr (by simp [hand, hpc]))
    refine ⟨?_, room⟩
    rintro (elsewhere | holds)
    · cases elsewhere
    · exact absurd rfl holds
  | runs hpc sent => exact within_of_pc within (Nat.sub_le _ _) (by simp) rfl

theorem within_of_reachable (reachable : Reachable maxQueue s) (i : Fin n) :
    SslThread.Within maxQueue (s.threads i) := by
  refine reachable.invariant (fun s => ∀ i, SslThread.Within maxQueue (s.threads i)) ?_ ?_ i
  · exact fun _ => ⟨by simp [initial, SslThread.blank, SslThread.hand], Nat.zero_le _⟩
  · intro s s' _ change within j
    cases change with
    | starts more =>
      by_cases same : j = ⟨s.created, more⟩
      · subst same
        have idle : SslThread.Within maxQueue { s.threads ⟨s.created, more⟩ with pc := .isDone } :=
          SslThread.within_of_pc (within _) (Nat.le_refl _) (by simp) rfl
        simpa using idle
      · simpa [same] using within j
    | thread i q t moves =>
      by_cases same : j = i
      · subst same
        simpa using moves.within (within j)
      · simpa [same] using within j
    | pushes | pushReturns | stops | tells | joins | returns => exact within j

/-! ### The dispatch law -/

structure Dispatched (maxQueue : Int) (s : APNS n) : Prop where
  /-- A pushed message is in one place; what was not pushed is in none. -/
  placed : ∀ msg, s.messageQ.count msg +
    ∑ i, ((s.threads i).hand.count msg + (s.threads i).added.count msg) =
      if msg ∈ s.pushed then 1 else 0
  once : ∀ i, (s.threads i).added.Nodup
  apart : ∀ i j, i ≠ j → ∀ msg ∈ (s.threads i).added, msg ∉ (s.threads j).added
  ordered : ∀ i, (s.threads i).added.Sublist s.pushed
  alone : n = 1 → ∀ i, (s.threads i).added <+: s.pushed
  bounded : 0 ≤ maxQueue → ∀ i, (s.threads i).sendQueueSize ≤ maxQueue
  /-- Only a thread with room takes a message, which is then in its hand. -/
  roomy : ∀ s', Step maxQueue s s' → s.messageQ <+: s'.messageQ ∨
    ∃ i msg, (s.threads i).sendQueueSize < toSizeT maxQueue ∧ s.messageQ = msg :: s'.messageQ ∧
      (s.threads i).hand = [] ∧ (s'.threads i).hand = [msg]
  full : ∀ i sent s', ¬ (s.threads i).sendQueueSize < toSizeT maxQueue →
    step maxQueue s (.thread i sent) = some s' → s'.messageQ = s.messageQ

theorem placed_of_counted (counted : s.fifo.Counted) (once : s.pushed.Nodup) (msg : Message) :
    s.messageQ.count msg +
      ∑ i, ((s.threads i).hand.count msg + (s.threads i).added.count msg) =
        if msg ∈ s.pushed then 1 else 0 := by
  have total : s.messageQ.count msg + ∑ i, (s.threads i).taken.count msg = s.pushed.count msg :=
    counted msg
  simp only [SslThread.taken, List.count_append, Nat.add_comm ((s.threads _).added.count msg)] at total
  rw [total]
  split
  next pushed => exact List.count_eq_one_of_mem once pushed
  next other => exact List.count_eq_zero_of_not_mem other

theorem roomy_of_change {s' : APNS n} (within : ∀ i, SslThread.Within maxQueue (s.threads i))
    (change : Change maxQueue s s') : s.messageQ <+: s'.messageQ ∨
      ∃ i msg, (s.threads i).sendQueueSize < toSizeT maxQueue ∧ s.messageQ = msg :: s'.messageQ ∧
        (s.threads i).hand = [] ∧ (s'.threads i).hand = [msg] := by
  cases change with
  | pushes message => exact Or.inl (List.prefix_append ..)
  | starts | pushReturns | stops | tells | joins | returns => exact Or.inl (List.prefix_refl _)
  | thread i q t moves =>
    rcases moves.taken with ⟨same, _⟩ | ⟨msg, front, _, hpc, holds⟩
    · exact Or.inl (same ▸ List.prefix_refl _)
    · refine Or.inr ⟨i, msg, (within i).room (Or.inl hpc), front, ?_, ?_⟩
      · simp [SslThread.hand, hpc]
      · simp [SslThread.hand, holds]

/-- Every reachable state of any number of threads is dispatched. -/
theorem dispatched (maxQueue : Int) (s : APNS n) (reachable : Reachable maxQueue s) :
    Dispatched maxQueue s := by
  have run := fifo_of_reachable reachable
  have counted := Fifo.counted_of_run run
  have ordered := Fifo.ordered_of_run run
  have once := pushed_nodup reachable
  have within := within_of_reachable reachable
  have added (i : Fin n) : (s.threads i).added <+: s.fifo.taken i := List.prefix_append ..
  refine ⟨placed_of_counted counted once, ?_, ?_, ?_, ?_, ?_,
    fun s' step => roomy_of_change within (change_of_step step), ?_⟩
  · exact fun i => (counted.taken_nodup once i).sublist (added i).sublist
  · intro i j other msg first second
    exact counted.taken_disjoint once other ((added i).subset first) ((added j).subset second)
  · exact fun i => ((added i).sublist.trans (List.sublist_append_left ..)).trans (ordered i)
  · rintro rfl i
    -- a single thread has taken everything that is not queued
    have whole : s.fifo.taken i ++ s.messageQ = s.pushed :=
      counted.taken_append_queue ordered i fun j => Subsingleton.elim j i
    exact whole ▸ (added i).trans (List.prefix_append ..)
  · intro positive i
    calc
      ((s.threads i).sendQueueSize : Int) ≤ toSizeT maxQueue := mod_cast (within i).bound
      _ ≤ maxQueue := toSizeT_le positive
  · intro i sent s' full stepped
    obtain ⟨⟨q, t⟩, moved, rfl⟩ := Option.map_eq_some_iff.mp stepped
    rcases (SslThread.moves_of_step moved).taken with ⟨same, _⟩ | ⟨_, _, _, hpc, _⟩
    · exact same
    · exact absurd ((within i).room (Or.inl hpc)) full

def helloTo (token : String) : ApnsMessage :=
  ⟨lit token, lit "N0CALL: hello", lit "View", 1, none⟩

/-- Two threads with controllers of one message each, and three messages. -/
def twoThreads : List (Action 2) :=
  [.start, .push (helloTo "aa"), .push (helloTo "bb"), .start, .thread 0 0, .thread 0 0, .thread 1 0,
    .thread 0 0, .thread 1 0, .push (helloTo "cc"), .thread 1 0, .thread 1 0, .thread 0 0, .thread 1 0,
    .thread 0 0]

theorem dispatched_twoThreads : ∃ s : APNS 2, play 1 twoThreads (initial 2) = some s ∧
    s.messageQ.length = 1 ∧ Dispatched 1 s := by
  have played : ∃ s, play 1 twoThreads (initial 2) = some s ∧ s.messageQ.length = 1 := by
    refine ⟨_, rfl, by decide⟩
  obtain ⟨s, played, waiting⟩ := played
  exact ⟨s, played, waiting, dispatched 1 s (reachable_of_play .refl played)⟩

end ApnsPusher.APNS
