import ApnsPusher.APNS.Stopping

/-!
# The queue drains

A queued message waits for the messages before it, and for a thread to come round to
`dequeue`. Nobody puts it back: the steps of the others leave it where it is or bring
it forward, and so do those of a thread whose controller has room.
-/
namespace ApnsPusher.APNS

open Dispatch

variable {n : Nat} {maxQueue : Int} {s s' : APNS n}

/-! ### A thread on its way to `dequeue` -/

/-- The steps to `dequeue` when there is room in the controller. -/
def Pc.toDequeue : Pc → Nat
  | .dequeue => 0
  | .sendQueueSize => 1
  | .isDone => 2
  | .usleep => 3
  | .run => 4
  | .notCreated | .exited | .add _ => 5

/-- How far a thread is from taking a message. A full controller has to send before. -/
def SslThread.toTake (maxQueue : Int) (t : SslThread) : Nat :=
  if t.hand ≠ [] then 7 else if t.sendQueueSize < toSizeT maxQueue then t.pc.toDequeue else 6

theorem Pc.toDequeue_le (pc : Pc) : pc.toDequeue ≤ 5 := by
  cases pc <;> simp [toDequeue]

theorem SslThread.toTake_le (maxQueue : Int) (t : SslThread) : t.toTake maxQueue ≤ 7 := by
  have steps := t.pc.toDequeue_le
  unfold SslThread.toTake
  split_ifs <;> omega

/-- Going on with free hands, where the controller has sent something or nothing. -/
theorem SslThread.toTake_lt_of_pc {t t' : SslThread} (free : t.hand = []) (free' : t'.hand = [])
    (size : t'.sendQueueSize ≤ t.sendQueueSize) (less : t'.pc.toDequeue < t.pc.toDequeue) :
    t'.toTake maxQueue ≤ t.toTake maxQueue ∧
      (t.sendQueueSize < toSizeT maxQueue → t'.toTake maxQueue < t.toTake maxQueue) := by
  by_cases room : t.sendQueueSize < toSizeT maxQueue
  · have room' : t'.sendQueueSize < toSizeT maxQueue := Nat.lt_of_le_of_lt size room
    simp only [toTake, free, free', room, room', ne_eq, not_true_eq_false, if_false, if_true]
    exact ⟨less.le, fun _ => less⟩
  · have steps := t'.pc.toDequeue_le
    refine ⟨?_, fun there => absurd there room⟩
    simp only [toTake, free, free', room, ne_eq, not_true_eq_false, if_false]
    split_ifs <;> omega

/-- A thread takes a message, or it comes nearer to taking one, if not for its full controller. -/
theorem SslThread.Moves.nearer {q q' : List Message} {t t' : SslThread}
    (moves : SslThread.Moves maxQueue false q t q' t') (nonempty : q ≠ []) :
    (∃ front, q = front :: q') ∨ (q' = q ∧ t'.toTake maxQueue ≤ t.toTake maxQueue ∧
      (t.sendQueueSize < toSizeT maxQueue → t'.toTake maxQueue < t.toTake maxQueue)) := by
  cases moves with
  | leaves _ told => cases told
  | empty _ none => exact absurd none nonempty
  | takes hpc msg rest front => exact Or.inl ⟨msg, front⟩
  | adds msg hpc =>
    -- nothing is as far as full hands are
    have full : t.toTake maxQueue = 7 := by simp [toTake, hand, hpc]
    have free : ({ t with
        pc := .sendQueueSize
        sendQueueSize := t.sendQueueSize + 1
        added := t.added ++ [msg] } : SslThread).toTake maxQueue ≤ 6 := by
      simp only [toTake, hand, ne_eq, not_true_eq_false, if_false, Pc.toDequeue]
      split_ifs <;> omega
    exact Or.inr ⟨rfl, by omega, fun _ => by omega⟩
  | full hpc above =>
    refine Or.inr ⟨rfl, ?_, fun room => absurd room above⟩
    simp [toTake, hand, hpc, above]
  | stays hpc | room hpc | wakes hpc =>
    refine Or.inr ⟨rfl, toTake_lt_of_pc ?_ rfl (Nat.le_refl _) ?_⟩
    · simp [hand, hpc]
    · simp [hpc, Pc.toDequeue]
  | runs hpc sent =>
    refine Or.inr ⟨rfl, toTake_lt_of_pc ?_ rfl (Nat.sub_le _ _) ?_⟩
    · simp [hand, hpc]
    · simp [hpc, Pc.toDequeue]

/-! ### A message on its way to the front -/

@[simp] theorem setThread_messageQ (i : Fin n) (t : SslThread) :
    (s.setThread i t).messageQ = s.messageQ := rfl

/-- How long a message still waits, as one thread counts it: for the thread to come
round as often as there are messages before it. -/
def wait (maxQueue : Int) (j : Fin n) (msg : Message) (s : APNS n) : Nat :=
  if msg ∈ s.messageQ ∧ s.done = false then
    8 * s.messageQ.idxOf msg + (s.threads j).toTake maxQueue + 1
  else 0

theorem waiting_of_wait {j : Fin n} {msg : Message} (waits : s.wait maxQueue j msg ≠ 0) :
    msg ∈ s.messageQ ∧ s.done = false := by
  by_contra gone
  exact waits (if_neg gone)

theorem wait_eq_zero {j : Fin n} {msg : Message} :
    s.wait maxQueue j msg = 0 ↔ msg ∉ s.messageQ ∨ s.done = true := by
  unfold wait
  split
  next waits => simp [waits.1, waits.2]
  next gone => simpa [or_iff_not_imp_left] using gone

/-- Two states in which a message waits equally long for a thread have the thread equally far. -/
theorem toTake_of_wait {j : Fin n} {msg : Message} (waits : s.wait maxQueue j msg ≠ 0)
    (same : s'.wait maxQueue j msg = s.wait maxQueue j msg) :
    (s'.threads j).toTake maxQueue = (s.threads j).toTake maxQueue := by
  have far := (s.threads j).toTake_le maxQueue
  have far' := (s'.threads j).toTake_le maxQueue
  unfold wait at waits same
  split_ifs at waits same <;> omega

/-- Only a full controller keeps a thread from going on. -/
theorem SslThread.toTake_eq_six {t : SslThread} (within : SslThread.Within maxQueue t) :
    t.toTake maxQueue = 6 ↔ ¬ t.sendQueueSize < toSizeT maxQueue := by
  have steps := t.pc.toDequeue_le
  by_cases free : t.hand = []
  · simp only [toTake, free, ne_eq, not_true_eq_false, if_false]
    split_ifs with room
    · simp only [room, not_true_eq_false, iff_false]
      omega
    · simp [room]
  · simp [toTake, free, within.room (Or.inr free)]

theorem messageQ_nodup (reachable : Reachable maxQueue s) : s.messageQ.Nodup := by
  obtain ⟨handed, split⟩ := Fifo.suffix_of_run (fifo_of_reachable reachable)
  have split : handed ++ s.messageQ = s.pushed := split
  have once := pushed_nodup reachable
  rw [← split] at once
  exact (List.nodup_append.mp once).2.1

section Steps

variable {j : Fin n} {msg : Message}

theorem wait_le_of_queued (queued : msg ∈ s'.messageQ → s'.done = false →
    msg ∈ s.messageQ ∧ s.done = false ∧
      8 * s'.messageQ.idxOf msg + (s'.threads j).toTake maxQueue ≤
        8 * s.messageQ.idxOf msg + (s.threads j).toTake maxQueue) :
    s'.wait maxQueue j msg ≤ s.wait maxQueue j msg := by
  unfold wait
  split
  next still =>
    obtain ⟨before, untold, le⟩ := queued still.1 still.2
    rw [if_pos ⟨before, untold⟩]
    omega
  next => exact Nat.zero_le _

theorem wait_lt_of_queued (waits : s.wait maxQueue j msg ≠ 0) (queued : msg ∈ s'.messageQ →
    8 * s'.messageQ.idxOf msg + (s'.threads j).toTake maxQueue <
      8 * s.messageQ.idxOf msg + (s.threads j).toTake maxQueue) :
    s'.wait maxQueue j msg < s.wait maxQueue j msg := by
  have before := waiting_of_wait waits
  unfold wait
  rw [if_pos before]
  split
  next still =>
    have less := queued still.1
    omega
  next => exact Nat.succ_pos _

/-- A thread brings the messages forward, and itself nearer to the front. -/
theorem wait_of_thread (reachable : Reachable maxQueue s) {i : Fin n} {q : List Message}
    {t : SslThread} (moves : SslThread.Moves maxQueue s.done s.messageQ (s.threads i) q t) :
    { s.setThread i t with messageQ := q }.wait maxQueue j msg ≤ s.wait maxQueue j msg ∧
      (i = j → s.wait maxQueue j msg ≠ 0 → (s.threads j).sendQueueSize < toSizeT maxQueue →
        { s.setThread i t with messageQ := q }.wait maxQueue j msg < s.wait maxQueue j msg) := by
  by_cases waits : s.wait maxQueue j msg = 0
  · have gone : { s.setThread i t with messageQ := q }.wait maxQueue j msg = 0 := by
      refine wait_eq_zero.mpr ((wait_eq_zero.mp waits).imp_left fun absent queued => absent ?_)
      rcases moves.taken with ⟨rfl, _⟩ | ⟨front, split, _⟩
      · exact queued
      · exact split ▸ List.mem_cons_of_mem _ queued
    exact ⟨gone.le.trans (Nat.zero_le _), fun _ still => absurd waits still⟩
  obtain ⟨queued, untold⟩ := waiting_of_wait waits
  rw [untold] at moves
  rcases moves.nearer (List.ne_nil_of_mem queued) with ⟨front, split⟩ | ⟨rfl, le, lt⟩
  · -- whatever the thread is about to do with it, one message fewer is before this one
    have forward : { s.setThread i t with messageQ := q }.wait maxQueue j msg <
        s.wait maxQueue j msg := by
      refine wait_lt_of_queued waits fun still => ?_
      have once := messageQ_nodup reachable
      rw [split] at once
      have other : front ≠ msg := fun same => (List.nodup_cons.mp once).1 (same ▸ still)
      have far := (({ s.setThread i t with messageQ := q } : APNS n).threads j).toTake_le
        maxQueue
      rw [split, List.idxOf_cons_ne _ other]
      simp only at far ⊢
      omega
    exact ⟨forward.le, fun _ _ _ => forward⟩
  · refine ⟨wait_le_of_queued fun _ _ => ⟨queued, untold, ?_⟩, ?_⟩
    · by_cases same : j = i
      · subst same
        simpa using le
      · simp [same]
    · rintro rfl still room
      refine wait_lt_of_queued still fun _ => ?_
      simpa using lt room

theorem wait_lt_of_thread (reachable : Reachable maxQueue s) {sent : Nat}
    (stepped : step maxQueue s (.thread j sent) = some s') (waits : s.wait maxQueue j msg ≠ 0)
    (room : (s.threads j).sendQueueSize < toSizeT maxQueue) :
    s'.wait maxQueue j msg < s.wait maxQueue j msg := by
  obtain ⟨⟨q, t⟩, moved, rfl⟩ := Option.map_eq_some_iff.mp stepped
  exact (wait_of_thread reachable (SslThread.moves_of_step moved)).2 rfl waits room

/-- No step makes a message wait longer. -/
theorem wait_le_of_step (reachable : Reachable maxQueue s) (pushed : msg ∈ s.pushed)
    (stepped : Step maxQueue s s') : s'.wait maxQueue j msg ≤ s.wait maxQueue j msg := by
  cases change_of_step stepped with
  | thread i q t moves => exact (wait_of_thread reachable moves).1
  | pushes message =>
    refine wait_le_of_queued fun queued untold => ?_
    -- the message now queued is another one
    have old : msg ∈ s.messageQ := by
      rcases List.mem_append.mp queued with old | new
      · exact old
      · have once := pushed_nodup (reachable.tail stepped)
        exact absurd (List.mem_singleton.mp new ▸ pushed)
          fun twice => (List.nodup_append.mp once).2.2 _ twice _ (List.mem_singleton_self _) rfl
    refine ⟨old, untold, ?_⟩
    simp [push, List.idxOf_append_of_mem old]
  | starts more =>
    refine wait_le_of_queued fun queued untold => ⟨queued, untold, ?_⟩
    by_cases same : j = ⟨s.created, more⟩
    · subst same
      have idle := uncreated_of_reachable reachable ⟨s.created, more⟩ (Nat.le_refl _)
      have nearer : { s.threads ⟨s.created, more⟩ with pc := .isDone : SslThread }.toTake maxQueue ≤
          (s.threads ⟨s.created, more⟩).toTake maxQueue := by
        refine And.left (SslThread.toTake_lt_of_pc ?_ rfl (Nat.le_refl _) ?_)
        · simp [SslThread.hand, idle]
        · simp [idle, Pc.toDequeue]
      simpa using nearer
    · simp [same]
  | tells => exact wait_le_of_queued fun _ untold => by cases untold
  | pushReturns | stops | joins | returns =>
    exact wait_le_of_queued fun queued untold => ⟨queued, untold, Nat.le_refl _⟩

theorem pushed_of_step (pushed : msg ∈ s.pushed) (stepped : Step maxQueue s s') : msg ∈ s'.pushed := by
  cases change_of_step stepped with
  | pushes => exact List.mem_append_left _ pushed
  | starts | pushReturns | thread | stops | tells | joins | returns => exact pushed

end Steps

/-! ### One thread among the others -/

theorem created_of_lt (reachable : Reachable maxQueue s) {i : Fin n} (before : i < s.created) :
    (s.threads i).pc ≠ .notCreated := by
  by_cases waited : i ∈ s.sslThreads
  · exact created_of_waited reachable i waited
  · rcases joined_of_reachable reachable i waited with later | exited
    · exact absurd before (Nat.not_lt.mpr later)
    · simp [exited]

theorem done_of_exited (reachable : Reachable maxQueue s) (i : Fin n) :
    (s.threads i).pc = .exited → s.done = true := by
  refine reachable.invariant (fun s => (s.threads i).pc = .exited → s.done = true)
    (by simp [initial, SslThread.blank]) ?_
  intro s s' _ change told exited
  cases change with
  | pushes | pushReturns | stops | joins | returns => exact told exited
  | tells => rfl
  | starts more =>
    by_cases same : i = ⟨s.created, more⟩
    · simp [same] at exited
    · exact told (by simpa [same] using exited)
  | thread j q t moves =>
    by_cases same : i = j
    · subst same
      -- the one way out of the loop is `is_done`
      exact moves.done_of_exited (by simpa using exited)
    · exact told (by simpa [same] using exited)

/-- A step that is not thread `j`'s. -/
def StepOfOthers (maxQueue : Int) (j : Fin n) (s s' : APNS n) : Prop :=
  ∃ action : Action n, (∀ sent, action ≠ .thread j sent) ∧ step maxQueue s action = some s'

/-- Nobody else moves a thread that has been created. -/
theorem thread_of_others (reachable : Reachable maxQueue s) {j : Fin n}
    (others : StepOfOthers maxQueue j s s') (created : (s.threads j).pc ≠ .notCreated) :
    s'.threads j = s.threads j := by
  obtain ⟨action, other, stepped⟩ := others
  cases action with
  | thread i sent =>
    obtain ⟨_, _, rfl⟩ := Option.map_eq_some_iff.mp stepped
    have apart : j ≠ i := fun same => other sent (same ▸ rfl)
    simp [apart]
  | start =>
    simp only [APNS.step, start] at stepped
    split at stepped
    next more =>
      cases stepped
      have apart : j ≠ ⟨s.created, more⟩ := by
        rintro rfl
        exact created (uncreated_of_reachable reachable _ (Nat.le_refl _))
      simp [apart]
    next => cases stepped
  | push =>
    cases stepped
    rfl
  | pushReturns | stop | setDone | join | stopReturns =>
    obtain ⟨_, rfl⟩ := Option.ite_none_right_eq_some.mp stepped |>.imp_right Option.some.inj
    rfl

/-- What any number of their steps leave alone. -/
theorem kept_by_others (reachable : Reachable maxQueue s) {j : Fin n} {msg : Message}
    (others : Relation.ReflTransGen (StepOfOthers maxQueue j) s s') (pushed : msg ∈ s.pushed)
    (created : (s.threads j).pc ≠ .notCreated) : Reachable maxQueue s' ∧ msg ∈ s'.pushed ∧
      s'.threads j = s.threads j ∧ s'.wait maxQueue j msg ≤ s.wait maxQueue j msg := by
  induction others with
  | refl => exact ⟨reachable, pushed, rfl, Nat.le_refl _⟩
  | tail _ others ih =>
    obtain ⟨before, pushed, same, le⟩ := ih
    obtain ⟨action, _, stepped⟩ := id others
    have one : Step maxQueue _ _ := ⟨action, stepped⟩
    exact ⟨before.tail one, pushed_of_step pushed one,
      (thread_of_others before others (same ▸ created)).trans same,
      (wait_le_of_step before pushed one).trans le⟩

theorem SslThread.mem_hand {t : SslThread} {msg : Message} : msg ∈ t.hand ↔ t.pc = .add msg := by
  unfold SslThread.hand
  split
  next msg' hpc => simp [hpc, eq_comm]
  next other => simpa using fun hpc => other msg hpc

/-- The next step of a thread with a message in its hand gives it to the controller. -/
theorem added_of_thread {j : Fin n} {msg : Message} {sent : Nat}
    (stepped : step maxQueue s (.thread j sent) = some s') (holds : (s.threads j).pc = .add msg) :
    msg ∈ (s'.threads j).added := by
  obtain ⟨⟨q, t⟩, moved, rfl⟩ := Option.map_eq_some_iff.mp stepped
  simp only [SslThread.step, holds, Option.some.injEq, Prod.mk.injEq] at moved
  obtain ⟨rfl, rfl⟩ := moved
  simp

end ApnsPusher.APNS
