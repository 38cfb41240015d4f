import ApnsPusher.APNS.Dispatch

/-!
# Shutdown

`SslThread` tests `is_done` before it looks at the queue, so that once the flag is set
a thread takes only what its controller still has room for, and nothing if it was not
filling. What is queued behind that stays there.
-/
namespace ApnsPusher.APNS

open Dispatch

variable {n : Nat} {maxQueue : Int} {s s' : APNS n}

/-! ### Stopping -/

theorem done_iff (reachable : Reachable maxQueue s) :
    s.done = true ↔ s.stop = .joining ∨ s.stop = .returned := by
  refine reachable.invariant (fun s => s.done = true ↔ s.stop = .joining ∨ s.stop = .returned)
    (by simp [initial]) ?_
  intro s s' _ change told
  cases change with
  | starts | pushes | pushReturns | thread | joins => exact told
  | stops first _ => simpa [first] using told
  | tells => simp
  | returns joining _ => simpa [joining] using told

/-- The threads that `stop` does not wait for: not yet created, or gone. -/
theorem joined_of_reachable (reachable : Reachable maxQueue s) :
    ∀ i, i ∉ s.sslThreads → s.created ≤ i ∨ (s.threads i).pc = .exited := by
  refine reachable.invariant
    (fun s => ∀ i, i ∉ s.sslThreads → s.created ≤ i ∨ (s.threads i).pc = .exited)
    (fun _ _ => Or.inl (Nat.zero_le _)) ?_
  intro s s' before change joined i gone
  cases change with
  | pushes | pushReturns | stops | tells | returns => exact joined i gone
  | starts more =>
    -- the thread just created is one that `stop` will wait for
    obtain ⟨other, gone⟩ := not_or.mp (mt Finset.mem_insert.mpr gone)
    have place : i.val ≠ s.created := fun same => other (Fin.ext same)
    simp only [setThread_of_ne other]
    exact (joined i gone).imp_left fun later => by omega
  | thread j q t moves =>
    rcases joined i gone with later | exited
    · exact Or.inl later
    · have other : i ≠ j := by
        rintro rfl
        cases moves <;> simp_all
      exact Or.inr (by simpa [other] using exited)
  | joins j _ exited =>
    by_cases same : i = j
    · exact Or.inr (same ▸ exited)
    · exact joined i fun member => gone (Finset.mem_erase.mpr ⟨same, member⟩)

theorem created_of_called (reachable : Reachable maxQueue s) :
    s.stop ≠ .notCalled → s.created = n := by
  refine reachable.invariant (fun s => s.stop ≠ .notCalled → s.created = n) (absurd rfl) ?_
  intro s s' _ change started
  cases change with
  | starts more => exact fun called => absurd (started called) (by omega)
  | pushes | pushReturns | thread | joins => exact started
  | stops _ all => exact fun _ => all
  | tells called => exact fun _ => started (by simp [called])
  | returns joining _ => exact fun _ => started (by simp [joining])

/-- `stop` returns when all the threads have exited. -/
theorem exited_of_returned (reachable : Reachable maxQueue s) (returned : s.stop = .returned)
    (i : Fin n) : (s.threads i).pc = .exited := by
  have waited : s.stop = .returned → s.sslThreads = ∅ := by
    refine reachable.invariant (fun s => s.stop = .returned → s.sslThreads = ∅) (fun _ => rfl) ?_
    intro s s' before change waited
    cases change with
    | starts more =>
      intro (returned : s.stop = .returned)
      have all := created_of_called before (by simp [returned])
      omega
    | pushes | pushReturns | thread => exact waited
    | stops | tells => simp
    | joins i joining _ => simp [joining]
    | returns _ all => exact fun _ => all
  rcases joined_of_reachable reachable i (by simp [waited returned]) with later | exited
  · have all := created_of_called reachable (by simp [returned])
    exact absurd i.isLt (by omega)
  · exact exited

theorem beforeStop_pushed (reachable : Reachable maxQueue s) :
    ∀ msg ∈ s.beforeStop, msg ∈ s.pushed := by
  suffices both : (∀ msg ∈ s.returned, msg ∈ s.pushed) ∧ ∀ msg ∈ s.beforeStop, msg ∈ s.pushed from
    both.2
  refine reachable.invariant (fun s => (∀ msg ∈ s.returned, msg ∈ s.pushed) ∧
    ∀ msg ∈ s.beforeStop, msg ∈ s.pushed) ⟨by simp [initial], by simp [initial]⟩ ?_
  intro s s' _ change both
  cases change with
  | starts | thread | tells | joins | returns => exact both
  | pushes message =>
    exact ⟨fun msg member => List.mem_append_left _ (both.1 msg member),
      fun msg member => List.mem_append_left _ (both.2 msg member)⟩
  | pushReturns msg queued =>
    refine ⟨fun other member => ?_, both.2⟩
    rcases List.mem_append.mp member with old | new
    · exact both.1 other old
    · exact List.mem_singleton.mp new ▸ queued
  | stops => exact ⟨both.1, both.1⟩

/-! ### What the threads still take -/

/-- The messages a controller has room for. -/
def SslThread.room (maxQueue : Int) (t : SslThread) : Nat := toSizeT maxQueue - t.sendQueueSize

/-- The messages a thread still takes once the flag is set, if there are so many: it
goes on filling, but does not begin to. -/
def SslThread.stillTakes (maxQueue : Int) (t : SslThread) : Nat :=
  match t.pc with
  | .sendQueueSize | .dequeue => t.room maxQueue
  -- one place is for the message in its hand
  | .add _ => t.room maxQueue - 1
  | .notCreated | .isDone | .run | .usleep | .exited => 0

/-- The messages that all of them still take. -/
def stillTaken (maxQueue : Int) (s : APNS n) : Nat := ∑ i, (s.threads i).stillTakes maxQueue

/-- The end of the queue that no thread comes to any more. -/
def outOfReach (maxQueue : Int) (s : APNS n) : List Message :=
  s.messageQ.drop (s.stillTaken maxQueue)

/-- A thread that was told to stop takes a message and then one less, or finds the
queue empty, or takes nothing and will take as many as before. -/
theorem SslThread.Moves.stillTakes {q q' : List Message} {t t' : SslThread}
    (moves : SslThread.Moves maxQueue true q t q' t') (within : SslThread.Within maxQueue t) :
    (q' = q ∧ t'.stillTakes maxQueue = t.stillTakes maxQueue) ∨ (q = [] ∧ q' = []) ∨
      ∃ msg, q = msg :: q' ∧ t.stillTakes maxQueue = t'.stillTakes maxQueue + 1 := by
  cases moves with
  | stays _ untold => cases untold
  | empty _ none => exact Or.inr (Or.inl ⟨none, none⟩)
  | takes hpc msg rest front =>
    have free := within.room (Or.inl hpc)
    refine Or.inr (Or.inr ⟨msg, front, ?_⟩)
    simp only [SslThread.stillTakes, SslThread.room, hpc]
    omega
  | adds msg hpc =>
    refine Or.inl ⟨rfl, ?_⟩
    simp only [SslThread.stillTakes, SslThread.room, hpc]
    omega
  | full hpc above =>
    refine Or.inl ⟨rfl, ?_⟩
    simp only [SslThread.stillTakes, SslThread.room, hpc]
    omega
  | leaves hpc | room hpc | runs hpc | wakes hpc =>
    exact Or.inl ⟨rfl, by simp [SslThread.stillTakes, SslThread.room, hpc]⟩

theorem sum_setThread (f : SslThread → Nat) (i : Fin n) (t : SslThread) :
    ∑ j, f ((s.setThread i t).threads j) + f (s.threads i) = ∑ j, f (s.threads j) + f t := by
  have others : ∑ j ∈ Finset.univ.erase i, f ((s.setThread i t).threads j) =
      ∑ j ∈ Finset.univ.erase i, f (s.threads j) :=
    Finset.sum_congr rfl fun j member => by rw [setThread_of_ne (Finset.ne_of_mem_erase member)]
  rw [← Finset.add_sum_erase _ (fun j => f (s.threads j)) (Finset.mem_univ i),
    ← Finset.add_sum_erase _ (fun j => f ((s.setThread i t).threads j)) (Finset.mem_univ i),
    others, setThread_self]
  omega

theorem called_of_done (reachable : Reachable maxQueue s) (told : s.done = true) :
    s.created = n ∧ s.stop ≠ .notCalled ∧ s.stop ≠ .setDone := by
  have called : s.stop = .joining ∨ s.stop = .returned := (done_iff reachable).mp told
  refine ⟨created_of_called reachable ?_, ?_, ?_⟩ <;> rcases called with hpc | hpc <;> simp [hpc]

/-- Whether a pushed message is out of reach is settled when the flag is set. -/
theorem outOfReach_of_change (reachable : Reachable maxQueue s) (told : s.done = true)
    (change : Change maxQueue s s') {msg : Message} (pushed : msg ∈ s.pushed) :
    msg ∈ s'.outOfReach maxQueue ↔ msg ∈ s.outOfReach maxQueue := by
  cases change with
  | pushReturns | stops | tells | joins | returns => rfl
  | starts more => exact absurd (called_of_done reachable told).1 (by omega)
  | pushes message =>
    -- what is pushed now is another object, behind all the others
    have once := pushed_nodup (reachable.tail ⟨.push message, rfl⟩)
    have other : msg ∉ [(⟨s.pushed.length, message⟩ : Message)] := fun same =>
      (List.nodup_append.mp once).2.2 _ pushed _ same rfl
    simp only [outOfReach, stillTaken, push, List.drop_append, List.mem_append]
    exact or_iff_left fun late => other (List.mem_of_mem_drop late)
  | thread i q t moves =>
    rw [told] at moves
    have total := sum_setThread (s := s) (SslThread.stillTakes maxQueue) i t
    simp only [outOfReach, stillTaken]
    rcases moves.stillTakes (within_of_reachable reachable i) with
      ⟨rfl, same⟩ | ⟨none, rfl⟩ | ⟨front, split, one_less⟩
    · rw [show ∑ j, ((s.setThread i t).threads j).stillTakes maxQueue =
        ∑ j, (s.threads j).stillTakes maxQueue by omega]
    · simp [none]
    -- the message taken is one that was within reach
    · rw [split, show ∑ j, (s.threads j).stillTakes maxQueue =
        ∑ j, ((s.setThread i t).threads j).stillTakes maxQueue + 1 by omega, List.drop_succ_cons]

theorem done_of_change (told : s.done = true) (change : Change maxQueue s s') : s'.done = true := by
  cases change with
  | starts | pushes | pushReturns | thread | stops | joins | returns => exact told
  | tells => rfl

/-- Once the flag is set the messages from before `stop` are the same, and so are
those of them out of reach. -/
theorem outOfReach_of_run (reachable : Reachable maxQueue s) (told : s.done = true)
    (run : Relation.ReflTransGen (Step maxQueue) s s') :
    s'.done = true ∧ s'.beforeStop = s.beforeStop ∧ ∀ msg ∈ s.beforeStop,
      (msg ∈ s'.outOfReach maxQueue ↔ msg ∈ s.outOfReach maxQueue) := by
  induction run with
  | refl => exact ⟨told, rfl, fun _ _ => Iff.rfl⟩
  | @tail mid s' before step ih =>
    obtain ⟨still, early, settled⟩ := ih
    have change := change_of_step step
    have later : Reachable maxQueue mid := reachable.trans before
    refine ⟨done_of_change still change, ?_, fun msg member => ?_⟩
    · rw [← early]
      cases change with
      | starts | pushes | pushReturns | thread | tells | joins | returns => rfl
      | stops first => exact absurd first (called_of_done later still).2.1
    · have pushed := beforeStop_pushed later msg (early ▸ member)
      exact (outOfReach_of_change later still change pushed).trans (settled msg member)

/-! ### The messages pushed before `stop` -/

/-- Each of them was given to the controller of exactly one thread. -/
def AllHanded (s : APNS n) : Prop := ∀ msg ∈ s.beforeStop, ∃! i, msg ∈ (s.threads i).added

/-- None of them is queued where no thread comes to any more. -/
def InReach (maxQueue : Int) (s : APNS n) : Prop :=
  ∀ msg ∈ s.beforeStop, msg ∉ s.outOfReach maxQueue

/-- `stop` sets the flag in `s`, and the run goes on from there to `s'`. -/
def ToldIn (maxQueue : Int) (s s' : APNS n) : Prop :=
  Reachable maxQueue s ∧
    ∃ told, s.setDone = some told ∧ Relation.ReflTransGen (Step maxQueue) told s'

/-- Every run that has come past `set_done` has set the flag in some state. -/
theorem exists_toldIn (reachable : Reachable maxQueue s) (told : s.done = true) :
    ∃ s₀, ToldIn maxQueue s₀ s := by
  induction reachable with
  | refl => cases told
  | @tail s _ before step ih =>
    by_cases already : s.done = true
    · obtain ⟨s₀, first, mid, sets, after⟩ := ih already
      exact ⟨s₀, first, mid, sets, after.tail step⟩
    · cases change_of_step step with
      | starts | pushes | pushReturns | thread | stops | joins | returns =>
        exact absurd told already
      | tells called => exact ⟨s, before, _, by simp [setDone, called], .refl⟩

/-- When `stop` returns everything pushed before it was handed over if and only if,
when it set the flag, none of it was queued behind what the threads still took. -/
theorem allHanded_iff (maxQueue : Int) (s : APNS n) (reachable : Reachable maxQueue s)
    (returned : s.stop = .returned) : (∃ s₀, ToldIn maxQueue s₀ s) ∧
      ∀ s₀, ToldIn maxQueue s₀ s → (AllHanded s ↔ InReach maxQueue s₀) := by
  refine ⟨exists_toldIn reachable ((done_iff reachable).mpr (Or.inr returned)), ?_⟩
  rintro s₀ ⟨first, told, sets, after⟩
  obtain ⟨called, rfl⟩ := Option.ite_none_right_eq_some.mp sets |>.imp_right Option.some.inj
  obtain ⟨_, early, settled⟩ :=
    outOfReach_of_run (first.tail ⟨.setDone, sets⟩) rfl after
  have exited := exited_of_returned reachable returned
  -- the threads have left, so all that is queued now was out of reach
  have queued : ∀ msg ∈ s₀.beforeStop, msg ∈ s.messageQ ↔ msg ∈ s₀.outOfReach maxQueue := by
    intro msg member
    have none : s.stillTaken maxQueue = 0 := by
      simp [stillTaken, SslThread.stillTakes, exited]
    have all : s.outOfReach maxQueue = s.messageQ := by rw [outOfReach, none, List.drop_zero]
    exact all ▸ settled msg member
  have counted := Fifo.counted_of_run (fifo_of_reachable reachable)
  have once := pushed_nodup reachable
  have taken (i : Fin n) : s.fifo.taken i = (s.threads i).added := by
    simp [fifo, SslThread.taken, SslThread.hand, exited i]
  rw [AllHanded, InReach, early]
  refine forall₂_congr fun msg member => ?_
  constructor
  · intro handed late
    obtain ⟨i, added⟩ := handed.exists
    exact counted.not_taken once ((queued msg member).mpr late) i (taken i ▸ added)
  · intro reached
    have pushed := beforeStop_pushed reachable msg (early ▸ member)
    simpa only [taken] using
      counted.existsUnique_taken once pushed (mt (queued msg member).mp reached)

/-- The thread that is filling its controller when the flag is set. -/
def fillingThread : Fin 2 := (Fin.last 0).castSucc

/-- The thread that sleeps then. -/
def sleepingThread : Fin 2 := Fin.last 1

/-- Two messages are pushed while one thread fills and the other sleeps. -/
def stoppedFilling : List (Action 2) :=
  [.start, .start] ++ List.replicate 4 (.thread sleepingThread 0) ++
    [.push (helloTo "aa"), .push (helloTo "bb"), .thread fillingThread 0,
      .pushReturns ⟨0, helloTo "aa"⟩, .pushReturns ⟨1, helloTo "bb"⟩, .stop]

/-- From there to the return. -/
def bothJoined : List (Action 2) :=
  List.replicate 9 (.thread fillingThread 0) ++ List.replicate 2 (.thread sleepingThread 0) ++
    [.thread fillingThread 0, .join sleepingThread, .join fillingThread, .stopReturns]

theorem allHanded_iff_stoppedFilling : ∃ s₀ s : APNS 2,
    play 2 stoppedFilling (initial 2) = some s₀ ∧ play 2 (.setDone :: bothJoined) s₀ = some s ∧
    s₀.beforeStop = [⟨0, helloTo "aa"⟩, ⟨1, helloTo "bb"⟩] ∧ s₀.messageQ = s₀.beforeStop ∧
    (AllHanded s ↔ InReach 2 s₀) ∧ AllHanded s := by
  obtain ⟨s₀, played, early, queued, both⟩ : ∃ s₀, play 2 stoppedFilling (initial 2) = some s₀ ∧
      s₀.beforeStop = [⟨0, helloTo "aa"⟩, ⟨1, helloTo "bb"⟩] ∧ s₀.messageQ = s₀.beforeStop ∧
      s₀.stillTaken 2 = 2 := ⟨_, rfl, rfl, rfl, by decide⟩
  obtain ⟨told, s, sets, more, returned⟩ : ∃ told s, s₀.setDone = some told ∧
      play 2 bothJoined told = some s ∧ s.stop = .returned := by
    cases played
    exact ⟨_, _, rfl, rfl, rfl⟩
  have first : Reachable 2 s₀ := reachable_of_play .refl played
  have toldIn : ToldIn 2 s₀ s := ⟨first, told, sets, steps_of_play more⟩
  have reachable : Reachable 2 s := (first.tail ⟨.setDone, sets⟩).trans (steps_of_play more)
  have handed := (allHanded_iff 2 s reachable returned).2 s₀ toldIn
  -- the first thread has room for both
  have reach : InReach 2 s₀ := by simp [InReach, outOfReach, both, queued, early]
  refine ⟨s₀, s, played, ?_, early, queued, handed, handed.mpr reach⟩
  exact Option.bind_eq_some_iff.mpr ⟨told, sets, more⟩

/-- A message is pushed while the thread sleeps, and then the thread is stopped. -/
def stoppedAsleep : List (Action 1) :=
  [.start, .thread 0 0, .thread 0 0, .thread 0 0, .thread 0 0, .push (helloTo "aa"),
    .pushReturns ⟨0, helloTo "aa"⟩, .stop, .setDone, .thread 0 0, .thread 0 0, .join 0, .stopReturns]

theorem stop_loses_message : ¬ ∀ (n : Nat) (maxQueue : Int) (s : APNS n), 1 ≤ maxQueue →
    Reachable maxQueue s → s.stop = .returned → AllHanded s := by
  intro handed
  obtain ⟨s, played, early, returned, nothing⟩ : ∃ s, play 100 stoppedAsleep (initial 1) = some s ∧
      s.beforeStop = [⟨0, helloTo "aa"⟩] ∧ s.stop = .returned ∧ (s.threads 0).added = [] :=
    ⟨_, rfl, rfl, rfl, rfl⟩
  obtain ⟨i, added, _⟩ := handed 1 100 s (by decide) (reachable_of_play .refl played) returned
    ⟨0, helloTo "aa"⟩ (by simp [early])
  rw [Subsingleton.elim i 0, nothing] at added
  cases added

end ApnsPusher.APNS
