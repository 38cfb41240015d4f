import ApnsPusher.APNS.Shutdown
import ApnsPusher.Effects.Settling
import Mathlib.Tactic.Ring

/-!
# Stopping

Once `stop` has set the flag, every thread breaks out of its loop, also out of the
loop that fills its controller while others go on pushing: each message it takes
leaves room for one less.
-/
namespace ApnsPusher.APNS

open Effects

/-- The steps of callers of `push`; all the others are of the threads, `start` and `stop`. -/
def Action.isPush {n : Nat} : Action n → Bool
  | .push _ | .pushReturns _ => true
  | .start | .thread .. | .stop | .setDone | .join _ | .stopReturns => false

/-! ### The steps left to a thread -/

/-- The steps a thread can still take when the flag is set. A turn of the fill
loop is three. -/
def SslThread.stepsLeft (maxQueue : Int) (t : SslThread) : Nat :=
  match t.pc with
  | .notCreated | .exited => 0
  | .isDone => 1
  | .usleep => 2
  | .run => 3
  | .add _ => 3 * t.room maxQueue + 2
  | .dequeue => 3 * t.room maxQueue + 3
  | .sendQueueSize => 3 * t.room maxQueue + 4

theorem SslThread.stepsLeft_le (maxQueue : Int) (t : SslThread) :
    t.stepsLeft maxQueue ≤ 3 * toSizeT maxQueue + 4 := by
  have room : t.room maxQueue ≤ toSizeT maxQueue := Nat.sub_le _ _
  unfold SslThread.stepsLeft
  split <;> omega

/-- Every step of a thread that has been told to stop is one less. -/
theorem SslThread.Moves.stepsLeft_lt {maxQueue : Int} {q q' : List Message} {t t' : SslThread}
    (moves : SslThread.Moves maxQueue true q t q' t') (within : SslThread.Within maxQueue t) :
    t'.stepsLeft maxQueue < t.stepsLeft maxQueue := by
  cases moves with
  | stays _ untold => cases untold
  | leaves hpc _ | full hpc _ | runs hpc _ | wakes hpc | takes hpc _ _ _ =>
    simp [SslThread.stepsLeft, SslThread.room, hpc]
  | room hpc _ => simp [SslThread.stepsLeft, SslThread.room, hpc]
  | empty hpc _ =>
    have free := within.room (Or.inl hpc)
    simp only [SslThread.stepsLeft, SslThread.room, hpc]
    omega
  | adds msg hpc =>
    -- there was room for the message that is added
    have free := within.room (Or.inr (by simp [hand, hpc]))
    simp only [SslThread.stepsLeft, SslThread.room, hpc]
    omega

/-- A thread that exists and has not left can always move. -/
theorem SslThread.step_isSome {t : SslThread} (created : t.pc ≠ .notCreated)
    (inside : t.pc ≠ .exited) (maxQueue : Int) (done : Bool) (sent : Nat) (q : List Message) :
    (SslThread.step maxQueue done sent q t).isSome = true := by
  unfold SslThread.step
  split
  next hpc => exact absurd hpc created
  next hpc => exact absurd hpc inside
  next => split <;> rfl
  next => split <;> rfl
  next => cases q <;> rfl
  next => rfl
  next => rfl
  next => rfl

variable {n : Nat} {maxQueue : Int} {s s' : APNS n}

/-! ### The steps left to all of them -/

/-- The steps of the threads and of `stop` from here to its return. -/
def stepsLeft (maxQueue : Int) (s : APNS n) : Nat :=
  ∑ i, (s.threads i).stepsLeft maxQueue + s.sslThreads.card + if s.stop = .returned then 0 else 1

theorem stepsLeft_le (maxQueue : Int) (s : APNS n) :
    stepsLeft maxQueue s ≤ n * (3 * toSizeT maxQueue + 5) + 1 := by
  have each : ∑ i, (s.threads i).stepsLeft maxQueue ≤ n * (3 * toSizeT maxQueue + 4) := by
    have sum := Finset.sum_le_sum fun i (_ : i ∈ Finset.univ) =>
      (s.threads i).stepsLeft_le maxQueue
    rwa [Finset.sum_const_nat fun _ _ => rfl, Finset.card_fin] at sum
  have waited : s.sslThreads.card ≤ n := card_finset_fin_le s.sslThreads
  have last : (if s.stop = .returned then 0 else 1) ≤ 1 := by split <;> omega
  unfold stepsLeft
  calc
    _ ≤ n * (3 * toSizeT maxQueue + 4) + n + 1 := by omega
    _ = n * (3 * toSizeT maxQueue + 5) + 1 := by ring

theorem sum_setThread_lt (i : Fin n) (t : SslThread)
    (lower : t.stepsLeft maxQueue < (s.threads i).stepsLeft maxQueue) :
    ∑ j, ((s.setThread i t).threads j).stepsLeft maxQueue <
      ∑ j, (s.threads j).stepsLeft maxQueue := by
  have total := sum_setThread (s := s) (SslThread.stepsLeft maxQueue) i t
  omega

theorem stepsLeft_lt_of_step {action : Action n} (reachable : Reachable maxQueue s)
    (told : s.done = true) (stepped : step maxQueue s action = some s')
    (counted : action.isPush = false) : stepsLeft maxQueue s' < stepsLeft maxQueue s := by
  obtain ⟨started, called, set⟩ := called_of_done reachable told
  unfold stepsLeft
  cases action with
  | push | pushReturns => cases counted
  | start => simp [APNS.step, start, started] at stepped
  | stop => simp [APNS.step, callStop, called] at stepped
  | setDone => simp [APNS.step, setDone, set] at stepped
  | thread i sent =>
    obtain ⟨⟨q, t⟩, moved, rfl⟩ := Option.map_eq_some_iff.mp stepped
    have moves := SslThread.moves_of_step moved
    rw [told] at moves
    have lower := sum_setThread_lt i t (moves.stepsLeft_lt (within_of_reachable reachable i))
    have same : (s.setThread i t).sslThreads = s.sslThreads ∧ (s.setThread i t).stop = s.stop :=
      ⟨rfl, rfl⟩
    simp only [same]
    omega
  | join i =>
    obtain ⟨⟨_, waited, _⟩, rfl⟩ :=
      Option.ite_none_right_eq_some.mp stepped |>.imp_right Option.some.inj
    have one_less := Finset.card_erase_lt_of_mem waited
    simp only
    omega
  | stopReturns =>
    obtain ⟨⟨joining, _⟩, rfl⟩ :=
      Option.ite_none_right_eq_some.mp stepped |>.imp_right Option.some.inj
    simp [joining]

theorem follows_of_play {actions : List (Action n)} (played : play maxQueue actions s = some s') :
    Follows (fun s action s' => step maxQueue s action = some s') s actions s' := by
  induction actions generalizing s with
  | nil =>
    obtain rfl := Option.some.inj played
    exact .nil s
  | cons action rest ih =>
    obtain ⟨mid, first, more⟩ := Option.bind_eq_some_iff.mp played
    exact .cons first (ih more)

theorem stepsLeft_push {action : Action n} (stepped : step maxQueue s action = some s')
    (pushing : action.isPush = true) : stepsLeft maxQueue s' = stepsLeft maxQueue s := by
  cases action with
  | push message =>
    cases stepped
    rfl
  | pushReturns msg =>
    obtain ⟨_, rfl⟩ := Option.ite_none_right_eq_some.mp stepped |>.imp_right Option.some.inj
    rfl
  | start | thread | stop | setDone | join | stopReturns => cases pushing

theorem stepsLeft_le_of_step {action : Action n} (reachable : Reachable maxQueue s)
    (told : s.done = true) (stepped : step maxQueue s action = some s') :
    stepsLeft maxQueue s' ≤ stepsLeft maxQueue s := by
  cases pushing : action.isPush with
  | true => exact (stepsLeft_push stepped pushing).le
  | false => exact (stepsLeft_lt_of_step reachable told stepped pushing).le

/-- `stop` waits only for threads that exist. -/
theorem created_of_waited (reachable : Reachable maxQueue s) :
    ∀ i ∈ s.sslThreads, (s.threads i).pc ≠ .notCreated := by
  refine reachable.invariant (fun s => ∀ i ∈ s.sslThreads, (s.threads i).pc ≠ .notCreated)
    (by simp [initial]) ?_
  intro s s' _ change created i member
  cases change with
  | pushes | pushReturns | stops | tells | returns => exact created i member
  | starts more =>
    -- what `start` inserts it has created
    by_cases same : i = ⟨s.created, more⟩
    · simp [same]
    · simpa [same] using created i ((Finset.mem_insert.mp member).resolve_left same)
  | thread j q t moves =>
    by_cases same : i = j
    · subst same
      cases moves <;> simp
    · simpa [same] using created i member
  | joins => exact created i (Finset.mem_of_mem_erase member)

/-- As long as `stop` waits, a thread can move or be joined, or `stop` can return. -/
theorem exists_step_of_joining (reachable : Reachable maxQueue s) (joining : s.stop = .joining) :
    ∃ action : Action n, action.isPush = false ∧ (step maxQueue s action).isSome = true := by
  rcases s.sslThreads.eq_empty_or_nonempty with none | ⟨i, waited⟩
  · exact ⟨.stopReturns, rfl, by simp [step, stopReturns, joining, none]⟩
  · by_cases exited : (s.threads i).pc = .exited
    · exact ⟨.join i, rfl, by simp [step, join, joining, waited, exited]⟩
    · have created := created_of_waited reachable i waited
      refine ⟨.thread i 0, rfl, ?_⟩
      rw [step, Option.isSome_map]
      exact SslThread.step_isSome created exited ..

/-- Once the flag is set `stop` returns: in any run, however many messages are pushed
meanwhile, the threads and `stop` take at most the steps counted here, and until
`stop` has returned one of them can move. -/
theorem stop_settles (maxQueue : Int) (s : APNS n) (reachable : Reachable maxQueue s)
    (told : s.done = true) (actions : List (Action n)) (s' : APNS n)
    (played : play maxQueue actions s = some s') :
    actions.countP (fun action => !action.isPush) ≤ n * (3 * toSizeT maxQueue + 5) + 1 ∧
      (s'.stop = .returned ∨
        ∃ action : Action n, action.isPush = false ∧ (step maxQueue s' action).isSome = true) := by
  have follows := follows_of_play played
  have settled := follows.countP_add_le (stepsLeft maxQueue) (fun action => !action.isPush)
    (fun s => Reachable maxQueue s ∧ s.done = true)
    (fun _ action _ stepped holds =>
      ⟨holds.1.tail ⟨action, stepped⟩, done_of_change holds.2 (change_of_step ⟨action, stepped⟩)⟩)
    (fun _ action _ stepped holds => stepsLeft_le_of_step holds.1 holds.2 stepped)
    (fun _ action _ stepped holds counted =>
      stepsLeft_lt_of_step holds.1 holds.2 stepped (by simpa using counted))
    ⟨reachable, told⟩
  have bound := stepsLeft_le maxQueue s
  refine ⟨by omega, ?_⟩
  have later := reachable_of_play reachable played
  have still : s'.done = true :=
    follows.keeps (fun s => s.done = true)
      (fun _ action _ stepped told => done_of_change told (change_of_step ⟨action, stepped⟩)) told
  rcases (done_iff later).mp still with joining | returned
  · exact Or.inr (exists_step_of_joining later joining)
  · exact Or.inl returned

/-- A thread about to fill its controller when the flag is set. -/
def toldFilling : List (Action 1) := [.start, .thread (Fin.last 0) 0, .stop, .setDone]

/-- Two more pushes, and both messages are still taken. -/
def pushedMeanwhile : List (Action 1) :=
  [.push (helloTo "aa")] ++ List.replicate 2 (.thread (Fin.last 0) 0) ++ [.push (helloTo "bb")] ++
    List.replicate 5 (.thread (Fin.last 0) 0)

theorem stop_settles_pushedMeanwhile : ∃ s s' : APNS 1, play 2 toldFilling (initial 1) = some s ∧
    play 2 pushedMeanwhile s = some s' ∧
    pushedMeanwhile.countP (fun action => !action.isPush) ≤ 1 * (3 * toSizeT 2 + 5) + 1 ∧
      (s'.stop = .returned ∨
        ∃ action : Action 1, action.isPush = false ∧ (step 2 s' action).isSome = true) := by
  obtain ⟨s, played, told⟩ : ∃ s, play 2 toldFilling (initial 1) = some s ∧ s.done = true ∧
      (play 2 pushedMeanwhile s).isSome = true := ⟨_, rfl, rfl, rfl⟩
  obtain ⟨s', more⟩ := Option.isSome_iff_exists.mp told.2
  exact ⟨s, s', played, more,
    stop_settles 2 s (reachable_of_play .refl played) told.1 pushedMeanwhile s' more⟩

end ApnsPusher.APNS
