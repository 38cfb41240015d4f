import ApnsPusher.APNS.Draining
import ApnsPusher.App.Delivery
import ApnsPusher.App.Shutdown

/-!
# Every message is handed over

While the application runs, no message is left waiting in a queue: one SSL thread that
gets its turn, and whose controller is not full for ever, is enough to empty it.
-/
namespace ApnsPusher

open Effects Worker

theorem APNS.existsUnique_added {n : Nat} {maxQueue : Int} {s : APNS n}
    (reachable : APNS.Reachable maxQueue s) {j : Fin n} {msg : Message}
    (added : msg ∈ (s.threads j).added) : ∃! j', msg ∈ (s.threads j').added := by
  obtain ⟨handed, handedOver⟩ := handedOver_of_reachable reachable
  have taken (j' : Fin n) : msg ∈ (s.threads j').added → msg ∈ (s.threads j').taken :=
    List.mem_append_left _
  obtain ⟨_, _, alone⟩ := handedOver.once msg ((handedOver.ordered j).subset (taken j added))
  exact ⟨j, added, fun j' other => (alone j' (taken j' other)).trans (alone j (taken j added)).symm⟩

/-! ### One worker thread -/

namespace WorkerThread

open APNS

variable {m : Nat} {lib : Openframe} {maxQueue : Int} {done : Bool} {t t' : WorkerThread m}
  {action : Action m}

/-- What a step of the worker thread, or of one of its threads, is to an SSL thread. -/
theorem apns_of_change (inv : t.Inv maxQueue) (change : Change lib maxQueue done t action t')
    (j : Fin m) :
    (∃ sent, action = .apns (.apns (.thread j sent)) ∧
      APNS.step maxQueue t.apns.apns (.thread j sent) = some t'.apns.apns) ∨
    Relation.ReflTransGen (StepOfOthers maxQueue j) t.apns.apns t'.apns.apns := by
  cases change with
  | @constructs e _ _ r | @calls e _ _ r =>
    right
    cases e with
    -- `push` is two steps, and all the other calls are none
    | push message =>
      have queues : StepOfOthers maxQueue j t.apns.apns (t.apns.apns.push message) :=
        ⟨.push message, by simp, rfl⟩
      exact (Relation.ReflTransGen.single queues).tail
        ⟨_, by simp, pushReturns_pushed inv.apns.apns message⟩
    | _ => exact .refl
  | apns action _ apns stepped =>
    cases action with
    | apns action =>
      obtain ⟨_, apns, within, rfl⟩ := WithFeedback.apns_of_step stepped
      by_cases own : ∃ sent, action = .thread j sent
      · obtain ⟨sent, rfl⟩ := own
        exact Or.inl ⟨sent, rfl, within⟩
      · exact Or.inr (.single ⟨action, fun sent same => own ⟨sent, same⟩, within⟩)
    | startFeedback | joinFeedback =>
      obtain ⟨_, rfl⟩ := Option.ite_none_right_eq_some.mp stepped |>.imp_right Option.some.inj
      exact Or.inr .refl
    | feedback reply =>
      obtain ⟨_, _, rfl⟩ := Option.map_eq_some_iff.mp stepped
      exact Or.inr .refl
  | constructed | started | leaves | runs | returns | wakes | destroys | stopped | deletesApns
  | deletesStore | deletesStomp => exact Or.inr .refl

/-- Before its loop a worker has not called `run`. -/
theorem turns_of_change (change : Change lib maxQueue done t action t')
    (none : t.pc.phase < 3 → t.turns = 0) : t'.pc.phase < 3 → t'.turns = 0 := by
  intro early
  cases change with
  | constructs hpc | constructed hpc => exact none (by simp [hpc, Pc.phase])
  | apns => exact none early
  | returns hpc => split at early <;> simp [Pc.phase] at early
  | started | leaves | runs | calls | wakes | destroys | stopped | deletesApns | deletesStore
  | deletesStomp => simp [carryOut, Pc.phase] at early

/-- Nothing is queued before `start` has returned. -/
theorem started_of_pushed (inv : t.Inv maxQueue) (ran : t.Ran lib) (queued : t.Queued)
    (turns : t.pc.phase < 3 → t.turns = 0) {msg : Message} (pushed : msg ∈ t.apns.apns.pushed) :
    t.apns.Started := by
  refine inv.started (Nat.le_of_not_lt fun early => ?_)
  obtain ⟨rest, w, made⟩ : ∃ rest w, Prog.Runs create (t.trace ++ rest) w := by
    have none := turns early
    cases hpc : t.pc with
    | notCreated =>
      simp only [Ran, hpc] at ran
      rw [ran.1]
      exact (Prog.Reaches.refl create).complete
    | constructing p =>
      simp only [Ran, hpc] at ran
      exact ran.1.complete
    | starting w =>
      simp only [Ran, hpc, none] at ran
      obtain ⟨_, front, _, whole, made, rfl, rfl⟩ := (Prog.runs_bind _ _ _ _).mp ran
      exact ⟨[], w, by simpa [whole] using made⟩
    | isDone | running | sleeping | destroyStats | stopping | deleteApns | deleteStore | deleteStomp
    | exited => simp [hpc, Pc.phase] at early
  -- the constructor and `init` only read the clock
  have asked : msg.message ∈ notifications t.trace :=
    queued.asked ▸ List.mem_map_of_mem pushed
  have statistics := (made.post create_post).1 _
    (List.mem_append_left _ (mem_notifications.mp asked))
  simp [isStatistics] at statistics

/-- The destructor comes after the loop, which ends when the application is done. -/
theorem done_of_late (change : Change lib maxQueue done t action t')
    (told : 4 ≤ t.pc.phase → done = true) : 4 ≤ t'.pc.phase → done = true := by
  intro late
  cases change with
  | leaves _ done => exact done
  | apns => exact told late
  | returns hpc => split at late <;> simp [Pc.phase] at late
  | destroys hpc | stopped hpc | deletesApns hpc | deletesStore hpc | deletesStomp hpc =>
    exact told (by simp [hpc, Pc.phase])
  | constructs | constructed | started | runs | calls | wakes =>
    simp [carryOut, Pc.phase] at late

end WorkerThread

namespace App

open APNS

variable {n m : Nat} {lib : Openframe} {maxQueue : Int} {enableFeedback : Bool} {s s' : App n m}
  {action : Action n m}

/-! ### One SSL thread of the application -/

theorem apns_of_change (reachable : Reachable lib maxQueue enableFeedback s)
    (change : Change lib maxQueue s action s') (i : Fin n) (j : Fin m) :
    (∃ sent, action = .worker i (.apns (.apns (.thread j sent))) ∧
      APNS.step maxQueue (s.workers i).apns.apns (.thread j sent) = some (s'.workers i).apns.apns) ∨
    Relation.ReflTransGen (StepOfOthers maxQueue j) (s.workers i).apns.apns
      (s'.workers i).apns.apns := by
  rcases worker_of_change change i with same | made | ⟨moved, rfl, moves⟩
  · exact Or.inr (same ▸ .refl)
  · exact Or.inr (made ▸ .refl)
  · refine (WorkerThread.apns_of_change (inv_of_reachable reachable i) moves j).imp_left ?_
    rintro ⟨sent, rfl, stepped⟩
    exact ⟨sent, rfl, stepped⟩

theorem created_of_pushed (reachable : Reachable lib maxQueue enableFeedback s) {i : Fin n}
    {msg : Message} (pushed : msg ∈ (s.workers i).apns.apns.pushed) (j : Fin m) :
    ((s.workers i).apns.apns.threads j).pc ≠ .notCreated := by
  have inv := inv_of_reachable reachable i
  have turns : (s.workers i).pc.phase < 3 → (s.workers i).turns = 0 :=
    reachable.workers (fun t => t.pc.phase < 3 → t.turns = 0) (fun _ => rfl)
      (fun t absent none _ => none (by omega))
      (fun _ _ _ _ change none => WorkerThread.turns_of_change change none) i
  have started := WorkerThread.started_of_pushed inv (ran_of_reachable reachable i)
    (queued_of_reachable reachable i) turns pushed
  exact created_of_lt inv.apns.apns (started.1.symm ▸ j.isLt)

/-- The APNS threads are told to stop only when SIGINT has come. -/
theorem done_of_told (reachable : Reachable lib maxQueue enableFeedback s) {i : Fin n}
    (told : (s.workers i).apns.apns.done = true) : s.done = true := by
  have inv := inv_of_reachable reachable i
  have late : 4 ≤ (s.workers i).pc.phase := by
    have called := (done_iff inv.apns.apns).mp told
    by_contra early
    simp [inv.early (by omega)] at called
  revert late
  refine reachable.invariant (fun s => 4 ≤ (s.workers i).pc.phase → s.done = true)
    (by simp [initial, WorkerThread.blank, WorkerThread.Pc.phase]) ?_
  intro s action s' change told late
  rcases worker_of_change change i with same | made | ⟨moved, rfl, moves⟩
  · exact done_of_change change (told (same ▸ late))
  · simp [made, WorkerThread.Pc.phase] at late
  · cases change
    exact WorkerThread.done_of_late moves told late

theorem actor_ssl {i : Fin n} {j : Fin m} (actor : action.actor = some (.ssl i j)) :
    ∃ sent, action = .worker i (.apns (.apns (.thread j sent))) := by
  cases action with
  | sigint | main => cases actor
  | worker i' action =>
    rcases actor_worker i' action with ⟨_, own⟩ | ⟨_, ⟨j', sent, rfl, own⟩ | ⟨_, _, own⟩⟩
    · cases own.symm.trans actor
    · cases own.symm.trans actor
      exact ⟨sent, rfl⟩
    · cases own.symm.trans actor

theorem enabled_ssl (reachable : Reachable lib maxQueue enableFeedback s) {i : Fin n} {j : Fin m}
    {msg : Message} (pushed : msg ∈ (s.workers i).apns.apns.pushed)
    (inside : ((s.workers i).apns.apns.threads j).pc ≠ .exited) :
    Enabled (Acts lib maxQueue) Action.actor s (.ssl i j) := by
  have able := SslThread.step_isSome (created_of_pushed reachable pushed j) inside
  have moves : (WorkerThread.step lib maxQueue s.done (s.workers i)
      (.apns (.apns (.thread j 0)))).isSome = true := by
    refine WorkerThread.isSome_apns rfl ?_
    simp [WithFeedback.step, WithFeedback.allows, APNS.step, able]
  exact enabled_worker rfl moves

/-- A message queued by worker `i`, with the application it is queued in. -/
structure Pushed (lib : Openframe) (maxQueue : Int) (enableFeedback : Bool) (i : Fin n)
    (msg : Message) (s : App n m) : Prop where
  reachable : Reachable lib maxQueue enableFeedback s
  pushed : msg ∈ (s.workers i).apns.apns.pushed

/-- How long it still waits for SSL thread `j`. -/
def waitFor (maxQueue : Int) (i : Fin n) (j : Fin m) (msg : Message) (s : App n m) : Nat :=
  (s.workers i).apns.apns.wait maxQueue j msg

section Waits

variable {i : Fin n} {j : Fin m} {msg : Message}

theorem Pushed.step (holds : Pushed lib maxQueue enableFeedback i msg s)
    (stepped : Acts lib maxQueue s action s') : Pushed lib maxQueue enableFeedback i msg s' ∧
      s'.waitFor maxQueue i j msg ≤ s.waitFor maxQueue i j msg := by
  have inv := (inv_of_reachable holds.reachable i).apns.apns
  have reachable := holds.reachable.tail ⟨action, stepped⟩
  rcases apns_of_change holds.reachable (change_of_step stepped) i j with ⟨sent, rfl, moved⟩ | others
  · have one : APNS.Step maxQueue _ _ := ⟨_, moved⟩
    exact ⟨⟨reachable, pushed_of_step holds.pushed one⟩, wait_le_of_step inv holds.pushed one⟩
  · obtain ⟨_, pushed, _, le⟩ := kept_by_others inv others holds.pushed
      (created_of_pushed holds.reachable holds.pushed j)
    exact ⟨⟨reachable, pushed⟩, le⟩

theorem apnsStep_of_acts {apnsAction : APNS.Action m}
    (stepped : Acts lib maxQueue s (.worker i (.apns (.apns apnsAction))) s') :
    APNS.step maxQueue (s.workers i).apns.apns apnsAction = some (s'.workers i).apns.apns := by
  cases change_of_step stepped with
  | worker i action t change =>
    cases change with
    | apns action _ apns moved =>
      obtain ⟨_, apns, within, rfl⟩ := WithFeedback.apns_of_step moved
      simpa using within

theorem inside_of_waitFor (reachable : Reachable lib maxQueue enableFeedback s)
    (waits : s.waitFor maxQueue i j msg ≠ 0) (j' : Fin m) :
    ((s.workers i).apns.apns.threads j').pc ≠ .exited := by
  intro exited
  have told := done_of_exited (inv_of_reachable reachable i).apns.apns j' exited
  simp [(waiting_of_wait waits).2] at told

variable {run : Endless (Acts (n := n) (m := m) lib maxQueue)}

/-- As long as its controller has room, a thread that gets its turn shortens the wait. -/
theorem waitFor_falls (fair : run.FairTo Action.actor (.ssl i j)) {k : Nat}
    (holds : Pushed lib maxQueue enableFeedback i msg (run.states k))
    (waits : (run.states k).waitFor maxQueue i j msg ≠ 0)
    (room : (((run.states k).workers i).apns.apns.threads j).sendQueueSize < APNS.toSizeT maxQueue) :
    ∃ k', k ≤ k' ∧ Pushed lib maxQueue enableFeedback i msg (run.states k') ∧
      (run.states k').waitFor maxQueue i j msg < (run.states k).waitFor maxQueue i j msg := by
  have within {s : App n m} (reachable : Reachable lib maxQueue enableFeedback s) :=
    within_of_reachable (inv_of_reachable reachable i).apns.apns j
  refine fair.leads (P := fun s => Pushed lib maxQueue enableFeedback i msg s ∧
    s.waitFor maxQueue i j msg = (run.states k).waitFor maxQueue i j msg ∧
      ((s.workers i).apns.apns.threads j).toTake maxQueue ≠ 6)
    (Q := fun s => Pushed lib maxQueue enableFeedback i msg s ∧
      s.waitFor maxQueue i j msg < (run.states k).waitFor maxQueue i j msg)
    ?_ ?_ ?_ ⟨holds, rfl, ?_⟩
  · intro s ⟨holds, same, _⟩
    exact enabled_ssl holds.reachable holds.pushed
      (inside_of_waitFor holds.reachable (same ▸ waits) j)
  · intro s action s' stepped ⟨holds, same, free⟩ own
    obtain ⟨sent, rfl⟩ := actor_ssl own
    have still : s.waitFor maxQueue i j msg ≠ 0 := same ▸ waits
    have room := not_not.mp (mt (SslThread.toTake_eq_six (within holds.reachable)).mpr free)
    exact ⟨(holds.step (j := j) stepped).1, same ▸ wait_lt_of_thread
      (inv_of_reachable holds.reachable i).apns.apns (apnsStep_of_acts stepped) still room⟩
  · intro s action s' stepped ⟨holds, same, free⟩ _
    obtain ⟨holds', le⟩ := holds.step (j := j) stepped
    have still : s.waitFor maxQueue i j msg ≠ 0 := same ▸ waits
    -- where the others leave the message where it is, the thread is as far as before
    rcases Nat.lt_or_eq_of_le le with less | equal
    · exact Or.inr ⟨holds', same ▸ less⟩
    · exact Or.inl ⟨holds', equal.trans same, toTake_of_wait still equal ▸ free⟩
  · exact mt (SslThread.toTake_eq_six (within holds.reachable)).mp (not_not.mpr room)

/-- The controller of SSL thread `j` of worker `i` has room again and again, until the
thread is told to stop. -/
def KeepsSending (i : Fin n) (j : Fin m) (run : Endless (Acts (n := n) (m := m) lib maxQueue)) :
    Prop :=
  ∀ k, ∃ k', k ≤ k' ∧
    ((((run.states k').workers i).apns.apns.threads j).sendQueueSize < APNS.toSizeT maxQueue ∨
      ((run.states k').workers i).apns.apns.done = true)

/-- The message comes to the front of the queue and leaves it, or the threads are told to stop. -/
theorem leaves_queue (fair : run.FairTo Action.actor (.ssl i j)) (sends : KeepsSending i j run)
    {k : Nat} (holds : Pushed lib maxQueue enableFeedback i msg (run.states k)) :
    ∃ k', k ≤ k' ∧ (run.states k').waitFor maxQueue i j msg = 0 := by
  refine run.reaches_of_falls (Pushed lib maxQueue enableFeedback i msg)
    (fun s => s.waitFor maxQueue i j msg = 0) (waitFor maxQueue i j msg) ?_ k holds
  intro k holds waits
  -- wait until there is room; by then the message is no farther back
  obtain ⟨k', later, sends⟩ := sends k
  obtain ⟨holds', le⟩ := run.holds
    (I := fun s => Pushed lib maxQueue enableFeedback i msg s ∧
      s.waitFor maxQueue i j msg ≤ (run.states k).waitFor maxQueue i j msg)
    (fun _ _ _ stepped holds => ⟨(holds.1.step (j := j) stepped).1,
      (holds.1.step stepped).2.trans holds.2⟩) ⟨holds, Nat.le_refl _⟩ later
  rcases sends with room | told
  · rcases Nat.lt_or_eq_of_le le with less | equal
    · exact ⟨k', later, holds', less⟩
    · obtain ⟨k'', after, holds'', less⟩ := waitFor_falls fair holds' (equal ▸ waits) room
      exact ⟨k'', later.trans after, holds'', equal ▸ less⟩
  · have gone : (run.states k').waitFor maxQueue i j msg = 0 := wait_eq_zero.mpr (Or.inr told)
    exact ⟨k', later, holds', gone ▸ Nat.pos_of_ne_zero waits⟩

/-- A message that a thread has taken gets to its controller. -/
theorem leaves_hand (fair : run.FairTo Action.actor (.ssl i j)) {k : Nat}
    (holds : Pushed lib maxQueue enableFeedback i msg (run.states k))
    (hand : (((run.states k).workers i).apns.apns.threads j).pc = .add msg) :
    ∃ k', k ≤ k' ∧ Pushed lib maxQueue enableFeedback i msg (run.states k') ∧
      msg ∈ (((run.states k').workers i).apns.apns.threads j).added := by
  refine fair.leads (P := fun s => Pushed lib maxQueue enableFeedback i msg s ∧
      ((s.workers i).apns.apns.threads j).pc = .add msg)
    (Q := fun s => Pushed lib maxQueue enableFeedback i msg s ∧
      msg ∈ ((s.workers i).apns.apns.threads j).added) ?_ ?_ ?_ ⟨holds, hand⟩
  · exact fun s ⟨holds, hand⟩ => enabled_ssl holds.reachable holds.pushed (by simp [hand])
  · intro s action s' stepped ⟨holds, hand⟩ own
    obtain ⟨sent, rfl⟩ := actor_ssl own
    exact ⟨(holds.step (j := j) stepped).1, added_of_thread (apnsStep_of_acts stepped) hand⟩
  · intro s action s' stepped ⟨holds, hand⟩ other
    have holds' := (holds.step (j := j) stepped).1
    rcases apns_of_change holds.reachable (change_of_step stepped) i j with ⟨sent, rfl, _⟩ | others
    · exact absurd rfl other
    · obtain ⟨_, _, same, _⟩ := kept_by_others (inv_of_reachable holds.reachable i).apns.apns others
        holds.pushed (created_of_pushed holds.reachable holds.pushed j)
      exact Or.inl ⟨holds', same ▸ hand⟩

end Waits

/-- The message is with one push controller, or it waits in the queue of a worker whose
threads have been told to stop, as only SIGINT brings about. -/
def Handed (s : App n m) (i : Fin n) (msg : Message) : Prop :=
  (∃! j, msg ∈ ((s.workers i).apns.apns.threads j).added) ∨
    (msg ∈ (s.workers i).apns.apns.messageQ ∧ (s.workers i).apns.apns.done = true ∧ s.done = true)

/-- In every endless run of the process that is fair to the SSL threads of a worker, and
in which the controller of one of them is not full for ever, each message that the
worker queues gets to exactly one push controller, unless SIGINT comes before. -/
theorem messages_handed (lib : Openframe) (maxQueue : Int) (enableFeedback : Bool)
    (run : Endless (Acts (n := n) (m := m) lib maxQueue))
    (start : run.states 0 = initial n m enableFeedback) (i : Fin n)
    (fair : ∀ j, run.FairTo Action.actor (.ssl i j)) (j : Fin m) (sends : KeepsSending i j run)
    (k : Nat) (msg : Message) (queued : msg ∈ ((run.states k).workers i).apns.apns.pushed) :
    ∃ k', k ≤ k' ∧ (run.states k').Handed i msg := by
  have holds : Pushed lib maxQueue enableFeedback i msg (run.states k) :=
    ⟨reachable_states start k, queued⟩
  -- it leaves the queue by one thread, which may have it in its hand or have added it
  obtain ⟨k₁, later, gone⟩ := leaves_queue (fair j) sends holds
  have holds₁ : Pushed lib maxQueue enableFeedback i msg (run.states k₁) :=
    run.holds (fun _ _ _ stepped holds => (Pushed.step (j := j) holds stepped).1) holds later
  have within := (inv_of_reachable holds₁.reachable i).apns.apns
  by_cases waits : msg ∈ ((run.states k₁).workers i).apns.apns.messageQ
  · have told := (wait_eq_zero.mp gone).resolve_left (not_not.mpr waits)
    exact ⟨k₁, later, Or.inr ⟨waits, told, done_of_told holds₁.reachable told⟩⟩
  · obtain ⟨handed, handedOver⟩ := handedOver_of_reachable within
    have pushed := holds₁.pushed
    rw [handedOver.split] at pushed
    obtain ⟨j₁, taken, _⟩ := handedOver.once msg ((List.mem_append.mp pushed).resolve_right waits)
    rcases List.mem_append.mp taken with added | hand
    · exact ⟨k₁, later, Or.inl (existsUnique_added within added)⟩
    · obtain ⟨k₂, after, holds₂, added⟩ :=
        leaves_hand (fair j₁) holds₁ (SslThread.mem_hand.mp hand)
      have there := (inv_of_reachable holds₂.reachable i).apns.apns
      exact ⟨k₂, later.trans after, Or.inl (existsUnique_added there added)⟩

/-! ### One run -/

/-- A worker that has queued a message. -/
def firstQueued : List (Action 1 1) :=
  workerStarted ++ workerAnswers (brokerRun createdWorker.2).1

/-- Its SSL thread takes the message, and then SIGINT ends everything. -/
def takenInTime : List (Action 1 1) :=
  sslSteps 4 ++
    [workerTurn, .sigint, workerTurn, workerTurn, apnsAction .stop, apnsAction .setDone] ++
    sslSteps 4 ++
    [apnsAction (.join (Fin.last 0)), apnsAction .stopReturns, workerTurn, workerTurn, workerTurn,
      workerTurn] ++ List.replicate 7 .main

theorem messages_handed_takenInTime : ∃ run : Endless (Acts (n := 1) (m := 1) .textual 1),
    run.states 0 = initial 1 1 false ∧ (∀ j, run.FairTo Action.actor (.ssl 0 j)) ∧
      KeepsSending 0 0 run ∧ ∃ k, ((run.states k).workers 0).apns.apns.messageQ.length = 1 ∧
        (run.states k).done = false ∧
          ∀ msg ∈ ((run.states k).workers 0).apns.apns.pushed,
            ∃ k', k ≤ k' ∧ (run.states k').Handed 0 msg := by
  obtain ⟨s, played, returned, done, told⟩ : ∃ s : App 1 1,
      playAll (step .textual 1) (firstQueued ++ takenInTime) (initial 1 1 false) = some s ∧
        s.main = .returned ∧ s.done = true ∧ (s.workers 0).apns.apns.done = true :=
    ⟨_, rfl, rfl, rfl, rfl⟩
  obtain ⟨mid, before, waiting, untold⟩ : ∃ mid : App 1 1,
      playAll (step .textual 1) firstQueued (initial 1 1 false) = some mid ∧
        (mid.workers 0).apns.apns.messageQ.length = 1 ∧ mid.done = false := ⟨_, rfl, rfl, rfl⟩
  have ended := ended_of_returned (reachable_of_playAll played) returned
  have idle : step .textual 1 s .sigint = some s := step_sigint done
  have fair := fair_atRest played idle (not_enabled_of_ended ended)
  have sends : KeepsSending 0 0 (atRest played idle) := by
    intro k
    obtain ⟨k', later, there⟩ := exists_atRest played idle k
    refine ⟨k', later, Or.inr ?_⟩
    rw [there]
    exact told
  have there := states_atRest played idle before
  refine ⟨atRest played idle, rfl, fun j => fair (.ssl 0 j), sends, firstQueued.length, ?_, ?_,
    fun msg queued => ?_⟩
  · rw [there]
    exact waiting
  · rw [there]
    exact untold
  · exact messages_handed .textual 1 false (atRest played idle) rfl 0 (fun j => fair (.ssl 0 j)) 0
      sends firstQueued.length msg queued

end App
end ApnsPusher
