import ApnsPusher.App
import ApnsPusher.App.Progress
import Mathlib.Data.DFinsupp.WellFounded

/-!
# The shutdown of the application

After SIGINT the main thread returns, if no thread that is able to move is left
waiting for ever. No call is taken to return within any time, only to return.
-/
namespace ApnsPusher.App

open Effects

variable {n m : Nat} {lib : Openframe} {maxQueue : Int} {enableFeedback : Bool} {s s' : App n m}
  {action : Action n m}

/-- The threads of the process. -/
inductive Actor (n m : Nat) where
  | main
  | worker (i : Fin n)
  | ssl (i : Fin n) (j : Fin m)
  | feedback (i : Fin n)
  deriving DecidableEq

/-- Whose step an action is; SIGINT comes from outside. -/
def Action.actor : Action n m → Option (Actor n m)
  | .sigint => none
  | .main => some .main
  | .worker i (.apns (.apns (.thread j _))) => some (.ssl i j)
  | .worker i (.apns (.feedback _)) => some (.feedback i)
  | .worker i _ => some (.worker i)

/-! ### What is left to do -/

def Main.left (n : Nat) : Main → Nat
  | .starting k => n - k + n + 10
  | .sleeping => n + 9
  | .isDone => n + 8
  | .joining k => n - k + 4
  | .stopStats => 3
  | .deleteStats => 2
  | .deleteApp => 1
  | .returned => 0

noncomputable def left (maxQueue : Int) (s : App n m) : Nat × (Fin n → Rank) :=
  (s.main.left n, fun i => (s.workers i).left maxQueue)

theorem left_setWorker_le {i : Fin n} {t : WorkerThread m}
    (lower : t.left maxQueue ≤ (s.workers i).left maxQueue) :
    (s.setWorker i t).left maxQueue ≤ s.left maxQueue := by
  refine ⟨le_refl _, fun j => ?_⟩
  by_cases same : j = i
  · subst same
    simpa [left] using lower
  · simp [left, same]

theorem left_setWorker_lt {i : Fin n} {t : WorkerThread m}
    (lower : t.left maxQueue < (s.workers i).left maxQueue) :
    (s.setWorker i t).left maxQueue < s.left maxQueue := by
  refine lt_of_le_not_ge (left_setWorker_le lower.le) fun back => ?_
  have other := back.2 i
  simp only [left, setWorker_self] at other
  exact absurd lower other.not_gt

theorem left_goTo_lt {main : Main} (lower : main.left n < s.main.left n) :
    { s with main := main }.left maxQueue < s.left maxQueue :=
  Prod.mk_lt_mk_iff_left.mpr lower

theorem left_lt_of_main (inStep : s.InStep) (told : s.done = true)
    (change : Change lib maxQueue s .main s') : s'.left maxQueue < s.left maxQueue := by
  cases change with
  | untold _ untold => simp [told] at untold
  | creates k hpc more =>
    have absent := (inStep.created ⟨k, more⟩).mpr (by simp [hpc, Main.created])
    have at_0 : (s.workers ⟨k, more⟩).pc = .notCreated := WorkerThread.Pc.eq_notCreated absent
    -- the new worker has less to do than one that is not there yet
    have made : (s.createWorker ⟨k, more⟩).left maxQueue ≤ s.left maxQueue :=
      left_setWorker_le (le_of_lt (by simp [WorkerThread.left, at_0]))
    refine (left_goTo_lt ?_).trans_le made
    simp only [createWorker, setWorker_main, hpc, Main.left]
    omega
  | allCreated k hpc all | joins k hpc more exited | allJoined k hpc all =>
    refine left_goTo_lt ?_
    simp only [hpc, Main.left]
    omega
  | told hpc | wakes hpc | stopsStats hpc | deletesStats hpc | deletesApp hpc =>
    refine left_goTo_lt ?_
    simp [hpc, Main.left]

theorem done_of_change (change : Change lib maxQueue s action s') (told : s.done = true) :
    s'.done = true := by
  cases change with
  | sigint => rfl
  | creates | allCreated | told | untold | wakes | joins | allJoined | stopsStats | deletesStats
  | deletesApp | worker => exact told

/-- The threads of an `APNS` are no workers. -/
theorem actor_worker (i : Fin n) (action : WorkerThread.Action m) :
    (action.isThread = false ∧ (Action.worker i action).actor = some (.worker i)) ∨
      (action.isThread = true ∧
        ((∃ j sent, action = .apns (.apns (.thread j sent)) ∧
          (Action.worker i action).actor = some (.ssl i j)) ∨
        ∃ reply, action = .apns (.feedback reply) ∧
          (Action.worker i action).actor = some (.feedback i))) := by
  cases action with
  | answer | turn => exact Or.inl ⟨rfl, rfl⟩
  | apns action =>
    cases action with
    | apns action =>
      cases action with
      | thread j sent => exact Or.inr ⟨rfl, Or.inl ⟨j, sent, rfl, rfl⟩⟩
      | start | push | pushReturns | stop | setDone | join | stopReturns => exact Or.inl ⟨rfl, rfl⟩
    | feedback reply => exact Or.inr ⟨rfl, Or.inr ⟨reply, rfl, rfl⟩⟩
    | startFeedback | joinFeedback => exact Or.inl ⟨rfl, rfl⟩

theorem left_le_of_change (reachable : Reachable lib maxQueue enableFeedback s)
    (told : s.done = true) (change : Change lib maxQueue s action s') :
    s'.left maxQueue ≤ s.left maxQueue := by
  cases action with
  | sigint =>
    cases change
    exact le_refl _
  | main => exact (left_lt_of_main (inStep_of_reachable reachable) told change).le
  | worker i action =>
    cases change with
    | worker i action t moves =>
      have inv := inv_of_reachable reachable i
      rw [told] at moves
      rcases actor_worker i action with ⟨own, _⟩ | ⟨thread, _⟩
      · exact left_setWorker_le (WorkerThread.left_lt_of_own inv moves own).le
      · exact left_setWorker_le (WorkerThread.left_of_thread inv moves thread).1

/-! ### Who is able to move -/

/-- A thread whose next step brings the main thread nearer to its return. -/
def Helps (s : App n m) : Actor n m → Prop
  | .main => s.mainStep.isSome = true
  | .worker i => (s.workers i).Ready
  | .ssl i j => (s.workers i).apns.SslReady j
  | .feedback i => (s.workers i).apns.FeedbackReady

theorem left_lt_of_helps (reachable : Reachable lib maxQueue enableFeedback s) (told : s.done = true)
    (change : Change lib maxQueue s action s') {a : Actor n m} (moves : action.actor = some a)
    (helps : s.Helps a) : s'.left maxQueue < s.left maxQueue := by
  cases action with
  | sigint => cases moves
  | main => exact left_lt_of_main (inStep_of_reachable reachable) told change
  | worker i action =>
    cases change with
    | worker i action t change =>
      have inv := inv_of_reachable reachable i
      rw [told] at change
      -- of an APNS thread the step counts only because it was told to stop
      refine left_setWorker_lt ?_
      rcases actor_worker i action with ⟨own, _⟩ | ⟨thread, ⟨j, _, _, ssl⟩ | ⟨_, _, feedback⟩⟩
      · exact WorkerThread.left_lt_of_own inv change own
      · obtain rfl := Option.some.inj (ssl.symm.trans moves)
        exact (WorkerThread.left_of_thread inv change thread).2 helps.1
      · obtain rfl := Option.some.inj (feedback.symm.trans moves)
        exact (WorkerThread.left_of_thread inv change thread).2 helps.1

theorem isSome_mainStep (s : App n m) : s.mainStep.isSome = true ↔ s.main ≠ .returned ∧
    ∀ k (more : k < n), s.main = .joining k → (s.workers ⟨k, more⟩).pc.phase = 9 := by
  unfold mainStep
  cases hpc : s.main with
  | starting k => by_cases more : k < n <;> simp [more]
  | isDone => cases s.done <;> simp
  | joining k =>
    by_cases more : k < n
    · constructor
      · intro able
        refine ⟨by simp, fun k' less same => ?_⟩
        obtain rfl := Main.joining.inj same
        simpa [more] using able
      · rintro ⟨_, exited⟩
        simp [more, exited k more rfl]
    · simp only [more, dite_false, Option.isSome_some, true_iff]
      exact ⟨by simp, fun k' less same => absurd (Main.joining.inj same ▸ less) more⟩
  | sleeping | stopStats | deleteStats | deleteApp | returned => simp

/-- Until the main thread has returned, it or a thread it waits for can move. -/
theorem exists_helps (reachable : Reachable lib maxQueue enableFeedback s)
    (notYet : s.main ≠ .returned) : ∃ a : Actor n m, s.Helps a := by
  by_cases able : s.mainStep.isSome = true
  · exact ⟨.main, able⟩
  -- it waits for a worker that has not exited
  · obtain ⟨k, more, hpc, inside⟩ : ∃ k, ∃ more : k < n, s.main = .joining k ∧
        (s.workers ⟨k, more⟩).pc.phase ≠ 9 := by
      simpa [isSome_mainStep, notYet] using able
    have made : (s.workers ⟨k, more⟩).pc.phase ≠ 0 := by
      have created := (inStep_of_reachable reachable).created ⟨k, more⟩
      simp only [hpc, Main.created] at created
      omega
    have inv := inv_of_reachable reachable ⟨k, more⟩
    rcases WorkerThread.exists_ready inv made inside with ready | ⟨j, ready⟩ | ready
    · exact ⟨.worker ⟨k, more⟩, ready⟩
    · exact ⟨.ssl ⟨k, more⟩ j, ready⟩
    · exact ⟨.feedback ⟨k, more⟩, ready⟩

theorem enabled_worker {i : Fin n} {action : WorkerThread.Action m} {a : Actor n m}
    (actor : (Action.worker i action).actor = some a)
    (able : (WorkerThread.step lib maxQueue s.done (s.workers i) action).isSome = true) :
    Enabled (Acts lib maxQueue) Action.actor s a := by
  obtain ⟨t, moved⟩ := Option.isSome_iff_exists.mp able
  exact ⟨.worker i action, s.setWorker i t, actor, Option.map_eq_some_iff.mpr ⟨t, moved, rfl⟩⟩

theorem enabled_of_helps (reachable : Reachable lib maxQueue enableFeedback s) {a : Actor n m}
    (helps : s.Helps a) : Enabled (Acts lib maxQueue) Action.actor s a := by
  cases a with
  | main =>
    obtain ⟨s', stepped⟩ := Option.isSome_iff_exists.mp helps
    exact ⟨.main, s', rfl, stepped⟩
  | worker i =>
    obtain ⟨action, own, able⟩ :=
      WorkerThread.exists_own_of_ready lib s.done (inv_of_reachable reachable i) helps
    rcases actor_worker i action with ⟨_, actor⟩ | ⟨thread, _⟩
    · exact enabled_worker actor able
    · simp [own] at thread
  | ssl i j => exact enabled_worker rfl (WorkerThread.isSome_of_sslReady lib maxQueue s.done helps)
  | feedback i =>
    exact enabled_worker rfl
      (WorkerThread.isSome_of_feedbackReady lib s.done (inv_of_reachable reachable i) helps)

/-- What happens to one worker thread: it is created, it or its threads move, or nothing. -/
theorem worker_of_change (change : Change lib maxQueue s action s') (i : Fin n) :
    s'.workers i = s.workers i ∨
      s'.workers i = { s.workers i with pc := .constructing Worker.create } ∨
      ∃ moved, action = .worker i moved ∧
        WorkerThread.Change lib maxQueue s.done (s.workers i) moved (s'.workers i) := by
  cases change with
  | creates k hpc more =>
    by_cases same : i = ⟨k, more⟩
    · subst same
      exact Or.inr (Or.inl (setWorker_self _ _))
    · exact Or.inl (setWorker_of_ne same _)
  | worker j moved t moves =>
    by_cases same : i = j
    · subst same
      exact Or.inr (Or.inr ⟨moved, rfl, by simpa using moves⟩)
    · exact Or.inl (setWorker_of_ne same _)
  | sigint | allCreated | told | untold | wakes | joins | allJoined | stopsStats | deletesStats
  | deletesApp => exact Or.inl rfl

/-- Nobody can take the step of a thread that helps. -/
theorem helps_of_change (reachable : Reachable lib maxQueue enableFeedback s)
    (change : Change lib maxQueue s action s') {a : Actor n m} (helps : s.Helps a)
    (other : action.actor ≠ some a) : s'.Helps a := by
  cases a with
  | main =>
    have able := (isSome_mainStep s).mp helps
    refine (isSome_mainStep s').mpr ?_
    cases change with
    | sigint => exact able
    | worker i action t moves =>
      refine ⟨able.1, fun k more hpc => ?_⟩
      -- a worker that can be joined stays so
      have exited := able.2 k more hpc
      by_cases same : (⟨k, more⟩ : Fin n) = i
      · subst same
        have stays := moves.phase_le
        simp only [setWorker_self]
        omega
      · simpa [same] using exited
    | creates | allCreated | told | untold | wakes | joins | allJoined | stopsStats | deletesStats
    | deletesApp => exact absurd rfl other
  | worker i =>
    simp only [Helps] at helps ⊢
    rcases worker_of_change change i with same | made | ⟨moved, rfl, moves⟩
    · exact same ▸ helps
    · rw [made]
      exact trivial
    -- only its own threads can move in a worker that does not itself
    · rcases actor_worker i moved with ⟨_, own⟩ | ⟨thread, _⟩
      · exact absurd own other
      · exact WorkerThread.ready_of_thread moves thread helps
  | ssl i j =>
    simp only [Helps] at helps ⊢
    rcases worker_of_change change i with same | made | ⟨moved, rfl, moves⟩
    · exact same ▸ helps
    · rw [made]
      exact helps
    · refine (WorkerThread.threads_of_own (inv_of_reachable reachable i) moves).1 j ?_ helps
      rintro sent rfl
      exact other rfl
  | feedback i =>
    simp only [Helps] at helps ⊢
    rcases worker_of_change change i with same | made | ⟨moved, rfl, moves⟩
    · exact same ▸ helps
    · rw [made]
      exact helps
    · refine (WorkerThread.threads_of_own (inv_of_reachable reachable i) moves).2 ?_ helps
      rintro reply rfl
      exact other rfl

/-! ### The main thread returns -/

theorem helpful_toReturn (lib : Openframe) (maxQueue : Int) (enableFeedback : Bool) :
    Helpful (Acts lib maxQueue) Action.actor
      (fun s : App n m => Reachable lib maxQueue enableFeedback s ∧ s.done = true)
      (fun s => s.main = .returned) (left maxQueue) Helps where
  keeps _ action _ stepped holds :=
    ⟨holds.1.tail ⟨action, stepped⟩, done_of_change (change_of_step stepped) holds.2⟩
  someone _ holds notYet := exists_helps holds.1 notYet
  able _ _ holds helps := enabled_of_helps holds.1 helps
  never _ _ _ stepped holds := left_le_of_change holds.1 holds.2 (change_of_step stepped)
  lowers _ _ _ _ stepped holds moves helps :=
    left_lt_of_helps holds.1 holds.2 (change_of_step stepped) moves helps
  waits _ _ _ _ stepped holds helps other :=
    helps_of_change holds.1 (change_of_step stepped) helps other

/-- Nothing of the process runs any more. -/
structure Ended (s : App n m) : Prop where
  main : s.main = .returned
  workers : ∀ i, (s.workers i).pc.phase = 9
  ssl : ∀ i j, ((s.workers i).apns.apns.threads j).pc = .exited
  feedback : ∀ i, (s.workers i).apns.feedback.pc = .notCreated ∨
    (s.workers i).apns.feedback.pc = .exited

theorem ended_of_returned (reachable : Reachable lib maxQueue enableFeedback s)
    (returned : s.main = .returned) : s.Ended := by
  have exited (i : Fin n) : (s.workers i).pc.phase = 9 :=
    (inStep_of_reachable reachable).joined i (by simp [returned, Main.joined])
  have stopped (i : Fin n) : (s.workers i).apns.apns.stop = .returned :=
    (inv_of_reachable reachable i).late (by simp [exited i])
  refine ⟨returned, exited, fun i j => ?_, fun i => ?_⟩
  · exact APNS.exited_of_returned (inv_of_reachable reachable i).apns.apns (stopped i) j
  · have inv := (inv_of_reachable reachable i).apns
    by_cases made : (s.workers i).apns.feedback.pc = .notCreated
    · exact Or.inl made
    · exact Or.inr (inv.joined made (inv.returned (stopped i)))

theorem reachable_states {run : Endless (Acts (n := n) (m := m) lib maxQueue)}
    (start : run.states 0 = initial n m enableFeedback) (k : Nat) :
    Reachable lib maxQueue enableFeedback (run.states k) := by
  have reaches := run.reaches k
  rwa [start] at reaches

/-- In every endless run of the process that is fair to its threads, the main thread
returns once SIGINT has come, and then every other thread has ended too. -/
theorem returns_after_sigint (lib : Openframe) (maxQueue : Int) (enableFeedback : Bool)
    (run : Endless (Acts (n := n) (m := m) lib maxQueue))
    (start : run.states 0 = initial n m enableFeedback) (fair : run.Fair Action.actor) (k : Nat)
    (sigint : (run.states k).done = true) : ∃ k', k ≤ k' ∧ (run.states k').Ended := by
  have reachable := reachable_states start
  obtain ⟨k', later, returned⟩ :=
    (helpful_toReturn lib maxQueue enableFeedback).reaches run fair k ⟨reachable k, sigint⟩
  exact ⟨k', later, ended_of_returned (reachable k') returned⟩

/-- Where everything has ended nobody can move. -/
theorem not_enabled_of_ended (ended : s.Ended) (a : Actor n m) :
    ¬ Enabled (Acts lib maxQueue) Action.actor s a := by
  rintro ⟨action, s', actor, stepped⟩
  cases change_of_step stepped with
  | sigint => cases actor
  | worker i action t change =>
    have nine := ended.workers i
    cases change with
    | apns action performs apns moved =>
      rcases WorkerThread.performed performs with thread | ⟨_, two⟩ | ⟨_, five⟩
      · cases action with
        | apns action =>
          obtain ⟨_, apns, within, rfl⟩ := APNS.WithFeedback.apns_of_step moved
          cases action with
          | thread j sent => simp [APNS.step, APNS.SslThread.step, ended.ssl i j] at within
          | push | pushReturns | start | stop | setDone | join | stopReturns => cases thread
        | feedback reply =>
          rcases ended.feedback i with absent | exited
          · simp [APNS.WithFeedback.step, APNS.FeedbackThread.step, absent] at moved
          · simp [APNS.WithFeedback.step, APNS.FeedbackThread.step, exited] at moved
        | startFeedback | joinFeedback => cases thread
      · simp [nine] at two
      · simp [nine] at five
    | constructs hpc | constructed hpc | started hpc | leaves hpc | runs hpc | calls hpc | returns hpc
    | wakes hpc | destroys hpc | stopped hpc | deletesApns hpc | deletesStore hpc | deletesStomp hpc =>
      simp [hpc, WorkerThread.Pc.phase] at nine
  | creates _ hpc | allCreated _ hpc | told hpc | untold hpc | wakes hpc | joins _ hpc | allJoined _ hpc
  | stopsStats hpc | deletesStats hpc | deletesApp hpc => simp [ended.main] at hpc

/-- SIGINT may come again and changes nothing. -/
theorem step_sigint (told : s.done = true) : step lib maxQueue s .sigint = some s := by
  cases s
  cases told
  rfl

/-! ### One run -/

def workerAction (action : WorkerThread.Action 1) : Action 1 1 := .worker (Fin.last 0) action

def clockReadings (times : Nat) : List (Action 1 1) :=
  List.replicate times (workerAction (.answer ⟨.time, (1000 : Int)⟩))

/-- A worker is made and finds no broker; SIGINT comes while it sleeps. -/
def interruptedRun : List (Action 1 1) :=
  [.main] ++ clockReadings 8 ++
    [workerAction .turn, workerAction (.apns (.apns .start)), workerAction (.apns .startFeedback),
      .main, .main, workerAction .turn, workerAction .turn] ++ clockReadings 4 ++
    [workerAction (.answer ⟨.subscribe Worker.kDefaultStompDestNotifyMessages (lit "1"), false⟩),
      workerAction .turn, .sigint, workerAction .turn, workerAction .turn, workerAction .turn]

/-- It is destroyed and joined. -/
def destructionRun : List (Action 1 1) :=
  [workerAction (.apns (.apns .stop)), .main, .main, workerAction (.apns (.apns .setDone)),
    workerAction (.apns (.apns (.thread (Fin.last 0) 0))), workerAction (.apns (.feedback none)),
    workerAction (.apns (.apns (.join (Fin.last 0)))), workerAction (.apns .joinFeedback),
    workerAction (.apns (.apns .stopReturns)), workerAction .turn, workerAction .turn,
    workerAction .turn, workerAction .turn, .main, .main, .main, .main, .main]

theorem returns_after_sigint_interrupted : ∃ run : Endless (Acts (n := 1) (m := 1) .textual 100),
    run.states 0 = initial 1 1 true ∧ run.Fair Action.actor ∧
      (run.states interruptedRun.length).done = true ∧
      ∃ k', interruptedRun.length ≤ k' ∧ (run.states k').Ended := by
  obtain ⟨s, played, returned, done⟩ : ∃ s : App 1 1,
      playAll (step .textual 100) (interruptedRun ++ destructionRun) (initial 1 1 true) = some s ∧
        s.main = .returned ∧ s.done = true := ⟨_, rfl, rfl, rfl⟩
  have ended := ended_of_returned (reachable_of_playAll played) returned
  have idle : step .textual 100 s .sigint = some s := step_sigint done
  have fair := fair_atRest played idle (not_enabled_of_ended ended)
  have told : ((atRest played idle).states interruptedRun.length).done = true := rfl
  exact ⟨atRest played idle, rfl, fair, told,
    returns_after_sigint .textual 100 true (atRest played idle) rfl fair interruptedRun.length told⟩

end ApnsPusher.App
