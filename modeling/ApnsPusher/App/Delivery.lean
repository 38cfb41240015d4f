import ApnsPusher.App
import ApnsPusher.APNS.Dispatch

/-!
# From the broker to the push controllers

What the workers of a running application have called is the beginning of a run of
their program, and what their messages asked for is with one push controller each, or
still queued.
-/
namespace ApnsPusher

open Effects Dispatch Worker

/-! ### What one `APNS` has handed over -/

namespace APNS

variable {n : Nat} {maxQueue : Int} {s : APNS n}

/-- What has left the queue is an initial part of what was pushed, and each message of
it is with one thread. -/
structure HandedOver (s : APNS n) (handed : List Message) : Prop where
  split : s.pushed = handed ++ s.messageQ
  once : ∀ msg ∈ handed, ∃! j, msg ∈ (s.threads j).taken
  waiting : ∀ msg ∈ s.messageQ, ∀ j, msg ∉ (s.threads j).taken
  ordered : ∀ j, (s.threads j).taken.Sublist handed

theorem handedOver_of_reachable (reachable : Reachable maxQueue s) :
    ∃ handed, HandedOver s handed := by
  have run := fifo_of_reachable reachable
  have counted := Fifo.counted_of_run run
  have ordered := Fifo.ordered_of_run run
  have once := pushed_nodup reachable
  obtain ⟨handed, split⟩ := Fifo.suffix_of_run run
  have split : handed ++ s.messageQ = s.pushed := split
  refine ⟨handed, split.symm, fun msg member => ?_, fun msg waits j => ?_, fun j => ?_⟩
  · have pushed : msg ∈ s.fifo.pushed := by
      show msg ∈ s.pushed
      rw [← split]
      exact List.mem_append_left _ member
    have gone : msg ∉ s.fifo.queue := by
      intro waits
      rw [← split] at once
      exact (List.nodup_append.mp once).2.2 msg member msg waits rfl
    exact counted.existsUnique_taken once pushed gone
  · exact counted.not_taken once waits j
  -- what a thread has taken came before all that waits
  · have whole : ((s.threads j).taken ++ s.messageQ).Sublist s.pushed := ordered j
    rw [← split] at whole
    exact (List.append_sublist_append_right _).mp whole

/-- Between two turns of its fill loop a thread has nothing in its hand. -/
theorem taken_of_exited {i : Fin n} (exited : (s.threads i).pc = .exited) :
    (s.threads i).taken = (s.threads i).added := by
  simp [SslThread.taken, SslThread.hand, exited]

end APNS

/-! ### What one worker thread has called -/

namespace WorkerThread

variable {m : Nat} {lib : Openframe} {t : WorkerThread m}

/-- What a thread has called so far is how some run of its program begins. -/
theorem Ran.begins (ran : t.Ran lib) :
    ∃ k rest w, Prog.Runs (create >>= calls lib k) (t.trace ++ rest) w := by
  unfold Ran at ran
  split at ran
  next =>
    obtain ⟨rest, w, made⟩ := (Prog.Reaches.refl create).complete
    rw [ran.1]
    exact ⟨0, rest, w, runs_create_zero made⟩
  next =>
    obtain ⟨rest, w, made⟩ := ran.1.complete
    exact ⟨0, rest, w, runs_create_zero made⟩
  next =>
    -- the call of `run` under way is completed by any answers
    obtain ⟨w, before, now, whole, done, reached⟩ := ran
    obtain ⟨rest, ⟨didWork, w'⟩, last⟩ := reached.complete
    have runs := runs_create_succ done last
    rw [← List.append_assoc, ← whole] at runs
    exact ⟨_, rest, w', runs⟩
  next => exact ⟨t.turns, [], _, by simpa using ran⟩
  next => exact ⟨t.turns, [], _, by simpa using ran⟩
  next => exact ⟨t.turns, [], _, by simpa using ran⟩
  next =>
    obtain ⟨w, whole⟩ := ran
    exact ⟨t.turns, [], w, by simpa using whole⟩

/-- A thread that has left its loop has left it between two calls of `run`. -/
theorem Ran.whole (ran : t.Ran lib) (late : 4 ≤ t.pc.phase) :
    ∃ w, Prog.Runs (create >>= calls lib t.turns) t.trace w := by
  unfold Ran at ran
  cases hpc : t.pc with
  | notCreated | constructing | starting | isDone | running | sleeping =>
    simp [hpc, Pc.phase] at late
  | destroyStats | stopping | deleteApns | deleteStore | deleteStomp | exited =>
    simpa only [hpc] using ran

/-- The session of a new worker. -/
theorem follows_of_runs {k : Nat} {tr : Trace} {w : Worker}
    (runs : Prog.Runs (create >>= calls lib k) tr w) :
    Follows Session.Step .down tr (sessionOf w) := by
  obtain ⟨fresh, front, back, rfl, made, more⟩ := (Prog.runs_bind _ _ _ _).mp runs
  obtain ⟨statistics, down⟩ := made.post create_post
  have start : sessionOf fresh = .down := by simp [sessionOf, down]
  have follows := follows_of_calls more
  rw [start] at follows
  exact (follows_statistics .down statistics).append follows

/-- What a worker thread owes. -/
structure Account (lib : Openframe) (t : WorkerThread m) (handed : List Message) : Prop where
  /-- Its session with the broker keeps the discipline so far. -/
  session : ∃ state, Follows Session.Step .down t.trace state
  /-- Its messages asked for what was queued, in that order. -/
  asked : t.apns.apns.pushed.map Message.message = notifications t.trace
  /-- What has left the queue is with one SSL thread each. -/
  handedOver : APNS.HandedOver t.apns.apns handed
  /-- When it has gone, it holds no frame and breaks no call of `run` off, and what has
  left the queue is with one push controller each. -/
  gone : 6 ≤ t.pc.phase → (∃ w, Prog.Runs (create >>= calls lib t.turns) t.trace w ∧
    Follows Session.Step .down t.trace (sessionOf w)) ∧
      ∀ j, (t.apns.apns.threads j).taken = (t.apns.apns.threads j).added

end WorkerThread

namespace App

variable {n m : Nat} {lib : Openframe} {maxQueue : Int} {enableFeedback : Bool} {s : App n m}

theorem ran_of_reachable (reachable : Reachable lib maxQueue enableFeedback s) (i : Fin n) :
    (s.workers i).Ran lib :=
  reachable.workers (WorkerThread.Ran lib) ⟨rfl, rfl⟩
    (fun t absent ran => by
      have hpc := WorkerThread.Pc.eq_notCreated absent
      simp only [WorkerThread.Ran, hpc] at ran
      refine ⟨?_, ran.2⟩
      show Prog.Reaches Worker.create t.trace Worker.create
      rw [ran.1]
      exact .refl _)
    (fun _ _ _ _ change ran => ran.change change) i

theorem queued_of_reachable (reachable : Reachable lib maxQueue enableFeedback s) (i : Fin n) :
    (s.workers i).Queued :=
  reachable.workers WorkerThread.Queued ⟨rfl, rfl⟩ (fun _ _ queued => ⟨queued.1, queued.2⟩)
    (fun _ _ _ _ change queued => queued.change change) i

/-- In every reachable state of the application every worker thread can account for
its frames and its notifications. What it queued and no thread took before it left
stays in the queue. -/
theorem workers_account (lib : Openframe) (maxQueue : Int) (enableFeedback : Bool) (s : App n m)
    (reachable : Reachable lib maxQueue enableFeedback s) (i : Fin n) :
    ∃ handed, (s.workers i).Account lib handed := by
  have inv := inv_of_reachable reachable i
  have ran := ran_of_reachable reachable i
  obtain ⟨handed, handedOver⟩ := APNS.handedOver_of_reachable inv.apns.apns
  refine ⟨handed, ?_, (queued_of_reachable reachable i).asked, handedOver, fun late => ⟨?_, ?_⟩⟩
  · obtain ⟨k, rest, w, runs⟩ := ran.begins
    obtain ⟨state, before, _⟩ := (WorkerThread.follows_of_runs runs).of_append
    exact ⟨state, before⟩
  · obtain ⟨w, whole⟩ := ran.whole (by omega)
    exact ⟨w, whole, WorkerThread.follows_of_runs whole⟩
  · exact fun j => APNS.taken_of_exited (APNS.exited_of_returned inv.apns.apns (inv.late late) j)

/-! ### Two messages, one of them lost -/

def workerAnswers (tr : Trace) : List (Action 1 1) :=
  tr.map fun event => .worker (Fin.last 0) (.answer event)

def workerTurn : Action 1 1 := .worker (Fin.last 0) .turn

def apnsAction (action : APNS.Action 1) : Action 1 1 := .worker (Fin.last 0) (.apns (.apns action))

/-- Steps of the only SSL thread. -/
def sslSteps (count : Nat) : List (Action 1 1) :=
  List.replicate count (apnsAction (.thread (Fin.last 0) 0))

def createdWorker : Trace × Worker := Prog.play brokerScript.answers 0 Worker.create

def brokerRun (w : Worker) : Trace × (Bool × Worker) :=
  Prog.play brokerScript.answers 0 (Worker.run .textual w)

/-- The worker is made, its `APNS` is started and `run` is called. -/
def workerStarted : List (Action 1 1) :=
  [.main] ++ workerAnswers createdWorker.1 ++
    [workerTurn, apnsAction .start, workerTurn, workerTurn]

/-- A controller with room for one message takes the first; SIGINT comes when the
second is queued. -/
def lostSecond : List (Action 1 1) :=
  workerStarted ++ workerAnswers (brokerRun createdWorker.2).1 ++ [workerTurn] ++ sslSteps 4 ++
    [workerTurn] ++ workerAnswers (brokerRun (brokerRun createdWorker.2).2.2).1 ++
    [workerTurn, .sigint, workerTurn, workerTurn, apnsAction .stop, apnsAction .setDone] ++
    sslSteps 4 ++ [apnsAction (.join (Fin.last 0)), apnsAction .stopReturns, workerTurn]

theorem workers_account_lostSecond : ∃ s : App 1 1,
    playAll (step .textual 1) lostSecond (initial 1 1 false) = some s ∧
      ((s.workers 0).apns.apns.threads 0).added.length = 1 ∧
      (s.workers 0).apns.apns.messageQ.length = 1 ∧ (s.workers 0).pc.phase = 6 ∧
      ∃ handed, (s.workers 0).Account .textual handed := by
  obtain ⟨s, played, handed, lost, gone⟩ : ∃ s : App 1 1,
      playAll (step .textual 1) lostSecond (initial 1 1 false) = some s ∧
        ((s.workers 0).apns.apns.threads 0).added.length = 1 ∧
        (s.workers 0).apns.apns.messageQ.length = 1 ∧ (s.workers 0).pc.phase = 6 :=
    ⟨_, rfl, rfl, rfl, rfl⟩
  exact ⟨s, played, handed, lost, gone,
    workers_account .textual 1 false s (reachable_of_playAll played) 0⟩

end App
end ApnsPusher
