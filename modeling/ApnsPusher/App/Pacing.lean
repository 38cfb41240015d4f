import ApnsPusher.App.Delivery
import ApnsPusher.App.Shutdown
import ApnsPusher.Worker.Reports

/-!
# Pacing

A call of `run` that does no work is followed by `sleep(2)`. With it a worker that
finds no broker, or loses it, tries again at most once for each sleep. What a worker
reports, it reports in time.
-/
namespace ApnsPusher

open Effects Worker

namespace WorkerThread

/-- A call of `run` with this answer returns false. -/
def isIdle : Event Call Answer → Bool
  | ⟨.subscribe _ _, ok⟩ => !ok
  | ⟨.nextFrame, .none⟩ | ⟨.nextFrame, .raised _⟩ => true
  | _ => false

def Deed.isIdle : Deed → Bool
  | .called event => WorkerThread.isIdle event
  | .slept => false

def Deed.isSlept : Deed → Bool
  | .slept => true
  | .called _ => false

/-- An attempt to subscribe. -/
def Deed.isAttempt : Deed → Bool
  | .called ⟨.subscribe _ _, _⟩ => true
  | _ => false

/-- Whether the worker is subscribed, and whether it has still to sleep. -/
structure Pace where
  connected : Bool
  resting : Bool

inductive Pace.Step : Pace → Deed → Pace → Prop
  | quiet (connected : Bool) (event : Event Call Answer) (other : isConnection event.call = false) :
      Step ⟨connected, false⟩ (.called event) ⟨connected, false⟩
  | subscribed (destination id : Str) :
      Step ⟨false, false⟩ (.called ⟨.subscribe destination id, true⟩) ⟨true, false⟩
  | refused (destination id : Str) :
      Step ⟨false, false⟩ (.called ⟨.subscribe destination id, false⟩) ⟨false, true⟩
  | delivered (frame : StompFrame) :
      Step ⟨true, false⟩ (.called ⟨.nextFrame, .frame frame⟩) ⟨true, false⟩
  | noFrame : Step ⟨true, false⟩ (.called ⟨.nextFrame, .none⟩) ⟨true, true⟩
  | lost (message : Str) :
      Step ⟨true, false⟩ (.called ⟨.nextFrame, .raised message⟩) ⟨false, true⟩
  | slept (connected : Bool) : Step ⟨connected, true⟩ .slept ⟨connected, false⟩

theorem Pace.Step.rests {p p' : Pace} {d : Deed} (step : Pace.Step p d p') :
    (p'.resting = true ↔ d.isIdle = true) ∧ (p.resting = true ↔ d = .slept) := by
  cases step with
  | quiet connected event other =>
    obtain ⟨call, answer⟩ := event
    cases call <;> first | (cases other; done) | simp [Deed.isIdle, WorkerThread.isIdle]
  | subscribed | refused | delivered | noFrame | lost | slept =>
    simp [Deed.isIdle, WorkerThread.isIdle]

/-- An attempt is possible where there is no subscription and no sleep is due. -/
def Pace.attempts (p : Pace) : Nat := if p.connected || p.resting then 0 else 1

theorem Pace.Step.pays {p p' : Pace} {d : Deed} (step : Pace.Step p d p') :
    (if d.isAttempt = true then 1 else 0) + p'.attempts ≤
      (if d.isSlept = true then 1 else 0) + p.attempts := by
  cases step with
  | quiet connected event other =>
    obtain ⟨call, answer⟩ := event
    cases call <;> first | (cases other; done) | simp [Deed.isAttempt, Deed.isSlept]
  | slept connected => cases connected <;> simp [Deed.isAttempt, Deed.isSlept, Pace.attempts]
  | subscribed | refused | delivered | noFrame | lost =>
    simp [Deed.isAttempt, Deed.isSlept, Pace.attempts]

/-! ### One call of `run` -/

theorem follows_quiet (connected : Bool) {tr : Trace}
    (quiet : ∀ e ∈ tr, isConnection e.call = false) :
    Follows Pace.Step ⟨connected, false⟩ (tr.map Deed.called) ⟨connected, false⟩ := by
  refine .stays fun d member => ?_
  obtain ⟨event, logged, rfl⟩ := List.mem_map.mp member
  exact .quiet connected event (quiet event logged)

theorem follows_ofStatistics (connected : Bool) {tr : Trace} (statistics : Statistics tr) :
    Follows Pace.Step ⟨connected, false⟩ (tr.map Deed.called) ⟨connected, false⟩ :=
  follows_quiet connected fun e member => isConnection_of_isStatistics _ (statistics e member)

theorem follows_ofConnects {w : Worker} {tr : Trace} (connects : Connects w tr) :
    Follows Pace.Step ⟨w.connected, false⟩ (tr.map Deed.called) ⟨true, false⟩ := by
  cases connects with
  | already _ statistics up =>
    rw [up]
    exact follows_ofStatistics true statistics
  | subscribes _ statistics down =>
    rw [down, List.map_append]
    exact (follows_ofStatistics false statistics).append (.single (.subscribed _ _))

theorem follows_ofRun {lib : Openframe} {w : Worker} {tr : Trace} {result : Bool × Worker}
    (ran : RunTrace lib w tr result) : Follows Pace.Step ⟨w.connected, false⟩ (tr.map Deed.called)
      ⟨result.2.connected, !result.1⟩ := by
  cases ran with
  | refused tr statistics down w' stays =>
    simp only [down, stays, List.map_append]
    exact (follows_ofStatistics false statistics).append (.single (.refused _ _))
  | raised tr connects message w' lost =>
    simp only [lost, List.map_append]
    exact (follows_ofConnects connects).append (.single (.lost message))
  | idle tr connects w' up =>
    simp only [up, List.map_append]
    exact (follows_ofConnects connects).append (.single .noFrame)
  | received tr connects frame tr' processed w' up =>
    simp only [up, List.map_append, List.map_cons]
    exact (follows_ofConnects connects).append
      (.cons (.delivered frame) (follows_quiet true processed.calls))

theorem follows_ofCreate {tr : Trace} {w : Worker} (made : Prog.Runs create tr w) :
    Follows Pace.Step ⟨false, false⟩ (tr.map Deed.called) ⟨w.connected, false⟩ := by
  obtain ⟨statistics, down⟩ := made.post create_post
  rw [down]
  exact follows_ofStatistics false statistics

/-! ### The whole life of a worker thread -/

variable {m : Nat} {lib : Openframe} {maxQueue : Int} {done : Bool} {t t' : WorkerThread m}
  {action : Action m}

/-- Where the pace stands: between two calls of `run` nothing is due, and within one
the deeds so far begin those of a whole call. -/
def Pacing (lib : Openframe) (t : WorkerThread m) : Prop :=
  match t.pc with
  | .notCreated => t.deeds = []
  | .constructing p => ∃ now, t.deeds = now.map Deed.called ∧ Prog.Reaches create now p
  | .running p => ∃ (w : Worker) (before : List Deed) (now : Trace),
      t.deeds = before ++ now.map Deed.called ∧
      Follows Pace.Step ⟨false, false⟩ before ⟨w.connected, false⟩ ∧
      Prog.Reaches (Worker.run lib w) now p
  | .starting w | .isDone w => Follows Pace.Step ⟨false, false⟩ t.deeds ⟨w.connected, false⟩
  | .sleeping w => Follows Pace.Step ⟨false, false⟩ t.deeds ⟨w.connected, true⟩
  | _ => ∃ connected, Follows Pace.Step ⟨false, false⟩ t.deeds ⟨connected, false⟩

theorem Pacing.change (pacing : t.Pacing lib) (change : Change lib maxQueue done t action t') :
    t'.Pacing lib := by
  unfold Pacing at pacing
  cases change with
  | constructs hpc r =>
    simp only [hpc] at pacing
    obtain ⟨now, whole, reached⟩ := pacing
    exact ⟨now ++ [⟨_, r⟩], by simp [carryOut, whole], reached.snoc r⟩
  | constructed hpc =>
    simp only [hpc] at pacing
    obtain ⟨now, whole, reached⟩ := pacing
    have follows := follows_ofCreate (runs_of_reaches reached)
    rw [← whole] at follows
    exact follows
  | started hpc =>
    simp only [hpc] at pacing
    exact pacing
  | leaves hpc =>
    simp only [hpc] at pacing
    exact ⟨_, pacing⟩
  | runs hpc =>
    simp only [hpc] at pacing
    exact ⟨_, t.deeds, [], (List.append_nil _).symm, pacing, .refl _⟩
  | calls hpc r =>
    simp only [hpc] at pacing
    obtain ⟨w, before, now, whole, follows, reached⟩ := pacing
    exact ⟨w, before, now ++ [⟨_, r⟩], by simp [carryOut, whole], follows, reached.snoc r⟩
  | @returns didWork w' hpc =>
    simp only [hpc] at pacing
    obtain ⟨w, before, now, whole, follows, reached⟩ := pacing
    have last := follows_ofRun ((runs_of_reaches reached).post (run_post lib w))
    have follows := follows.append last
    rw [← whole] at follows
    -- whether a sleep is due is what the call of `run` has returned
    cases didWork <;> exact follows
  | wakes hpc =>
    simp only [hpc] at pacing
    exact pacing.append (.single (.slept _))
  | destroys hpc | stopped hpc | deletesApns hpc | deletesStore hpc | deletesStomp hpc =>
    simp only [hpc] at pacing
    exact pacing
  | apns => exact pacing

/-- Where `now` begins a run that keeps a pace, so does what has been done before it. -/
theorem Pacing.follows (pacing : t.Pacing lib) :
    ∃ pace, Follows Pace.Step ⟨false, false⟩ t.deeds pace := by
  unfold Pacing at pacing
  split at pacing
  next =>
    rw [pacing]
    exact ⟨_, .nil _⟩
  next =>
    obtain ⟨now, whole, reached⟩ := pacing
    obtain ⟨rest, w, made⟩ := reached.complete
    have follows := follows_ofCreate made
    rw [List.map_append, ← whole] at follows
    obtain ⟨pace, before, _⟩ := follows.of_append
    exact ⟨pace, before⟩
  next =>
    obtain ⟨w, before, now, whole, follows, reached⟩ := pacing
    -- the call that is under way could be completed somehow
    obtain ⟨rest, result, last⟩ := reached.complete
    have follows := follows.append (follows_ofRun (last.post (run_post lib w)))
    rw [List.map_append, ← List.append_assoc, ← whole] at follows
    obtain ⟨pace, before, _⟩ := follows.of_append
    exact ⟨pace, before⟩
  next => exact ⟨_, pacing⟩
  next => exact ⟨_, pacing⟩
  next => exact ⟨_, pacing⟩
  next =>
    obtain ⟨connected, follows⟩ := pacing
    exact ⟨_, follows⟩

/-- How a worker thread spaces its attempts. -/
structure Paced (deeds : List Deed) : Prop where
  /-- It sleeps right after a call of `run` that did no work, and at no other time. -/
  sleeps : ∀ front d d' rest, deeds = front ++ d :: d' :: rest → (d' = .slept ↔ d.isIdle = true)
  /-- In any stretch of time it tries to subscribe at most once more than it sleeps. -/
  attempts : ∀ stretch, stretch <:+: deeds →
    stretch.countP Deed.isAttempt ≤ stretch.countP Deed.isSlept + 1

theorem paced_of_follows {deeds : List Deed} {p p' : Pace}
    (follows : Follows Pace.Step p deeds p') : Paced deeds where
  sleeps := by
    rintro front d d' rest rfl
    obtain ⟨mid, _, more⟩ := follows.of_append
    cases more with
    | cons first more =>
      cases more with
      | cons second _ => exact second.rests.2.symm.trans first.rests.1
  attempts := by
    rintro stretch ⟨front, back, rfl⟩
    obtain ⟨_, upTo, _⟩ := follows.of_append
    obtain ⟨pace, _, within⟩ := upTo.of_append
    -- every attempt leaves something due that only a sleep or a connection settles
    have paid := within.countP_le_paid Pace.attempts Deed.isAttempt Deed.isSlept
      fun _ _ _ step => step.pays
    have once : pace.attempts ≤ 1 := by
      unfold Pace.attempts
      split <;> omega
    omega

end WorkerThread

namespace App

variable {n m : Nat} {lib : Openframe} {maxQueue : Int} {enableFeedback : Bool} {s : App n m}

theorem pacing_of_reachable (reachable : Reachable lib maxQueue enableFeedback s) (i : Fin n) :
    (s.workers i).Pacing lib :=
  reachable.workers (WorkerThread.Pacing lib) rfl
    (fun t absent pacing => by
      have hpc := WorkerThread.Pc.eq_notCreated absent
      simp only [WorkerThread.Pacing, hpc] at pacing
      exact ⟨[], pacing, .refl _⟩)
    (fun _ _ _ _ change pacing => pacing.change change) i

/-- Every worker thread of the application keeps its pace, whatever the broker does. -/
theorem workers_paced (lib : Openframe) (maxQueue : Int) (enableFeedback : Bool) (s : App n m)
    (reachable : Reachable lib maxQueue enableFeedback s) (i : Fin n) :
    WorkerThread.Paced (s.workers i).deeds := by
  obtain ⟨_, follows⟩ := (pacing_of_reachable reachable i).follows
  exact WorkerThread.paced_of_follows follows

theorem workers_paced_interrupted : ∃ s : App 1 1,
    playAll (step .textual 100) interruptedRun (initial 1 1 true) = some s ∧
      (s.workers 0).deeds.countP WorkerThread.Deed.isAttempt = 1 ∧
      WorkerThread.Paced (s.workers 0).deeds := by
  obtain ⟨s, played, once⟩ : ∃ s : App 1 1,
      playAll (step .textual 100) interruptedRun (initial 1 1 true) = some s ∧
        (s.workers 0).deeds.countP WorkerThread.Deed.isAttempt = 1 := ⟨_, rfl, rfl⟩
  exact ⟨s, played, once, workers_paced .textual 100 true s (reachable_of_playAll played) 0⟩

/-! ### The reports -/

/-- In every reachable state of the application the reports of every worker, of each
kind, are an interval apart, and none is put off. -/
theorem workers_report (lib : Openframe) (maxQueue : Int) (enableFeedback : Bool) (s : App n m)
    (reachable : Reachable lib maxQueue enableFeedback s) (i : Fin n) :
    ReportsOnTime lib (s.workers i).trace := by
  obtain ⟨k, rest, w, runs⟩ := (ran_of_reachable reachable i).begins
  exact reportsOnTime_of_calls runs

/-- A call of `run` at the given time, to which the broker has nothing to say. -/
def idleAt (clock : Int) (w : Worker) : Trace × (Bool × Worker) :=
  Prog.play { brokerScript with clock := clock, frame := .none }.answers 0 (Worker.run .textual w)

/-- The worker is made, and called one minute later, a second after that, and after
another minute. -/
def threeCalls : List (Action 1 1) :=
  let first := idleAt 1060 createdWorker.2
  let second := idleAt 1061 first.2.2
  workerStarted ++ workerAnswers first.1 ++ [workerTurn, workerTurn, workerTurn] ++
    workerAnswers second.1 ++ [workerTurn, workerTurn, workerTurn] ++
    workerAnswers (idleAt 1120 second.2.2).1

theorem workers_report_threeCalls : ∃ s : App 1 1,
    playAll (step .textual 1) threeCalls (initial 1 1 false) = some s ∧
      (s.workers 0).trace.countP isWorkerReport = 2 ∧ ReportsOnTime .textual (s.workers 0).trace := by
  obtain ⟨s, played, reports⟩ : ∃ s : App 1 1,
      playAll (step .textual 1) threeCalls (initial 1 1 false) = some s ∧
        (s.workers 0).trace.countP isWorkerReport = 2 := ⟨_, rfl, rfl⟩
  exact ⟨s, played, reports, workers_report .textual 1 false s (reachable_of_playAll played) 0⟩

end App
end ApnsPusher
