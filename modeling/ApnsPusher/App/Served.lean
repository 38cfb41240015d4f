import ApnsPusher.App.Delivery
import ApnsPusher.Effects.Abstraction

/-!
# The application over what its workers share

The calls that the workers make in `run` are answered by the shared state of a machine
whose operations are calls of `run`. Every run of the application is then a run of that
machine: the constructor, the waiting, the APNS threads and the main thread do not show.
-/
namespace ApnsPusher

open Effects Worker

structure App.Served (n m : Nat) (σ : Type) where
  app : App n m
  shared : σ
  /-- The calls made in `run`, by the worker and its turn. -/
  log : List (Entry (Fin n) Call Answer σ Unit)

namespace App.Served

variable {n m : Nat} {σ : Type} (machine : Machine (Fin n) Call Answer σ Unit Worker Bool)
  (lib : Openframe) (maxQueue : Int)

def initial (n m : Nat) (enableFeedback : Bool) (shared : σ) : Served n m σ :=
  ⟨.initial n m enableFeedback, shared, []⟩

/-- Not a call that a worker makes in `run`. The constructor's calls ask for the time only. -/
def Apart (s : App n m) : Action n m → Prop
  | .worker i (.answer _) => (s.workers i).pc.phase = 1
  | _ => True

inductive Step : Served n m σ → Served n m σ → Prop
  | alone (s : Served n m σ) (action : Action n m) (app : App n m)
      (acts : Acts lib maxQueue s.app action app) (apart : Apart s.app action) :
      Step s { s with app := app }
  | called (s : Served n m σ) (i : Fin n) (event : Event Call Answer) (app : App n m)
      (acts : Acts lib maxQueue s.app (.worker i (.answer event)) app)
      (running : (s.app.workers i).pc.phase = 3) (shared : σ)
      (served : machine.serves (i, (s.app.workers i).turns) s.shared event shared) :
      Step s ⟨app, shared, s.log ++ [⟨(i, (s.app.workers i).turns), (), event, s.shared⟩]⟩
  | drift (s : Served n m σ) (shared : σ) (drifted : machine.drifts s.shared shared) :
      Step s { s with shared := shared }

def Reachable (enableFeedback : Bool) (shared : σ) (s : Served n m σ) : Prop :=
  Relation.ReflTransGen (Step machine lib maxQueue) (initial n m enableFeedback shared) s

variable {machine lib maxQueue} {enableFeedback : Bool} {shared : σ} {s s' : Served n m σ}

theorem Step.app (step : Step machine lib maxQueue s s') :
    s'.app = s.app ∨ ∃ action, Acts lib maxQueue s.app action s'.app := by
  cases step with
  | alone action app acts => exact Or.inr ⟨action, acts⟩
  | called i event app acts => exact Or.inr ⟨_, acts⟩
  | drift => exact Or.inl rfl

/-- Without what is shared it is a run of the application. -/
theorem Reachable.app (reachable : Reachable machine lib maxQueue enableFeedback shared s) :
    App.Reachable lib maxQueue enableFeedback s.app := by
  induction reachable with
  | refl => exact .refl
  | tail _ step ih =>
    rcases step.app with same | acts
    · rw [same]
      exact ih
    · exact ih.tail acts

end App.Served

/-! ### A worker thread and a thread of the machine -/

/-- Where a thread of the machine stands when a worker thread stands here. -/
def WorkerThread.At {m : Nat} (t : WorkerThread m) (thread : Thread Call Answer Unit Worker Bool) :
    Prop :=
  thread.finished = t.turns ∧ match t.pc with
  | .notCreated | .constructing _ => t.turns = 0 ∧ thread.current = none
  | .starting w | .isDone w | .sleeping w => thread.current = none ∧ thread.state = w
  | .running p => thread.current = some ((), p)
  | _ => thread.current = none

namespace App.Served

variable {n m : Nat} {σ : Type} {machine : Machine (Fin n) Call Answer σ Unit Worker Bool}
  {lib : Openframe} {maxQueue : Int} {enableFeedback : Bool} {shared : σ} {s s' : Served n m σ}

/-- The application and the machine have called the same and stand at the same places. -/
structure Agrees (s : Served n m σ) (c : Config (Fin n) Call Answer σ Unit Worker Bool) : Prop where
  shared : c.shared = s.shared
  log : c.log = s.log
  threads : ∀ i, (s.app.workers i).At (c.threads i)

namespace Agrees

variable {c : Config (Fin n) Call Answer σ Unit Worker Bool}

/-- The worker goes on where the machine stays. -/
theorem setWorker (agrees : Agrees s c) (i : Fin n) (t : WorkerThread m) (hpc : t.At (c.threads i)) :
    Agrees { s with app := s.app.setWorker i t } c where
  shared := agrees.shared
  log := agrees.log
  threads j := by
    by_cases same : j = i
    · subst same
      simpa using hpc
    · simpa [same] using agrees.threads j

/-- Both go on, and only the named worker. -/
theorem update (agrees : Agrees s c) (i : Fin n) (t : WorkerThread m)
    (thread : Thread Call Answer Unit Worker Bool) (hpc : t.At thread) (shared : σ)
    (more : List (Entry (Fin n) Call Answer σ Unit)) (returned : List (Returned (Fin n) Unit Bool)) :
    Agrees ⟨s.app.setWorker i t, shared, s.log ++ more⟩
      ⟨shared, Function.update c.threads i thread, c.log ++ more, returned⟩ where
  shared := rfl
  log := by rw [agrees.log]
  threads j := by
    by_cases same : j = i
    · subst same
      simpa using hpc
    · simpa [same] using agrees.threads j

end Agrees

/-- Some run of the machine agrees. The workers it starts with are those that the
constructors will have made. -/
def Simulated (machine : Machine (Fin n) Call Answer σ Unit Worker Bool) (shared : σ)
    (s : Served n m σ) : Prop :=
  ∃ state c, machine.Reachable shared state c ∧ Agrees s c

/-- A step of a worker other than a call in `run`. -/
theorem Simulated.alone (prog : machine.prog = fun _ => Worker.run lib)
    (simulated : Simulated machine shared s) (i : Fin n) {action : WorkerThread.Action m}
    {done : Bool} {t : WorkerThread m}
    (change : WorkerThread.Change lib maxQueue done (s.app.workers i) action t)
    (apart : ∀ event, action = .answer event → (s.app.workers i).pc.phase = 1) :
    Simulated machine shared { s with app := s.app.setWorker i t } := by
  obtain ⟨state, c, reachable, agrees⟩ := simulated
  obtain ⟨turns, stands⟩ := agrees.threads i
  cases change with
  | calls hpc r =>
    have phase := apart _ rfl
    simp [hpc, WorkerThread.Pc.phase] at phase
  | constructs hpc r =>
    simp only [hpc] at stands
    exact ⟨state, c, reachable, agrees.setWorker i _ ⟨turns, stands⟩⟩
  | @constructed w hpc =>
    simp only [hpc] at stands
    obtain ⟨zero, idle⟩ := stands
    -- the thread has not begun, so it may have started with this worker
    have unbegun : c.Unbegun i := ⟨turns.trans zero, idle⟩
    refine ⟨_, _, reachable.restate unbegun w, ?_⟩
    have moved := agrees.update i { s.app.workers i with pc := .starting w } ⟨w, 0, none⟩
      ⟨zero.symm, rfl, rfl⟩ s.shared [] c.returned
    simpa only [Config.restate, agrees.shared, List.append_nil] using moved
  | @runs w hpc untold =>
    simp only [hpc] at stands
    obtain ⟨idle, same⟩ := stands
    have starts : machine.Step c _ := .start c i () idle
    have moved := agrees.update i { s.app.workers i with pc := .running (Worker.run lib w) }
      { c.threads i with current := some ((), machine.prog () (c.threads i).state) }
      ⟨turns, by simp only [prog, same]⟩ s.shared [] c.returned
    refine ⟨state, _, reachable.tail starts, ?_⟩
    simpa only [agrees.shared, List.append_nil] using moved
  | @returns didWork w hpc =>
    simp only [hpc] at stands
    have finishes : machine.Step c _ := .finish c i () didWork w stands
    have moved := agrees.update i { s.app.workers i with
        pc := if didWork then .isDone w else .sleeping w
        turns := (s.app.workers i).turns + 1 } ⟨w, (c.threads i).finished + 1, none⟩
      ⟨by simp only [turns], by cases didWork <;> exact ⟨rfl, rfl⟩⟩ s.shared []
      (c.returned ++ [⟨(i, (c.threads i).finished), (), didWork⟩])
    refine ⟨state, _, reachable.tail finishes, ?_⟩
    simpa only [agrees.shared, List.append_nil] using moved
  | started hpc | wakes hpc =>
    simp only [hpc] at stands
    exact ⟨state, c, reachable, agrees.setWorker i _ ⟨turns, stands⟩⟩
  | leaves hpc =>
    simp only [hpc] at stands
    exact ⟨state, c, reachable, agrees.setWorker i _ ⟨turns, stands.1⟩⟩
  | destroys hpc | stopped hpc | deletesApns hpc | deletesStore hpc | deletesStomp hpc =>
    simp only [hpc] at stands
    exact ⟨state, c, reachable, agrees.setWorker i _ ⟨turns, stands⟩⟩
  | apns => exact ⟨state, c, reachable, agrees.setWorker i _ ⟨turns, stands⟩⟩

/-- A call in `run` is a call of the machine. -/
theorem Simulated.called (simulated : Simulated machine shared s) (i : Fin n)
    {event : Event Call Answer} {done : Bool} {t : WorkerThread m}
    (change : WorkerThread.Change lib maxQueue done (s.app.workers i) (.answer event) t)
    (running : (s.app.workers i).pc.phase = 3) (shared' : σ)
    (served : machine.serves (i, (s.app.workers i).turns) s.shared event shared') :
    Simulated machine shared ⟨s.app.setWorker i t, shared',
      s.log ++ [⟨(i, (s.app.workers i).turns), (), event, s.shared⟩]⟩ := by
  obtain ⟨state, c, reachable, agrees⟩ := simulated
  obtain ⟨turns, stands⟩ := agrees.threads i
  cases change with
  | constructs hpc r => simp [hpc, WorkerThread.Pc.phase] at running
  | @calls e next hpc r =>
    simp only [hpc] at stands
    -- the machine stands at the same call, over the same shared state
    have calls : machine.Step c _ := .call c i () e next r shared' stands
      (by rwa [turns, agrees.shared])
    refine ⟨state, _, reachable.tail calls, ?_⟩
    rw [turns, agrees.shared]
    exact agrees.update i ((s.app.workers i).carryOut ⟨e, r⟩ (.running (next r)))
      { c.threads i with current := some ((), next r) } ⟨turns, rfl⟩ shared' _ c.returned

/-- Every run of the application is a run of the machine. -/
theorem Reachable.simulated (prog : machine.prog = fun _ => Worker.run lib)
    (reachable : Reachable machine lib maxQueue enableFeedback shared s) :
    Simulated machine shared s := by
  induction reachable with
  | refl =>
    -- any worker will do for the threads that are not there yet
    obtain ⟨_, w, _⟩ := (Prog.Reaches.refl Worker.create).complete
    exact ⟨fun _ => w, .initial shared fun _ => w, .refl, rfl, rfl, fun i => ⟨rfl, rfl, rfl⟩⟩
  | @tail s _ before step simulated =>
    cases step with
    | alone action app acts apart =>
      have inStep := inStep_of_reachable (Reachable.app before)
      cases change_of_step acts with
      | worker i action t change =>
        refine simulated.alone prog i change ?_
        rintro event rfl
        exact apart
      | creates k hpc more =>
        obtain ⟨state, c, reachable, agrees⟩ := simulated
        -- a worker that is created now had not been before
        have absent := (inStep.created ⟨k, more⟩).mpr (by simp [hpc, Main.created])
        obtain ⟨turns, stands⟩ := agrees.threads ⟨k, more⟩
        simp only [WorkerThread.Pc.eq_notCreated absent] at stands
        have stays := agrees.setWorker ⟨k, more⟩
          { s.app.workers ⟨k, more⟩ with pc := .constructing Worker.create } ⟨turns, stands⟩
        exact ⟨state, c, reachable, stays.shared, stays.log, stays.threads⟩
      | sigint | allCreated | told | untold | wakes | joins | allJoined | stopsStats | deletesStats
      | deletesApp =>
        obtain ⟨state, c, reachable, agrees⟩ := simulated
        exact ⟨state, c, reachable, agrees.shared, agrees.log, agrees.threads⟩
    | called i event app acts running shared' served =>
      cases change_of_step acts with
      | worker i _ t change => exact simulated.called i change running shared' served
    | drift shared' drifted =>
      obtain ⟨state, c, reachable, agrees⟩ := simulated
      exact ⟨state, _, reachable.tail (.drift c shared' (agrees.shared ▸ drifted)), rfl, agrees.log,
        agrees.threads⟩

/-! ### What a worker thread has called is in the log -/

/-- The part of one worker in the log. -/
def logOf (log : List (Entry (Fin n) Call Answer σ Unit)) (i : Fin n) : Trace :=
  (log.filter fun entry => entry.id.1 = i).map Entry.event

/-- A worker has made the calls of its constructor, and then its part of the log. -/
structure Told (s : Served n m σ) (i : Fin n) : Prop where
  early : (s.app.workers i).pc.phase < 3 → logOf s.log i = []
  trace : ∃ built, Statistics built ∧ (s.app.workers i).trace = built ++ logOf s.log i

theorem logOf_snoc_self (log : List (Entry (Fin n) Call Answer σ Unit))
    (entry : Entry (Fin n) Call Answer σ Unit) :
    logOf (log ++ [entry]) entry.id.1 = logOf log entry.id.1 ++ [entry.event] := by
  simp [logOf]

theorem logOf_snoc_of_ne (log : List (Entry (Fin n) Call Answer σ Unit))
    {entry : Entry (Fin n) Call Answer σ Unit} {i : Fin n} (other : i ≠ entry.id.1) :
    logOf (log ++ [entry]) i = logOf log i := by
  simp [logOf, Ne.symm other]

/-- The constructor calls nothing that the workers share. -/
theorem isStatistics_of_constructs {t : WorkerThread m} (ran : t.Ran lib) {e : Call}
    {next : Answer e → Program Worker} (hpc : t.pc = .constructing (.call e next)) (r : Answer e) :
    isStatistics e = true := by
  unfold WorkerThread.Ran at ran
  simp only [hpc] at ran
  obtain ⟨rest, w, runs⟩ := (ran.1.snoc r).complete
  exact (runs.post create_post).1 ⟨e, r⟩ (by simp)

theorem Told.alone {i : Fin n} (told : Told s i) (ran : (s.app.workers i).Ran lib)
    {action : WorkerThread.Action m} {done : Bool} {t : WorkerThread m}
    (change : WorkerThread.Change lib maxQueue done (s.app.workers i) action t)
    (apart : ∀ event, action = .answer event → (s.app.workers i).pc.phase = 1) :
    Told { s with app := s.app.setWorker i t } i := by
  have early : t.pc.phase < 3 → logOf s.log i = [] := fun before =>
    told.early (Nat.lt_of_le_of_lt change.phase_le.1 before)
  obtain ⟨built, statistics, trace⟩ := told.trace
  suffices more : ∃ built, Statistics built ∧ t.trace = built ++ logOf s.log i from
    ⟨by simpa using early, by simpa using more⟩
  cases change with
  | calls hpc r =>
    have phase := apart _ rfl
    simp [hpc, WorkerThread.Pc.phase] at phase
  | @constructs e next hpc r =>
    -- the constructor runs before anything of the thread is logged
    have nothing := told.early (by simp [hpc, WorkerThread.Pc.phase])
    have call : Statistics [⟨e, r⟩] := by simpa [Statistics] using isStatistics_of_constructs ran hpc r
    refine ⟨built ++ [⟨e, r⟩], statistics.append call, ?_⟩
    rw [WorkerThread.trace_carryOut, trace, nothing, List.append_nil, List.append_nil]
  | wakes hpc => exact ⟨built, statistics, by rw [WorkerThread.trace_slept]; exact trace⟩
  | constructed | started | leaves | runs | returns | destroys | stopped | deletesApns | deletesStore
  | deletesStomp | apns => exact ⟨built, statistics, trace⟩

theorem Told.called {i : Fin n} (told : Told s i) {event : Event Call Answer} {done : Bool}
    {t : WorkerThread m}
    (change : WorkerThread.Change lib maxQueue done (s.app.workers i) (.answer event) t)
    (running : (s.app.workers i).pc.phase = 3) (shared' : σ) :
    Told ⟨s.app.setWorker i t, shared',
      s.log ++ [⟨(i, (s.app.workers i).turns), (), event, s.shared⟩]⟩ i := by
  have late := change.phase_le.1
  obtain ⟨built, statistics, trace⟩ := told.trace
  refine ⟨fun before => ?_, built, statistics, ?_⟩
  · simp only [setWorker_self] at before
    omega
  · have same : t.trace = (s.app.workers i).trace ++ [event] := by
      cases change <;> exact WorkerThread.trace_carryOut _ _
    simp only [setWorker_self, same, trace, List.append_assoc]
    rw [← logOf_snoc_self s.log ⟨(i, (s.app.workers i).turns), (), event, s.shared⟩]

theorem told_of_reachable (reachable : Reachable machine lib maxQueue enableFeedback shared s)
    (i : Fin n) : Told s i := by
  induction reachable with
  | refl => exact ⟨fun _ => rfl, [], by simp [Statistics], rfl⟩
  | @tail s _ before step told =>
    cases step with
    | alone action app acts apart =>
      cases change_of_step acts with
      | worker j action t change =>
        by_cases same : i = j
        · subst same
          refine told.alone (ran_of_reachable (Reachable.app before) i) change ?_
          rintro event rfl
          exact apart
        · exact ⟨by simpa [same] using told.early, by simpa [same] using told.trace⟩
      | creates k hpc more =>
        by_cases same : i = ⟨k, more⟩
        · subst same
          have absent := ((inStep_of_reachable (Reachable.app before)).created ⟨k, more⟩).mpr
            (by simp [hpc, Main.created])
          have nothing := told.early (by omega)
          exact ⟨fun _ => nothing, by simpa [createWorker, WorkerThread.trace] using told.trace⟩
        · exact ⟨by simpa [createWorker, same] using told.early,
            by simpa [createWorker, same] using told.trace⟩
      | sigint | allCreated | told | untold | wakes | joins | allJoined | stopsStats | deletesStats
      | deletesApp => exact ⟨told.early, told.trace⟩
    | called j event app acts running shared' served =>
      cases change_of_step acts with
      | worker j _ t change =>
        by_cases same : i = j
        · subst same
          exact told.called change running shared'
        · refine ⟨?_, ?_⟩
          · simpa [same, logOf_snoc_of_ne] using told.early
          · simpa [same, logOf_snoc_of_ne] using told.trace
    | drift shared' drifted => exact ⟨told.early, told.trace⟩

/-! ### Runs that exist -/

/-- Steps that are no answers to calls. -/
theorem reaches_alone {actions : List (Action n m)} {app : App n m}
    (played : playAll (App.step lib maxQueue) actions s.app = some app)
    (apart : ∀ action ∈ actions, ∀ app, Apart app action) :
    Relation.ReflTransGen (Step machine lib maxQueue) s { s with app := app } := by
  induction actions generalizing s with
  | nil =>
    obtain rfl := Option.some.inj played
    exact .refl
  | cons action rest ih =>
    obtain ⟨mid, first, more⟩ := Option.bind_eq_some_iff.mp played
    have step : Step machine lib maxQueue s { s with app := mid } :=
      .alone s action mid first (apart action (List.mem_cons_self ..) _)
    exact .head step (ih (s := { s with app := mid }) more
      fun action' member => apart action' (List.mem_cons_of_mem _ member))

theorem setWorker_setWorker (app : App n m) (i : Fin n) (t t' : WorkerThread m) :
    (app.setWorker i t).setWorker i t' = app.setWorker i t' := by
  simp only [setWorker, Function.update_idem]

theorem setWorker_same (app : App n m) (i : Fin n) : app.setWorker i (app.workers i) = app := by
  simp only [setWorker, Function.update_eq_self]

theorem answer_frame {t t' : WorkerThread m} {event : Event Call Answer}
    (answered : t.answer event = some t') : t'.pc.phase = t.pc.phase ∧ t'.turns = t.turns := by
  -- neither the loop nor what the thread may do plays a part in an answer
  have change : WorkerThread.Change .textual 0 false t (.answer event) t' :=
    WorkerThread.change_of_answer answered
  cases change with
  | constructs hpc r | calls hpc r => exact ⟨by simp [hpc, WorkerThread.carryOut,
      WorkerThread.Pc.phase], rfl⟩

theorem acts_answer {i : Fin n} {event : Event Call Answer} {t : WorkerThread m}
    (answered : (s.app.workers i).answer event = some t) :
    Acts lib maxQueue s.app (.worker i (.answer event)) (s.app.setWorker i t) := by
  simp [Acts, App.step, WorkerThread.step, answered]

/-- The calls of a constructor, one after another. -/
theorem reaches_built {i : Fin n} {tr : Trace} {t : WorkerThread m}
    (played : playAll WorkerThread.answer tr (s.app.workers i) = some t)
    (building : (s.app.workers i).pc.phase = 1) :
    Relation.ReflTransGen (Step machine lib maxQueue) s { s with app := s.app.setWorker i t } := by
  induction tr generalizing s with
  | nil =>
    obtain rfl := Option.some.inj played
    rw [setWorker_same]
  | cons event rest ih =>
    obtain ⟨mid, first, more⟩ := Option.bind_eq_some_iff.mp played
    obtain ⟨phase, _⟩ := answer_frame first
    have step : Step machine lib maxQueue s { s with app := s.app.setWorker i mid } :=
      .alone s _ _ (acts_answer first) building
    have steps := ih (s := { s with app := s.app.setWorker i mid }) (by simpa using more)
      (by simpa [phase] using building)
    rw [setWorker_setWorker] at steps
    exact .head step steps

/-- The calls of a part of `run`, one after another and with nothing between them. -/
theorem reaches_called {i : Fin n} {tr : Trace} {t : WorkerThread m} {shared' : σ}
    (played : playAll WorkerThread.answer tr (s.app.workers i) = some t)
    (running : (s.app.workers i).pc.phase = 3)
    (answered : machine.Answers (i, (s.app.workers i).turns) tr s.shared shared') :
    ∃ entries, entries.map Entry.event = tr ∧
      (∀ entry ∈ entries, entry.id = (i, (s.app.workers i).turns)) ∧
      Relation.ReflTransGen (Step machine lib maxQueue) s
        ⟨s.app.setWorker i t, shared', s.log ++ entries⟩ := by
  induction tr generalizing s with
  | nil =>
    obtain rfl := Option.some.inj played
    obtain rfl : shared' = s.shared := answered
    refine ⟨[], rfl, by simp, ?_⟩
    rw [setWorker_same, List.append_nil]
  | cons event rest ih =>
    obtain ⟨mid, first, more⟩ := Option.bind_eq_some_iff.mp played
    obtain ⟨next, served, answered⟩ := answered
    -- an answer leaves the thread in the same call of `run`
    obtain ⟨phase, turns⟩ := answer_frame first
    have step : Step machine lib maxQueue s _ :=
      .called s i event _ (acts_answer first) running next served
    obtain ⟨entries, events, named, steps⟩ := ih (s := ⟨s.app.setWorker i mid, next,
        s.log ++ [⟨(i, (s.app.workers i).turns), (), event, s.shared⟩]⟩) (by simpa using more)
      (by simpa [phase] using running) (by simpa [turns] using answered)
    refine ⟨⟨(i, (s.app.workers i).turns), (), event, s.shared⟩ :: entries, by simp [events],
      by simpa [turns] using named, ?_⟩
    simp only [setWorker_setWorker, List.append_assoc, List.singleton_append] at steps
    exact .head step steps

end App.Served
end ApnsPusher
