import ApnsPusher.APNS.Feedback
import ApnsPusher.Worker.Session

/-!
# The worker thread

`WorkerThread` makes a worker, calls `run` until the application is done, and deletes
the worker, whose destructor stops its `APNS` first. A call answered, a turn of the
loop and a step of one of its APNS threads are one step each.
-/
namespace ApnsPusher

open Effects Worker

/-- Where `WorkerThread` stands. -/
inductive WorkerThread.Pc where
  | notCreated
  /-- In the constructor, or in `init` up to the store. -/
  | constructing (p : Program Worker)
  /-- In `APNS::start`, at the end of `init`. -/
  | starting (w : Worker)
  | isDone (w : Worker)
  | running (p : Program (Bool × Worker))
  | sleeping (w : Worker)
  /-- At the start of the destructor, and then in `APNS::stop`. -/
  | destroyStats
  | stopping
  | deleteApns
  | deleteStore
  | deleteStomp
  | exited

/-- What a worker thread does beyond its own memory. -/
inductive WorkerThread.Deed where
  | called (event : Event Call Answer)
  | slept

structure WorkerThread (m : Nat) where
  pc : WorkerThread.Pc
  apns : APNS.WithFeedback m
  /-- Everything done so far, oldest first. -/
  deeds : List WorkerThread.Deed
  /-- The calls of `run` that have returned. -/
  turns : Nat

namespace WorkerThread

variable {m : Nat}

def blank (m : Nat) (enableFeedback : Bool) : WorkerThread m :=
  ⟨.notCreated, .initial m enableFeedback, [], 0⟩

def Deed.event : Deed → Option (Event Call Answer)
  | .called event => some event
  | .slept => none

/-- The calls answered so far. -/
def trace (t : WorkerThread m) : Trace := t.deeds.filterMap Deed.event

/-- A call of `push` by the worker, and its return. -/
def pushed (s : APNS.WithFeedback m) (message : ApnsMessage) : APNS.WithFeedback m :=
  { s with apns := { s.apns.push message with
      returned := s.apns.returned ++ [⟨s.apns.pushed.length, message⟩] } }

/-- What a call does to the worker's own `APNS`. -/
def carriedOut (s : APNS.WithFeedback m) : Call → APNS.WithFeedback m
  | .push message => pushed s message
  | _ => s

/-- What is left of a program when its next call is answered. -/
def answered {α : Type} (event : Event Call Answer) : Program α → Option (Program α)
  | .ret _ => none
  | .call e next => if same : event.call = e then some (next (same ▸ event.answer)) else none

def carryOut (t : WorkerThread m) (event : Event Call Answer) (pc : Pc) : WorkerThread m :=
  { t with
    pc := pc
    apns := carriedOut t.apns event.call
    deeds := t.deeds ++ [.called event] }

def answer (t : WorkerThread m) (event : Event Call Answer) : Option (WorkerThread m) :=
  match t.pc with
  | .constructing p => (answered event p).map fun p => t.carryOut event (.constructing p)
  | .running p => (answered event p).map fun p => t.carryOut event (.running p)
  | _ => none

/-- The steps between the calls. `done` is what `is_done` answers. -/
def turn (lib : Openframe) (done : Bool) (t : WorkerThread m) : Option (WorkerThread m) :=
  match t.pc with
  | .constructing (.ret w) => some { t with pc := .starting w }
  | .starting w => if t.apns.Started then some { t with pc := .isDone w } else none
  | .isDone w =>
    if done then some { t with pc := .destroyStats }
    else some { t with pc := .running (Worker.run lib w) }
  | .running (.ret (didWork, w)) => some { t with
      pc := if didWork then .isDone w else .sleeping w
      turns := t.turns + 1 }
  | .sleeping w => some { t with pc := .isDone w, deeds := t.deeds ++ [.slept] }
  | .destroyStats => some { t with pc := .stopping }
  | .stopping => if t.apns.apns.stop = .returned then some { t with pc := .deleteApns } else none
  | .deleteApns => some { t with pc := .deleteStore }
  | .deleteStore => some { t with pc := .deleteStomp }
  | .deleteStomp => some { t with pc := .exited }
  | .constructing (.call ..) | .running (.call ..) | .notCreated | .exited => none

/-- How far a worker thread has come. -/
def Pc.phase : Pc → Nat
  | .notCreated => 0
  | .constructing _ => 1
  | .starting _ => 2
  | .isDone _ | .running _ | .sleeping _ => 3
  | .destroyStats => 4
  | .stopping => 5
  | .deleteApns => 6
  | .deleteStore => 7
  | .deleteStomp => 8
  | .exited => 9

/-- The APNS threads move by themselves. The other steps of the `APNS` are the
worker's: `start` and `stop` where it calls them, and `push` among its own calls. -/
def performs (t : WorkerThread m) (action : APNS.WithFeedback.Action m) : Bool :=
  match action.kind with
  | .thread => true
  | .start => t.pc.phase = 2
  | .stop => t.pc.phase = 5
  | .push => false

inductive Action (m : Nat) where
  | answer (event : Event Call Answer)
  | turn
  | apns (action : APNS.WithFeedback.Action m)

def step (lib : Openframe) (maxQueue : Int) (done : Bool) (t : WorkerThread m) :
    Action m → Option (WorkerThread m)
  | .answer event => t.answer event
  | .turn => t.turn lib done
  | .apns action =>
    if t.performs action then
      (APNS.WithFeedback.step maxQueue t.apns action).map fun apns => { t with apns := apns }
    else none

/-! ### What a step can do -/

inductive Change (lib : Openframe) (maxQueue : Int) (done : Bool) (t : WorkerThread m) :
    Action m → WorkerThread m → Prop
  | constructs {e : Call} {next : Answer e → Program Worker}
      (hpc : t.pc = .constructing (.call e next)) (r : Answer e) :
      Change lib maxQueue done t (.answer ⟨e, r⟩) (t.carryOut ⟨e, r⟩ (.constructing (next r)))
  | constructed {w : Worker} (hpc : t.pc = .constructing (.ret w)) :
      Change lib maxQueue done t .turn { t with pc := .starting w }
  | started {w : Worker} (hpc : t.pc = .starting w) (all : t.apns.Started) :
      Change lib maxQueue done t .turn { t with pc := .isDone w }
  | leaves {w : Worker} (hpc : t.pc = .isDone w) (told : done = true) :
      Change lib maxQueue done t .turn { t with pc := .destroyStats }
  | runs {w : Worker} (hpc : t.pc = .isDone w) (untold : done = false) :
      Change lib maxQueue done t .turn { t with pc := .running (Worker.run lib w) }
  | calls {e : Call} {next : Answer e → Program (Bool × Worker)}
      (hpc : t.pc = .running (.call e next)) (r : Answer e) :
      Change lib maxQueue done t (.answer ⟨e, r⟩) (t.carryOut ⟨e, r⟩ (.running (next r)))
  | returns {didWork : Bool} {w : Worker} (hpc : t.pc = .running (.ret (didWork, w))) :
      Change lib maxQueue done t .turn { t with
        pc := if didWork then .isDone w else .sleeping w
        turns := t.turns + 1 }
  | wakes {w : Worker} (hpc : t.pc = .sleeping w) :
      Change lib maxQueue done t .turn { t with pc := .isDone w, deeds := t.deeds ++ [.slept] }
  | destroys (hpc : t.pc = .destroyStats) : Change lib maxQueue done t .turn { t with pc := .stopping }
  | stopped (hpc : t.pc = .stopping) (returned : t.apns.apns.stop = .returned) :
      Change lib maxQueue done t .turn { t with pc := .deleteApns }
  | deletesApns (hpc : t.pc = .deleteApns) :
      Change lib maxQueue done t .turn { t with pc := .deleteStore }
  | deletesStore (hpc : t.pc = .deleteStore) :
      Change lib maxQueue done t .turn { t with pc := .deleteStomp }
  | deletesStomp (hpc : t.pc = .deleteStomp) : Change lib maxQueue done t .turn { t with pc := .exited }
  | apns (action : APNS.WithFeedback.Action m) (performs : t.performs action = true)
      (apns : APNS.WithFeedback m)
      (stepped : APNS.WithFeedback.step maxQueue t.apns action = some apns) :
      Change lib maxQueue done t (.apns action) { t with apns := apns }

theorem answered_eq_some {α : Type} {event : Event Call Answer} {p q : Program α}
    (goesOn : answered event p = some q) :
    ∃ next, p = .call event.call next ∧ q = next event.answer := by
  cases p with
  | ret => cases goesOn
  | call e next =>
    simp only [answered] at goesOn
    split at goesOn
    next same =>
      subst same
      exact ⟨next, rfl, (Option.some.inj goesOn).symm⟩
    next => cases goesOn

variable {lib : Openframe} {maxQueue : Int} {done : Bool} {t t' : WorkerThread m}

theorem change_of_answer {event : Event Call Answer} (stepped : t.answer event = some t') :
    Change lib maxQueue done t (.answer event) t' := by
  unfold answer at stepped
  split at stepped
  next p hpc =>
    obtain ⟨q, goesOn, rfl⟩ := Option.map_eq_some_iff.mp stepped
    obtain ⟨next, rfl, rfl⟩ := answered_eq_some goesOn
    exact .constructs hpc event.answer
  next p hpc =>
    obtain ⟨q, goesOn, rfl⟩ := Option.map_eq_some_iff.mp stepped
    obtain ⟨next, rfl, rfl⟩ := answered_eq_some goesOn
    exact .calls hpc event.answer
  next => cases stepped

theorem change_of_turn (stepped : t.turn lib done = some t') :
    Change lib maxQueue done t .turn t' := by
  unfold turn at stepped
  split at stepped
  next w hpc =>
    cases stepped
    exact .constructed hpc
  next w hpc =>
    obtain ⟨all, rfl⟩ := Option.ite_none_right_eq_some.mp stepped |>.imp_right Option.some.inj
    exact .started hpc all
  next w hpc =>
    split at stepped
    next told =>
      cases stepped
      exact .leaves hpc told
    next untold =>
      cases stepped
      exact .runs hpc (by simpa using untold)
  next didWork w hpc =>
    cases stepped
    exact .returns hpc
  next w hpc =>
    cases stepped
    exact .wakes hpc
  next hpc =>
    cases stepped
    exact .destroys hpc
  next hpc =>
    obtain ⟨returned, rfl⟩ := Option.ite_none_right_eq_some.mp stepped |>.imp_right Option.some.inj
    exact .stopped hpc returned
  next hpc =>
    cases stepped
    exact .deletesApns hpc
  next hpc =>
    cases stepped
    exact .deletesStore hpc
  next hpc =>
    cases stepped
    exact .deletesStomp hpc
  all_goals cases stepped

theorem change_of_step {action : Action m} (stepped : step lib maxQueue done t action = some t') :
    Change lib maxQueue done t action t' := by
  cases action with
  | answer event => exact change_of_answer stepped
  | turn => exact change_of_turn stepped
  | apns action =>
    obtain ⟨performs, moved⟩ := Option.ite_none_right_eq_some.mp stepped
    obtain ⟨apns, within, rfl⟩ := Option.map_eq_some_iff.mp moved
    exact .apns action performs apns within

end WorkerThread
end ApnsPusher
