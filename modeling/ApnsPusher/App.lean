import ApnsPusher.App.WorkerRuns

/-!
# The application

The main thread and `n` worker threads, each with an `APNS` of `m` threads. The
workers are created one after another, the main thread waits for the flag that
SIGINT sets, and the workers are joined one after another before what they used is
deleted. The steps of all of them may come in any order.
-/
namespace ApnsPusher

open Effects

/-- Where the main thread stands. -/
inductive App.Main where
  /-- In the loop of `onInitializeThreads`. -/
  | starting (created : Nat)
  | isDone
  | sleeping
  /-- In the loop of `onDeinitializeThreads`, and then behind it. -/
  | joining (joined : Nat)
  | stopStats
  | deleteStats
  | deleteApp
  | returned
  deriving DecidableEq

structure App (n m : Nat) where
  done : Bool
  main : App.Main
  workers : Fin n → WorkerThread m

namespace App

variable {n m : Nat}

def initial (n m : Nat) (enableFeedback : Bool) : App n m :=
  ⟨false, .starting 0, fun _ => .blank m enableFeedback⟩

def setWorker (s : App n m) (i : Fin n) (t : WorkerThread m) : App n m :=
  { s with workers := Function.update s.workers i t }

/-- The thread that `pthread_create` makes. -/
def createWorker (s : App n m) (i : Fin n) : App n m :=
  s.setWorker i { s.workers i with pc := .constructing Worker.create }

def mainStep (s : App n m) : Option (App n m) :=
  match s.main with
  | .starting k =>
    if more : k < n then some { s.createWorker ⟨k, more⟩ with main := .starting (k + 1) }
    else some { s with main := .isDone }
  | .isDone => if s.done then some { s with main := .joining 0 } else some { s with main := .sleeping }
  | .sleeping => some { s with main := .isDone }
  | .joining k =>
    if more : k < n then
      -- `pthread_join` returns for a thread that has exited
      if (s.workers ⟨k, more⟩).pc.phase = 9 then some { s with main := .joining (k + 1) } else none
    else some { s with main := .stopStats }
  | .stopStats => some { s with main := .deleteStats }
  | .deleteStats => some { s with main := .deleteApp }
  | .deleteApp => some { s with main := .returned }
  | .returned => none

inductive Action (n m : Nat) where
  /-- `rcvSigint`. -/
  | sigint
  | main
  | worker (i : Fin n) (action : WorkerThread.Action m)

def step (lib : Openframe) (maxQueue : Int) (s : App n m) : Action n m → Option (App n m)
  | .sigint => some { s with done := true }
  | .main => s.mainStep
  | .worker i action =>
    (WorkerThread.step lib maxQueue s.done (s.workers i) action).map fun t => s.setWorker i t

/-- The steps as a relation. -/
def Acts (lib : Openframe) (maxQueue : Int) (s : App n m) (action : Action n m) (s' : App n m) : Prop :=
  step lib maxQueue s action = some s'

def Reachable (lib : Openframe) (maxQueue : Int) (enableFeedback : Bool) (s : App n m) : Prop :=
  Relation.ReflTransGen (fun s s' => ∃ action, Acts lib maxQueue s action s')
    (initial n m enableFeedback) s

variable {lib : Openframe} {maxQueue : Int} {enableFeedback : Bool} {s s' : App n m}

theorem reachable_of_playAll {actions : List (Action n m)}
    (played : playAll (step lib maxQueue) actions (initial n m enableFeedback) = some s) :
    Reachable lib maxQueue enableFeedback s :=
  (follows_of_playAll played).reflTransGen

/-! ### What a step can do -/

inductive Change (lib : Openframe) (maxQueue : Int) (s : App n m) :
    Action n m → App n m → Prop
  | sigint : Change lib maxQueue s .sigint { s with done := true }
  | creates (k : Nat) (hpc : s.main = .starting k) (more : k < n) :
      Change lib maxQueue s .main { s.createWorker ⟨k, more⟩ with main := .starting (k + 1) }
  | allCreated (k : Nat) (hpc : s.main = .starting k) (all : n ≤ k) :
      Change lib maxQueue s .main { s with main := .isDone }
  | told (hpc : s.main = .isDone) (told : s.done = true) :
      Change lib maxQueue s .main { s with main := .joining 0 }
  | untold (hpc : s.main = .isDone) (untold : s.done = false) :
      Change lib maxQueue s .main { s with main := .sleeping }
  | wakes (hpc : s.main = .sleeping) : Change lib maxQueue s .main { s with main := .isDone }
  | joins (k : Nat) (hpc : s.main = .joining k) (more : k < n)
      (exited : (s.workers ⟨k, more⟩).pc.phase = 9) :
      Change lib maxQueue s .main { s with main := .joining (k + 1) }
  | allJoined (k : Nat) (hpc : s.main = .joining k) (all : n ≤ k) :
      Change lib maxQueue s .main { s with main := .stopStats }
  | stopsStats (hpc : s.main = .stopStats) : Change lib maxQueue s .main { s with main := .deleteStats }
  | deletesStats (hpc : s.main = .deleteStats) : Change lib maxQueue s .main { s with main := .deleteApp }
  | deletesApp (hpc : s.main = .deleteApp) : Change lib maxQueue s .main { s with main := .returned }
  | worker (i : Fin n) (action : WorkerThread.Action m) (t : WorkerThread m)
      (change : WorkerThread.Change lib maxQueue s.done (s.workers i) action t) :
      Change lib maxQueue s (.worker i action) (s.setWorker i t)

theorem change_of_mainStep (stepped : s.mainStep = some s') :
    Change lib maxQueue s .main s' := by
  unfold mainStep at stepped
  split at stepped
  next k hpc =>
    split at stepped
    next more =>
      cases stepped
      exact .creates k hpc more
    next all =>
      cases stepped
      exact .allCreated k hpc (Nat.le_of_not_lt all)
  next hpc =>
    split at stepped
    next told =>
      cases stepped
      exact .told hpc told
    next untold =>
      cases stepped
      exact .untold hpc (by simpa using untold)
  next hpc =>
    cases stepped
    exact .wakes hpc
  next k hpc =>
    split at stepped
    next more =>
      obtain ⟨exited, rfl⟩ := Option.ite_none_right_eq_some.mp stepped |>.imp_right Option.some.inj
      exact .joins k hpc more exited
    next all =>
      cases stepped
      exact .allJoined k hpc (Nat.le_of_not_lt all)
  next hpc =>
    cases stepped
    exact .stopsStats hpc
  next hpc =>
    cases stepped
    exact .deletesStats hpc
  next hpc =>
    cases stepped
    exact .deletesApp hpc
  next => cases stepped

theorem change_of_step {action : Action n m} (stepped : Acts lib maxQueue s action s') :
    Change lib maxQueue s action s' := by
  cases action with
  | sigint =>
    cases stepped
    exact .sigint
  | main => exact change_of_mainStep stepped
  | worker i action =>
    obtain ⟨t, moved, rfl⟩ := Option.map_eq_some_iff.mp stepped
    exact .worker i action t (WorkerThread.change_of_step moved)

theorem Reachable.invariant (reachable : Reachable lib maxQueue enableFeedback s)
    (I : App n m → Prop) (base : I (initial n m enableFeedback))
    (change : ∀ s action s', Change lib maxQueue s action s' → I s → I s') : I s := by
  induction reachable with
  | refl => exact base
  | tail _ step ih =>
    obtain ⟨action, stepped⟩ := step
    exact change _ _ _ (change_of_step stepped) ih

@[simp] theorem setWorker_self (i : Fin n) (t : WorkerThread m) : (s.setWorker i t).workers i = t :=
  Function.update_self ..

@[simp] theorem setWorker_of_ne {i j : Fin n} (other : j ≠ i) (t : WorkerThread m) :
    (s.setWorker i t).workers j = s.workers j :=
  Function.update_of_ne other ..

@[simp] theorem setWorker_main (i : Fin n) (t : WorkerThread m) :
    (s.setWorker i t).main = s.main := rfl

@[simp] theorem setWorker_done (i : Fin n) (t : WorkerThread m) :
    (s.setWorker i t).done = s.done := rfl

/-! ### Creating and joining -/

/-- The workers that `onInitializeThreads` has created. -/
def Main.created (n : Nat) : Main → Nat
  | .starting k => k
  | _ => n

/-- The workers that `onDeinitializeThreads` has joined. -/
def Main.joined (n : Nat) : Main → Nat
  | .starting _ | .isDone | .sleeping => 0
  | .joining k => k
  | .stopStats | .deleteStats | .deleteApp | .returned => n

/-- Behind the loop that waits for the flag. -/
def Main.leaving : Main → Bool
  | .starting _ | .isDone | .sleeping => false
  | .joining _ | .stopStats | .deleteStats | .deleteApp | .returned => true

/-- The main thread and the workers are in step. -/
structure InStep (s : App n m) : Prop where
  created : ∀ i : Fin n, (s.workers i).pc.phase = 0 ↔ s.main.created n ≤ i
  joined : ∀ i : Fin n, i < s.main.joined n → (s.workers i).pc.phase = 9
  told : s.main.leaving = true → s.done = true

theorem inStep_initial : (initial n m enableFeedback).InStep where
  created i := by simp [initial, WorkerThread.blank, WorkerThread.Pc.phase, Main.created]
  joined i before := absurd before (Nat.not_lt_zero _)
  told leaving := by simp [initial, Main.leaving] at leaving

/-- The main thread goes on without creating anybody. -/
theorem InStep.goTo (inStep : s.InStep) {main : Main} (created : main.created n = s.main.created n)
    (joined : ∀ i : Fin n, i < main.joined n → (s.workers i).pc.phase = 9)
    (told : main.leaving = true → s.done = true) : { s with main := main }.InStep :=
  ⟨fun i => created ▸ inStep.created i, joined, told⟩

theorem InStep.change {action : Action n m} (inStep : s.InStep)
    (change : Change lib maxQueue s action s') : s'.InStep := by
  cases change with
  | sigint => exact ⟨inStep.created, inStep.joined, fun _ => rfl⟩
  | creates k hpc more =>
    have created := inStep.created
    simp only [hpc, Main.created] at created
    refine ⟨fun i => ?_, fun i before => absurd before (Nat.not_lt_zero _), by simp [Main.leaving]⟩
    by_cases same : i = ⟨k, more⟩
    · subst same
      simp [createWorker, WorkerThread.Pc.phase, Main.created]
    · have place : i.val ≠ k := fun here => same (Fin.ext here)
      have before := created i
      simp only [createWorker, setWorker_of_ne same, before, Main.created]
      omega
  | allCreated k hpc all =>
    have created := inStep.created
    simp only [hpc, Main.created] at created
    refine ⟨fun i => ?_, fun i before => absurd before (Nat.not_lt_zero _), by simp [Main.leaving]⟩
    have before := created i
    simp only [before, Main.created]
    omega
  | told hpc told =>
    exact inStep.goTo (by simp [hpc, Main.created])
      (fun i before => absurd before (Nat.not_lt_zero _)) fun _ => told
  | untold hpc | wakes hpc =>
    exact inStep.goTo (by simp [hpc, Main.created])
      (fun i before => absurd before (Nat.not_lt_zero _)) (by simp [Main.leaving])
  | joins k hpc more exited =>
    refine inStep.goTo (by simp [hpc, Main.created]) (fun i before => ?_)
      fun _ => inStep.told (by simp [hpc, Main.leaving])
    -- the worker joined now, or one joined before
    rcases Nat.lt_succ_iff_lt_or_eq.mp before with earlier | now
    · exact inStep.joined i (by simpa [hpc, Main.joined] using earlier)
    · obtain rfl : i = ⟨k, more⟩ := Fin.ext now
      exact exited
  | allJoined k hpc all =>
    refine inStep.goTo (by simp [hpc, Main.created]) (fun i _ => inStep.joined i ?_)
      fun _ => inStep.told (by simp [hpc, Main.leaving])
    simp only [hpc, Main.joined]
    omega
  | stopsStats hpc | deletesStats hpc | deletesApp hpc =>
    exact inStep.goTo (by simp [hpc, Main.created])
      (fun i _ => inStep.joined i (by simp [hpc, Main.joined]))
      fun _ => inStep.told (by simp [hpc, Main.leaving])
  | worker i action t change =>
    obtain ⟨forward, inside⟩ := change.phase_le
    refine ⟨fun j => ?_, fun j before => ?_, inStep.told⟩
    · have created := inStep.created j
      by_cases same : j = i
      · subst same
        simp only [setWorker_self, setWorker_main]
        omega
      · simpa [same] using created
    · have exited := inStep.joined j before
      by_cases same : j = i
      · subst same
        simp only [setWorker_self]
        omega
      · simpa [same] using exited

theorem inStep_of_reachable (reachable : Reachable lib maxQueue enableFeedback s) : s.InStep :=
  reachable.invariant InStep inStep_initial fun _ _ _ change inStep => inStep.change change

/-- What every worker thread keeps by itself holds of all of them. -/
theorem Reachable.workers (reachable : Reachable lib maxQueue enableFeedback s)
    (I : WorkerThread m → Prop) (blank : I (.blank m enableFeedback))
    (created : ∀ t, t.pc.phase = 0 → I t → I { t with pc := .constructing Worker.create })
    (change : ∀ done t action t', WorkerThread.Change lib maxQueue done t action t' → I t → I t')
    (i : Fin n) :
    I (s.workers i) := by
  suffices both : s.InStep ∧ ∀ i, I (s.workers i) from both.2 i
  refine reachable.invariant (fun s => s.InStep ∧ ∀ i, I (s.workers i))
    ⟨inStep_initial, fun _ => blank⟩ ?_
  rintro s action s' step ⟨inStep, each⟩
  refine ⟨inStep.change step, fun j => ?_⟩
  cases step with
  | creates k hpc more =>
    by_cases same : j = ⟨k, more⟩
    · subst same
      have absent := (inStep.created ⟨k, more⟩).mpr (by simp [hpc, Main.created])
      simpa [createWorker] using created _ absent (each _)
    · simpa [createWorker, same] using each j
  | worker i action t moves =>
    by_cases same : j = i
    · subst same
      simpa using change _ _ _ _ moves (each j)
    · simpa [same] using each j
  | sigint | allCreated | told | untold | wakes | joins | allJoined | stopsStats | deletesStats
  | deletesApp => exact each j

theorem inv_of_reachable (reachable : Reachable lib maxQueue enableFeedback s) (i : Fin n) :
    (s.workers i).Inv maxQueue :=
  reachable.workers (WorkerThread.Inv maxQueue) (WorkerThread.inv_blank enableFeedback)
    (fun t absent inv => inv.goTo _ _ (by simp [absent]) (by simp [WorkerThread.Pc.phase])
      (by simp [WorkerThread.Pc.phase]))
    (fun _ _ _ _ change inv => inv.change change) i

end App
end ApnsPusher
