import ApnsPusher.APNS.Stopping
import Mathlib.Data.Finset.Sort

/-!
# The feedback thread

With feedback enabled `start` creates one more thread, which asks its
`FeedbackController` for the devices to be unregistered and moves them, one by
one, to the feedback queue. `stop` waits for it too. A `FeedbackMessage` is known
here by its address.
-/
namespace ApnsPusher.APNS

inductive FeedbackThread.Pc where
  | notCreated
  | isDone
  | run
  | getQueue
  /-- At the head of the loop that empties `removeRegisterQueue`. -/
  | empty
  | enqueue
  | erase (fbm : Nat)
  | sleep
  | exited
  deriving DecidableEq

structure FeedbackThread where
  pc : FeedbackThread.Pc
  /-- The local set; it is ordered by address. -/
  removeRegisterQueue : Finset Nat
  feedbackQ : List Nat
  /-- The sets that `getQueue` filled, oldest first. -/
  batches : List (Finset Nat)
  deriving DecidableEq

namespace FeedbackThread

def blank : FeedbackThread := ⟨.notCreated, ∅, [], []⟩

/-- One step of `FeedbackThread`. `reply` is the set filled by `getQueue`, if it returns true. -/
def step (done : Bool) (reply : Option (Finset Nat)) (t : FeedbackThread) : Option FeedbackThread :=
  match t.pc with
  | .notCreated | .exited => none
  | .isDone => if done then some { t with pc := .exited } else some { t with pc := .run }
  | .run => some { t with pc := .getQueue }
  | .getQueue =>
    match reply with
    | none => some { t with pc := .sleep }
    | some batch => some { t with
        pc := .empty
        removeRegisterQueue := batch
        batches := t.batches ++ [batch] }
  | .empty =>
    if t.removeRegisterQueue = ∅ then some { t with pc := .sleep }
    else some { t with pc := .enqueue }
  | .enqueue =>
    if nonempty : t.removeRegisterQueue.Nonempty then
      let fbm := t.removeRegisterQueue.min' nonempty
      some { t with pc := .erase fbm, feedbackQ := t.feedbackQ ++ [fbm] }
    else none
  | .erase fbm => some { t with
      pc := .empty
      removeRegisterQueue := t.removeRegisterQueue.erase fbm }
  | .sleep => some { t with pc := .isDone }

/-- What is still to be moved. -/
def pending (t : FeedbackThread) : List Nat :=
  match t.pc with
  | .erase fbm => (t.removeRegisterQueue.erase fbm).sort
  | _ => t.removeRegisterQueue.sort

/-- All that `getQueue` handed over, each set in the order of addresses. -/
def handed (t : FeedbackThread) : List Nat := (t.batches.map (·.sort)).flatten

/-- The loop that empties the local set. -/
def Draining (t : FeedbackThread) : Prop :=
  t.pc = .empty ∨ t.pc = .enqueue ∨ ∃ fbm, t.pc = .erase fbm

structure Kept (t : FeedbackThread) : Prop where
  whole : t.feedbackQ ++ t.pending = t.handed
  outside : ¬ t.Draining → t.removeRegisterQueue = ∅
  filled : t.pc = .enqueue → t.removeRegisterQueue.Nonempty

theorem sort_eq_min'_cons (s : Finset Nat) (nonempty : s.Nonempty) :
    s.sort = s.min' nonempty :: (s.erase (s.min' nonempty)).sort := by
  have smallest : ∀ b ∈ s.erase (s.min' nonempty), s.min' nonempty ≤ b :=
    fun b member => s.min'_le b (Finset.mem_of_mem_erase member)
  have inserted := Finset.sort_insert (· ≤ ·) smallest (Finset.notMem_erase _ _)
  rwa [Finset.insert_erase (s.min'_mem nonempty)] at inserted

/-- The steps of the thread. -/
inductive Moves (done : Bool) (t : FeedbackThread) : FeedbackThread → Prop
  | leaves (hpc : t.pc = .isDone) (told : done = true) : Moves done t { t with pc := .exited }
  | stays (hpc : t.pc = .isDone) (untold : done = false) : Moves done t { t with pc := .run }
  | runs (hpc : t.pc = .run) : Moves done t { t with pc := .getQueue }
  | nothing (hpc : t.pc = .getQueue) : Moves done t { t with pc := .sleep }
  | fills (hpc : t.pc = .getQueue) (batch : Finset Nat) : Moves done t { t with
      pc := .empty
      removeRegisterQueue := batch
      batches := t.batches ++ [batch] }
  | drained (hpc : t.pc = .empty) (none : t.removeRegisterQueue = ∅) :
      Moves done t { t with pc := .sleep }
  | more (hpc : t.pc = .empty) (nonempty : t.removeRegisterQueue.Nonempty) :
      Moves done t { t with pc := .enqueue }
  | enqueues (hpc : t.pc = .enqueue) (nonempty : t.removeRegisterQueue.Nonempty) :
      Moves done t { t with
        pc := .erase (t.removeRegisterQueue.min' nonempty)
        feedbackQ := t.feedbackQ ++ [t.removeRegisterQueue.min' nonempty] }
  | erases (fbm : Nat) (hpc : t.pc = .erase fbm) : Moves done t { t with
      pc := .empty
      removeRegisterQueue := t.removeRegisterQueue.erase fbm }
  | wakes (hpc : t.pc = .sleep) : Moves done t { t with pc := .isDone }

theorem moves_of_step {done : Bool} {reply : Option (Finset Nat)} {t t' : FeedbackThread}
    (stepped : step done reply t = some t') : Moves done t t' := by
  unfold step at stepped
  split at stepped
  next => cases stepped
  next => cases stepped
  next hpc =>
    split at stepped
    next told =>
      cases stepped
      exact .leaves hpc told
    next untold =>
      cases stepped
      exact .stays hpc (by simpa using untold)
  next hpc =>
    cases stepped
    exact .runs hpc
  next hpc =>
    split at stepped
    next =>
      cases stepped
      exact .nothing hpc
    next batch =>
      cases stepped
      exact .fills hpc batch
  next hpc =>
    split at stepped
    next none =>
      cases stepped
      exact .drained hpc none
    next nonempty =>
      cases stepped
      exact .more hpc (Finset.nonempty_iff_ne_empty.mpr nonempty)
  next hpc =>
    split at stepped
    next nonempty =>
      cases stepped
      exact .enqueues hpc nonempty
    next => cases stepped
  next fbm hpc =>
    cases stepped
    exact .erases fbm hpc
  next hpc =>
    cases stepped
    exact .wakes hpc

theorem Moves.kept {done : Bool} {t t' : FeedbackThread} (moves : Moves done t t')
    (kept : t.Kept) : t'.Kept := by
  obtain ⟨whole, outside, _⟩ := kept
  cases moves with
  | leaves hpc | stays hpc | runs hpc | nothing hpc | wakes hpc =>
    have none := outside (by simp [Draining, hpc])
    exact ⟨by simpa [pending, handed, hpc, none] using whole, fun _ => none, by simp⟩
  | fills hpc batch =>
    have none := outside (by simp [Draining, hpc])
    refine ⟨?_, by simp [Draining], by simp⟩
    simpa [pending, handed, hpc, none] using whole
  | drained hpc none =>
    exact ⟨by simpa [pending, handed, hpc] using whole, fun _ => none, by simp⟩
  | more hpc nonempty =>
    exact ⟨by simpa [pending, handed, hpc] using whole, by simp [Draining], fun _ => nonempty⟩
  | enqueues hpc nonempty =>
    -- the message enqueued is the first of those still to be moved
    have first := sort_eq_min'_cons t.removeRegisterQueue nonempty
    refine ⟨?_, by simp [Draining], by simp⟩
    simpa [pending, handed, hpc, first] using whole
  | erases fbm hpc =>
    exact ⟨by simpa [pending, handed, hpc] using whole, by simp [Draining], by simp⟩

theorem step_isSome {t : FeedbackThread} (created : t.pc ≠ .notCreated) (inside : t.pc ≠ .exited)
    (kept : t.Kept) (done : Bool) (reply : Option (Finset Nat)) :
    (step done reply t).isSome = true := by
  unfold step
  split
  next hpc => exact absurd hpc created
  next hpc => exact absurd hpc inside
  next => split <;> rfl
  next => rfl
  next => cases reply <;> rfl
  next => split <;> rfl
  next hpc => simp [kept.filled hpc]
  next => rfl
  next => rfl

/-- Messages are moved only once they are there, and all of them before the thread
looks at the flag again. -/
theorem Kept.moved {t : FeedbackThread} (kept : t.Kept) (outside : ¬ t.Draining) :
    t.feedbackQ = t.handed := by
  have none := kept.outside outside
  have whole := kept.whole
  unfold pending at whole
  split at whole
  next fbm hpc => exact absurd (Or.inr (Or.inr ⟨fbm, hpc⟩)) outside
  next => simpa [none] using whole

end FeedbackThread

/-- An `APNS` with the thread it may have besides. -/
structure WithFeedback (n : Nat) where
  apns : APNS n
  enableFeedback : Bool
  feedback : FeedbackThread
  /-- Whether `_sslThreads` holds the feedback thread. -/
  waited : Bool

namespace WithFeedback

open Effects

variable {n : Nat}

def initial (n : Nat) (enableFeedback : Bool) : WithFeedback n :=
  ⟨APNS.initial n, enableFeedback, .blank, false⟩

inductive Action (n : Nat) where
  | apns (action : APNS.Action n)
  | startFeedback
  | feedback (reply : Option (Finset Nat))
  | joinFeedback

/-- Who takes a step, and where. -/
inductive Kind where
  | push
  | start
  | stop
  | thread
  deriving DecidableEq

def Action.kind : Action n → Kind
  | .apns (.push _) | .apns (.pushReturns _) => .push
  | .apns .start | .startFeedback => .start
  | .apns .stop | .apns .setDone | .apns (.join _) | .apns .stopReturns | .joinFeedback => .stop
  | .apns (.thread ..) | .feedback _ => .thread

/-- The end of `start`. -/
def startFeedback (s : WithFeedback n) : Option (WithFeedback n) :=
  if s.enableFeedback = true ∧ s.apns.created = n ∧ s.feedback.pc = .notCreated then
    some { s with feedback := { s.feedback with pc := .isDone }, waited := true }
  else none

/-- `start` has returned. -/
def Started (s : WithFeedback n) : Prop :=
  s.apns.created = n ∧ (s.enableFeedback = true → s.feedback.pc ≠ .notCreated)

instance (s : WithFeedback n) : Decidable s.Started := by unfold Started; infer_instance

def joinFeedback (s : WithFeedback n) : Option (WithFeedback n) :=
  if s.apns.stop = .joining ∧ s.waited = true ∧ s.feedback.pc = .exited then
    some { s with waited := false }
  else none

/-- `stop` is called after `start`, and returns when `_sslThreads` is empty. -/
def allows (s : WithFeedback n) : APNS.Action n → Bool
  | .stop => s.Started
  | .stopReturns => !s.waited
  | _ => true

def step (maxQueue : Int) (s : WithFeedback n) : Action n → Option (WithFeedback n)
  | .apns action =>
    if s.allows action then (APNS.step maxQueue s.apns action).map fun apns => { s with apns := apns }
    else none
  | .startFeedback => s.startFeedback
  | .feedback reply => (s.feedback.step s.apns.done reply).map fun t => { s with feedback := t }
  | .joinFeedback => s.joinFeedback

def Step (maxQueue : Int) (s s' : WithFeedback n) : Prop := ∃ action, step maxQueue s action = some s'

def Reachable (maxQueue : Int) (enableFeedback : Bool) (s : WithFeedback n) : Prop :=
  Relation.ReflTransGen (Step maxQueue) (initial n enableFeedback) s

variable {maxQueue : Int} {s s' : WithFeedback n}

inductive Change (maxQueue : Int) (s : WithFeedback n) : WithFeedback n → Prop
  | apns (action : APNS.Action n) (allowed : s.allows action = true) (apns : APNS n)
      (stepped : APNS.step maxQueue s.apns action = some apns) :
      Change maxQueue s { s with apns := apns }
  | starts (enabled : s.enableFeedback = true) (all : s.apns.created = n)
      (first : s.feedback.pc = .notCreated) : Change maxQueue s
        { s with feedback := { s.feedback with pc := .isDone }, waited := true }
  | feedback (t : FeedbackThread) (moves : FeedbackThread.Moves s.apns.done s.feedback t) :
      Change maxQueue s { s with feedback := t }
  | joins (joining : s.apns.stop = .joining) (exited : s.feedback.pc = .exited) :
      Change maxQueue s { s with waited := false }

theorem apns_of_step {action : APNS.Action n} (stepped : step maxQueue s (.apns action) = some s') :
    s.allows action = true ∧
      ∃ apns, APNS.step maxQueue s.apns action = some apns ∧ s' = { s with apns := apns } := by
  obtain ⟨allowed, moved⟩ := Option.ite_none_right_eq_some.mp stepped
  obtain ⟨apns, within, rfl⟩ := Option.map_eq_some_iff.mp moved
  exact ⟨allowed, apns, within, rfl⟩

theorem change_of_step {action : Action n} (stepped : step maxQueue s action = some s') :
    Change maxQueue s s' := by
  cases action with
  | apns action =>
    obtain ⟨allowed, apns, within, rfl⟩ := apns_of_step stepped
    exact .apns action allowed apns within
  | startFeedback =>
    obtain ⟨⟨enabled, all, first⟩, rfl⟩ :=
      Option.ite_none_right_eq_some.mp stepped |>.imp_right Option.some.inj
    exact .starts enabled all first
  | feedback reply =>
    obtain ⟨t, moved, rfl⟩ := Option.map_eq_some_iff.mp stepped
    exact .feedback t (FeedbackThread.moves_of_step moved)
  | joinFeedback =>
    obtain ⟨⟨joining, _, exited⟩, rfl⟩ :=
      Option.ite_none_right_eq_some.mp stepped |>.imp_right Option.some.inj
    exact .joins joining exited

/-- What holds between the two queues, `start` and `stop`. -/
structure Inv (maxQueue : Int) (s : WithFeedback n) : Prop where
  apns : APNS.Reachable maxQueue s.apns
  kept : s.feedback.Kept
  created : s.feedback.pc ≠ .notCreated → s.enableFeedback = true ∧ s.apns.created = n
  waited : s.waited = true → s.feedback.pc ≠ .notCreated
  joined : s.feedback.pc ≠ .notCreated → s.waited = false → s.feedback.pc = .exited
  started : s.apns.stop ≠ .notCalled → s.Started
  returned : s.apns.stop = .returned → s.waited = false

theorem inv_initial (enableFeedback : Bool) : Inv maxQueue (initial n enableFeedback) where
  apns := .refl
  kept := ⟨Finset.sort_empty _, fun _ => rfl, by simp [initial, FeedbackThread.blank]⟩
  created := absurd rfl
  waited := by simp [initial]
  joined := absurd rfl
  started := absurd rfl
  returned _ := rfl

/-- `start` creates no thread twice, and what it has created stays. -/
theorem created_of_apnsStep {action : APNS.Action n} {apns : APNS n}
    (stepped : APNS.step maxQueue s.apns action = some apns) (all : s.apns.created = n) :
    apns.created = n := by
  cases APNS.change_of_step ⟨action, stepped⟩ with
  | starts more => exact absurd all (by omega)
  | pushes | pushReturns | thread | stops | tells | joins | returns => exact all

theorem stop_of_apnsStep {action : APNS.Action n} {apns : APNS n}
    (stepped : APNS.step maxQueue s.apns action = some apns) :
    apns.stop = s.apns.stop ∨ (action = .stop ∧ apns.stop = .setDone) ∨
      (s.apns.stop = .setDone ∧ apns.stop = .joining) ∨
      (action = .stopReturns ∧ s.apns.stop = .joining ∧ apns.stop = .returned) := by
  cases action with
  | start =>
    simp only [APNS.step, APNS.start] at stepped
    split at stepped <;> cases stepped
    exact Or.inl rfl
  | push =>
    cases stepped
    exact Or.inl rfl
  | pushReturns | join =>
    obtain ⟨_, rfl⟩ := Option.ite_none_right_eq_some.mp stepped |>.imp_right Option.some.inj
    exact Or.inl rfl
  | thread i sent =>
    obtain ⟨_, _, rfl⟩ := Option.map_eq_some_iff.mp stepped
    exact Or.inl rfl
  | stop =>
    obtain ⟨_, rfl⟩ := Option.ite_none_right_eq_some.mp stepped |>.imp_right Option.some.inj
    exact Or.inr (Or.inl ⟨rfl, rfl⟩)
  | setDone =>
    obtain ⟨called, rfl⟩ := Option.ite_none_right_eq_some.mp stepped |>.imp_right Option.some.inj
    exact Or.inr (Or.inr (Or.inl ⟨called, rfl⟩))
  | stopReturns =>
    obtain ⟨⟨joining, _⟩, rfl⟩ :=
      Option.ite_none_right_eq_some.mp stepped |>.imp_right Option.some.inj
    exact Or.inr (Or.inr (Or.inr ⟨rfl, joining, rfl⟩))

theorem Inv.change (inv : Inv maxQueue s) (change : Change maxQueue s s') : Inv maxQueue s' := by
  cases change with
  | apns action allowed apns stepped =>
    -- what the feedback thread relies on is that `stop` was let in after `start`
    have all := created_of_apnsStep stepped
    refine ⟨inv.apns.tail ⟨action, stepped⟩, inv.kept, fun made => ?_, inv.waited, inv.joined,
      fun called => ?_, fun returned => ?_⟩
    · exact (inv.created made).imp_right all
    · have started : s.Started := by
        rcases stop_of_apnsStep stepped with same | ⟨rfl, _⟩ | ⟨set, _⟩ | ⟨_, joining, _⟩
        · exact inv.started (same ▸ called)
        · simpa [allows] using allowed
        · exact inv.started (by simp [set])
        · exact inv.started (by simp [joining])
      exact ⟨all started.1, started.2⟩
    · rcases stop_of_apnsStep stepped with same | ⟨_, set⟩ | ⟨_, joining⟩ | ⟨rfl, _, _⟩
      · exact inv.returned (same ▸ returned)
      · simp [set] at returned
      · simp [joining] at returned
      · simpa [allows] using allowed
  | starts enabled all first =>
    have uncalled : s.apns.stop = .notCalled := by
      by_contra called
      exact (inv.started called).2 enabled first
    have outside : ¬ s.feedback.Draining := by simp [FeedbackThread.Draining, first]
    have none := inv.kept.outside outside
    have moved := inv.kept.moved outside
    refine ⟨inv.apns, ⟨?_, fun _ => none, by simp⟩, fun _ => ⟨enabled, all⟩, by simp, by simp,
      fun called => absurd uncalled called, fun returned => ?_⟩
    · simpa [FeedbackThread.pending, FeedbackThread.handed, none] using moved
    · simp [uncalled] at returned
  | feedback t moves =>
    have standing : s.feedback.pc ≠ .notCreated ∧ s.feedback.pc ≠ .exited ∧ t.pc ≠ .notCreated := by
      cases moves <;> simp_all
    obtain ⟨made, inside, still⟩ := standing
    refine ⟨inv.apns, moves.kept inv.kept, fun _ => inv.created made, fun _ => still, fun _ free => ?_,
      fun called => ⟨(inv.started called).1, fun _ => still⟩, inv.returned⟩
    exact absurd (inv.joined made free) inside
  | joins joining exited =>
    exact ⟨inv.apns, inv.kept, inv.created, by simp, fun _ _ => exited, inv.started, fun _ => rfl⟩

theorem inv_of_reachable {enableFeedback : Bool} (reachable : Reachable maxQueue enableFeedback s) :
    Inv maxQueue s := by
  induction reachable with
  | refl => exact inv_initial enableFeedback
  | tail _ step ih =>
    obtain ⟨action, stepped⟩ := step
    exact ih.change (change_of_step stepped)

/-! ### Nothing handed over is lost -/

/-- Where the devices are that the controller handed over. -/
structure Moved (t : FeedbackThread) (returned : Prop) : Prop where
  whole : t.feedbackQ ++ t.pending = t.handed
  outside : ¬ t.Draining → t.feedbackQ = t.handed
  once : t.batches.Pairwise Disjoint → (t.feedbackQ ++ t.pending).Nodup
  stopped : returned → t.feedbackQ = t.handed

theorem handed_nodup {t : FeedbackThread} (apart : t.batches.Pairwise Disjoint) :
    t.handed.Nodup := by
  unfold FeedbackThread.handed
  rw [List.nodup_flatten]
  refine ⟨?_, List.pairwise_map.mpr (apart.imp fun disjoint => ?_)⟩
  · intro sorted member
    obtain ⟨batch, _, rfl⟩ := List.mem_map.mp member
    exact Finset.sort_nodup _ _
  · intro fbm first second
    exact Finset.disjoint_left.mp disjoint ((Finset.mem_sort _).mp first)
      ((Finset.mem_sort _).mp second)

/-- In every reachable state what the thread has queued, followed by what it has
still to queue, is all that `getQueue` filled in, in order; a `stop` that comes
while the set is being emptied cuts nothing off. -/
theorem feedback_moved (maxQueue : Int) (enableFeedback : Bool) (s : WithFeedback n)
    (reachable : Reachable maxQueue enableFeedback s) :
    Moved s.feedback (s.apns.stop = .returned) := by
  have inv := inv_of_reachable reachable
  refine ⟨inv.kept.whole, inv.kept.moved, fun apart => ?_, fun returned => inv.kept.moved ?_⟩
  · rw [inv.kept.whole]
    exact handed_nodup apart
  · by_cases made : s.feedback.pc = .notCreated
    · simp [FeedbackThread.Draining, made]
    · simp [FeedbackThread.Draining, inv.joined made (inv.returned returned)]

/-- `stop` is called while two devices are being moved. -/
def stoppedDraining : List (Action 0) :=
  [.startFeedback, .feedback none, .feedback none, .feedback (some {7, 5}), .feedback none,
    .feedback none, .apns .stop, .apns .setDone, .feedback none, .feedback none, .feedback none,
    .feedback none, .feedback none, .feedback none, .feedback none, .joinFeedback, .apns .stopReturns]

theorem feedback_moved_stoppedDraining : ∃ s : WithFeedback 0,
    playAll (step 100) stoppedDraining (initial 0 true) = some s ∧ s.apns.stop = .returned ∧
      s.feedback.feedbackQ = [5, 7] ∧ Moved s.feedback (s.apns.stop = .returned) := by
  obtain ⟨s, played, returned, queued⟩ : ∃ s, playAll (step 100) stoppedDraining (initial 0 true) =
      some s ∧ s.apns.stop = .returned ∧ s.feedback.feedbackQ = [5, 7] := ⟨_, rfl, rfl, rfl⟩
  have reachable : Reachable 100 true s := (follows_of_playAll played).reflTransGen
  exact ⟨s, played, returned, queued, feedback_moved 100 true s reachable⟩

end WithFeedback
end ApnsPusher.APNS
