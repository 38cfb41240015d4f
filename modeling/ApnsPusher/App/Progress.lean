import ApnsPusher.App.WorkerRuns
import Mathlib.Data.Prod.Lex

/-!
# Progress of a worker thread

What a worker thread and the threads of its `APNS` have still to do once the
application is done, and which of them is able to do the next step of it.
-/
namespace ApnsPusher

open Effects APNS Worker

/-! ### The feedback thread -/

namespace APNS.FeedbackThread

/-- The steps left to a thread that empties its set, or has done so. -/
def stepsLeft (t : FeedbackThread) : Nat :=
  match t.pc with
  | .isDone => 1
  | .sleep => 2
  | .empty => 3 * t.removeRegisterQueue.card + 3
  | .enqueue => 3 * t.removeRegisterQueue.card + 2
  | .erase fbm => 3 * (t.removeRegisterQueue.erase fbm).card + 4
  | .notCreated | .exited | .run | .getQueue => 0

/-- What is left to a thread that has been told to stop. How many devices there are
to move is known only when `getQueue` has returned. -/
noncomputable def left (t : FeedbackThread) : Ordinal.{0} :=
  match t.pc with
  | .run => Ordinal.omega0 + 1
  | .getQueue => Ordinal.omega0
  | _ => t.stepsLeft

theorem Moves.left_lt {t t' : FeedbackThread} (moves : Moves true t t') : t'.left < t.left := by
  cases moves with
  | stays _ untold => cases untold
  | runs hpc => simp [FeedbackThread.left, hpc]
  | nothing hpc | fills hpc _ =>
    simp only [FeedbackThread.left, hpc]
    exact Ordinal.natCast_lt_omega0 _
  | enqueues hpc nonempty =>
    have one_less := Finset.card_erase_lt_of_mem (t.removeRegisterQueue.min'_mem nonempty)
    simp only [FeedbackThread.left, FeedbackThread.stepsLeft, hpc, Nat.cast_lt]
    omega
  | leaves hpc | drained hpc | more hpc | erases _ hpc | wakes hpc =>
    simp [FeedbackThread.left, FeedbackThread.stepsLeft, hpc, -Nat.cast_add, -Nat.cast_mul]

end APNS.FeedbackThread

/-! ### One `APNS` -/

/-- A phase, what is left within it to somebody who is waited for, and what is left
to be counted. -/
abbrev Rank : Type 1 := Nat ×ₗ Ordinal.{0} ×ₗ Nat

def rank (phase : Nat) (height : Ordinal.{0}) (steps : Nat) : Rank :=
  toLex (phase, toLex (height, steps))

@[simp] theorem rank_lt_rank (phase phase' : Nat) (height height' : Ordinal.{0}) (steps steps' : Nat) :
    rank phase height steps < rank phase' height' steps' ↔
      phase < phase' ∨ phase = phase' ∧ (height < height' ∨ height = height' ∧ steps < steps') := by
  simp [rank, Prod.Lex.toLex_lt_toLex]

namespace APNS.WithFeedback

variable {n : Nat} {maxQueue : Int} {s s' : WithFeedback n} {action : Action n}

/-- The threads that `start` has still to create. -/
def startsLeft (s : WithFeedback n) : Nat :=
  n - s.apns.created + if s.enableFeedback = true ∧ s.feedback.pc = .notCreated then 1 else 0

/-- What is left to `stop`. -/
noncomputable def stopLeft (maxQueue : Int) (s : WithFeedback n) : Rank :=
  match s.apns.stop with
  | .notCalled => rank 8 0 0
  | .setDone => rank 7 0 0
  | .joining => rank 6 s.feedback.left
      (APNS.stepsLeft maxQueue s.apns + if s.waited = true then 1 else 0)
  | .returned => rank 5 0 0

theorem startsLeft_lt (stepped : step maxQueue s action = some s') (start : action.kind = .start) :
    s'.startsLeft < s.startsLeft := by
  unfold startsLeft
  cases action with
  | apns action =>
    cases action with
    | start =>
      obtain ⟨_, apns, within, rfl⟩ := apns_of_step stepped
      simp only [APNS.step, APNS.start] at within
      split at within <;> cases within
      simp only
      omega
    | push | pushReturns | thread | stop | setDone | join | stopReturns => cases start
  | startFeedback =>
    obtain ⟨⟨enabled, _, first⟩, rfl⟩ :=
      Option.ite_none_right_eq_some.mp stepped |>.imp_right Option.some.inj
    simp [enabled, first]
  | feedback | joinFeedback => cases start

theorem stopLeft_lt_of_stop (inv : s.Inv maxQueue) (stepped : step maxQueue s action = some s')
    (stop : action.kind = .stop) : s'.stopLeft maxQueue < s.stopLeft maxQueue := by
  unfold stopLeft
  cases action with
  | apns action =>
    obtain ⟨_, apns, within, rfl⟩ := apns_of_step stepped
    cases action with
    | stop =>
      obtain ⟨⟨first, _⟩, rfl⟩ :=
        Option.ite_none_right_eq_some.mp within |>.imp_right Option.some.inj
      simp [first]
    | setDone =>
      obtain ⟨called, rfl⟩ := Option.ite_none_right_eq_some.mp within |>.imp_right Option.some.inj
      simp [called]
    | join i =>
      have joins := within
      obtain ⟨⟨joining, _⟩, same⟩ :=
        Option.ite_none_right_eq_some.mp within |>.imp_right Option.some.inj
      -- a join is one of the steps that are left to the APNS itself
      have told := (done_iff inv.apns).mpr (Or.inl joining)
      have lower := stepsLeft_lt_of_step inv.apns told joins rfl
      have still : apns.stop = .joining := same ▸ joining
      simp only [joining, still, rank_lt_rank, lt_self_iff_false, true_and, false_or]
      omega
    | stopReturns =>
      obtain ⟨⟨joining, _⟩, rfl⟩ :=
        Option.ite_none_right_eq_some.mp within |>.imp_right Option.some.inj
      simp [joining]
    | push | pushReturns | start | thread => cases stop
  | joinFeedback =>
    obtain ⟨⟨joining, waited, _⟩, rfl⟩ :=
      Option.ite_none_right_eq_some.mp stepped |>.imp_right Option.some.inj
    simp [joining, waited]
  | startFeedback | feedback => cases stop

/-- A thread moves: `stop` is where it was. -/
theorem frame_of_thread (stepped : step maxQueue s action = some s') (thread : action.kind = .thread) :
    s'.apns.stop = s.apns.stop ∧ s'.apns.created = s.apns.created ∧
      s'.apns.done = s.apns.done ∧ s'.apns.sslThreads = s.apns.sslThreads ∧
      s'.waited = s.waited ∧ s'.startsLeft = s.startsLeft := by
  unfold startsLeft
  cases action with
  | apns action =>
    obtain ⟨_, apns, within, rfl⟩ := apns_of_step stepped
    cases action with
    | thread i sent =>
      obtain ⟨_, _, rfl⟩ := Option.map_eq_some_iff.mp within
      exact ⟨rfl, rfl, rfl, rfl, rfl, rfl⟩
    | push | pushReturns | start | stop | setDone | join | stopReturns => cases thread
  | feedback reply =>
    obtain ⟨t, moved, rfl⟩ := Option.map_eq_some_iff.mp stepped
    -- it was created before, so nothing is left to `start` that was not
    have standing : s.feedback.pc ≠ .notCreated ∧ t.pc ≠ .notCreated := by
      have moves := FeedbackThread.moves_of_step moved
      cases moves <;> simp_all
    refine ⟨rfl, rfl, rfl, rfl, rfl, ?_⟩
    simp [standing]
  | startFeedback | joinFeedback => cases thread

/-- A thread that has been told to stop comes nearer to its end. -/
theorem stopLeft_lt_of_thread (inv : s.Inv maxQueue) (stepped : step maxQueue s action = some s')
    (thread : action.kind = .thread) (told : s.apns.done = true) :
    s'.stopLeft maxQueue < s.stopLeft maxQueue := by
  have same := (frame_of_thread stepped thread).1
  have called : s.apns.stop = .joining ∨ s.apns.stop = .returned := (done_iff inv.apns).mp told
  unfold stopLeft
  rw [same]
  cases action with
  | apns action =>
    obtain ⟨_, apns, within, rfl⟩ := apns_of_step stepped
    cases action with
    | thread i sent =>
      rcases called with joining | returned
      · have lower := stepsLeft_lt_of_step inv.apns told within rfl
        simp only [joining, rank_lt_rank, lt_self_iff_false, true_and, false_or]
        omega
      -- `stop` has not returned while a thread could move
      · have exited := exited_of_returned inv.apns returned i
        simp [APNS.step, SslThread.step, exited] at within
    | push | pushReturns | start | stop | setDone | join | stopReturns => cases thread
  | feedback reply =>
    obtain ⟨t, moved, rfl⟩ := Option.map_eq_some_iff.mp stepped
    rw [told] at moved
    rcases called with joining | returned
    · have lower := (FeedbackThread.moves_of_step moved).left_lt
      simp [joining, lower]
    -- nor could the feedback thread, which is waited for like the others
    · by_cases made : s.feedback.pc = .notCreated
      · simp [FeedbackThread.step, made] at moved
      · have exited := inv.joined made (inv.returned returned)
        simp [FeedbackThread.step, exited] at moved
  | startFeedback | joinFeedback => cases thread

theorem stopLeft_of_untold (inv : s.Inv maxQueue) (stepped : step maxQueue s action = some s')
    (thread : action.kind = .thread) (untold : s.apns.done = false) :
    s'.stopLeft maxQueue = s.stopLeft maxQueue := by
  have stop := (frame_of_thread stepped thread).1
  have not_yet := mt (done_iff inv.apns).mpr (by simp [untold])
  unfold stopLeft
  rw [stop]
  cases hpc : s.apns.stop with
  | notCalled | setDone => rfl
  | joining | returned => simp [hpc] at not_yet

/-! ### Who is able to move -/

/-- `stop` is able to go on: some thread can be joined, or all of them have been. -/
def CanJoin (s : WithFeedback n) : Prop :=
  (∃ i ∈ s.apns.sslThreads, (s.apns.threads i).pc = .exited) ∨
    (s.waited = true ∧ s.feedback.pc = .exited) ∨ (s.apns.sslThreads = ∅ ∧ s.waited = false)

/-- A thread that has been told to stop and is still there. -/
def SslReady (s : WithFeedback n) (i : Fin n) : Prop :=
  s.apns.done = true ∧ (s.apns.threads i).pc ≠ .notCreated ∧ (s.apns.threads i).pc ≠ .exited

def FeedbackReady (s : WithFeedback n) : Prop :=
  s.apns.done = true ∧ s.feedback.pc ≠ .notCreated ∧ s.feedback.pc ≠ .exited

/-- As long as `stop` cannot go on, a thread it waits for can. -/
theorem ready_of_joining (inv : s.Inv maxQueue) (joining : s.apns.stop = .joining) :
    s.CanJoin ∨ (∃ i, s.SslReady i) ∨ s.FeedbackReady := by
  have told := (done_iff inv.apns).mpr (Or.inl joining)
  rcases s.apns.sslThreads.eq_empty_or_nonempty with none | ⟨i, waits⟩
  · cases waited : s.waited with
    | false => exact Or.inl (Or.inr (Or.inr ⟨none, waited⟩))
    | true =>
      by_cases exited : s.feedback.pc = .exited
      · exact Or.inl (Or.inr (Or.inl ⟨waited, exited⟩))
      · exact Or.inr (Or.inr ⟨told, inv.waited waited, exited⟩)
  · by_cases exited : (s.apns.threads i).pc = .exited
    · exact Or.inl (Or.inl ⟨i, waits, exited⟩)
    · exact Or.inr (Or.inl ⟨i, told, created_of_waited inv.apns i waits, exited⟩)

theorem created_le (reachable : APNS.Reachable maxQueue s.apns) : s.apns.created ≤ n := by
  refine reachable.invariant (fun s => s.created ≤ n) (Nat.zero_le n) ?_
  intro s s' _ change le
  cases change with
  | starts more => exact more
  | pushes | pushReturns | thread | stops | tells | joins | returns => exact le

theorem exists_start (inv : s.Inv maxQueue) (more : ¬ s.Started) :
    ∃ action : Action n, action.kind = .start ∧ (step maxQueue s action).isSome = true := by
  by_cases all : s.apns.created = n
  · obtain ⟨enabled, absent⟩ : s.enableFeedback = true ∧ s.feedback.pc = .notCreated := by
      simpa [Started, all] using more
    exact ⟨.startFeedback, rfl, by simp [step, startFeedback, enabled, all, absent]⟩
  · have less : s.apns.created < n := Nat.lt_of_le_of_ne (created_le inv.apns) all
    exact ⟨.apns .start, rfl, by simp [step, allows, APNS.step, APNS.start, less]⟩

theorem exists_stop (started : s.Started) (waits : s.apns.stop ≠ .returned)
    (can : s.apns.stop = .joining → s.CanJoin) :
    ∃ action : Action n, action.kind = .stop ∧ (step maxQueue s action).isSome = true := by
  cases hpc : s.apns.stop with
  | notCalled =>
    exact ⟨.apns .stop, rfl, by simp [step, allows, started, APNS.step, callStop, hpc, started.1]⟩
  | setDone => exact ⟨.apns .setDone, rfl, by simp [step, allows, APNS.step, setDone, hpc]⟩
  | joining =>
    rcases can hpc with ⟨i, member, exited⟩ | ⟨waited, exited⟩ | ⟨none, waited⟩
    · exact ⟨.apns (.join i), rfl, by simp [step, allows, APNS.step, join, hpc, member, exited]⟩
    · exact ⟨.joinFeedback, rfl, by simp [step, joinFeedback, hpc, waited, exited]⟩
    · exact ⟨.apns .stopReturns, rfl,
        by simp [step, allows, APNS.step, stopReturns, hpc, none, waited]⟩
  | returned => exact absurd hpc waits

theorem canJoin_of_thread (stepped : step maxQueue s action = some s')
    (thread : action.kind = .thread) (can : s.CanJoin) : s'.CanJoin := by
  obtain ⟨_, _, _, waits, waited, _⟩ := frame_of_thread stepped thread
  unfold CanJoin
  rw [waits, waited]
  rcases can with ⟨i, member, exited⟩ | ⟨feedback, exited⟩ | all
  · refine Or.inl ⟨i, member, ?_⟩
    cases action with
    | apns action =>
      obtain ⟨_, apns, within, rfl⟩ := apns_of_step stepped
      cases action with
      | thread j sent =>
        obtain ⟨_, moved, rfl⟩ := Option.map_eq_some_iff.mp within
        have other : i ≠ j := by
          rintro rfl
          simp [SslThread.step, exited] at moved
        simpa [other] using exited
      | push | pushReturns | start | stop | setDone | join | stopReturns => cases thread
    | feedback reply =>
      obtain ⟨_, _, rfl⟩ := Option.map_eq_some_iff.mp stepped
      exact exited
    | startFeedback | joinFeedback => cases thread
  · refine Or.inr (Or.inl ⟨feedback, ?_⟩)
    cases action with
    | apns action =>
      obtain ⟨_, apns, within, rfl⟩ := apns_of_step stepped
      exact exited
    | feedback reply => simp [step, FeedbackThread.step, exited] at stepped
    | startFeedback | joinFeedback => cases thread
  · exact Or.inr (Or.inr all)

theorem done_of_step {action : Action n} (told : s.apns.done = true)
    (stepped : step maxQueue s action = some s') : s'.apns.done = true := by
  cases change_of_step stepped with
  | apns action _ apns within => exact APNS.done_of_change told (APNS.change_of_step ⟨action, within⟩)
  | starts | feedback | joins => exact told

/-- A thread that has been told to stop is left alone by all the others. -/
theorem sslReady_of_step (inv : s.Inv maxQueue) (stepped : step maxQueue s action = some s')
    {i : Fin n} (other : ∀ sent, action ≠ .apns (.thread i sent)) (ready : s.SslReady i) :
    s'.SslReady i := by
  obtain ⟨told, made, inside⟩ := ready
  refine ⟨done_of_step told stepped, ?_⟩
  cases action with
  | apns action =>
    obtain ⟨_, apns, within, rfl⟩ := apns_of_step stepped
    cases action with
    | start =>
      have all := (called_of_done inv.apns told).1
      simp [APNS.step, APNS.start, all] at within
    | thread j sent =>
      obtain ⟨_, _, rfl⟩ := Option.map_eq_some_iff.mp within
      have apart : i ≠ j := fun same => other sent (same ▸ rfl)
      simp [apart, made, inside]
    | push =>
      cases within
      exact ⟨made, inside⟩
    | pushReturns | stop | setDone | join | stopReturns =>
      obtain ⟨_, rfl⟩ := Option.ite_none_right_eq_some.mp within |>.imp_right Option.some.inj
      exact ⟨made, inside⟩
  | startFeedback | joinFeedback =>
    obtain ⟨_, rfl⟩ := Option.ite_none_right_eq_some.mp stepped |>.imp_right Option.some.inj
    exact ⟨made, inside⟩
  | feedback reply =>
    obtain ⟨_, _, rfl⟩ := Option.map_eq_some_iff.mp stepped
    exact ⟨made, inside⟩

theorem feedbackReady_of_step (stepped : step maxQueue s action = some s')
    (other : ∀ reply, action ≠ .feedback reply) (ready : s.FeedbackReady) : s'.FeedbackReady := by
  obtain ⟨told, made, inside⟩ := ready
  refine ⟨done_of_step told stepped, ?_⟩
  cases action with
  | apns action =>
    obtain ⟨_, apns, _, rfl⟩ := apns_of_step stepped
    exact ⟨made, inside⟩
  | startFeedback =>
    obtain ⟨⟨_, _, absent⟩, _⟩ := Option.ite_none_right_eq_some.mp stepped
    exact absurd absent made
  | joinFeedback =>
    obtain ⟨_, rfl⟩ := Option.ite_none_right_eq_some.mp stepped |>.imp_right Option.some.inj
    exact ⟨made, inside⟩
  | feedback reply => exact absurd rfl (other reply)

end APNS.WithFeedback

/-! ### One worker thread -/

namespace WorkerThread

open APNS.WithFeedback

variable {m : Nat} {lib : Openframe} {maxQueue : Int} {done : Bool} {t t' : WorkerThread m}
  {action : Action m}

/-- What is left to a worker thread when the application is done. -/
noncomputable def left (maxQueue : Int) (t : WorkerThread m) : Rank :=
  match t.pc with
  | .notCreated => rank 15 0 0
  | .constructing p => rank 14 p.height 0
  | .starting _ => rank 13 0 t.apns.startsLeft
  | .running p => rank 12 p.height 0
  | .sleeping _ => rank 11 0 0
  | .isDone _ => rank 10 0 0
  | .destroyStats => rank 9 0 0
  | .stopping => t.apns.stopLeft maxQueue
  | .deleteApns => rank 4 0 0
  | .deleteStore => rank 3 0 0
  | .deleteStomp => rank 2 0 0
  | .exited => rank 0 0 0

theorem Pc.eq_starting {pc : Pc} (two : pc.phase = 2) : ∃ w, pc = .starting w := by
  cases pc with
  | starting w => exact ⟨w, rfl⟩
  | _ => cases two

theorem Pc.eq_stopping {pc : Pc} (five : pc.phase = 5) : pc = .stopping := by
  cases pc with
  | stopping => rfl
  | _ => cases five

theorem stopLeft_lt_rank (s : WithFeedback m) : s.stopLeft maxQueue < rank 9 0 0 := by
  unfold stopLeft
  split <;> simp

/-- The steps of the APNS threads, which go on without the worker. -/
def Action.isThread : Action m → Bool
  | .apns action => action.kind = .thread
  | .answer _ | .turn => false

/-- A step of the worker itself. -/
theorem left_lt_of_own (inv : t.Inv maxQueue) (change : Change lib maxQueue true t action t')
    (own : action.isThread = false) : t'.left maxQueue < t.left maxQueue := by
  cases change with
  | runs _ untold => cases untold
  -- a call answered lowers the height of what is left of the program
  | constructs hpc r | calls hpc r => simp [left, hpc, carryOut, Prog.height_lt]
  | returns hpc => split <;> simp [left, hpc]
  | destroys hpc =>
    simp only [left, hpc]
    exact stopLeft_lt_rank _
  | stopped hpc returned => simp [left, hpc, stopLeft, returned]
  | constructed hpc | started hpc | leaves hpc | wakes hpc | deletesApns hpc | deletesStore hpc
  | deletesStomp hpc => simp [left, hpc]
  | apns action performs apns stepped =>
    -- it calls `start` at the end of `init`, and `stop` in the destructor
    rcases performed performs with thread | ⟨start, two⟩ | ⟨stop, five⟩
    · simp [Action.isThread, thread] at own
    · obtain ⟨w, hpc⟩ := Pc.eq_starting two
      simp [left, hpc, startsLeft_lt stepped start]
    · have hpc := Pc.eq_stopping five
      simpa [left, hpc] using stopLeft_lt_of_stop inv.apns stepped stop

theorem left_congr {apns : WithFeedback m} (starts : apns.startsLeft = t.apns.startsLeft)
    (stops : apns.stopLeft maxQueue = t.apns.stopLeft maxQueue) :
    { t with apns := apns }.left maxQueue = t.left maxQueue := by
  unfold left
  rw [starts, stops]

/-- The APNS threads are told to stop by the destructor. -/
theorem phase_of_told (inv : t.Inv maxQueue) (told : t.apns.apns.done = true)
    (waits : t.apns.apns.stop ≠ .returned) : t.pc.phase = 5 := by
  have called := (done_iff inv.apns.apns).mp told
  rcases Nat.lt_trichotomy t.pc.phase 5 with before | hpc | after
  · simp [inv.early before] at called
  · exact hpc
  · exact absurd (inv.late after) waits

/-- A step of an APNS thread, which counts only when the thread is told to stop. -/
theorem left_of_thread (inv : t.Inv maxQueue) (change : Change lib maxQueue done t action t')
    (thread : action.isThread = true) : t'.left maxQueue ≤ t.left maxQueue ∧
      (t.apns.apns.done = true → t'.left maxQueue < t.left maxQueue) := by
  cases change with
  | apns action _ apns stepped =>
    have kind : action.kind = .thread := of_decide_eq_true thread
    obtain ⟨stop, _, _, _, _, starts⟩ := frame_of_thread stepped kind
    cases told : t.apns.apns.done with
    | false =>
      have stops := stopLeft_of_untold inv.apns stepped kind told
      exact ⟨(left_congr starts stops).le, fun told => by cases told⟩
    | true =>
      -- the destructor has told them, and still waits
      have lower := stopLeft_lt_of_thread inv.apns stepped kind told
      have waits : t.apns.apns.stop ≠ .returned := by
        intro returned
        simp [stopLeft, stop, returned] at lower
      have hpc := Pc.eq_stopping (phase_of_told inv told waits)
      have less : { t with apns := apns : WorkerThread m }.left maxQueue < t.left maxQueue := by
        simpa [left, hpc] using lower
      exact ⟨less.le, fun _ => less⟩
  | constructs | constructed | started | leaves | runs | calls | returns | wakes | destroys | stopped
  | deletesApns | deletesStore | deletesStomp => cases thread

/-- The worker itself is able to move. -/
def Ready (t : WorkerThread m) : Prop :=
  match t.pc with
  | .notCreated | .exited => False
  | .stopping => t.apns.apns.stop = .joining → t.apns.CanJoin
  | _ => True

theorem exists_answer {α : Type} (e : Call) (next : Answer e → Program α) :
    ∃ event, (answered event (.call e next)).isSome = true := by
  obtain ⟨r⟩ : Nonempty (Answer e) := inferInstance
  exact ⟨⟨e, r⟩, by simp [answered]⟩

theorem isSome_apns {action : WithFeedback.Action m} (performs : t.performs action = true)
    (able : (WithFeedback.step maxQueue t.apns action).isSome = true) :
    (step lib maxQueue done t (.apns action)).isSome = true := by
  simp [step, performs, able]

theorem isSome_of_sslReady (lib : Openframe) (maxQueue : Int) (done : Bool) {i : Fin m}
    (ready : t.apns.SslReady i) :
    (step lib maxQueue done t (.apns (.apns (.thread i 0)))).isSome = true := by
  refine isSome_apns rfl ?_
  simp [WithFeedback.step, allows, APNS.step, SslThread.step_isSome ready.2.1 ready.2.2]

theorem isSome_of_feedbackReady (lib : Openframe) (done : Bool) (inv : t.Inv maxQueue)
    (ready : t.apns.FeedbackReady) :
    (step lib maxQueue done t (.apns (.feedback none))).isSome = true := by
  refine isSome_apns rfl ?_
  simp [WithFeedback.step, FeedbackThread.step_isSome ready.2.1 ready.2.2 inv.apns.kept]

theorem exists_own_of_ready (lib : Openframe) (done : Bool) (inv : t.Inv maxQueue) (ready : t.Ready) :
    ∃ action : Action m, action.isThread = false ∧
      (step lib maxQueue done t action).isSome = true := by
  unfold Ready at ready
  cases hpc : t.pc with
  | notCreated | exited => simp [hpc] at ready
  | constructing p =>
    cases p with
    | ret w => exact ⟨.turn, rfl, by simp [step, turn, hpc]⟩
    | call e next =>
      obtain ⟨event, goesOn⟩ := exists_answer e next
      exact ⟨.answer event, rfl, by simp [step, answer, hpc, goesOn]⟩
  | running p =>
    cases p with
    | ret result => exact ⟨.turn, rfl, by simp [step, turn, hpc]⟩
    | call e next =>
      obtain ⟨event, goesOn⟩ := exists_answer e next
      exact ⟨.answer event, rfl, by simp [step, answer, hpc, goesOn]⟩
  | isDone w => exact ⟨.turn, rfl, by cases done <;> simp [step, turn, hpc]⟩
  | sleeping | destroyStats | deleteApns | deleteStore | deleteStomp =>
    exact ⟨.turn, rfl, by simp [step, turn, hpc]⟩
  -- in `start` and in `stop` the next step depends on what has been done of them
  | starting w =>
    by_cases all : t.apns.Started
    · exact ⟨.turn, rfl, by simp [step, turn, hpc, all]⟩
    · obtain ⟨action, start, able⟩ := exists_start inv.apns all
      refine ⟨.apns action, by simp [Action.isThread, start], isSome_apns ?_ able⟩
      simp [performs, start, hpc, Pc.phase]
  | stopping =>
    simp only [hpc] at ready
    by_cases returned : t.apns.apns.stop = .returned
    · exact ⟨.turn, rfl, by simp [step, turn, hpc, returned]⟩
    · have started := inv.started (by simp [hpc, Pc.phase])
      obtain ⟨action, stop, able⟩ := exists_stop started returned ready
      refine ⟨.apns action, by simp [Action.isThread, stop], isSome_apns ?_ able⟩
      simp [performs, stop, hpc, Pc.phase]

/-- While a worker thread exists, it or one of the threads it waits for can move. -/
theorem exists_ready (inv : t.Inv maxQueue) (made : t.pc.phase ≠ 0) (inside : t.pc.phase ≠ 9) :
    t.Ready ∨ (∃ i, t.apns.SslReady i) ∨ t.apns.FeedbackReady := by
  unfold Ready
  cases hpc : t.pc with
  | notCreated => simp [hpc, Pc.phase] at made
  | exited => simp [hpc, Pc.phase] at inside
  | stopping =>
    by_cases joining : t.apns.apns.stop = .joining
    · exact (ready_of_joining inv.apns joining).imp_left fun can _ => can
    · exact Or.inl fun joins => absurd joins joining
  | constructing | starting | isDone | running | sleeping | destroyStats | deleteApns | deleteStore
  | deleteStomp => exact Or.inl trivial

theorem ready_of_thread (change : Change lib maxQueue done t action t')
    (thread : action.isThread = true) (ready : t.Ready) : t'.Ready := by
  cases change with
  | apns action _ apns stepped =>
    have kind : action.kind = .thread := of_decide_eq_true thread
    have stop := (frame_of_thread stepped kind).1
    unfold Ready at ready ⊢
    cases hpc : t.pc with
    | stopping =>
      simp only [hpc] at ready ⊢
      exact fun joining => canJoin_of_thread stepped kind (ready (stop ▸ joining))
    | notCreated | exited => simp [hpc] at ready
    | constructing | starting | isDone | running | sleeping | destroyStats | deleteApns | deleteStore
    | deleteStomp => trivial
  | constructs | constructed | started | leaves | runs | calls | returns | wakes | destroys | stopped
  | deletesApns | deletesStore | deletesStomp => cases thread

/-- The threads of its `APNS` stay able to move whatever the worker does. -/
theorem threads_of_own (inv : t.Inv maxQueue) (change : Change lib maxQueue done t action t') :
    (∀ i, (∀ sent, action ≠ .apns (.apns (.thread i sent))) → t.apns.SslReady i →
      t'.apns.SslReady i) ∧
    ((∀ reply, action ≠ .apns (.feedback reply)) → t.apns.FeedbackReady → t'.apns.FeedbackReady) := by
  cases change with
  | apns action _ apns stepped =>
    refine ⟨fun i other ready => ?_, fun other ready => ?_⟩
    · exact sslReady_of_step inv.apns stepped (fun sent same => other sent (same ▸ rfl)) ready
    · exact feedbackReady_of_step stepped (fun reply same => other reply (same ▸ rfl)) ready
  | @constructs e _ _ r | @calls e _ _ r =>
    have same : (carriedOut t.apns e).apns.threads = t.apns.apns.threads ∧
        (carriedOut t.apns e).apns.done = t.apns.apns.done ∧
        (carriedOut t.apns e).feedback = t.apns.feedback := by
      cases e <;> exact ⟨rfl, rfl, rfl⟩
    simp only [carryOut, SslReady, FeedbackReady, same]
    exact ⟨fun _ _ ready => ready, fun _ ready => ready⟩
  | constructed | started | leaves | runs | returns | wakes | destroys | stopped | deletesApns
  | deletesStore | deletesStomp => exact ⟨fun _ _ ready => ready, fun _ ready => ready⟩

end WorkerThread
end ApnsPusher
