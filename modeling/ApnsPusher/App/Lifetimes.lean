import ApnsPusher.App.Shutdown

/-!
# Lifetimes

What the threads of the process reach through pointers, and what is deleted when. The
order of the joins and of the deletions keeps every thread from an object that is gone.
-/
namespace ApnsPusher.App

open Effects

variable {n m : Nat} {lib : Openframe} {maxQueue : Int} {enableFeedback : Bool} {s s' : App n m}
  {action : Action n m}

/-- The objects that outlive the function that made them. -/
inductive Object (n : Nat) where
  | app
  | stompStats
  | worker (i : Fin n)
  | stomp (i : Fin n)
  | store (i : Fin n)
  | apns (i : Fin n)
  deriving DecidableEq

/-- What a step of the main thread reaches. -/
def Main.touches : Main → List (Object n)
  | .starting _ | .isDone | .joining _ | .deleteApp => [.app]
  | .stopStats | .deleteStats => [.app, .stompStats]
  | .sleeping | .returned => []

/-- What the worker thread `i` itself reaches. A call of the worker may reach all that
the worker holds, and the statistics of the application. -/
def workerTouches (i : Fin n) : WorkerThread.Pc → List (Object n)
  | .constructing _ => [.app, .stompStats, .worker i, .stomp i, .store i]
  | .starting _ => [.app, .worker i, .apns i]
  | .isDone _ => [.app]
  | .running _ => [.worker i, .stomp i, .store i, .apns i, .stompStats]
  | .destroyStats => [.worker i, .stompStats]
  | .stopping | .deleteApns => [.worker i, .apns i]
  | .deleteStore => [.worker i, .store i]
  | .deleteStomp => [.worker i, .stomp i]
  | .notCreated | .sleeping _ | .exited => []

/-- What a step reaches. An SSL thread reads its configuration from the application. -/
def touches (s : App n m) : Action n m → List (Object n)
  | .sigint => []
  | .main => s.main.touches
  | .worker i (.apns action) =>
    match action.kind with
    | .thread => [.app, .apns i]
    | .push | .start | .stop => workerTouches i (s.workers i).pc
  | .worker i (.answer _) | .worker i .turn => workerTouches i (s.workers i).pc

def Main.deletes : Main → List (Object n)
  | .deleteStats => [.stompStats]
  | .deleteApp => [.app]
  | _ => []

/-- The worker itself goes last. -/
def workerDeletes (i : Fin n) : WorkerThread.Pc → List (Object n)
  | .deleteApns => [.apns i]
  | .deleteStore => [.store i]
  | .deleteStomp => [.stomp i, .worker i]
  | _ => []

/-- What a step deletes. -/
def deletes (s : App n m) : Action n m → List (Object n)
  | .main => s.main.deletes
  | .worker i .turn => workerDeletes i (s.workers i).pc
  | .sigint | .worker _ (.answer _) | .worker _ (.apns _) => []

/-- What has been deleted. -/
def Gone (s : App n m) : Object n → Prop
  | .app => s.main = .returned
  | .stompStats => s.main = .deleteApp ∨ s.main = .returned
  | .apns i => 7 ≤ (s.workers i).pc.phase
  | .store i => 8 ≤ (s.workers i).pc.phase
  | .stomp i | .worker i => (s.workers i).pc.phase = 9

/-! ### What is gone stays gone -/

theorem gone_of_deletes (change : Change lib maxQueue s action s') {o : Object n}
    (deletes : o ∈ s.deletes action) : s'.Gone o := by
  cases change with
  | deletesStats hpc | deletesApp hpc =>
    simp only [App.deletes, hpc, Main.deletes, List.mem_singleton] at deletes
    subst deletes
    simp [Gone]
  | sigint => cases deletes
  | creates _ hpc | allCreated _ hpc | told hpc | untold hpc | wakes hpc | joins _ hpc | allJoined _ hpc
  | stopsStats hpc => simp [App.deletes, hpc, Main.deletes] at deletes
  | worker i action t moves =>
    cases moves with
    | deletesApns hpc | deletesStore hpc =>
      simp only [App.deletes, hpc, workerDeletes, List.mem_singleton] at deletes
      subst deletes
      simp [Gone, WorkerThread.Pc.phase]
    | deletesStomp hpc =>
      simp only [App.deletes, hpc, workerDeletes, List.mem_cons, List.not_mem_nil, or_false] at deletes
      rcases deletes with rfl | rfl <;> simp [Gone, WorkerThread.Pc.phase]
    | constructs | calls | apns => cases deletes
    | constructed hpc | started hpc | leaves hpc | runs hpc | returns hpc | wakes hpc | destroys hpc
    | stopped hpc => simp [App.deletes, hpc, workerDeletes] at deletes

theorem phase_le_of_change (inStep : s.InStep) (change : Change lib maxQueue s action s')
    (i : Fin n) : (s.workers i).pc.phase ≤ (s'.workers i).pc.phase := by
  cases change with
  | creates k hpc more =>
    by_cases same : i = ⟨k, more⟩
    · subst same
      -- a thread that is created had no phase yet
      have absent := (inStep.created ⟨k, more⟩).mpr (by simp [hpc, Main.created])
      simp [absent]
    · simp [createWorker, same]
  | worker j moved t moves =>
    by_cases same : i = j
    · subst same
      simpa using moves.phase_le.1
    · simp [same]
  | sigint | allCreated | told | untold | wakes | joins | allJoined | stopsStats | deletesStats
  | deletesApp => exact Nat.le_refl _

theorem phase_le_nine (pc : WorkerThread.Pc) : pc.phase ≤ 9 := by
  cases pc <;> simp [WorkerThread.Pc.phase]

theorem gone_of_change (inStep : s.InStep) (change : Change lib maxQueue s action s') {o : Object n}
    (gone : s.Gone o) : s'.Gone o := by
  cases o with
  | worker i | stomp i =>
    have forward := phase_le_of_change inStep change i
    have last := phase_le_nine (s'.workers i).pc
    simp only [Gone] at gone ⊢
    omega
  | store i | apns i => exact Nat.le_trans gone (phase_le_of_change inStep change i)
  | app | stompStats =>
    simp only [Gone] at gone ⊢
    cases change with
    | deletesApp => simp
    | sigint | worker => exact gone
    | creates _ hpc | allCreated _ hpc | told hpc | untold hpc | wakes hpc | joins _ hpc
    | allJoined _ hpc | stopsStats hpc | deletesStats hpc => simp [hpc] at gone

/-! ### What is gone is left alone -/

/-- An APNS thread moves only while the destructor has not got behind `stop`. -/
theorem early_of_thread {t t' : WorkerThread m} {done : Bool} {action : WorkerThread.Action m}
    (inv : t.Inv maxQueue) (change : WorkerThread.Change lib maxQueue done t action t') :
    action.isThread = true → t.pc.phase < 6 := by
  intro thread
  by_contra late
  have returned := inv.late (Nat.le_of_not_lt late)
  cases change with
  | apns action _ apns moved =>
    have kind : action.kind = .thread := of_decide_eq_true thread
    have told := (APNS.done_iff inv.apns.apns).mpr (Or.inr returned)
    -- told to stop, it would come nearer to its end
    have lower := APNS.WithFeedback.stopLeft_lt_of_thread inv.apns moved kind told
    have same := (APNS.WithFeedback.frame_of_thread moved kind).1
    simp [APNS.WithFeedback.stopLeft, same, returned] at lower
  | constructs | constructed | started | leaves | runs | calls | returns | wakes | destroys | stopped
  | deletesApns | deletesStore | deletesStomp => cases thread

/-- The application and its statistics go when no worker thread is left. -/
theorem exited_of_gone (inStep : s.InStep) (gone : s.Gone .app ∨ s.Gone .stompStats) (i : Fin n) :
    (s.workers i).pc.phase = 9 := by
  refine inStep.joined i ?_
  simp only [Gone] at gone
  rcases gone with hpc | hpc | hpc <;> simp [hpc, Main.joined]

theorem place_of_mem {i : Fin n} {pc : WorkerThread.Pc} {o : Object n}
    (touched : o ∈ workerTouches i pc) : pc.phase < 9 ∧
      (o = .app ∨ o = .stompStats ∨ o = .worker i ∨ o = .stomp i ∨ (o = .store i ∧ pc.phase ≤ 7) ∨
        (o = .apns i ∧ pc.phase ≤ 6)) := by
  cases pc <;> simp only [workerTouches, List.mem_cons, List.not_mem_nil, or_false] at touched <;>
    simp only [WorkerThread.Pc.phase] <;> grind

theorem not_touched_by_worker (inStep : s.InStep) {o : Object n} (gone : s.Gone o) (i : Fin n) :
    o ∉ workerTouches i (s.workers i).pc := by
  intro touched
  obtain ⟨inside, place⟩ := place_of_mem touched
  rcases place with rfl | rfl | rfl | rfl | ⟨rfl, early⟩ | ⟨rfl, early⟩
  -- what is the application's outlives the thread, and its own goes after its last use
  · exact absurd (exited_of_gone inStep (Or.inl gone) i) (Nat.ne_of_lt inside)
  · exact absurd (exited_of_gone inStep (Or.inr gone) i) (Nat.ne_of_lt inside)
  · exact absurd gone (Nat.ne_of_lt inside)
  · exact absurd gone (Nat.ne_of_lt inside)
  · exact absurd gone (by simp only [Gone]; omega)
  · exact absurd gone (by simp only [Gone]; omega)

theorem not_touched_of_gone (reachable : Reachable lib maxQueue enableFeedback s)
    (change : Change lib maxQueue s action s') {o : Object n} (gone : s.Gone o) :
    o ∉ s.touches action := by
  have inStep := inStep_of_reachable reachable
  cases change with
  | sigint => exact List.not_mem_nil
  | worker i action t moves =>
    cases action with
    | answer | turn => exact not_touched_by_worker inStep gone i
    | apns action =>
      simp only [touches]
      cases kind : action.kind with
      | push | start | stop => exact not_touched_by_worker inStep gone i
      | thread =>
        -- an APNS thread reaches its `APNS`, which the destructor keeps until it has ended
        have inside := early_of_thread (inv_of_reachable reachable i) moves
          (by simp [WorkerThread.Action.isThread, kind])
        simp only [List.mem_cons, List.not_mem_nil, or_false, not_or]
        refine ⟨?_, ?_⟩
        · rintro rfl
          have exited := exited_of_gone inStep (Or.inl gone) i
          omega
        · rintro rfl
          simp only [Gone] at gone
          omega
  | wakes hpc => simp [touches, hpc, Main.touches]
  | creates _ hpc | allCreated _ hpc | told hpc | untold hpc | joins _ hpc | allJoined _ hpc
  | deletesApp hpc =>
    intro touched
    simp only [touches, hpc, Main.touches, List.mem_singleton] at touched
    subst touched
    simp [Gone, hpc] at gone
  | stopsStats hpc | deletesStats hpc =>
    intro touched
    simp only [touches, hpc, Main.touches, List.mem_cons, List.not_mem_nil, or_false] at touched
    rcases touched with rfl | rfl <;> simp [Gone, hpc] at gone

/-- To delete is to reach. -/
theorem touches_of_deletes {o : Object n} (deletes : o ∈ s.deletes action) : o ∈ s.touches action := by
  cases action with
  | sigint => cases deletes
  | main =>
    simp only [App.deletes, touches] at deletes ⊢
    cases hpc : s.main <;> simp_all [Main.deletes, Main.touches]
  | worker i action =>
    cases action with
    | answer | apns => cases deletes
    | turn =>
      simp only [App.deletes, touches] at deletes ⊢
      cases hpc : (s.workers i).pc <;> simp_all [workerDeletes, workerTouches, or_comm]

theorem gone_of_later {o : Object n} (reachable : Reachable lib maxQueue enableFeedback s)
    (gone : s.Gone o)
    (later : Relation.ReflTransGen (fun s s' => ∃ action, Acts lib maxQueue s action s') s s') :
    Reachable lib maxQueue enableFeedback s' ∧ s'.Gone o := by
  induction later with
  | refl => exact ⟨reachable, gone⟩
  | tail _ step ih =>
    obtain ⟨action, moved⟩ := step
    exact ⟨ih.1.tail ⟨action, moved⟩,
      gone_of_change (inStep_of_reachable ih.1) (change_of_step moved) ih.2⟩

/-- Whatever one thread has deleted, no thread reaches again, and nobody deletes it a
second time, in any order of the steps that may follow. -/
theorem no_use_after_delete (lib : Openframe) (maxQueue : Int) (enableFeedback : Bool)
    (s s₁ s₂ s₃ : App n m) (reachable : Reachable lib maxQueue enableFeedback s)
    (first second : Action n m) (o : Object n) (deletes : o ∈ s.deletes first)
    (deleted : Acts lib maxQueue s first s₁)
    (later : Relation.ReflTransGen (fun s s' => ∃ action, Acts lib maxQueue s action s') s₁ s₂)
    (stepped : Acts lib maxQueue s₂ second s₃) :
    o ∉ s₂.touches second ∧ o ∉ s₂.deletes second := by
  have after : Reachable lib maxQueue enableFeedback s₁ := reachable.tail ⟨first, deleted⟩
  obtain ⟨reached, gone⟩ :=
    gone_of_later after (gone_of_deletes (change_of_step deleted) deletes) later
  have untouched := not_touched_of_gone reached (change_of_step stepped) gone
  exact ⟨untouched, fun again => untouched (touches_of_deletes again)⟩

/-- The `APNS` of the worker is deleted, and at the end the application. -/
theorem no_use_after_delete_interrupted : ∃ s s₁ s₂ s₃ : App 1 1,
    playAll (step .textual 100) (interruptedRun ++ destructionRun.take 10) (initial 1 1 true) =
        some s ∧
      Object.apns 0 ∈ s.deletes (workerAction .turn) ∧
      step .textual 100 s (workerAction .turn) = some s₁ ∧
      playAll (step .textual 100) ((destructionRun.drop 11).take 6) s₁ = some s₂ ∧
      step .textual 100 s₂ .main = some s₃ ∧
      Object.apns 0 ∉ s₂.touches .main ∧ Object.apns 0 ∉ s₂.deletes .main := by
  obtain ⟨s, played, deletes, s₁, deleted, s₂, more, s₃, last⟩ : ∃ s : App 1 1,
      playAll (step .textual 100) (interruptedRun ++ destructionRun.take 10) (initial 1 1 true) =
          some s ∧
        Object.apns 0 ∈ s.deletes (workerAction .turn) ∧
        ∃ s₁, step .textual 100 s (workerAction .turn) = some s₁ ∧
        ∃ s₂, playAll (step .textual 100) ((destructionRun.drop 11).take 6) s₁ = some s₂ ∧
        ∃ s₃, step .textual 100 s₂ .main = some s₃ :=
    ⟨_, rfl, List.mem_singleton_self _, _, rfl, _, rfl, _, rfl⟩
  exact ⟨s, s₁, s₂, s₃, played, deletes, deleted, more, last,
    no_use_after_delete .textual 100 true s s₁ s₂ s₃ (reachable_of_playAll played)
      (workerAction .turn) .main (.apns 0) deletes deleted (follows_of_playAll more).reflTransGen last⟩

end ApnsPusher.App
