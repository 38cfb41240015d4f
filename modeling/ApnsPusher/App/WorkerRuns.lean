import ApnsPusher.App.WorkerThread
import ApnsPusher.Worker.Message

/-!
# What a worker thread keeps

Through every step of the worker and of its APNS threads: `start` comes before the
loop and `stop` after it, and what has been called so far is a run of the worker's
program, which ends with a whole call of `run` when the thread has left its loop.
-/
namespace ApnsPusher

open Effects Worker

/-! ### The APNS under a worker -/

theorem APNS.returned_pushed {n : Nat} {maxQueue : Int} {s : APNS n}
    (reachable : APNS.Reachable maxQueue s) : ∀ msg ∈ s.returned, msg ∈ s.pushed := by
  refine reachable.invariant (fun s => ∀ msg ∈ s.returned, msg ∈ s.pushed) (by simp [initial]) ?_
  intro s s' _ change kept msg member
  cases change with
  | starts | thread | stops | tells | joins | returns => exact kept msg member
  | pushes => exact List.mem_append_left _ (kept msg member)
  | pushReturns msg' queued =>
    rcases List.mem_append.mp member with old | new
    · exact kept msg old
    · exact List.mem_singleton.mp new ▸ queued

namespace APNS.WithFeedback

variable {n : Nat} {maxQueue : Int} {s s' : WithFeedback n}

theorem started_of_change (started : s.Started) (change : Change maxQueue s s') : s'.Started := by
  cases change with
  | apns action _ apns stepped => exact ⟨created_of_apnsStep stepped started.1, started.2⟩
  | starts => exact ⟨started.1, by simp⟩
  | feedback t moves =>
    refine ⟨started.1, fun _ => ?_⟩
    cases moves <;> simp
  | joins => exact started

theorem stop_of_step {action : Action n} (stepped : step maxQueue s action = some s') :
    s'.apns.stop = s.apns.stop ∨ action = .apns .stop ∨ s.apns.stop = .setDone ∨
      s.apns.stop = .joining := by
  cases action with
  | apns action =>
    obtain ⟨_, apns, within, rfl⟩ := apns_of_step stepped
    rcases stop_of_apnsStep within with same | ⟨rfl, _⟩ | ⟨set, _⟩ | ⟨_, joining, _⟩
    · exact Or.inl same
    · exact Or.inr (Or.inl rfl)
    · exact Or.inr (Or.inr (Or.inl set))
    · exact Or.inr (Or.inr (Or.inr joining))
  | startFeedback | joinFeedback =>
    obtain ⟨_, rfl⟩ := Option.ite_none_right_eq_some.mp stepped |>.imp_right Option.some.inj
    exact Or.inl rfl
  | feedback reply =>
    obtain ⟨_, _, rfl⟩ := Option.map_eq_some_iff.mp stepped
    exact Or.inl rfl

/-- A thread that was not created takes no step. -/
theorem Inv.created_of_thread (inv : s.Inv maxQueue) {action : Action n}
    (stepped : step maxQueue s action = some s') (thread : action.kind = .thread) :
    s.apns.created ≠ 0 ∨ s.feedback.pc ≠ .notCreated := by
  by_contra neither
  obtain ⟨none, absent⟩ := not_or.mp neither
  cases action with
  | apns action =>
    obtain ⟨_, apns, within, rfl⟩ := apns_of_step stepped
    cases action with
    | thread i sent =>
      have idle := uncreated_of_reachable inv.apns i (by omega)
      simp [APNS.step, SslThread.step, idle] at within
    | push | pushReturns | start | stop | setDone | join | stopReturns => cases thread
  | feedback reply => simp [step, FeedbackThread.step, not_not.mp absent] at stepped
  | startFeedback | joinFeedback => cases thread

end APNS.WithFeedback

namespace WorkerThread

open APNS

variable {m : Nat} {lib : Openframe} {maxQueue : Int} {done : Bool} {t t' : WorkerThread m}
  {action : Action m}

/-! ### `push` among the calls -/

/-- `push` by the worker is the two steps that `APNS` makes of it. -/
theorem pushReturns_pushed {s : WithFeedback m} (reachable : APNS.Reachable maxQueue s.apns)
    (message : ApnsMessage) : APNS.step maxQueue (s.apns.push message)
      (.pushReturns ⟨s.apns.pushed.length, message⟩) = some (pushed s message).apns := by
  have queued : APNS.Reachable maxQueue (s.apns.push message) := reachable.tail ⟨.push message, rfl⟩
  have new : (⟨s.apns.pushed.length, message⟩ : Message) ∉ s.apns.returned := by
    intro returned
    -- an object that had returned before would be queued twice
    have once := pushed_nodup queued
    have old := returned_pushed reachable _ returned
    exact (List.nodup_append.mp once).2.2 _ old _ (List.mem_singleton_self _) rfl
  exact if_pos ⟨List.mem_append_right _ (List.mem_singleton_self _), new⟩

theorem inv_pushed {s : WithFeedback m} (inv : s.Inv maxQueue) (message : ApnsMessage) :
    (pushed s message).Inv maxQueue := by
  have queued := inv.change (.apns (.push message) rfl _ rfl)
  exact queued.change
    (.apns (.pushReturns ⟨s.apns.pushed.length, message⟩) rfl _ (pushReturns_pushed inv.apns message))

theorem inv_carriedOut {s : WithFeedback m} (inv : s.Inv maxQueue) (call : Call) :
    (carriedOut s call).Inv maxQueue := by
  cases call with
  | push message => exact inv_pushed inv message
  | _ => exact inv

/-- A call starts and stops nothing. -/
theorem carriedOut_frame (s : WithFeedback m) (call : Call) :
    (carriedOut s call).apns.created = s.apns.created ∧
      (carriedOut s call).apns.stop = s.apns.stop ∧
      (carriedOut s call).feedback = s.feedback ∧
      (carriedOut s call).enableFeedback = s.enableFeedback := by
  cases call <;> exact ⟨rfl, rfl, rfl, rfl⟩

/-! ### Phases -/

structure Inv (maxQueue : Int) (t : WorkerThread m) : Prop where
  apns : t.apns.Inv maxQueue
  fresh : t.pc.phase < 2 → t.apns.apns.created = 0 ∧ t.apns.feedback.pc = .notCreated
  early : t.pc.phase < 5 → t.apns.apns.stop = .notCalled
  started : 3 ≤ t.pc.phase → t.apns.Started
  late : 6 ≤ t.pc.phase → t.apns.apns.stop = .returned

theorem Pc.eq_notCreated {pc : Pc} (zero : pc.phase = 0) : pc = .notCreated := by
  cases pc with
  | notCreated => rfl
  | _ => cases zero

theorem performed {action : WithFeedback.Action m} (performs : t.performs action = true) :
    action.kind = .thread ∨ (action.kind = .start ∧ t.pc.phase = 2) ∨
      (action.kind = .stop ∧ t.pc.phase = 5) := by
  unfold WorkerThread.performs at performs
  cases kind : action.kind with
  | thread => exact Or.inl rfl
  | start => exact Or.inr (Or.inl ⟨rfl, by simpa [kind] using performs⟩)
  | stop => exact Or.inr (Or.inr ⟨rfl, by simpa [kind] using performs⟩)
  | push => simp [kind] at performs

theorem Inv.carryOut (inv : Inv maxQueue t) (event : Event Call Answer) {pc : Pc}
    (same : pc.phase = t.pc.phase) : Inv maxQueue (t.carryOut event pc) := by
  obtain ⟨created, stop, feedback, enabled⟩ := carriedOut_frame t.apns event.call
  refine ⟨inv_carriedOut inv.apns event.call, ?_, ?_, ?_, ?_⟩ <;>
    simp only [WorkerThread.carryOut, WithFeedback.Started, created, stop, feedback, enabled, same]
  · exact inv.fresh
  · exact inv.early
  · exact inv.started
  · exact inv.late

/-- Going on, into the loop after `start` and out of the destructor after `stop`. -/
theorem Inv.goTo (inv : Inv maxQueue t) {pc : Pc} (deeds : List Deed) (turns : Nat)
    (forward : t.pc.phase ≤ pc.phase)
    (started : 3 ≤ pc.phase → 3 ≤ t.pc.phase ∨ t.apns.Started)
    (late : 6 ≤ pc.phase → 6 ≤ t.pc.phase ∨ t.apns.apns.stop = .returned) :
    Inv maxQueue { t with pc := pc, deeds := deeds, turns := turns } where
  apns := inv.apns
  fresh before := inv.fresh (Nat.lt_of_le_of_lt forward before)
  early before := inv.early (Nat.lt_of_le_of_lt forward before)
  started after := (started after).elim inv.started id
  late after := (late after).elim inv.late id

theorem Inv.apnsStep (inv : Inv maxQueue t) {action : WithFeedback.Action m}
    (performs : t.performs action = true) {apns : WithFeedback m}
    (stepped : WithFeedback.step maxQueue t.apns action = some apns) :
    Inv maxQueue { t with apns := apns } where
  apns := inv.apns.change (WithFeedback.change_of_step stepped)
  fresh before := by
    have before : t.pc.phase < 2 := before
    obtain ⟨none, absent⟩ := inv.fresh before
    rcases performed performs with thread | ⟨_, two⟩ | ⟨_, five⟩
    -- there are no threads yet that could move
    · rcases inv.apns.created_of_thread stepped thread with more | made
      · exact absurd none more
      · exact absurd absent made
    · exact absurd two (Nat.ne_of_lt before)
    · exact absurd five (by omega)
  early before := by
    have before : t.pc.phase < 5 := before
    have uncalled := inv.early before
    -- nobody but the destructor calls `stop`
    rcases WithFeedback.stop_of_step stepped with same | rfl | set | joining
    · exact same.trans uncalled
    · rcases performed performs with thread | ⟨start, _⟩ | ⟨_, five⟩
      · cases thread
      · cases start
      · exact absurd five (Nat.ne_of_lt before)
    · simp [uncalled] at set
    · simp [uncalled] at joining
  started after :=
    WithFeedback.started_of_change (inv.started after) (WithFeedback.change_of_step stepped)
  late after := by
    have after : 6 ≤ t.pc.phase := after
    have returned := inv.late after
    rcases WithFeedback.stop_of_step stepped with same | rfl | set | joining
    · exact same.trans returned
    · rcases performed performs with thread | ⟨start, _⟩ | ⟨_, five⟩
      · cases thread
      · cases start
      · exact absurd five (Nat.ne_of_gt after)
    · simp [returned] at set
    · simp [returned] at joining

theorem Inv.change (inv : Inv maxQueue t) (change : Change lib maxQueue done t action t') :
    Inv maxQueue t' := by
  cases change with
  | constructs hpc r => exact inv.carryOut _ (by simp [hpc, Pc.phase])
  | calls hpc r => exact inv.carryOut _ (by simp [hpc, Pc.phase])
  | started hpc all =>
    exact inv.goTo _ _ (by simp [hpc, Pc.phase]) (fun _ => Or.inr all) (by simp [Pc.phase])
  | stopped hpc returned =>
    refine inv.goTo _ _ (by simp [hpc, Pc.phase]) ?_ (fun _ => Or.inr returned)
    simp [hpc, Pc.phase]
  | returns hpc =>
    refine inv.goTo _ _ ?_ ?_ ?_ <;> split <;> simp [hpc, Pc.phase]
  | constructed hpc | leaves hpc | runs hpc | wakes hpc | destroys hpc | deletesApns hpc
  | deletesStore hpc | deletesStomp hpc =>
    refine inv.goTo _ _ ?_ ?_ ?_ <;> simp [hpc, Pc.phase]
  | apns action performs apns stepped => exact inv.apnsStep performs stepped

/-- A thread only goes forward, and by itself it neither comes into being nor returns. -/
theorem Change.phase_le (change : Change lib maxQueue done t action t') :
    t.pc.phase ≤ t'.pc.phase ∧ (t'.pc.phase = t.pc.phase ∨ 0 < t.pc.phase ∧ t.pc.phase < 9) := by
  cases change with
  | apns => exact ⟨Nat.le_refl _, Or.inl rfl⟩
  | returns hpc => split <;> simp [hpc, Pc.phase]
  | constructs hpc | constructed hpc | started hpc | leaves hpc | runs hpc | calls hpc | wakes hpc
  | destroys hpc | stopped hpc | deletesApns hpc | deletesStore hpc | deletesStomp hpc =>
    simp [hpc, Pc.phase, carryOut]

theorem inv_blank (enableFeedback : Bool) : Inv maxQueue (blank m enableFeedback) where
  apns := WithFeedback.inv_initial enableFeedback
  fresh _ := ⟨rfl, rfl⟩
  early _ := rfl
  started after := by simp [blank, Pc.phase] at after
  late after := by simp [blank, Pc.phase] at after

/-! ### The calls are those of the worker -/

/-- What has been called so far, and where the worker stands in it. -/
def Ran (lib : Openframe) (t : WorkerThread m) : Prop :=
  match t.pc with
  | .notCreated => t.trace = [] ∧ t.turns = 0
  | .constructing p => Prog.Reaches create t.trace p ∧ t.turns = 0
  | .running p => ∃ w before now, t.trace = before ++ now ∧
      Prog.Runs (create >>= calls lib t.turns) before w ∧ Prog.Reaches (Worker.run lib w) now p
  | .starting w | .isDone w | .sleeping w => Prog.Runs (create >>= calls lib t.turns) t.trace w
  | _ => ∃ w, Prog.Runs (create >>= calls lib t.turns) t.trace w

/-- One more call of `run` at the end. -/
theorem runs_calls_succ {n : Nat} {w mid w' : Worker} {didWork : Bool} {tr tr' : Trace}
    (first : Prog.Runs (calls lib n w) tr mid)
    (last : Prog.Runs (Worker.run lib mid) tr' (didWork, w')) :
    Prog.Runs (calls lib (n + 1) w) (tr ++ tr') w' := by
  induction n generalizing w tr with
  | zero =>
    obtain ⟨rfl, rfl⟩ := first
    exact (Prog.runs_bind _ _ _ _).mpr ⟨_, tr', [], by simp, last, rfl, rfl⟩
  | succ n ih =>
    obtain ⟨worked, front, back, rfl, one, more⟩ := (Prog.runs_bind _ _ _ _).mp first
    rw [List.append_assoc]
    exact (Prog.runs_bind _ _ _ _).mpr ⟨worked, front, back ++ tr', rfl, one, ih more⟩

theorem runs_create_zero {tr : Trace} {w : Worker} (made : Prog.Runs create tr w) :
    Prog.Runs (create >>= calls lib 0) tr w :=
  (Prog.runs_bind _ _ _ _).mpr ⟨w, tr, [], (List.append_nil tr).symm, made, rfl, rfl⟩

theorem runs_create_succ {n : Nat} {mid w' : Worker} {didWork : Bool} {tr tr' : Trace}
    (first : Prog.Runs (create >>= calls lib n) tr mid)
    (last : Prog.Runs (Worker.run lib mid) tr' (didWork, w')) :
    Prog.Runs (create >>= calls lib (n + 1)) (tr ++ tr') w' := by
  obtain ⟨fresh, front, back, rfl, made, more⟩ := (Prog.runs_bind _ _ _ _).mp first
  rw [List.append_assoc]
  exact (Prog.runs_bind _ _ _ _).mpr
    ⟨fresh, front, back ++ tr', rfl, made, runs_calls_succ more last⟩

@[simp] theorem trace_carryOut (event : Event Call Answer) (pc : Pc) :
    (t.carryOut event pc).trace = t.trace ++ [event] := by
  simp [trace, carryOut, Deed.event]

@[simp] theorem trace_slept (pc : Pc) :
    { t with pc := pc, deeds := t.deeds ++ [.slept] : WorkerThread m }.trace = t.trace := by
  simp [trace, Deed.event]

/-- A program that has come to its end has run. -/
theorem runs_of_reaches {α : Type} {p : Program α} {tr : Trace} {a : α}
    (reached : Prog.Reaches p tr (.ret a)) : Prog.Runs p tr a := by
  have runs := reached.runs (⟨rfl, rfl⟩ : Prog.Runs (.ret a) [] a)
  rwa [List.append_nil] at runs

theorem Ran.change (ran : t.Ran lib) (change : Change lib maxQueue done t action t') : t'.Ran lib := by
  unfold Ran at ran
  cases change with
  | constructs hpc r =>
    simp only [hpc] at ran
    refine ⟨?_, ran.2⟩
    rw [trace_carryOut]
    exact ran.1.snoc r
  | @constructed w hpc =>
    simp only [hpc] at ran
    obtain ⟨reached, first⟩ := ran
    -- no call of `run` has been made yet
    have made : Prog.Runs (create >>= calls lib 0) t.trace w :=
      runs_create_zero (runs_of_reaches reached)
    rw [← first] at made
    exact made
  | started hpc | leaves hpc =>
    simp only [hpc] at ran
    first | exact ran | exact ⟨_, ran⟩
  | runs hpc =>
    simp only [hpc] at ran
    exact ⟨_, t.trace, [], (List.append_nil _).symm, ran, .refl _⟩
  | calls hpc r =>
    simp only [hpc] at ran
    obtain ⟨w, before, now, whole, ended, reached⟩ := ran
    refine ⟨w, before, now ++ [⟨_, r⟩], ?_, ended, reached.snoc r⟩
    rw [trace_carryOut, whole, List.append_assoc]
  | @returns didWork w' hpc =>
    simp only [hpc] at ran
    obtain ⟨w, before, now, whole, ended, reached⟩ := ran
    -- the call that returns is one more of the whole calls
    have ran := runs_create_succ ended (runs_of_reaches reached)
    rw [← whole] at ran
    cases didWork <;> exact ran
  | @wakes w hpc =>
    simp only [hpc] at ran
    have same : { t with pc := .isDone w, deeds := t.deeds ++ [.slept] : WorkerThread m }.trace =
        t.trace := trace_slept (.isDone w)
    unfold Ran
    rw [same]
    exact ran
  | destroys hpc | stopped hpc | deletesApns hpc | deletesStore hpc | deletesStomp hpc =>
    simp only [hpc] at ran
    exact ran
  | apns => exact ran

/-! ### What is queued is what the messages asked for -/

/-- The notifications of the calls so far, in order, and no call of `push` that has
not returned. -/
structure Queued (t : WorkerThread m) : Prop where
  asked : t.apns.apns.pushed.map Message.message = notifications t.trace
  returned : t.apns.apns.returned = t.apns.apns.pushed

theorem pushed_of_apnsStep {n : Nat} {s s' : APNS n} {action : APNS.Action n}
    (stepped : APNS.step maxQueue s action = some s') (other : action.isPush = false) :
    s'.pushed = s.pushed ∧ s'.returned = s.returned := by
  cases action with
  | push | pushReturns => cases other
  | start =>
    simp only [APNS.step, APNS.start] at stepped
    split at stepped <;> cases stepped
    exact ⟨rfl, rfl⟩
  | thread i sent =>
    obtain ⟨_, _, rfl⟩ := Option.map_eq_some_iff.mp stepped
    exact ⟨rfl, rfl⟩
  | stop | setDone | join | stopReturns =>
    obtain ⟨_, rfl⟩ := Option.ite_none_right_eq_some.mp stepped |>.imp_right Option.some.inj
    exact ⟨rfl, rfl⟩

/-- Nobody but the worker queues anything. -/
theorem pushed_of_performed {action : WithFeedback.Action m} {apns : WithFeedback m}
    (performs : t.performs action = true)
    (stepped : WithFeedback.step maxQueue t.apns action = some apns) :
    apns.apns.pushed = t.apns.apns.pushed ∧ apns.apns.returned = t.apns.apns.returned := by
  cases action with
  | apns action =>
    obtain ⟨_, apns, within, rfl⟩ := WithFeedback.apns_of_step stepped
    refine pushed_of_apnsStep within ?_
    cases action <;> first | rfl | simp [WorkerThread.performs, WithFeedback.Action.kind] at performs
  | startFeedback | joinFeedback =>
    obtain ⟨_, rfl⟩ := Option.ite_none_right_eq_some.mp stepped |>.imp_right Option.some.inj
    exact ⟨rfl, rfl⟩
  | feedback reply =>
    obtain ⟨_, _, rfl⟩ := Option.map_eq_some_iff.mp stepped
    exact ⟨rfl, rfl⟩

theorem Queued.carryOut (queued : t.Queued) (event : Event Call Answer) (pc : Pc) :
    (t.carryOut event pc).Queued := by
  obtain ⟨asked, returned⟩ := queued
  refine ⟨?_, ?_⟩
  · rw [trace_carryOut, notifications_append, ← asked]
    obtain ⟨call, answer⟩ := event
    cases call with
    | push message => exact List.map_append
    | _ => exact (List.append_nil _).symm
  · obtain ⟨call, answer⟩ := event
    cases call with
    | push message => exact congrArg (· ++ _) returned
    | _ => exact returned

theorem Queued.change (queued : t.Queued) (change : Change lib maxQueue done t action t') :
    t'.Queued := by
  cases change with
  | constructs hpc r => exact queued.carryOut _ _
  | calls hpc r => exact queued.carryOut _ _
  | wakes hpc => exact ⟨by rw [trace_slept]; exact queued.asked, queued.returned⟩
  | apns action performs apns stepped =>
    obtain ⟨pushed, returned⟩ := pushed_of_performed performs stepped
    refine ⟨?_, ?_⟩
    · simp only [pushed]
      exact queued.asked
    · simp only [pushed, returned]
      exact queued.returned
  | constructed | started | leaves | runs | returns | destroys | stopped | deletesApns | deletesStore
  | deletesStomp => exact ⟨queued.asked, queued.returned⟩

end WorkerThread
end ApnsPusher
