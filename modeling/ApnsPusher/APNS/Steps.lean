import ApnsPusher.APNS
import ApnsPusher.Dispatch.Fifo

/-!
# What a step can do

All the steps of a thread and of the system, and the queue they add up to: one
FIFO whose consumers are the threads.
-/
namespace ApnsPusher.APNS

open Dispatch

/-! ### Threads -/

/-- The message between `dequeue` and `add`. -/
def SslThread.hand (t : SslThread) : List Message :=
  match t.pc with
  | .add msg => [msg]
  | _ => []

/-- What a thread has taken from the queue. -/
def SslThread.taken (t : SslThread) : List Message := t.added ++ t.hand

/-- The steps of a thread, with the queue and the thread they lead to. -/
inductive SslThread.Moves (maxQueue : Int) (done : Bool) (q : List Message) (t : SslThread) :
    List Message → SslThread → Prop
  | leaves (hpc : t.pc = .isDone) (told : done = true) :
      Moves maxQueue done q t q { t with pc := .exited }
  | stays (hpc : t.pc = .isDone) (untold : done = false) :
      Moves maxQueue done q t q { t with pc := .sendQueueSize }
  | room (hpc : t.pc = .sendQueueSize) (below : t.sendQueueSize < toSizeT maxQueue) :
      Moves maxQueue done q t q { t with pc := .dequeue }
  | full (hpc : t.pc = .sendQueueSize) (above : ¬ t.sendQueueSize < toSizeT maxQueue) :
      Moves maxQueue done q t q { t with pc := .run }
  | empty (hpc : t.pc = .dequeue) (none : q = []) : Moves maxQueue done q t q { t with pc := .run }
  | takes (hpc : t.pc = .dequeue) (msg : Message) (rest : List Message) (front : q = msg :: rest) :
      Moves maxQueue done q t rest { t with pc := .add msg }
  | adds (msg : Message) (hpc : t.pc = .add msg) : Moves maxQueue done q t q { t with
      pc := .sendQueueSize
      sendQueueSize := t.sendQueueSize + 1
      added := t.added ++ [msg] }
  | runs (hpc : t.pc = .run) (sent : Nat) : Moves maxQueue done q t q { t with
      pc := .usleep
      sendQueueSize := t.sendQueueSize - sent }
  | wakes (hpc : t.pc = .usleep) : Moves maxQueue done q t q { t with pc := .isDone }

theorem SslThread.moves_of_step {maxQueue : Int} {done : Bool} {sent : Nat} {q q' : List Message}
    {t t' : SslThread} (stepped : SslThread.step maxQueue done sent q t = some (q', t')) :
    SslThread.Moves maxQueue done q t q' t' := by
  unfold SslThread.step at stepped
  split at stepped
  next => cases stepped
  next => cases stepped
  next hpc =>
    split at stepped
    next told =>
      cases stepped
      exact .leaves hpc told
    next untold =>
      cases stepped
      exact .stays hpc (by simpa using untold)
  next hpc =>
    split at stepped
    next below =>
      cases stepped
      exact .room hpc below
    next above =>
      cases stepped
      exact .full hpc above
  next hpc =>
    split at stepped
    next =>
      cases stepped
      exact .empty hpc rfl
    next msg rest =>
      cases stepped
      exact .takes hpc msg q' rfl
  next msg hpc =>
    cases stepped
    exact .adds msg hpc
  next hpc =>
    cases stepped
    exact .runs hpc sent
  next hpc =>
    cases stepped
    exact .wakes hpc

/-- A thread leaves the queue alone, or takes its front, and then it has room. -/
theorem SslThread.Moves.taken {maxQueue : Int} {done : Bool} {q q' : List Message}
    {t t' : SslThread} (moves : SslThread.Moves maxQueue done q t q' t') :
    (q' = q ∧ t'.taken = t.taken) ∨
      ∃ msg, q = msg :: q' ∧ t'.taken = t.taken ++ [msg] ∧ t.pc = .dequeue ∧ t'.pc = .add msg := by
  cases moves with
  | takes hpc msg rest front =>
    exact Or.inr ⟨msg, front, by simp [SslThread.taken, hand, hpc], hpc, rfl⟩
  | adds msg hpc => exact Or.inl ⟨rfl, by simp [SslThread.taken, hand, hpc]⟩
  | leaves hpc | stays hpc | room hpc | full hpc | empty hpc | runs hpc | wakes hpc =>
    exact Or.inl ⟨rfl, by simp [SslThread.taken, hand, hpc]⟩

theorem SslThread.Moves.done_of_exited {maxQueue : Int} {done : Bool} {q q' : List Message}
    {t t' : SslThread} (moves : SslThread.Moves maxQueue done q t q' t') (exited : t'.pc = .exited) :
    done = true := by
  cases moves with
  | leaves _ told => exact told
  | stays | room | full | empty | takes | adds | runs | wakes => cases exited

/-! ### The system -/

variable {n : Nat} {maxQueue : Int} {s s' : APNS n}

inductive Change (maxQueue : Int) (s : APNS n) : APNS n → Prop
  | starts (more : s.created < n) : Change maxQueue s
      { s.setThread ⟨s.created, more⟩ { s.threads ⟨s.created, more⟩ with pc := .isDone } with
        sslThreads := insert ⟨s.created, more⟩ s.sslThreads
        created := s.created + 1 }
  | pushes (message : ApnsMessage) : Change maxQueue s (s.push message)
  | pushReturns (msg : Message) (queued : msg ∈ s.pushed) :
      Change maxQueue s { s with returned := s.returned ++ [msg] }
  | thread (i : Fin n) (q : List Message) (t : SslThread)
      (moves : SslThread.Moves maxQueue s.done s.messageQ (s.threads i) q t) :
      Change maxQueue s { s.setThread i t with messageQ := q }
  | stops (first : s.stop = .notCalled) (started : s.created = n) :
      Change maxQueue s { s with stop := .setDone, beforeStop := s.returned }
  | tells (called : s.stop = .setDone) : Change maxQueue s { s with stop := .joining, done := true }
  | joins (i : Fin n) (told : s.stop = .joining) (exited : (s.threads i).pc = .exited) :
      Change maxQueue s { s with sslThreads := s.sslThreads.erase i }
  | returns (told : s.stop = .joining) (all : s.sslThreads = ∅) :
      Change maxQueue s { s with stop := .returned }

theorem change_of_step (step : Step maxQueue s s') : Change maxQueue s s' := by
  obtain ⟨action, stepped⟩ := step
  cases action with
  | start =>
    simp only [APNS.step, start] at stepped
    split at stepped
    next more =>
      cases stepped
      exact .starts more
    next => cases stepped
  | push message =>
    cases stepped
    exact .pushes message
  | pushReturns msg =>
    obtain ⟨⟨queued, _⟩, rfl⟩ := Option.ite_none_right_eq_some.mp stepped |>.imp_right Option.some.inj
    exact .pushReturns msg queued
  | thread i sent =>
    obtain ⟨⟨q, t⟩, moved, rfl⟩ := Option.map_eq_some_iff.mp stepped
    exact .thread i q t (SslThread.moves_of_step moved)
  | stop =>
    obtain ⟨⟨first, started⟩, rfl⟩ := Option.ite_none_right_eq_some.mp stepped |>.imp_right Option.some.inj
    exact .stops first started
  | setDone =>
    obtain ⟨called, rfl⟩ := Option.ite_none_right_eq_some.mp stepped |>.imp_right Option.some.inj
    exact .tells called
  | join i =>
    obtain ⟨⟨told, _, exited⟩, rfl⟩ := Option.ite_none_right_eq_some.mp stepped |>.imp_right Option.some.inj
    exact .joins i told exited
  | stopReturns =>
    obtain ⟨⟨told, all⟩, rfl⟩ := Option.ite_none_right_eq_some.mp stepped |>.imp_right Option.some.inj
    exact .returns told all

/-- An invariant of every step is one of every run. -/
theorem Reachable.invariant (reachable : Reachable maxQueue s) (I : APNS n → Prop)
    (base : I (initial n))
    (change : ∀ s s', Reachable maxQueue s → Change maxQueue s s' → I s → I s') : I s := by
  induction reachable with
  | refl => exact base
  | tail before step ih => exact change _ _ before (change_of_step step) ih

@[simp] theorem setThread_self (i : Fin n) (t : SslThread) : (s.setThread i t).threads i = t :=
  Function.update_self ..

@[simp] theorem setThread_of_ne {i j : Fin n} (other : j ≠ i) (t : SslThread) :
    (s.setThread i t).threads j = s.threads j :=
  Function.update_of_ne other ..

@[simp] theorem setThread_done (i : Fin n) (t : SslThread) : (s.setThread i t).done = s.done := rfl

/-- Threads that `start` has not come to hold nothing. -/
theorem uncreated_of_reachable (reachable : Reachable maxQueue s) :
    ∀ i : Fin n, s.created ≤ i → (s.threads i).pc = .notCreated := by
  refine reachable.invariant (fun s => ∀ i : Fin n, s.created ≤ i → (s.threads i).pc = .notCreated)
    (fun _ _ => rfl) ?_
  intro s s' _ change uncreated i later
  cases change with
  | starts more =>
    have other : i ≠ ⟨s.created, more⟩ := by
      rintro rfl
      exact absurd later (by simp)
    have before : s.created ≤ i := Nat.le_of_succ_le later
    simpa [other] using uncreated i before
  | pushes | pushReturns | stops | tells | joins | returns => exact uncreated i later
  | thread j q t moves =>
    have idle := uncreated i later
    -- a thread that does not exist takes no step
    have other : i ≠ j := by
      rintro rfl
      cases moves <;> simp_all
    simpa [other] using idle

/-! ### One FIFO -/

/-- The queue and what the threads have taken from it. -/
def fifo (s : APNS n) : Fifo (Fin n) Message :=
  ⟨s.pushed, s.messageQ, fun i => (s.threads i).taken⟩

theorem fifo_change (change : Change maxQueue s s')
    (uncreated : ∀ i : Fin n, s.created ≤ i → (s.threads i).pc = .notCreated) :
    s'.fifo = s.fifo ∨ Fifo.Step s.fifo s'.fifo := by
  have updated (i : Fin n) (t : SslThread) : (fun j => ((s.setThread i t).threads j).taken) =
      Function.update (fun j => (s.threads j).taken) i t.taken := by
    funext j
    by_cases same : j = i
    · subst same
      simp
    · simp [same]
  cases change with
  | starts more =>
    left
    -- a thread starts with empty hands
    have idle := uncreated ⟨s.created, more⟩ (Nat.le_refl _)
    have same : { s.threads ⟨s.created, more⟩ with pc := .isDone : SslThread }.taken =
        (s.threads ⟨s.created, more⟩).taken := by
      simp [SslThread.taken, SslThread.hand, idle]
    simp only [fifo, Fifo.mk.injEq]
    exact ⟨rfl, rfl, by rw [updated, same, Function.update_eq_self]⟩
  | pushes message => exact Or.inr (.push _)
  | pushReturns | stops | tells | joins | returns => exact Or.inl rfl
  | thread i q t moves =>
    rcases moves.taken with ⟨rfl, same⟩ | ⟨msg, front, more, _, _⟩
    · left
      simp only [fifo, Fifo.mk.injEq]
      exact ⟨rfl, trivial, by rw [updated, same, Function.update_eq_self]⟩
    · right
      have step : Fifo.Step s.fifo _ := .take i msg q front
      have next : { s.setThread i t with messageQ := q }.fifo =
          { s.fifo with
            queue := q
            taken := Function.update s.fifo.taken i (s.fifo.taken i ++ [msg]) } := by
        simp only [fifo, Fifo.mk.injEq]
        exact ⟨rfl, trivial, by rw [updated, more]⟩
      exact next ▸ step

/-- The system refines the queue: its runs are runs of the FIFO. -/
theorem fifo_of_reachable (reachable : Reachable maxQueue s) :
    Relation.ReflTransGen Fifo.Step Fifo.empty s.fifo := by
  induction reachable with
  | refl => exact .refl
  | tail before step ih =>
    rcases fifo_change (change_of_step step) (uncreated_of_reachable before) with same | next
    · exact same ▸ ih
    · exact ih.tail next

/-- No object is pushed twice. -/
theorem pushed_nodup (reachable : Reachable maxQueue s) : s.pushed.Nodup := by
  have serials : s.pushed.map Message.serial = List.range s.pushed.length := by
    refine reachable.invariant
      (fun s => s.pushed.map Message.serial = List.range s.pushed.length) rfl ?_
    intro s s' _ change serials
    cases change with
    | pushes message =>
      simp only [push, List.map_append, serials, List.length_append, List.map_cons, List.map_nil,
        List.length_singleton, List.range_succ]
    | starts | pushReturns | thread | stops | tells | joins | returns => exact serials
  exact List.Nodup.of_map Message.serial (serials ▸ List.nodup_range)

end ApnsPusher.APNS
