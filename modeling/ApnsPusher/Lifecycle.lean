import ApnsPusher.Effects.Prog
import Mathlib.Data.Finset.Max
import Mathlib.Data.Finset.Lattice.Basic

/-!
# Starting and joining threads

The application keeps the ids of its worker threads in a deque, the APNS object
those of its SSL threads in a set, and each joins what its container holds. Whether
these are the threads that run depends on what became of every `pthread_create`.
-/
namespace ApnsPusher.Lifecycle

open Effects

inductive Routine where
  | workerThread
  | sslThread
  | feedbackThread
  deriving DecidableEq

inductive Call where
  /-- `pthread_create`, answered with the id of the new thread unless it fails. -/
  | create (routine : Routine)
  | join (tid : Nat)
  /-- The value an id variable holds that was never assigned. -/
  | indeterminate
  deriving DecidableEq

abbrev Answer : Call → Type
  | .create _ => Option Nat
  | .join _ => Unit
  | .indeterminate => Nat

abbrev Program (α : Type) : Type := Prog Call Answer α

abbrev Trace : Type := List (Event Call Answer)

/-- `pthread_create(&tid, ...)`: the id variable afterwards. -/
def create (routine : Routine) (tid : Nat) : Program Nat := do
  let reply : Option Nat ← .perform (Call.create routine)
  return reply.getD tid

namespace App

/-- The loop `for(int i=0; i < num_workers; i++)`, with a variable of its own in each turn. -/
def startWorkers : Nat → List Nat → Program (List Nat)
  | 0, workers => return workers
  | n + 1, workers => do
    let threadId : Nat ← .perform Call.indeterminate
    let threadId ← create .workerThread threadId
    startWorkers n (workers ++ [threadId])

def onInitializeThreads (numWorkers : Int) (workers : List Nat) : Program (List Nat) :=
  startWorkers numWorkers.toNat workers

/-- The loop `while(!_workers.empty())`. -/
def onDeinitializeThreads : List Nat → Program (List Nat)
  | [] => return []
  | threadId :: rest => do
    Prog.perform (Call.join threadId)
    onDeinitializeThreads rest

end App

namespace APNS

/-- The loop over the SSL threads, which share one id variable. -/
def startSslThreads : Nat → Nat → Finset Nat → Program (Nat × Finset Nat)
  | 0, tid, sslThreads => return (tid, sslThreads)
  | n + 1, tid, sslThreads => do
    let tid ← create .sslThread tid
    startSslThreads n tid (insert tid sslThreads)

def start (numThreads : Nat) (enableFeedback : Bool) (sslThreads : Finset Nat) :
    Program (Finset Nat) := do
  let tid : Nat ← .perform Call.indeterminate
  let (tid, sslThreads) ← startSslThreads numThreads tid sslThreads
  if enableFeedback then
    let tid ← create .feedbackThread tid
    return insert tid sslThreads
  return sslThreads

/-- The loop `while(!_sslThreads.empty())` of `stop`. -/
def stop (sslThreads : Finset Nat) : Program (Finset Nat) :=
  if nonempty : sslThreads.Nonempty then do
    Prog.perform (Call.join (sslThreads.min' nonempty))
    stop (sslThreads.erase (sslThreads.min' nonempty))
  else return sslThreads
termination_by sslThreads.card
decreasing_by exact Finset.card_erase_lt_of_mem (sslThreads.min'_mem nonempty)

end APNS

/-! ### What a run shows -/

/-- What became of each `pthread_create`, in order. -/
def attempts (tr : Trace) : List (Option Nat) :=
  tr.filterMap fun
    | ⟨.create _, reply⟩ => some reply
    | _ => none

/-- The ids of the threads that were created. -/
def started (tr : Trace) : List Nat := (attempts tr).filterMap id

def joined (tr : Trace) : List Nat :=
  tr.filterMap fun
    | ⟨.join tid, _⟩ => some tid
    | _ => none

@[simp] theorem attempts_append (tr tr' : Trace) :
    attempts (tr ++ tr') = attempts tr ++ attempts tr' :=
  List.filterMap_append

@[simp] theorem started_append (tr tr' : Trace) :
    started (tr ++ tr') = started tr ++ started tr' := by
  rw [started, attempts_append, List.filterMap_append]
  rfl

/-- The joined ids are those of the created threads, each once. -/
structure Matched (started joined : List Nat) : Prop where
  same : ∀ tid, tid ∈ joined ↔ tid ∈ started
  once : joined.Nodup

/-! ### The workers -/

namespace App

/-- One turn for each attempt: the id of the thread, or what was in the variable. -/
theorem startWorkers_post (n : Nat) (workers : List Nat) :
    Prog.Post (startWorkers n workers) fun tr workers' => ∃ ids : List Nat,
      workers' = workers ++ ids ∧ ids.length = (attempts tr).length ∧
        ((∀ reply ∈ attempts tr, reply ≠ none) → ids = started tr) := by
  induction n generalizing workers with
  | zero => exact ⟨[], (List.append_nil workers).symm, rfl, fun _ => rfl⟩
  | succ n ih =>
    intro garbage reply
    apply Prog.post_mono _ (ih (workers ++ [reply.getD garbage]))
    rintro tr _ ⟨ids, rfl, counted, matched⟩
    -- one id for each attempt, created or not
    refine ⟨reply.getD garbage :: ids, by simp, congrArg (· + 1) counted, fun succeeded => ?_⟩
    have rest := matched fun reply' member => succeeded reply' (List.mem_cons_of_mem _ member)
    cases reply with
    | none => exact absurd rfl (succeeded none (List.mem_cons_self ..))
    | some tid => exact congrArg (tid :: ·) rest

theorem onDeinitializeThreads_post (workers : List Nat) :
    Prog.Post (onDeinitializeThreads workers) fun tr left => left = [] ∧ joined tr = workers := by
  induction workers with
  | nil => exact ⟨rfl, rfl⟩
  | cons threadId rest ih =>
    intro _
    apply Prog.post_mono _ ih
    rintro tr _ ⟨rfl, same⟩
    exact ⟨rfl, congrArg (threadId :: ·) same⟩

/-- As many threads as attempts means that every attempt succeeded. -/
theorem succeeded_of_length {tr : Trace} (all : (attempts tr).length ≤ (started tr).length) :
    ∀ reply ∈ attempts tr, reply ≠ none := by
  rintro _ member rfl
  have fewer : (started tr).length < (attempts tr).length := by
    unfold started
    exact List.length_filterMap_lt_length_iff_exists.mpr ⟨none, member, rfl⟩
  omega

theorem matched_iff {numWorkers : Int} {workers left : List Nat} {up down : Trace}
    (starts : Prog.Runs (onInitializeThreads numWorkers []) up workers)
    (joins : Prog.Runs (onDeinitializeThreads workers) down left) (distinct : (started up).Nodup) :
    (Matched (started up) (joined down) ∧ left = []) ↔ ∀ reply ∈ attempts up, reply ≠ none := by
  obtain ⟨ids, same, counted, matched⟩ := starts.post (startWorkers_post numWorkers.toNat [])
  obtain ⟨empty, inOrder⟩ := joins.post (onDeinitializeThreads_post workers)
  rw [List.nil_append] at same
  rw [inOrder, same]
  constructor
  · rintro ⟨⟨same, once⟩, _⟩
    refine succeeded_of_length ?_
    -- both lists are free of repetitions, so having the same elements they are as long
    have perm := (List.perm_ext_iff_of_nodup once distinct).mpr same
    rw [← counted, perm.length_eq]
  · intro succeeded
    rw [matched succeeded]
    exact ⟨⟨fun _ => Iff.rfl, distinct⟩, empty⟩

end App

/-! ### The SSL threads -/

namespace APNS

/-- A stretch of `pthread_create` calls on one variable, each followed by an insertion. -/
structure Inserts (tid : Nat) (s : Finset Nat) (tr : Trace) (tid' : Nat) (s' : Finset Nat) : Prop where
  held : ∀ x, x ∈ s' ↔ x ∈ s ∨ x ∈ started tr ∨ ((attempts tr).head? = some none ∧ x = tid)
  unused : attempts tr = [] → tid' = tid
  carried : attempts tr ≠ [] → tid' ∈ s'

theorem Inserts.refl (tid : Nat) (s : Finset Nat) : Inserts tid s [] tid s where
  held x := by simp [started, attempts]
  unused _ := rfl
  carried nonempty := absurd rfl nonempty

theorem Inserts.one (tid : Nat) (s : Finset Nat) (routine : Routine) (reply : Option Nat) :
    Inserts tid s [⟨.create routine, reply⟩] (reply.getD tid) (insert (reply.getD tid) s) where
  held x := by cases reply <;> simp [started, attempts, or_comm]
  unused none := by simp [attempts] at none
  carried _ := Finset.mem_insert_self _ _

theorem Inserts.trans {tid mid tid' : Nat} {s m s' : Finset Nat} {tr tr' : Trace}
    (first : Inserts tid s tr mid m) (second : Inserts mid m tr' tid' s') :
    Inserts tid s (tr ++ tr') tid' s' := by
  cases before : attempts tr with
  | nil =>
    obtain rfl := first.unused before
    have same (x : Nat) : x ∈ m ↔ x ∈ s := by simp [first.held x, started, before]
    refine ⟨fun x => ?_, ?_, ?_⟩
    · rw [second.held x, same, started_append, attempts_append, before, List.nil_append]
      simp [started, before]
    · rw [attempts_append, before, List.nil_append]
      exact second.unused
    · rw [attempts_append, before, List.nil_append]
      exact second.carried
  | cons reply rest =>
    have inserted : mid ∈ m := first.carried (by simp [before])
    refine ⟨fun x => ?_, fun none => by simp [before] at none, fun _ => ?_⟩
    -- a failed creation inserts again what is in the set already
    · have again : (attempts tr').head? = some none ∧ x = mid → x ∈ m := by
        rintro ⟨_, rfl⟩
        exact inserted
      have head : (attempts (tr ++ tr')).head? = (attempts tr).head? := by simp [before]
      have either : x ∈ s' ↔ x ∈ m ∨ x ∈ started tr' := by
        rw [second.held x]
        exact ⟨fun held => held.elim Or.inl (Or.symm ∘ Or.imp_right again),
          fun held => held.imp_right Or.inl⟩
      rw [either, first.held x, head, started_append, List.mem_append]
      tauto
    · by_cases more : attempts tr' = []
      · rw [second.unused more]
        exact (second.held mid).mpr (Or.inl inserted)
      · exact second.carried more

theorem create_inserts (routine : Routine) (tid : Nat) (s : Finset Nat) :
    Prog.Post (create routine tid) fun tr tid' => Inserts tid s tr tid' (insert tid' s) :=
  fun reply => .one tid s routine reply

theorem startSslThreads_inserts (n tid : Nat) (s : Finset Nat) :
    Prog.Post (startSslThreads n tid s) fun tr result => Inserts tid s tr result.1 result.2 := by
  induction n generalizing tid s with
  | zero => exact .refl tid s
  | succ n ih =>
    unfold startSslThreads
    rw [Prog.post_bind]
    apply Prog.post_mono _ (create_inserts .sslThread tid s)
    intro tr tid' first
    apply Prog.post_mono _ (ih tid' (insert tid' s))
    exact fun tr' result second => first.trans second

theorem start_inserts (numThreads : Nat) (enableFeedback : Bool) :
    Prog.Post (start numThreads enableFeedback ∅) fun tr s => ∃ garbage rest tid,
      tr = ⟨.indeterminate, garbage⟩ :: rest ∧ Inserts garbage ∅ rest tid s := by
  simp only [start, Prog.perform_bind, Prog.post_call]
  intro garbage
  rw [Prog.post_bind]
  apply Prog.post_mono _ (startSslThreads_inserts numThreads garbage ∅)
  rintro tr ⟨tid, s⟩ inserts
  dsimp only
  split
  · rw [Prog.post_bind]
    apply Prog.post_mono _ (create_inserts .feedbackThread tid s)
    intro tr' tid' last
    exact ⟨garbage, _, tid', by simp, inserts.trans last⟩
  · exact ⟨garbage, tr, tid, by simp, inserts⟩

/-- The loop takes the smallest id out until none is left. -/
theorem stop_post (s : Finset Nat) : Prog.Post (stop s) fun tr left =>
    left = ∅ ∧ (joined tr).Nodup ∧ ∀ tid, tid ∈ joined tr ↔ tid ∈ s := by
  induction s using stop.induct with
  | case1 s nonempty ih =>
    unfold stop
    rw [dif_pos nonempty]
    intro _
    apply Prog.post_mono _ ih
    rintro tr left ⟨rfl, once, same⟩
    -- the id joined now is erased, so the rest of the loop does not join it
    have fresh : s.min' nonempty ∉ joined tr := by
      rw [same]
      exact Finset.notMem_erase _ _
    refine ⟨rfl, List.nodup_cons.mpr ⟨fresh, once⟩, fun tid => ?_⟩
    change tid ∈ s.min' nonempty :: joined tr ↔ tid ∈ s
    rw [List.mem_cons, same, Finset.mem_erase]
    by_cases least : tid = s.min' nonempty
    · simp [least, s.min'_mem nonempty]
    · simp [least]
  | case2 s none =>
    unfold stop
    rw [dif_neg none]
    obtain rfl := Finset.not_nonempty_iff_eq_empty.mp none
    exact ⟨rfl, List.nodup_nil, by simp [joined]⟩

/-- The variable held the id of a created thread before it was ever assigned. -/
def HeldStarted (tr : Trace) : Prop :=
  ∃ garbage : Nat, tr.head? = some ⟨.indeterminate, garbage⟩ ∧ garbage ∈ started tr

theorem matched_iff {numThreads : Nat} {enableFeedback : Bool} {s left : Finset Nat}
    {up down : Trace} (starts : Prog.Runs (start numThreads enableFeedback ∅) up s)
    (stops : Prog.Runs (stop s) down left) :
    (Matched (started up) (joined down) ∧ left = ∅) ↔
      (attempts up).head? ≠ some none ∨ HeldStarted up := by
  obtain ⟨garbage, rest, tid, rfl, inserts⟩ := starts.post (start_inserts numThreads enableFeedback)
  obtain ⟨empty, once, same⟩ := stops.post (stop_post s)
  have held (x : Nat) : x ∈ joined down ↔
      x ∈ started rest ∨ ((attempts rest).head? = some none ∧ x = garbage) := by
    rw [same, inserts.held]
    simp
  -- the first call, whose answer is the garbage, is no attempt and starts nothing
  change (Matched (started rest) (joined down) ∧ left = ∅) ↔
    (attempts rest).head? ≠ some none ∨ HeldStarted (⟨.indeterminate, garbage⟩ :: rest)
  constructor
  · rintro ⟨⟨exactly, _⟩, _⟩
    by_cases failed : (attempts rest).head? = some none
    -- the garbage was inserted and joined, so it must be the id of a created thread
    · exact Or.inr ⟨garbage, rfl, (exactly garbage).mp ((held _).mpr (Or.inr ⟨failed, rfl⟩))⟩
    · exact Or.inl failed
  · intro fine
    refine ⟨⟨fun x => ?_, once⟩, empty⟩
    rw [held]
    constructor
    · rintro (new | ⟨failed, rfl⟩)
      · exact new
      · obtain ⟨_, first, created⟩ := fine.resolve_left (not_not_intro failed)
        cases first
        exact created
    · exact Or.inl

end APNS

/-- For both pairs of functions: exactly the threads that were created are joined,
each once, in the runs where no failed creation leaves its mark in a container. -/
theorem joined_iff (numWorkers : Int) (workers left : List Nat) (up down : Trace)
    (starts : Prog.Runs (App.onInitializeThreads numWorkers []) up workers)
    (joins : Prog.Runs (App.onDeinitializeThreads workers) down left)
    (distinct : (started up).Nodup)
    (numThreads : Nat) (enableFeedback : Bool) (sslThreads left' : Finset Nat) (up' down' : Trace)
    (starts' : Prog.Runs (APNS.start numThreads enableFeedback ∅) up' sslThreads)
    (stops : Prog.Runs (APNS.stop sslThreads) down' left') :
    ((Matched (started up) (joined down) ∧ left = []) ↔ ∀ reply ∈ attempts up, reply ≠ none) ∧
      ((Matched (started up') (joined down') ∧ left' = ∅) ↔
        (attempts up').head? ≠ some none ∨ APNS.HeldStarted up') :=
  ⟨App.matched_iff starts joins distinct, APNS.matched_iff starts' stops⟩

/-- A creation fails where `fails` holds of its place among the calls, and else gives
out the number after it; `7` is in every variable. -/
def numberedAnswers (fails : Nat → Bool) : (call : Call) → Nat → Answer call
  | .create _, n => if fails n then none else some (n + 1)
  | .join _, _ => ()
  | .indeterminate, _ => (7 : Nat)

/-- Two workers, both created. -/
def playWorkers : Trace × List Nat :=
  Prog.play (numberedAnswers fun _ => false) 0 (App.onInitializeThreads 2 [])

def playJoins : Trace × List Nat :=
  Prog.play (numberedAnswers fun _ => false) 0 (App.onDeinitializeThreads playWorkers.2)

/-- Three SSL threads, of which the second is not created, and the feedback thread. -/
def playSslThreads : Trace × Finset Nat :=
  Prog.play (numberedAnswers (· == 2)) 0 (APNS.start 3 true ∅)

def playStop : Trace × Finset Nat :=
  Prog.play (numberedAnswers fun _ => false) 0 (APNS.stop playSslThreads.2)

theorem joined_iff_secondSslFails :
    attempts playWorkers.1 = [some 2, some 4] ∧
    attempts playSslThreads.1 = [some 2, none, some 4, some 5] ∧
    ((Matched (started playWorkers.1) (joined playJoins.1) ∧ playJoins.2 = []) ↔
      ∀ reply ∈ attempts playWorkers.1, reply ≠ none) ∧
    ((Matched (started playSslThreads.1) (joined playStop.1) ∧ playStop.2 = ∅) ↔
      (attempts playSslThreads.1).head? ≠ some none ∨ APNS.HeldStarted playSslThreads.1) :=
  ⟨by decide, by decide, joined_iff 2 _ _ _ _ (Prog.play_runs _ 0 _) (Prog.play_runs _ 0 _)
    (by decide) 3 true _ _ _ _ (Prog.play_runs _ 0 _) (Prog.play_runs _ 0 _)⟩

/-- The only worker is not created, and what was in its variable is joined. -/
theorem failedWorker_joined : ¬ ∀ (numWorkers : Int) (workers left : List Nat) (up down : Trace),
    Prog.Runs (App.onInitializeThreads numWorkers []) up workers →
    Prog.Runs (App.onDeinitializeThreads workers) down left →
    (started up).Nodup → Matched (started up) (joined down) ∧ left = [] := by
  intro matched
  have joins := (matched 1 _ _ _ _ (Prog.play_runs (numberedAnswers fun _ => true) 0 _)
    (Prog.play_runs (numberedAnswers fun _ => true) 0 _) (by decide)).1
  have absent := (joins.same 7).mp (by decide)
  exact absurd absent (by decide)

end ApnsPusher.Lifecycle
