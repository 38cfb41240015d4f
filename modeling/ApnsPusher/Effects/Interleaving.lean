import ApnsPusher.Effects.Prog
import Mathlib.Logic.Relation
import Mathlib.Logic.Function.Basic

/-!
# Interleaved operations over shared state

Any number of threads each run operations one after another. An operation is a
program; its calls are answered by a shared state, one call at a time, in any
order across the threads, and the shared state may also drift on its own. The
log keeps every answered call, so that what one operation did is the part of
the log that carries its name, and that part is a run of its program.
-/
namespace Effects

/-- `prog o l` is operation `o` started from the thread state `l`; `serves` is
how the shared state answers a call of a named operation. -/
structure Machine (ι E : Type) (R : E → Type) (σ Op L Out : Type) where
  prog : Op → L → Prog E R (Out × L)
  serves : ι × Nat → σ → Event E R → σ → Prop
  drifts : σ → σ → Prop

/-- A thread with the number of operations it has finished and the rest of the
one it is in. -/
structure Thread (E : Type) (R : E → Type) (Op L Out : Type) where
  state : L
  finished : Nat
  current : Option (Op × Prog E R (Out × L))

/-- An answered call, the operation that made it and the shared state it found. -/
structure Entry (ι E : Type) (R : E → Type) (σ Op : Type) where
  id : ι × Nat
  op : Op
  event : Event E R
  found : σ

structure Returned (ι Op Out : Type) where
  id : ι × Nat
  op : Op
  out : Out

structure Config (ι E : Type) (R : E → Type) (σ Op L Out : Type) where
  shared : σ
  threads : ι → Thread E R Op L Out
  log : List (Entry ι E R σ Op)
  returned : List (Returned ι Op Out)

variable {ι E : Type} {R : E → Type} {σ Op L Out : Type}

/-- The calls of one operation, oldest first. -/
def own [DecidableEq ι] (log : List (Entry ι E R σ Op)) (id : ι × Nat) : List (Event E R) :=
  (log.filter fun entry => entry.id = id).map Entry.event

def Config.initial (shared : σ) (state : ι → L) : Config ι E R σ Op L Out :=
  ⟨shared, fun i => ⟨state i, 0, none⟩, [], []⟩

section Own

variable [DecidableEq ι]

@[simp] theorem own_nil (id : ι × Nat) : own ([] : List (Entry ι E R σ Op)) id = [] := rfl

@[simp] theorem own_append (front back : List (Entry ι E R σ Op)) (id : ι × Nat) :
    own (front ++ back) id = own front id ++ own back id := by
  simp only [own, List.filter_append, List.map_append]

theorem own_self (id : ι × Nat) (op : Op) (event : Event E R) (found : σ) :
    own [⟨id, op, event, found⟩] id = [event] := by
  simp [own]

theorem own_other (entry : Entry ι E R σ Op) (id : ι × Nat) (other : entry.id ≠ id) :
    own [entry] id = [] := by
  simp [own, other]

theorem own_of_all {log : List (Entry ι E R σ Op)} {id : ι × Nat}
    (all : ∀ entry ∈ log, entry.id = id) : own log id = log.map Entry.event := by
  rw [own, List.filter_eq_self.mpr]
  intro entry member
  simp [all entry member]

theorem own_of_none {log : List (Entry ι E R σ Op)} {id : ι × Nat}
    (none : ∀ entry ∈ log, entry.id ≠ id) : own log id = [] := by
  simp only [own, List.map_eq_nil_iff, List.filter_eq_nil_iff, decide_eq_true_eq]
  exact none

theorem mem_own (log : List (Entry ι E R σ Op)) (id : ι × Nat) (event : Event E R) :
    event ∈ own log id ↔ ∃ entry ∈ log, entry.id = id ∧ entry.event = event := by
  simp [own, and_assoc]

end Own

namespace Machine

variable [DecidableEq ι] (m : Machine ι E R σ Op L Out)

inductive Step : Config ι E R σ Op L Out → Config ι E R σ Op L Out → Prop
  | start (c : Config ι E R σ Op L Out) (i : ι) (op : Op)
      (idle : (c.threads i).current = none) :
      Step c { c with
        threads := Function.update c.threads i
          { c.threads i with current := some (op, m.prog op (c.threads i).state) } }
  | call (c : Config ι E R σ Op L Out) (i : ι) (op : Op) (e : E) (k : R e → Prog E R (Out × L))
      (r : R e) (shared : σ)
      (running : (c.threads i).current = some (op, .call e k))
      (served : m.serves (i, (c.threads i).finished) c.shared ⟨e, r⟩ shared) :
      Step c { c with
        shared := shared
        threads := Function.update c.threads i { c.threads i with current := some (op, k r) }
        log := c.log ++ [⟨(i, (c.threads i).finished), op, ⟨e, r⟩, c.shared⟩] }
  | finish (c : Config ι E R σ Op L Out) (i : ι) (op : Op) (out : Out) (state : L)
      (running : (c.threads i).current = some (op, .ret (out, state))) :
      Step c { c with
        threads := Function.update c.threads i ⟨state, (c.threads i).finished + 1, none⟩
        returned := c.returned ++ [⟨(i, (c.threads i).finished), op, out⟩] }
  | drift (c : Config ι E R σ Op L Out) (shared : σ) (drifted : m.drifts c.shared shared) :
      Step c { c with shared := shared }

def Reachable (shared : σ) (state : ι → L) (c : Config ι E R σ Op L Out) : Prop :=
  Relation.ReflTransGen m.Step (Config.initial shared state) c

/-- The log and the threads tell the same story. -/
structure Traced (c : Config ι E R σ Op L Out) : Prop where
  running : ∀ i op p, (c.threads i).current = some (op, p) →
    Prog.Reaches (m.prog op (c.threads i).state) (own c.log (i, (c.threads i).finished)) p
  idle : ∀ i, (c.threads i).current = none → own c.log (i, (c.threads i).finished) = []
  later : ∀ i n, (c.threads i).finished < n → own c.log (i, n) = []
  named : ∀ entry ∈ c.log,
    (∃ p, (c.threads entry.id.1).current = some (entry.op, p) ∧
      (c.threads entry.id.1).finished = entry.id.2) ∨
    ∃ r ∈ c.returned, r.id = entry.id ∧ r.op = entry.op
  returned : ∀ r ∈ c.returned, r.id.2 < (c.threads r.id.1).finished ∧
    ∃ before after, Prog.Runs (m.prog r.op before) (own c.log r.id) (r.out, after)

theorem traced_initial (shared : σ) (state : ι → L) :
    m.Traced (Config.initial shared state) where
  running := by intro i op p running; cases running
  idle := by intro i _; rfl
  later := by intro i n _; rfl
  named := by intro entry member; cases member
  returned := by intro r member; cases member

theorem traced_start (c : Config ι E R σ Op L Out) (i : ι) (op : Op)
    (idle : (c.threads i).current = none) (traced : m.Traced c) :
    m.Traced { c with
      threads := Function.update c.threads i
        { c.threads i with current := some (op, m.prog op (c.threads i).state) } } where
  running := by
    intro j op' p running
    by_cases same : j = i
    · subst same
      simp only [Function.update_self, Option.some.injEq, Prod.mk.injEq] at running ⊢
      obtain ⟨rfl, rfl⟩ := running
      -- the operation starts now, so none of the log is its own
      rw [traced.idle j idle]
      exact .refl _
    · simp only [Function.update_of_ne same] at running ⊢
      exact traced.running j op' p running
  idle := by
    intro j none
    by_cases same : j = i
    · subst same
      simp only [Function.update_self, reduceCtorEq] at none
    · simp only [Function.update_of_ne same] at none ⊢
      exact traced.idle j none
  later := by
    intro j n before
    by_cases same : j = i
    · subst same
      exact traced.later j n (by simpa only [Function.update_self] using before)
    · exact traced.later j n (by simpa only [Function.update_of_ne same] using before)
  named := by
    intro entry member
    refine (traced.named entry member).imp_left ?_
    rintro ⟨p, running, count⟩
    have other : entry.id.1 ≠ i := by
      rintro rfl
      simp [idle] at running
    exact ⟨p, by simpa only [Function.update_of_ne other] using ⟨running, count⟩⟩
  returned := by
    intro r member
    refine ⟨?_, (traced.returned r member).2⟩
    by_cases same : r.id.1 = i
    · have bound := (traced.returned r member).1
      subst same
      simpa only [Function.update_self] using bound
    · simpa only [Function.update_of_ne same] using (traced.returned r member).1

theorem traced_call (c : Config ι E R σ Op L Out) (i : ι) (op : Op) (e : E)
    (k : R e → Prog E R (Out × L)) (r : R e) (shared : σ)
    (running : (c.threads i).current = some (op, .call e k)) (traced : m.Traced c) :
    m.Traced { c with
      shared := shared
      threads := Function.update c.threads i { c.threads i with current := some (op, k r) }
      log := c.log ++ [⟨(i, (c.threads i).finished), op, ⟨e, r⟩, c.shared⟩] } where
  running := by
    intro j op' p current
    by_cases same : j = i
    · subst same
      simp only [Function.update_self, Option.some.injEq, Prod.mk.injEq] at current ⊢
      obtain ⟨rfl, rfl⟩ := current
      rw [own_append, own_self]
      exact (traced.running j op _ running).snoc r
    · simp only [Function.update_of_ne same] at current ⊢
      rw [own_append, own_other _ _ (by simp [Ne.symm same]), List.append_nil]
      exact traced.running j op' p current
  idle := by
    intro j none
    by_cases same : j = i
    · subst same
      simp only [Function.update_self, reduceCtorEq] at none
    · simp only [Function.update_of_ne same] at none ⊢
      rw [own_append, own_other _ _ (by simp [Ne.symm same]), List.append_nil]
      exact traced.idle j none
  later := by
    intro j n before
    have count : (c.threads j).finished < n := by
      by_cases same : j = i
      · subst same
        simpa only [Function.update_self] using before
      · simpa only [Function.update_of_ne same] using before
    -- the call belongs to the operation that runs, not to a later one
    have other : (i, (c.threads i).finished) ≠ (j, n) := by
      intro equal
      obtain ⟨rfl, rfl⟩ := Prod.mk.inj equal
      exact Nat.lt_irrefl _ count
    rw [own_append, own_other _ _ other, List.append_nil]
    exact traced.later j n count
  named := by
    intro entry member
    rcases List.mem_append.mp member with old | new
    · refine (traced.named entry old).imp_left ?_
      rintro ⟨p, current, count⟩
      by_cases same : entry.id.1 = i
      · subst same
        rw [running] at current
        obtain ⟨rfl, rfl⟩ := Prod.mk.inj (Option.some.inj current)
        exact ⟨k r, by simpa only [Function.update_self] using ⟨trivial, count⟩⟩
      · exact ⟨p, by simpa only [Function.update_of_ne same] using ⟨current, count⟩⟩
    · obtain rfl := List.mem_singleton.mp new
      exact Or.inl ⟨k r, by simp only [Function.update_self], by simp only [Function.update_self]⟩
  returned := by
    intro r' member
    obtain ⟨bound, before, after, runs⟩ := traced.returned r' member
    -- the running operation is not among the returned ones
    have other : (i, (c.threads i).finished) ≠ r'.id := by
      intro equal
      rw [← equal] at bound
      exact Nat.lt_irrefl _ bound
    refine ⟨?_, before, after, ?_⟩
    · by_cases same : r'.id.1 = i
      · subst same
        simpa only [Function.update_self] using bound
      · simpa only [Function.update_of_ne same] using bound
    · rw [own_append, own_other _ _ other, List.append_nil]
      exact runs

theorem traced_finish (c : Config ι E R σ Op L Out) (i : ι) (op : Op) (out : Out) (state : L)
    (running : (c.threads i).current = some (op, .ret (out, state))) (traced : m.Traced c) :
    m.Traced { c with
      threads := Function.update c.threads i ⟨state, (c.threads i).finished + 1, none⟩
      returned := c.returned ++ [⟨(i, (c.threads i).finished), op, out⟩] } where
  running := by
    intro j op' p current
    by_cases same : j = i
    · subst same
      simp only [Function.update_self, reduceCtorEq] at current
    · simp only [Function.update_of_ne same] at current ⊢
      exact traced.running j op' p current
  idle := by
    intro j none
    by_cases same : j = i
    · subst same
      simp only [Function.update_self]
      exact traced.later j _ (Nat.lt_succ_self _)
    · simp only [Function.update_of_ne same] at none ⊢
      exact traced.idle j none
  later := by
    intro j n before
    by_cases same : j = i
    · subst same
      simp only [Function.update_self] at before
      exact traced.later j n (by omega)
    · exact traced.later j n (by simpa only [Function.update_of_ne same] using before)
  named := by
    intro entry member
    rcases traced.named entry member with ⟨p, current, count⟩ | ⟨r, old, id, same⟩
    · by_cases same : entry.id.1 = i
      -- the operation that returns takes its entries with it
      · right
        subst same
        rw [running] at current
        obtain ⟨rfl, _⟩ := Prod.mk.inj (Option.some.inj current)
        refine ⟨_, List.mem_append_right _ (List.mem_singleton.mpr rfl), ?_, rfl⟩
        exact Prod.ext rfl count
      · exact Or.inl ⟨p, by simpa only [Function.update_of_ne same] using ⟨current, count⟩⟩
    · exact Or.inr ⟨r, List.mem_append_left _ old, id, same⟩
  returned := by
    intro r member
    rcases List.mem_append.mp member with old | new
    · obtain ⟨bound, before, after, runs⟩ := traced.returned r old
      refine ⟨?_, before, after, runs⟩
      by_cases same : r.id.1 = i
      · subst same
        simp only [Function.update_self]
        omega
      · simpa only [Function.update_of_ne same] using bound
    · obtain rfl := List.mem_singleton.mp new
      refine ⟨by simp only [Function.update_self]; omega, (c.threads i).state, state, ?_⟩
      -- its calls so far, completed by its return
      have runs := (traced.running i op _ running).runs (Prog.runs_ret _ _ _ |>.mpr ⟨rfl, rfl⟩)
      simpa only [List.append_nil] using runs

theorem traced_step (c c' : Config ι E R σ Op L Out) (step : m.Step c c')
    (traced : m.Traced c) : m.Traced c' := by
  cases step with
  | start i op idle => exact m.traced_start c i op idle traced
  | call i op e k r shared running served => exact m.traced_call c i op e k r shared running traced
  | finish i op out state running => exact m.traced_finish c i op out state running traced
  | drift shared drifted =>
    exact ⟨traced.running, traced.idle, traced.later, traced.named, traced.returned⟩

variable {m}

theorem Reachable.traced {shared : σ} {state : ι → L} {c : Config ι E R σ Op L Out}
    (reachable : m.Reachable shared state c) : m.Traced c := by
  induction reachable with
  | refl => exact m.traced_initial shared state
  | tail _ step ih => exact m.traced_step _ _ step ih

/-- What an operation in the log has done so far is the beginning of a run of it. -/
theorem Reachable.runs_of_mem [∀ e, Nonempty (R e)] {shared : σ} {state : ι → L}
    {c : Config ι E R σ Op L Out} (reachable : m.Reachable shared state c)
    {entry : Entry ι E R σ Op} (member : entry ∈ c.log) :
    ∃ before rest result, Prog.Runs (m.prog entry.op before) (own c.log entry.id ++ rest) result := by
  have traced := reachable.traced
  rcases traced.named entry member with ⟨p, current, count⟩ | ⟨r, old, id, op⟩
  · obtain ⟨rest, result, runs⟩ := (traced.running _ _ _ current).complete
    rw [count] at runs
    exact ⟨_, rest, result, runs⟩
  · obtain ⟨_, before, after, runs⟩ := traced.returned r old
    rw [id, op] at runs
    exact ⟨before, [], (r.out, after), by simpa only [List.append_nil] using runs⟩

/-- Invariants of the shared state and the log: drifting and every answered call
keep them, whatever the threads do. -/
theorem Reachable.log_invariant {shared : σ} {state : ι → L} {c : Config ι E R σ Op L Out}
    (reachable : m.Reachable shared state c)
    (I : σ → List (Entry ι E R σ Op) → Prop) (initial : I shared [])
    (drift : ∀ s s' log, m.drifts s s' → I s log → I s' log)
    (call : ∀ entry s' log, m.serves entry.id entry.found entry.event s' →
      I entry.found log → I s' (log ++ [entry])) : I c.shared c.log := by
  induction reachable with
  | refl => exact initial
  | tail _ step ih =>
    cases step with
    | start i op idle => exact ih
    | call i op e k r shared running served => exact call ⟨_, op, ⟨e, r⟩, _⟩ shared _ served ih
    | finish i op out state running => exact ih
    | drift shared drifted => exact drift _ _ _ drifted ih

variable (m)

/-- The shared state answers the calls `tr` of one operation with nothing between them. -/
def Answers (id : ι × Nat) : List (Event E R) → σ → σ → Prop
  | [], s, s' => s' = s
  | event :: tr, s, s' => ∃ mid, m.serves id s event mid ∧ Answers id tr mid s'

omit [DecidableEq ι] in
theorem answers_append {id : ι × Nat} {tr tr' : List (Event E R)} {s mid s' : σ}
    (first : m.Answers id tr s mid) (second : m.Answers id tr' mid s') :
    m.Answers id (tr ++ tr') s s' := by
  induction tr generalizing s with
  | nil =>
    obtain rfl : mid = s := first
    exact second
  | cons event rest ih =>
    obtain ⟨next, served, answered⟩ := first
    exact ⟨next, served, ih answered⟩

omit [DecidableEq ι] in
theorem answers_of_unchanged {id : ι × Nat} {tr : List (Event E R)} {s : σ}
    (unchanged : ∀ event ∈ tr, m.serves id s event s) : m.Answers id tr s s := by
  induction tr with
  | nil => rfl
  | cons event rest ih =>
    exact ⟨s, unchanged event (List.mem_cons_self ..),
      ih fun event' member => unchanged event' (List.mem_cons_of_mem _ member)⟩

theorem steps_of_runs (i : ι) (op : Op) (p : Prog E R (Out × L)) (tr : List (Event E R))
    (out : Out) (state : L) (runs : Prog.Runs p tr (out, state)) (c : Config ι E R σ Op L Out)
    (running : (c.threads i).current = some (op, p)) (shared : σ)
    (answered : m.Answers (i, (c.threads i).finished) tr c.shared shared) :
    ∃ entries, entries.map Entry.event = tr ∧
      (∀ entry ∈ entries, entry.id = (i, (c.threads i).finished) ∧ entry.op = op) ∧
      Relation.ReflTransGen m.Step c { c with
        shared := shared
        threads := Function.update c.threads i
          { c.threads i with current := some (op, .ret (out, state)) }
        log := c.log ++ entries } := by
  induction p generalizing tr c with
  | ret result =>
    obtain ⟨rfl, rfl⟩ := runs
    obtain rfl : shared = c.shared := answered
    refine ⟨[], rfl, by simp, ?_⟩
    have same : Function.update c.threads i
        { c.threads i with current := some (op, .ret (out, state)) } = c.threads := by
      rw [← running, Function.update_eq_self]
    rw [same, List.append_nil]
  | call e k ih =>
    obtain ⟨r, rest, rfl, runs⟩ := runs
    obtain ⟨mid, served, answered⟩ := answered
    -- one step of the machine for the call, the rest by the induction on the program
    have step := Step.call c i op e k r mid running served
    generalize next : ({ c with
      shared := mid
      threads := Function.update c.threads i { c.threads i with current := some (op, k r) }
      log := c.log ++ [⟨(i, (c.threads i).finished), op, ⟨e, r⟩, c.shared⟩] } :
        Config ι E R σ Op L Out) = c' at step
    obtain ⟨entries, events, named, steps⟩ := ih r rest runs c'
      (by rw [← next]; simp only [Function.update_self])
      (by rw [← next]; simpa only [Function.update_self] using answered)
    subst next
    refine ⟨⟨(i, (c.threads i).finished), op, ⟨e, r⟩, c.shared⟩ :: entries, ?_, ?_, ?_⟩
    · rw [List.map_cons, events]
    · intro entry member
      rcases List.mem_cons.mp member with rfl | member
      · exact ⟨rfl, rfl⟩
      · simpa only [Function.update_self] using named entry member
    · refine .head step ?_
      simpa only [Function.update_self, Function.update_idem, List.append_assoc,
        List.singleton_append] using steps

/-- An idle thread can run an operation up to its return while the others wait. -/
theorem run_to_return (i : ι) (op : Op) (tr : List (Event E R)) (out : Out) (state : L)
    (c : Config ι E R σ Op L Out) (idle : (c.threads i).current = none)
    (runs : Prog.Runs (m.prog op (c.threads i).state) tr (out, state)) (shared : σ)
    (answered : m.Answers (i, (c.threads i).finished) tr c.shared shared) :
    ∃ entries, entries.map Entry.event = tr ∧
      (∀ entry ∈ entries, entry.id = (i, (c.threads i).finished) ∧ entry.op = op) ∧
      Relation.ReflTransGen m.Step c { c with
        shared := shared
        threads := Function.update c.threads i
          { c.threads i with current := some (op, .ret (out, state)) }
        log := c.log ++ entries } := by
  have start : m.Step c _ := .start c i op idle
  generalize next : ({ c with
    threads := Function.update c.threads i
      { c.threads i with current := some (op, m.prog op (c.threads i).state) } } :
        Config ι E R σ Op L Out) = c' at start
  obtain ⟨entries, events, named, steps⟩ := m.steps_of_runs i op _ tr out state runs c'
    (by rw [← next]; simp only [Function.update_self]) shared
    (by rw [← next]; simpa only [Function.update_self] using answered)
  subst next
  simp only [Function.update_self, Function.update_idem] at named steps
  exact ⟨entries, events, named, .head start steps⟩

/-- It can also go on and return. -/
theorem run_alone (i : ι) (op : Op) (tr : List (Event E R)) (out : Out) (state : L)
    (c : Config ι E R σ Op L Out) (idle : (c.threads i).current = none)
    (runs : Prog.Runs (m.prog op (c.threads i).state) tr (out, state)) (shared : σ)
    (answered : m.Answers (i, (c.threads i).finished) tr c.shared shared) :
    ∃ entries, entries.map Entry.event = tr ∧
      (∀ entry ∈ entries, entry.id = (i, (c.threads i).finished) ∧ entry.op = op) ∧
      Relation.ReflTransGen m.Step c { c with
        shared := shared
        threads := Function.update c.threads i ⟨state, (c.threads i).finished + 1, none⟩
        log := c.log ++ entries
        returned := c.returned ++ [⟨(i, (c.threads i).finished), op, out⟩] } := by
  obtain ⟨entries, events, named, steps⟩ :=
    m.run_to_return i op tr out state c idle runs shared answered
  refine ⟨entries, events, named, steps.tail ?_⟩
  have finish : m.Step _ _ := .finish { c with
    shared := shared
    threads := Function.update c.threads i
      { c.threads i with current := some (op, .ret (out, state)) }
    log := c.log ++ entries } i op out state (by simp only [Function.update_self])
  simpa only [Function.update_self, Function.update_idem] using finish

end Machine
end Effects
