import ApnsPusher.Effects.Interleaving

/-!
# Machines seen from further away

A machine may keep more in its shared state than its answers can tell. Forgetting it
maps every run to a run of the plainer machine, with the same operations and the
same answers, so that what holds of the plainer runs holds of these.
-/
namespace Effects

variable {ι E : Type} {R : E → Type} {σ τ Op L Out : Type}

def Entry.map (f : σ → τ) (entry : Entry ι E R σ Op) : Entry ι E R τ Op :=
  ⟨entry.id, entry.op, entry.event, f entry.found⟩

def Config.map (f : σ → τ) (c : Config ι E R σ Op L Out) : Config ι E R τ Op L Out :=
  ⟨f c.shared, c.threads, c.log.map (Entry.map f), c.returned⟩

/-- The thread has neither run an operation nor started one. -/
def Config.Unbegun (c : Config ι E R σ Op L Out) (i : ι) : Prop :=
  (c.threads i).finished = 0 ∧ (c.threads i).current = none

section Restate

variable [DecidableEq ι]

@[simp] theorem own_map (f : σ → τ) (log : List (Entry ι E R σ Op)) (id : ι × Nat) :
    own (log.map (Entry.map f)) id = own log id := by
  simp only [own, List.filter_map, List.map_map]
  rfl

/-- The thread's state before it begins, set to `l`. -/
def Config.restate (c : Config ι E R σ Op L Out) (i : ι) (l : L) : Config ι E R σ Op L Out :=
  { c with threads := Function.update c.threads i ⟨l, 0, none⟩ }

theorem Config.restate_of_ne (c : Config ι E R σ Op L Out) {i j : ι} (other : j ≠ i) (l : L) :
    (c.restate i l).threads j = c.threads j :=
  Function.update_of_ne other ..

end Restate

namespace Machine

/-- `f` maps what `m` shares to what `m'` shares. -/
structure Abstracts (m : Machine ι E R σ Op L Out) (m' : Machine ι E R τ Op L Out) (f : σ → τ) :
    Prop where
  prog : m'.prog = m.prog
  serves : ∀ id s event s', m.serves id s event s' → m'.serves id (f s) event (f s')
  drifts : ∀ s s', m.drifts s s' → m'.drifts (f s) (f s')

variable [DecidableEq ι] {m : Machine ι E R σ Op L Out} {m' : Machine ι E R τ Op L Out}
  {f : σ → τ} {c c' : Config ι E R σ Op L Out}

theorem Abstracts.step (abstracts : m.Abstracts m' f) (step : m.Step c c') :
    m'.Step (c.map f) (c'.map f) := by
  cases step with
  | start i op idle =>
    have starts : m'.Step (c.map f) _ := .start (c.map f) i op idle
    rw [abstracts.prog] at starts
    exact starts
  | call i op e k r shared running served =>
    have calls : m'.Step (c.map f) _ :=
      .call (c.map f) i op e k r (f shared) running (abstracts.serves _ _ _ _ served)
    simpa only [Config.map, Entry.map, List.map_append, List.map_cons, List.map_nil] using calls
  | finish i op out state running => exact .finish (c.map f) i op out state running
  | drift shared drifted => exact .drift (c.map f) (f shared) (abstracts.drifts _ _ drifted)

theorem Abstracts.reachable (abstracts : m.Abstracts m' f) {shared : σ} {state : ι → L}
    (reachable : m.Reachable shared state c) : m'.Reachable (f shared) state (c.map f) := by
  induction reachable with
  | refl => exact .refl
  | tail _ step ih => exact ih.tail (abstracts.step step)

/-! ### Threads that have not begun -/

/-- A thread that has not begun had not begun before, and its state played no part. -/
theorem Step.restate (step : m.Step c c') {i : ι} (unbegun : c'.Unbegun i) (l : L) :
    c.Unbegun i ∧ m.Step (c.restate i l) (c'.restate i l) := by
  obtain ⟨zero, waiting⟩ := unbegun
  cases step with
  | start j op idle =>
    by_cases same : i = j
    · subst same
      simp at waiting
    -- another thread starts, and can do so beside any state of this one
    · simp only [Function.update_of_ne same] at zero waiting
      have starts : m.Step (c.restate i l) _ := .start (c.restate i l) j op
        (by rwa [c.restate_of_ne (Ne.symm same)])
      rw [c.restate_of_ne (Ne.symm same)] at starts
      refine ⟨⟨zero, waiting⟩, ?_⟩
      simpa only [Config.restate, Function.update_comm (Ne.symm same)] using starts
  | call j op e k r shared running served =>
    by_cases same : i = j
    · subst same
      simp at waiting
    · simp only [Function.update_of_ne same] at zero waiting
      have calls : m.Step (c.restate i l) _ := .call (c.restate i l) j op e k r shared
        (by rwa [c.restate_of_ne (Ne.symm same)]) (by rwa [c.restate_of_ne (Ne.symm same)])
      rw [c.restate_of_ne (Ne.symm same)] at calls
      refine ⟨⟨zero, waiting⟩, ?_⟩
      simpa only [Config.restate, Function.update_comm (Ne.symm same)] using calls
  | finish j op out state running =>
    -- a thread that has finished an operation has begun
    by_cases same : i = j
    · subst same
      simp at zero
    · simp only [Function.update_of_ne same] at zero waiting
      have finishes : m.Step (c.restate i l) _ := .finish (c.restate i l) j op out state
        (by rwa [c.restate_of_ne (Ne.symm same)])
      rw [c.restate_of_ne (Ne.symm same)] at finishes
      refine ⟨⟨zero, waiting⟩, ?_⟩
      simpa only [Config.restate, Function.update_comm (Ne.symm same)] using finishes
  | drift shared drifted => exact ⟨⟨zero, waiting⟩, .drift (c.restate i l) shared drifted⟩

/-- The state of a thread that has not begun may as well have been another. -/
theorem Reachable.restate {shared : σ} {state : ι → L} (reachable : m.Reachable shared state c)
    {i : ι} (unbegun : c.Unbegun i) (l : L) :
    m.Reachable shared (Function.update state i l) (c.restate i l) := by
  induction reachable with
  | refl =>
    -- at the beginning it is just another initial state
    have same : (Config.initial shared state : Config ι E R σ Op L Out).restate i l =
        Config.initial shared (Function.update state i l) := by
      unfold Config.restate Config.initial
      congr 1
      funext j
      by_cases here : j = i
      · subst here
        simp
      · simp [here]
    rw [same]
    exact .refl
  | tail _ step ih =>
    obtain ⟨before, step⟩ := step.restate unbegun l
    exact (ih before).tail step

end Machine
end Effects
