import ApnsPusher.Effects.Monitor
import ApnsPusher.Effects.Prog
import Mathlib.SetTheory.Ordinal.Family

/-!
# Runs that settle

A rank that no step raises. Where it is a number, it bounds how many of the steps
that lower it a run can have. Where it is only well founded, a fair run still
reaches its goal: in every state some actor is helpful, which means that its next
step lowers the rank and that nobody else can take that step from it. Events of no
actor are the surroundings'. Fairness to one actor is enough for what it alone brings
about.
-/
namespace Effects

variable {S E A : Type} {step : S → E → S → Prop}

/-- A potential that every step pays for: what is counted is at most what is paid,
and what the potential falls by. -/
theorem Follows.countP_le_paid (potential : S → Nat) (counted paid : E → Bool) {s s' : S}
    {events : List E} (follows : Follows step s events s')
    (pays : ∀ s e s', step s e s' → (if counted e = true then 1 else 0) + potential s' ≤
      (if paid e = true then 1 else 0) + potential s) :
    events.countP counted + potential s' ≤ events.countP paid + potential s := by
  induction follows with
  | nil => simp
  | cons first _ ih =>
    have one := pays _ _ _ first
    simp only [List.countP_cons]
    omega

/-- The events that lower the rank are no more than the rank they started from. -/
theorem Follows.countP_add_le (rank : S → Nat) (counted : E → Bool) (I : S → Prop) {s s' : S}
    {events : List E} (follows : Follows step s events s')
    (keeps : ∀ s e s', step s e s' → I s → I s')
    (never : ∀ s e s', step s e s' → I s → rank s' ≤ rank s)
    (lowers : ∀ s e s', step s e s' → I s → counted e = true → rank s' < rank s) (start : I s) :
    events.countP counted + rank s' ≤ rank s := by
  induction follows with
  | nil => simp
  | cons first _ ih =>
    have later := ih (keeps _ _ _ first start)
    rw [List.countP_cons]
    split
    -- a counted event pays for itself
    next counts =>
      have lower := lowers _ _ _ first start counts
      omega
    next =>
      have same := never _ _ _ first start
      omega

/-- An endless run. -/
structure Endless (step : S → E → S → Prop) where
  states : Nat → S
  events : Nat → E
  steps : ∀ k, step (states k) (events k) (states (k + 1))

theorem Endless.reaches (run : Endless step) (k : Nat) :
    Relation.ReflTransGen (fun s s' => ∃ e, step s e s') (run.states 0) (run.states k) := by
  induction k with
  | zero => exact .refl
  | succ k ih => exact ih.tail ⟨run.events k, run.steps k⟩

def Enabled (step : S → E → S → Prop) (actor : E → Option A) (s : S) (a : A) : Prop :=
  ∃ e s', actor e = some a ∧ step s e s'

/-- Weak fairness: no actor is able to move from some point on and never does. -/
def Endless.Fair (run : Endless step) (actor : E → Option A) : Prop :=
  ∀ a k, ∃ k', k ≤ k' ∧ (actor (run.events k') = some a ∨ ¬ Enabled step actor (run.states k') a)

/-- Weak fairness to one actor. -/
def Endless.FairTo (run : Endless step) (actor : E → Option A) (a : A) : Prop :=
  ∀ k, ∃ k', k ≤ k' ∧ (actor (run.events k') = some a ∨ ¬ Enabled step actor (run.states k') a)

theorem Endless.holds (run : Endless step) {I : S → Prop}
    (keeps : ∀ s e s', step s e s' → I s → I s') {k k' : Nat} (start : I (run.states k))
    (later : k ≤ k') : I (run.states k') := by
  induction k', later using Nat.le_induction with
  | base => exact start
  | succ k' _ ih => exact keeps _ _ _ (run.steps k') ih

section Leads

variable {run : Endless step} {actor : E → Option A}

/-- An actor that stays able to move until `Q` holds, and brings it about, does so. -/
theorem Endless.FairTo.leads {a : A} (fair : run.FairTo actor a) {P Q : S → Prop}
    (able : ∀ s, P s → Enabled step actor s a)
    (acts : ∀ s e s', step s e s' → P s → actor e = some a → Q s')
    (waits : ∀ s e s', step s e s' → P s → actor e ≠ some a → P s' ∨ Q s') {k : Nat}
    (now : P (run.states k)) : ∃ k', k ≤ k' ∧ Q (run.states k') := by
  by_contra never
  -- as long as nothing has come of it, the actor is able to move
  have stays (d : Nat) : P (run.states (k + d)) := by
    induction d with
    | zero => exact now
    | succ d ih =>
      by_cases moves : actor (run.events (k + d)) = some a
      · have brought := acts _ _ _ (run.steps (k + d)) ih moves
        exact absurd ⟨k + (d + 1), Nat.le_add_right .., brought⟩ never
      · rcases waits _ _ _ (run.steps (k + d)) ih moves with still | brought
        · exact still
        · exact absurd ⟨k + (d + 1), Nat.le_add_right .., brought⟩ never
  obtain ⟨k', later, moves⟩ := fair k
  obtain ⟨d, rfl⟩ := Nat.exists_eq_add_of_le later
  rcases moves with moves | stuck
  · exact never ⟨k + d + 1, by omega, acts _ _ _ (run.steps (k + d)) (stays d) moves⟩
  · exact stuck (able _ (stays d))

/-- A well-founded rank that falls again and again falls to the goal. -/
theorem Endless.reaches_of_falls {R : Type*} [Preorder R] [WellFoundedLT R] (run : Endless step)
    (I goal : S → Prop) (rank : S → R)
    (falls : ∀ k, I (run.states k) → ¬ goal (run.states k) →
      ∃ k', k ≤ k' ∧ I (run.states k') ∧ rank (run.states k') < rank (run.states k))
    (k : Nat) (start : I (run.states k)) : ∃ k', k ≤ k' ∧ goal (run.states k') := by
  generalize ranked : rank (run.states k) = r
  induction r using WellFoundedLT.induction generalizing k with
  | ind r ih =>
    by_cases now : goal (run.states k)
    · exact ⟨k, Nat.le_refl k, now⟩
    -- the induction is on the rank, and goes on from the state where it is lower
    · obtain ⟨k', later, holds, lower⟩ := falls k start now
      obtain ⟨k'', after, reached⟩ := ih _ (ranked ▸ lower) k' holds rfl
      exact ⟨k'', later.trans after, reached⟩

end Leads

/-- The rule of helpful actors. -/
structure Helpful {R : Type*} [Preorder R] (step : S → E → S → Prop) (actor : E → Option A)
    (I goal : S → Prop) (rank : S → R) (helpful : S → A → Prop) : Prop where
  keeps : ∀ s e s', step s e s' → I s → I s'
  someone : ∀ s, I s → ¬ goal s → ∃ a, helpful s a
  able : ∀ s a, I s → helpful s a → Enabled step actor s a
  never : ∀ s e s', step s e s' → I s → rank s' ≤ rank s
  lowers : ∀ s e s' a, step s e s' → I s → actor e = some a → helpful s a → rank s' < rank s
  waits : ∀ s e s' a, step s e s' → I s → helpful s a → actor e ≠ some a → helpful s' a

namespace Helpful

variable {R : Type*} [Preorder R] {actor : E → Option A} {I goal : S → Prop} {rank : S → R}
  {helpful : S → A → Prop}

/-- A helpful actor stays helpful until the rank has fallen. -/
theorem falls (rule : Helpful step actor I goal rank helpful) (run : Endless step)
    (fair : run.Fair actor) (k : Nat) (start : I (run.states k)) (notYet : ¬ goal (run.states k)) :
    ∃ k', k ≤ k' ∧ I (run.states k') ∧ rank (run.states k') < rank (run.states k) := by
  obtain ⟨a, helps⟩ := rule.someone _ start notYet
  have fairTo : run.FairTo actor a := fair a
  refine fairTo.leads (P := fun s => I s ∧ helpful s a ∧ rank s ≤ rank (run.states k))
    (Q := fun s => I s ∧ rank s < rank (run.states k)) ?_ ?_ ?_ ⟨start, helps, le_refl _⟩
  · exact fun s ⟨holds, helps, _⟩ => rule.able s a holds helps
  · intro s e s' stepped ⟨holds, helps, le⟩ moves
    exact ⟨rule.keeps _ _ _ stepped holds, (rule.lowers _ _ _ a stepped holds moves helps).trans_le le⟩
  · intro s e s' stepped ⟨holds, helps, le⟩ other
    exact Or.inl ⟨rule.keeps _ _ _ stepped holds, rule.waits _ _ _ a stepped holds helps other,
      (rule.never _ _ _ stepped holds).trans le⟩

/-- Every fair run reaches the goal. -/
theorem reaches [WellFoundedLT R] (rule : Helpful step actor I goal rank helpful)
    (run : Endless step) (fair : run.Fair actor) (k : Nat) (start : I (run.states k)) :
    ∃ k', k ≤ k' ∧ goal (run.states k') :=
  run.reaches_of_falls I goal rank (rule.falls run fair) k start

end Helpful

/-! ### Programs settle -/

/-- The rank of a program that is waited for: it may call as often as its answers
make it, but not for ever. -/
noncomputable def Prog.height {E : Type} {R : E → Type} {α : Type} : Prog E R α → Ordinal.{0}
  | .ret _ => 0
  | .call _ next => ⨆ r, Order.succ (height (next r))

theorem Prog.height_lt {E : Type} {R : E → Type} {α : Type} {e : E} (next : R e → Prog E R α)
    (r : R e) : (next r).height < (Prog.call e next).height :=
  (Order.lt_succ _).trans_le (Ordinal.le_iSup (fun r => Order.succ (next r).height) r)

/-! ### Runs that come to rest -/

section Rest

variable {step : S → E → Option S} {events : List E} {s s' : S} {rest : E}

/-- The run that plays some events and then repeats one that changes nothing. -/
def restStates (step : S → E → Option S) (events : List E) (s : S) (k : Nat) : S :=
  (events.take k).foldl (fun s e => (step s e).getD s) s

theorem foldl_of_playAll (played : playAll step events s = some s') :
    events.foldl (fun s e => (step s e).getD s) s = s' := by
  induction events generalizing s with
  | nil => exact Option.some.inj played
  | cons e more ih =>
    obtain ⟨mid, first, later⟩ := Option.bind_eq_some_iff.mp played
    simpa [first] using ih later

theorem restStates_of_le (played : playAll step events s = some s') {k : Nat}
    (later : events.length ≤ k) : restStates step events s k = s' := by
  unfold restStates
  rw [List.take_of_length_le later]
  exact foldl_of_playAll played

theorem step_restStates (played : playAll step events s = some s') (idle : step s' rest = some s')
    (k : Nat) : step (restStates step events s k) (events.getD k rest) =
      some (restStates step events s (k + 1)) := by
  induction events generalizing s k with
  | nil =>
    obtain rfl := Option.some.inj played
    simpa [restStates] using idle
  | cons e more ih =>
    obtain ⟨mid, first, later⟩ := Option.bind_eq_some_iff.mp played
    cases k with
    | zero => simp [restStates, first]
    | succ k => simpa [restStates, first] using ih later k

def atRest (played : playAll step events s = some s') (idle : step s' rest = some s') :
    Endless (fun s e s' => step s e = some s') where
  states := restStates step events s
  events k := events.getD k rest
  steps := step_restStates played idle

theorem exists_atRest (played : playAll step events s = some s') (idle : step s' rest = some s')
    (k : Nat) : ∃ k', k ≤ k' ∧ (atRest played idle).states k' = s' :=
  ⟨k + events.length, Nat.le_add_right .., restStates_of_le played (Nat.le_add_left ..)⟩

theorem states_atRest {more : List E} {mid : S} (played : playAll step (events ++ more) s = some s')
    (idle : step s' rest = some s') (before : playAll step events s = some mid) :
    (atRest played idle).states events.length = mid := by
  show restStates step (events ++ more) s events.length = mid
  unfold restStates
  rw [List.take_left]
  exact foldl_of_playAll before

/-- It is fair when nobody is able to move where it rests. -/
theorem fair_atRest {actor : E → Option A} (played : playAll step events s = some s')
    (idle : step s' rest = some s')
    (stuck : ∀ a, ¬ Enabled (fun s e s' => step s e = some s') actor s' a) :
    (atRest played idle).Fair actor := by
  intro a k
  obtain ⟨k', later, there⟩ := exists_atRest played idle k
  refine ⟨k', later, Or.inr ?_⟩
  rw [there]
  exact stuck a

end Rest
end Effects
