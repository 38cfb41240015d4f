import Mathlib.Logic.Basic

/-!
# Programs that call their surroundings

A program is a tree of calls. Each call `e` is answered with a value of type
`R e`, and the program goes on with the answer. Nothing is said about how the
surroundings choose their answers: a run is a finite list of answered calls,
and a statement about all runs is a statement about all answers.
-/
namespace Effects

inductive Prog (E : Type) (R : E → Type) (α : Type) where
  | ret (value : α)
  | call (e : E) (next : R e → Prog E R α)

/-- One answered call. -/
structure Event (E : Type) (R : E → Type) where
  call : E
  answer : R call

instance {E : Type} {R : E → Type} [DecidableEq E] [∀ e, DecidableEq (R e)] :
    DecidableEq (Event E R)
  | ⟨a, x⟩, ⟨b, y⟩ =>
    -- answers can be compared only once the calls are known to be the same
    if same : a = b then
      if equal : same ▸ x = y then
        isTrue (by subst same; subst equal; rfl)
      else
        isFalse (by rintro h; cases h; exact equal rfl)
    else
      isFalse (by rintro h; cases h; exact same rfl)

namespace Prog

variable {E : Type} {R : E → Type} {α β γ : Type}

def bind : Prog E R α → (α → Prog E R β) → Prog E R β
  | .ret a, f => f a
  | .call e k, f => .call e fun r => bind (k r) f

instance : Monad (Prog E R) where
  pure := .ret
  bind := bind

def perform (e : E) : Prog E R (R e) := .call e .ret

@[simp] theorem pure_eq (a : α) : (pure a : Prog E R α) = .ret a := rfl

@[simp] theorem ret_bind (a : α) (f : α → Prog E R β) : (.ret a : Prog E R α) >>= f = f a := rfl

@[simp] theorem call_bind (e : E) (k : R e → Prog E R α) (f : α → Prog E R β) :
    (.call e k : Prog E R α) >>= f = .call e fun r => k r >>= f := rfl

@[simp] theorem perform_bind (e : E) (f : R e → Prog E R β) :
    (perform e : Prog E R (R e)) >>= f = .call e f := rfl

theorem bind_ret (p : Prog E R α) : p >>= .ret = p := by
  induction p with
  | ret a => rfl
  | call e k ih => simp only [call_bind, ih]

theorem bind_assoc' (p : Prog E R α) (f : α → Prog E R β) (g : β → Prog E R γ) :
    p >>= f >>= g = p >>= fun a => f a >>= g := by
  induction p with
  | ret a => rfl
  | call e k ih => simp only [call_bind, ih]

instance : LawfulMonad (Prog E R) :=
  LawfulMonad.mk' _ (fun p => bind_ret p) (fun _ _ => rfl) (fun p f g => bind_assoc' p f g)

/-- Every complete run ends in a trace and a result that satisfy `Q`. -/
def Post : Prog E R α → (List (Event E R) → α → Prop) → Prop
  | .ret a, Q => Q [] a
  | .call e k, Q => ∀ r, Post (k r) fun tr a => Q (⟨e, r⟩ :: tr) a

/-- A complete run: the calls answered, in order, and the value returned. -/
def Runs : Prog E R α → List (Event E R) → α → Prop
  | .ret a, tr, b => tr = [] ∧ b = a
  | .call e k, tr, b => ∃ r rest, tr = ⟨e, r⟩ :: rest ∧ Runs (k r) rest b

/-- A run that may have stopped early: what is left to do is the program `q`. -/
inductive Reaches : Prog E R α → List (Event E R) → Prog E R α → Prop
  | refl (p : Prog E R α) : Reaches p [] p
  | step {e : E} {k : R e → Prog E R α} (r : R e) {tr : List (Event E R)} {q : Prog E R α}
      (rest : Reaches (k r) tr q) : Reaches (.call e k) (⟨e, r⟩ :: tr) q

@[simp] theorem post_ret (a : α) (Q : List (Event E R) → α → Prop) :
    Post (.ret a) Q ↔ Q [] a := Iff.rfl

@[simp] theorem post_call (e : E) (k : R e → Prog E R α) (Q : List (Event E R) → α → Prop) :
    Post (.call e k) Q ↔ ∀ r, Post (k r) fun tr a => Q (⟨e, r⟩ :: tr) a := Iff.rfl

@[simp] theorem post_perform (e : E) (Q : List (Event E R) → R e → Prop) :
    Post (perform e) Q ↔ ∀ r, Q [⟨e, r⟩] r := Iff.rfl

theorem post_mono (p : Prog E R α) {Q Q' : List (Event E R) → α → Prop}
    (post : Post p Q) (weaker : ∀ tr a, Q tr a → Q' tr a) : Post p Q' := by
  induction p generalizing Q Q' with
  | ret a => exact weaker [] a post
  | call e k ih => exact fun r => ih r (post r) fun tr a => weaker (⟨e, r⟩ :: tr) a

/-- Sequencing: the traces of the two parts are appended. -/
@[simp] theorem post_bind (p : Prog E R α) (f : α → Prog E R β)
    (Q : List (Event E R) → β → Prop) :
    Post (p >>= f) Q ↔ Post p fun tr a => Post (f a) fun tr' b => Q (tr ++ tr') b := by
  induction p generalizing Q with
  | ret a => simp
  | call e k ih => simp [ih]

theorem post_iff (p : Prog E R α) (Q : List (Event E R) → α → Prop) :
    Post p Q ↔ ∀ tr a, Runs p tr a → Q tr a := by
  induction p generalizing Q with
  | ret a =>
    constructor
    · rintro post tr b ⟨rfl, rfl⟩
      exact post
    · exact fun all => all [] a ⟨rfl, rfl⟩
  | call e k ih =>
    constructor
    · rintro post tr b ⟨r, rest, rfl, runs⟩
      exact (ih r _).mp (post r) rest b runs
    · intro all r
      exact (ih r _).mpr fun rest b runs => all _ b ⟨r, rest, rfl, runs⟩

/-- The use of a `Post` fact at one run. -/
theorem Runs.post {p : Prog E R α} {Q : List (Event E R) → α → Prop} {tr : List (Event E R)}
    {a : α} (runs : Runs p tr a) (post : Post p Q) : Q tr a :=
  (post_iff p Q).mp post tr a runs

theorem post_runs (p : Prog E R α) : Post p (Runs p) :=
  (post_iff p _).mpr fun _ _ runs => runs

@[simp] theorem runs_ret (a b : α) (tr : List (Event E R)) :
    Runs (.ret a) tr b ↔ tr = [] ∧ b = a := Iff.rfl

@[simp] theorem runs_call (e : E) (k : R e → Prog E R α) (tr : List (Event E R)) (b : α) :
    Runs (.call e k) tr b ↔ ∃ r rest, tr = ⟨e, r⟩ :: rest ∧ Runs (k r) rest b := Iff.rfl

theorem runs_bind (p : Prog E R α) (f : α → Prog E R β) (tr : List (Event E R)) (b : β) :
    Runs (p >>= f) tr b ↔
      ∃ a front back, tr = front ++ back ∧ Runs p front a ∧ Runs (f a) back b := by
  induction p generalizing tr with
  | ret a =>
    constructor
    · intro runs
      exact ⟨a, [], tr, rfl, ⟨rfl, rfl⟩, runs⟩
    · rintro ⟨a', front, back, rfl, ⟨rfl, rfl⟩, runs⟩
      exact runs
  | call e k ih =>
    constructor
    · rintro ⟨r, rest, rfl, runs⟩
      obtain ⟨a, front, back, rfl, first, second⟩ := (ih r rest).mp runs
      exact ⟨a, ⟨e, r⟩ :: front, back, rfl, ⟨r, front, rfl, first⟩, second⟩
    · rintro ⟨a, _, back, rfl, ⟨r, front, rfl, first⟩, second⟩
      exact ⟨r, front ++ back, rfl, (ih r _).mpr ⟨a, front, back, rfl, first, second⟩⟩

theorem Reaches.snoc {p : Prog E R α} {tr : List (Event E R)} {e : E} {k : R e → Prog E R α}
    (reaches : Reaches p tr (.call e k)) (r : R e) : Reaches p (tr ++ [⟨e, r⟩]) (k r) := by
  -- the induction needs the program that was reached to be a variable
  generalize next : Prog.call e k = q at reaches
  induction reaches with
  | refl p => subst next; exact .step r (.refl _)
  | step r' _ ih => exact .step r' (ih next)

theorem Reaches.runs {p q : Prog E R α} {tr rest : List (Event E R)} {a : α}
    (reaches : Reaches p tr q) (runs : Runs q rest a) : Runs p (tr ++ rest) a := by
  induction reaches with
  | refl p => exact runs
  | step r _ ih => exact ⟨r, _, rfl, ih runs⟩

/-- What a scripted environment answers: the answer to a call may depend on how
many calls came before it. -/
def play (answers : (e : E) → Nat → R e) : Nat → Prog E R α → List (Event E R) × α
  | _, .ret a => ([], a)
  | n, .call e k =>
    let rest := play answers (n + 1) (k (answers e n))
    (⟨e, answers e n⟩ :: rest.1, rest.2)

theorem play_runs (answers : (e : E) → Nat → R e) (n : Nat) (p : Prog E R α) :
    Runs p (play answers n p).1 (play answers n p).2 := by
  induction p generalizing n with
  | ret a => exact ⟨rfl, rfl⟩
  | call e k ih => exact ⟨answers e n, _, rfl, ih (answers e n) (n + 1)⟩

/-- Every answer of a played run is one that the script gives. -/
theorem mem_play {answers : (e : E) → Nat → R e} {n : Nat} {p : Prog E R α} {event : Event E R}
    (member : event ∈ (play answers n p).1) : ∃ k, event.answer = answers event.call k := by
  induction p generalizing n with
  | ret a => cases member
  | call e k ih =>
    rcases List.mem_cons.mp member with rfl | member
    · exact ⟨n, rfl⟩
    · exact ih _ member

/-- Programs always return: a run that has stopped early can be completed. -/
theorem Reaches.complete [∀ e, Nonempty (R e)] {p q : Prog E R α} {tr : List (Event E R)}
    (reaches : Reaches p tr q) : ∃ rest a, Runs p (tr ++ rest) a :=
  ⟨_, _, reaches.runs (play_runs (fun _ _ => Classical.ofNonempty) 0 q)⟩

end Prog
end Effects
