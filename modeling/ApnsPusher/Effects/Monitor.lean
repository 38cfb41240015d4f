import Mathlib.Logic.Relation

/-!
# Monitors

A monitor is a labelled step relation that says which event may come next. A list
of events follows it when its steps can be chained.
-/
namespace Effects

inductive Follows {S E : Type} (step : S → E → S → Prop) : S → List E → S → Prop
  | nil (s : S) : Follows step s [] s
  | cons {s mid s' : S} {e : E} {rest : List E} (first : step s e mid)
      (more : Follows step mid rest s') : Follows step s (e :: rest) s'

namespace Follows

variable {S E : Type} {step : S → E → S → Prop} {s mid s' : S} {e : E} {front back : List E}

theorem append (first : Follows step s front mid) (second : Follows step mid back s') :
    Follows step s (front ++ back) s' := by
  induction first with
  | nil => exact second
  | cons one _ ih => exact .cons one (ih second)

theorem single (one : step s e s') : Follows step s [e] s' := .cons one (.nil s')

/-- Events that leave the monitor where it is. -/
theorem stays (every : ∀ e ∈ front, step s e s) : Follows step s front s := by
  induction front with
  | nil => exact .nil s
  | cons e rest ih =>
    exact .cons (every e (List.mem_cons_self ..)) (ih fun e' member =>
      every e' (List.mem_cons_of_mem _ member))

/-- An invariant that every step keeps. -/
theorem keeps (follows : Follows step s front s') (I : S → Prop)
    (each : ∀ s e s', step s e s' → I s → I s') (start : I s) : I s' := by
  induction follows with
  | nil => exact start
  | cons first _ ih => exact ih (each _ _ _ first start)

/-- Every event was one step. -/
theorem step_of_mem (follows : Follows step s front s') (member : e ∈ front) :
    ∃ before after, step before e after := by
  induction follows with
  | nil => cases member
  | cons first _ ih =>
    rcases List.mem_cons.mp member with rfl | member
    · exact ⟨_, _, first⟩
    · exact ih member

/-- What has happened so far followed the monitor too. -/
theorem of_append (follows : Follows step s (front ++ back) s') :
    ∃ mid, Follows step s front mid ∧ Follows step mid back s' := by
  induction front generalizing s with
  | nil => exact ⟨s, .nil s, follows⟩
  | cons e rest ih =>
    cases follows with
    | cons one more =>
      obtain ⟨mid, first, second⟩ := ih more
      exact ⟨mid, .cons one first, second⟩

theorem reflTransGen (follows : Follows step s front s') :
    Relation.ReflTransGen (fun s s' => ∃ e, step s e s') s s' := by
  induction follows with
  | nil => exact .refl
  | cons first _ ih => exact ih.head ⟨_, first⟩

end Follows

/-! ### Steps that are functions -/

/-- The events one after another. -/
def playAll {S E : Type} (step : S → E → Option S) : List E → S → Option S
  | [], s => some s
  | e :: rest, s => (step s e).bind (playAll step rest)

theorem follows_of_playAll {S E : Type} {step : S → E → Option S} {events : List E} {s s' : S}
    (played : playAll step events s = some s') :
    Follows (fun s e s' => step s e = some s') s events s' := by
  induction events generalizing s with
  | nil =>
    obtain rfl := Option.some.inj played
    exact .nil s
  | cons e rest ih =>
    obtain ⟨mid, first, more⟩ := Option.bind_eq_some_iff.mp played
    exact .cons first (ih more)

end Effects
