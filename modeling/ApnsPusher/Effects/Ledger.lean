import ApnsPusher.Effects.Monitor
import Mathlib.Algebra.BigOperators.Group.List.Basic

/-!
# Ledgers

A counter that is paid out and emptied from time to time. No step loses or
invents anything: what is paid plus what is left is what was there plus what came
in. Over a run the amounts add up.
-/
namespace Effects

variable {S E M : Type} [AddCommMonoid M]

/-- `paid` went out and `came` came in while the counter went from `before` to `after`. -/
def Balances (paid before came after : M) : Prop := paid + after = before + came

namespace Balances

variable {paid paid' before mid came came' after : M}

theorem refl (held : M) : Balances 0 held 0 held := by
  rw [Balances, zero_add, add_zero]

theorem earns (held amount : M) : Balances 0 held amount (held + amount) := zero_add _

theorem pays (held : M) : Balances held held 0 0 := rfl

theorem trans (first : Balances paid before came mid) (second : Balances paid' mid came' after) :
    Balances (paid + paid') before (came + came') after := by
  unfold Balances at *
  calc paid + paid' + after
      = paid + (paid' + after) := add_assoc ..
    _ = paid + (mid + came') := by rw [second]
    _ = paid + mid + came' := (add_assoc ..).symm
    _ = before + came + came' := by rw [first]
    _ = before + (came + came') := add_assoc ..

end Balances

/-- If every step of a run balances, the run does. -/
theorem Follows.balances {step : S → E → S → Prop} {s s' : S} {events : List E}
    (follows : Follows step s events s') (held : S → M) (paid came : E → M)
    (each : ∀ s e s', step s e s' → Balances (paid e) (held s) (came e) (held s')) :
    Balances (events.map paid).sum (held s) (events.map came).sum (held s') := by
  induction follows with
  | nil s => exact Balances.refl (held s)
  | cons first _ ih =>
    rw [List.map_cons, List.map_cons, List.sum_cons, List.sum_cons]
    exact (each _ _ _ first).trans ih

end Effects
