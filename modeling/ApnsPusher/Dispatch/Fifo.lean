import Mathlib.Algebra.Order.BigOperators.Group.Finset
import Mathlib.Data.Fintype.BigOperators
import Mathlib.Data.List.Count
import Mathlib.Logic.Relation

/-!
# One queue, many consumers

Items enter a queue at its end, and any consumer may take the one at its front.
No item is lost or doubled, and every consumer takes its items in the order in
which they entered.
-/
namespace Dispatch

structure Fifo (ι α : Type) where
  /-- Everything that ever entered, oldest first. -/
  pushed : List α
  queue : List α
  /-- What each consumer took, oldest first. -/
  taken : ι → List α

namespace Fifo

variable {ι α : Type} [DecidableEq ι]

def empty : Fifo ι α := ⟨[], [], fun _ => []⟩

inductive Step (s : Fifo ι α) : Fifo ι α → Prop
  | push (a : α) : Step s { s with pushed := s.pushed ++ [a], queue := s.queue ++ [a] }
  | take (i : ι) (a : α) (rest : List α) (front : s.queue = a :: rest) :
      Step s { s with queue := rest, taken := Function.update s.taken i (s.taken i ++ [a]) }

/-- Every consumer's items, followed by the queue, are in the order of entry. -/
def Ordered (s : Fifo ι α) : Prop := ∀ i, (s.taken i ++ s.queue).Sublist s.pushed

theorem Ordered.step {s s' : Fifo ι α} (ordered : s.Ordered) (step : Step s s') : s'.Ordered := by
  intro j
  cases step with
  | push a =>
    rw [← List.append_assoc]
    exact (ordered j).append_right [a]
  | take i a rest front =>
    have before := ordered j
    rw [front] at before
    by_cases same : j = i
    · subst same
      simpa using before
    · simp only [Function.update_of_ne same]
      exact .trans ((List.sublist_cons_self a rest).append_left (s.taken j)) before

theorem ordered_of_run {s : Fifo ι α} (run : Relation.ReflTransGen Step empty s) : s.Ordered := by
  induction run with
  | refl => exact fun _ => List.Sublist.refl _
  | tail _ step ih => exact ih.step step

/-- What waits is the end of what entered. -/
theorem suffix_of_run {s : Fifo ι α} (run : Relation.ReflTransGen Step empty s) :
    s.queue <:+ s.pushed := by
  induction run with
  | refl => exact List.suffix_refl []
  | tail _ step ih =>
    cases step with
    | push a => exact List.suffix_append_self_iff.mpr ih
    | take i a rest front =>
      rw [front] at ih
      exact (List.suffix_cons a rest).trans ih

section Counting

variable [Fintype ι] [DecidableEq α]

/-- Every item is as often in the queue and with the consumers as it entered. -/
def Counted (s : Fifo ι α) : Prop :=
  ∀ a, s.queue.count a + ∑ i, (s.taken i).count a = s.pushed.count a

theorem Counted.step {s s' : Fifo ι α} (counted : s.Counted) (step : Step s s') : s'.Counted := by
  intro b
  have before := counted b
  cases step with
  | push a =>
    simp only [List.count_append]
    omega
  | take i a rest front =>
    have others (l : List α) : ∑ j, (Function.update s.taken i l j).count b =
        l.count b + ∑ j ∈ Finset.univ.erase i, (s.taken j).count b := by
      rw [← Finset.add_sum_erase _ _ (Finset.mem_univ i), Function.update_self]
      congr 1
      refine Finset.sum_congr rfl fun j member => ?_
      rw [Function.update_of_ne (Finset.ne_of_mem_erase member)]
    have whole := others (s.taken i)
    rw [Function.update_eq_self] at whole
    rw [front, List.count_cons, whole] at before
    simp only [others, List.count_append, List.count_singleton]
    omega

theorem counted_of_run {s : Fifo ι α} (run : Relation.ReflTransGen Step empty s) : s.Counted := by
  induction run with
  | refl => simp [Counted, empty]
  | tail _ step ih => exact ih.step step

omit [DecidableEq ι] in
theorem count_taken_le (s : Fifo ι α) (i : ι) (a : α) :
    (s.taken i).count a ≤ ∑ j, (s.taken j).count a :=
  Finset.single_le_sum_of_canonicallyOrdered (f := fun j => (s.taken j).count a) (Finset.mem_univ i)

namespace Counted

omit [DecidableEq ι] in
theorem mem_pushed {s : Fifo ι α} (counted : s.Counted) {a : α} :
    a ∈ s.pushed ↔ a ∈ s.queue ∨ ∃ i, a ∈ s.taken i := by
  simp only [← List.count_pos_iff, ← counted a, Nat.add_pos_iff_pos_or_pos,
    Finset.sum_pos_iff, Finset.mem_univ, true_and]

omit [DecidableEq ι] in
theorem count_le_one {s : Fifo ι α} (counted : s.Counted) (once : s.pushed.Nodup) (a : α) :
    s.queue.count a + ∑ i, (s.taken i).count a ≤ 1 := by
  rw [counted a]
  exact List.nodup_iff_count_le_one.mp once a

omit [DecidableEq ι] in
theorem taken_nodup {s : Fifo ι α} (counted : s.Counted) (once : s.pushed.Nodup) (i : ι) :
    (s.taken i).Nodup := by
  refine List.nodup_iff_count_le_one.mpr fun a => ?_
  have total := counted.count_le_one once a
  have single := count_taken_le s i a
  omega

theorem taken_disjoint {s : Fifo ι α} (counted : s.Counted) (once : s.pushed.Nodup) {i j : ι}
    (other : i ≠ j) {a : α} (first : a ∈ s.taken i) : a ∉ s.taken j := by
  intro second
  have total := counted.count_le_one once a
  have pair : ∑ k ∈ {i, j}, (s.taken k).count a ≤ ∑ k, (s.taken k).count a :=
    Finset.sum_le_sum_of_subset (Finset.subset_univ _)
  rw [Finset.sum_pair other] at pair
  have one := List.count_pos_iff.mpr first
  have two := List.count_pos_iff.mpr second
  omega

omit [DecidableEq ι] in
theorem not_taken {s : Fifo ι α} (counted : s.Counted) (once : s.pushed.Nodup) {a : α}
    (waiting : a ∈ s.queue) (i : ι) : a ∉ s.taken i := by
  intro taken
  have total := counted.count_le_one once a
  have single := count_taken_le s i a
  have one := List.count_pos_iff.mpr waiting
  have two := List.count_pos_iff.mpr taken
  omega

/-- What has left the queue is with exactly one consumer. -/
theorem existsUnique_taken {s : Fifo ι α} (counted : s.Counted) (once : s.pushed.Nodup) {a : α}
    (entered : a ∈ s.pushed) (left : a ∉ s.queue) : ∃! i, a ∈ s.taken i := by
  obtain ⟨i, taken⟩ := (counted.mem_pushed.mp entered).resolve_left left
  refine ⟨i, taken, fun j other => ?_⟩
  by_contra differ
  exact counted.taken_disjoint once differ other taken

omit [DecidableEq ι] in
/-- A consumer on its own has taken all that entered and is not waiting. -/
theorem taken_append_queue {s : Fifo ι α} (counted : s.Counted) (ordered : s.Ordered) (i : ι)
    (alone : ∀ j, j = i) : s.taken i ++ s.queue = s.pushed := by
  refine (ordered i).eq_of_length (List.Perm.length_eq (List.perm_iff_count.mpr fun a => ?_))
  have only : ∑ j, (s.taken j).count a = (s.taken i).count a :=
    Fintype.sum_eq_single i fun j differ => absurd (alone j) differ
  rw [List.count_append, ← counted a, only, Nat.add_comm]

end Counted

end Counting
end Fifo
end Dispatch
