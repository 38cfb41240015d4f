import Mathlib.Data.List.Nodup
import Mathlib.Logic.Function.Basic

/-!
# Topics and queues

What is published to a topic is copied to every subscriber, what is published to a
queue goes to one. Either way a subscriber receives an item at most once, whatever
order the items come in.
-/
namespace Dispatch

inductive Kind where
  | topic
  | queue
  deriving DecidableEq

/-- A broker with the subscribers `ι`. An item is named by its place in `published`. -/
structure Broker (ι δ α : Type) where
  subscription : ι → Option δ
  /-- Everything ever published, oldest first. -/
  published : List α
  /-- The items that wait for each subscriber. -/
  inbox : ι → List Nat
  /-- The items received, each with the subscriber and the number of its receipt. -/
  received : List ((ι × Nat) × Nat)

namespace Broker

variable {ι δ α : Type} [DecidableEq ι] [DecidableEq δ]

def empty : Broker ι δ α := ⟨fun _ => none, [], fun _ => [], []⟩

def subscribe (b : Broker ι δ α) (i : ι) (destination : δ) : Broker ι δ α :=
  { b with subscription := Function.update b.subscription i (some destination) }

/-- A new item waits for the subscribers chosen. -/
def send (b : Broker ι δ α) (chosen : ι → Bool) (a : α) : Broker ι δ α :=
  { b with
    published := b.published ++ [a]
    inbox := fun i => if chosen i then b.inbox i ++ [b.published.length] else b.inbox i }

inductive Publishes (kind : δ → Option Kind) (b : Broker ι δ α) (destination : δ) (a : α) :
    Broker ι δ α → Prop
  | topic (is : kind destination = some .topic) :
      Publishes kind b destination a (b.send (fun i => b.subscription i = some destination) a)
  | queue (is : kind destination = some .queue) (i : ι)
      (subscribed : b.subscription i = some destination) :
      Publishes kind b destination a (b.send (fun j => j = i) a)

/-- One of the items waiting for a subscriber is received. -/
inductive Delivers (b : Broker ι δ α) (receipt : ι × Nat) (item : Nat) : Broker ι δ α → Prop
  | intro (front back : List Nat) (waiting : b.inbox receipt.1 = front ++ item :: back) :
      Delivers b receipt item { b with
        inbox := Function.update b.inbox receipt.1 (front ++ back)
        received := b.received ++ [(receipt, item)] }

section Frame

variable {b b' : Broker ι δ α}

theorem Publishes.published {kind : δ → Option Kind} {destination : δ} {a : α}
    (publishes : b.Publishes kind destination a b') : b'.published = b.published ++ [a] := by
  cases publishes with
  | topic | queue => rfl

theorem Publishes.received {kind : δ → Option Kind} {destination : δ} {a : α}
    (publishes : b.Publishes kind destination a b') : b'.received = b.received := by
  cases publishes with
  | topic | queue => rfl

omit [DecidableEq δ] in
theorem Delivers.published {receipt : ι × Nat} {item : Nat}
    (delivers : b.Delivers receipt item b') : b'.published = b.published := by
  cases delivers
  rfl

omit [DecidableEq δ] in
theorem Delivers.received {receipt : ι × Nat} {item : Nat}
    (delivers : b.Delivers receipt item b') : b'.received = b.received ++ [(receipt, item)] := by
  cases delivers
  rfl

omit [DecidableEq δ] in
theorem exists_delivers {receipt : ι × Nat} {item : Nat} (waiting : item ∈ b.inbox receipt.1) :
    ∃ b', b.Delivers receipt item b' := by
  obtain ⟨front, back, split⟩ := List.append_of_mem waiting
  exact ⟨_, .intro front back split⟩

omit [DecidableEq δ] in
theorem Delivers.inbox_of_ne {receipt : ι × Nat} {item : Nat}
    (delivers : b.Delivers receipt item b') {i : ι} (other : i ≠ receipt.1) :
    b'.inbox i = b.inbox i := by
  cases delivers
  exact Function.update_of_ne other ..

end Frame

/-- Items wait once at most, and no longer when they were received. -/
structure Once (b : Broker ι δ α) : Prop where
  issued : ∀ i, ∀ item ∈ b.inbox i, item < b.published.length
  waiting : ∀ i, (b.inbox i).Nodup
  gone : ∀ receipt item, (receipt, item) ∈ b.received →
    item < b.published.length ∧ item ∉ b.inbox receipt.1
  unique : ∀ i k k' item, ((i, k), item) ∈ b.received → ((i, k'), item) ∈ b.received → k = k'

omit [DecidableEq ι] [DecidableEq δ] in
theorem once_empty : (empty : Broker ι δ α).Once where
  issued := by intro _ _ member; cases member
  waiting := fun _ => List.nodup_nil
  gone := by intro _ _ member; cases member
  unique := by intro _ _ _ _ member; cases member

namespace Once

variable {b b' : Broker ι δ α}

omit [DecidableEq δ] in
theorem subscribe (once : b.Once) (i : ι) (destination : δ) : (b.subscribe i destination).Once :=
  ⟨once.issued, once.waiting, once.gone, once.unique⟩

omit [DecidableEq ι] [DecidableEq δ] in
theorem send (once : b.Once) (chosen : ι → Bool) (a : α) : (b.send chosen a).Once where
  issued := by
    intro i item member
    simp only [Broker.send, List.length_append, List.length_singleton] at member ⊢
    split at member
    · rcases List.mem_append.mp member with old | new
      · exact Nat.lt_succ_of_lt (once.issued i item old)
      · obtain rfl := List.mem_singleton.mp new
        exact Nat.lt_succ_self _
    · exact Nat.lt_succ_of_lt (once.issued i item member)
  waiting := by
    intro i
    simp only [Broker.send]
    split
    -- the new item's number was never issued before
    · refine List.nodup_append.mpr ⟨once.waiting i, List.nodup_singleton _, ?_⟩
      rintro item old _ new rfl
      obtain rfl := List.mem_singleton.mp new
      exact Nat.lt_irrefl _ (once.issued i _ old)
    · exact once.waiting i
  gone := by
    intro receipt item received
    obtain ⟨before, absent⟩ := once.gone receipt item received
    simp only [Broker.send, List.length_append, List.length_singleton]
    refine ⟨Nat.lt_succ_of_lt before, fun member => ?_⟩
    split at member
    · rcases List.mem_append.mp member with old | new
      · exact absent old
      · exact absurd (List.mem_singleton.mp new) (Nat.ne_of_lt before)
    · exact absent member
  unique := once.unique

omit [DecidableEq δ] in
theorem delivers (once : b.Once) {receipt : ι × Nat} {item : Nat}
    (delivers : b.Delivers receipt item b') : b'.Once := by
  obtain ⟨front, back, waiting⟩ := delivers
  have nodup := waiting ▸ once.waiting receipt.1
  have kept (i : ι) : (Function.update b.inbox receipt.1 (front ++ back) i).Sublist (b.inbox i) := by
    by_cases same : i = receipt.1
    · subst same
      rw [Function.update_self, waiting]
      exact (List.sublist_cons_self item back).append_left front
    · rw [Function.update_of_ne same]
  -- what is received now was waiting, so it was not received before
  have fresh (k : Nat) : ((receipt.1, k), item) ∉ b.received := by
    intro received
    exact (once.gone _ _ received).2 (by simp [waiting])
  refine ⟨?_, ?_, ?_, ?_⟩
  · exact fun i item' member => once.issued i item' ((kept i).subset member)
  · exact fun i => (once.waiting i).sublist (kept i)
  · intro receipt' item' received
    rcases List.mem_append.mp received with old | new
    · obtain ⟨before, absent⟩ := once.gone receipt' item' old
      exact ⟨before, fun member => absent ((kept receipt'.1).subset member)⟩
    · obtain ⟨rfl, rfl⟩ := Prod.mk.inj (List.mem_singleton.mp new)
      refine ⟨once.issued receipt'.1 item' (by simp [waiting]), ?_⟩
      simp only [Function.update_self]
      exact (List.nodup_middle.mp nodup).notMem
  · intro i k k' item' first second
    rcases List.mem_append.mp first with old | new
    · rcases List.mem_append.mp second with old' | new'
      · exact once.unique i k k' item' old old'
      · obtain ⟨rfl, rfl⟩ := Prod.mk.inj (List.mem_singleton.mp new')
        exact absurd old (fresh k)
    · obtain ⟨rfl, rfl⟩ := Prod.mk.inj (List.mem_singleton.mp new)
      rcases List.mem_append.mp second with old' | new'
      · exact absurd old' (fresh k')
      · exact (congrArg (fun pair => pair.1.2) (List.mem_singleton.mp new')).symm

theorem publishes (once : b.Once) {kind : δ → Option Kind} {destination : δ} {a : α}
    (publishes : b.Publishes kind destination a b') : b'.Once := by
  cases publishes with
  | topic | queue => exact once.send _ a

end Once
end Broker
end Dispatch
