import Mathlib.Data.List.Basic

/-!
# Delimited text

Cutting a list at a delimiter and dropping the empty cuts loses information:
the cut list can be put back together from its pieces only when every field was
non-empty and free of the delimiter. Regrouping a flat list in threes loses
nothing, but is defined only on lengths that three divides.
-/
namespace Text

variable {α : Type} [DecidableEq α]

/-- The non-empty stretches between delimiters, in order. -/
def pieces (d : α) (xs : List α) : List (List α) :=
  (xs.splitOn d).filter fun piece => piece ≠ []

/-- A field that survives being joined with others and cut apart again. -/
def Clean (d : α) (field : List α) : Prop := field ≠ [] ∧ d ∉ field

instance (d : α) (field : List α) : Decidable (Clean d field) :=
  inferInstanceAs (Decidable (_ ∧ _))

@[simp] theorem pieces_nil (d : α) : pieces d [] = [] := by simp [pieces]

theorem pieces_append_cons (d : α) (xs ys : List α) :
    pieces d (xs ++ d :: ys) = pieces d xs ++ pieces d ys := by
  simp only [pieces, List.splitOn_append_cons_self, List.filter_append]

theorem pieces_clean (d : α) (field : List α) (clean : Clean d field) :
    pieces d field = [field] := by
  simp [pieces, List.splitOn_eq_singleton clean.2, clean.1]

theorem not_mem_of_mem_splitOn (d : α) (xs piece : List α) (member : piece ∈ xs.splitOn d) :
    d ∉ piece := by
  induction xs generalizing piece with
  | nil =>
    rw [List.splitOn_nil, List.mem_singleton] at member
    simp [member]
  | cons x xs ih =>
    rw [List.splitOn_cons_eq_if_modifyHead] at member
    split at member
    · rcases List.mem_cons.mp member with rfl | member
      · exact List.not_mem_nil
      · exact ih piece member
    next differs =>
      -- `x` joins the first stretch of the rest, which holds no delimiter either
      cases cut : xs.splitOn d with
      | nil => exact absurd cut (List.splitOn_ne_nil d xs)
      | cons first rest =>
        rw [cut] at ih
        rw [cut, List.modifyHead_cons] at member
        rcases List.mem_cons.mp member with rfl | member
        · have absent := ih first (List.mem_cons_self ..)
          simp only [beq_iff_eq] at differs
          simp [absent, Ne.symm differs]
        · exact ih piece (List.mem_cons_of_mem _ member)

theorem clean_of_mem_pieces (d : α) (xs piece : List α) (member : piece ∈ pieces d xs) :
    Clean d piece := by
  obtain ⟨cut, keep⟩ := List.mem_filter.mp member
  exact ⟨by simpa using keep, not_mem_of_mem_splitOn d xs piece cut⟩

/-- Joining and cutting again cuts every field on its own. -/
theorem pieces_intercalate (d : α) (fields : List (List α)) :
    pieces d ([d].intercalate fields) = fields.flatMap (pieces d) := by
  induction fields with
  | nil => simp
  | cons field rest ih =>
    cases rest with
    | nil => simp
    | cons next rest =>
      rw [List.intercalate_cons_cons, List.append_assoc, List.singleton_append,
        pieces_append_cons, ih]
      simp only [List.flatMap_cons]

/-- The fields come back from their joined form exactly when all are clean. -/
theorem flatMap_pieces_eq_iff (d : α) (fields : List (List α)) :
    fields.flatMap (pieces d) = fields ↔ ∀ field ∈ fields, Clean d field := by
  constructor
  · intro same field member
    rw [← same] at member
    obtain ⟨source, _, piece⟩ := List.mem_flatMap.mp member
    exact clean_of_mem_pieces d source field piece
  · intro clean
    induction fields with
    | nil => rfl
    | cons field rest ih =>
      rw [List.flatMap_cons, pieces_clean d field (clean field (List.mem_cons_self ..)),
        ih fun other member => clean other (List.mem_cons_of_mem _ member), List.singleton_append]

omit [DecidableEq α]

/-- The elements three at a time; `none` when the last group is short. -/
def inThrees : List α → Option (List (α × α × α))
  | [] => some []
  | a :: b :: c :: rest => (inThrees rest).map ((a, b, c) :: ·)
  | _ => none

def flattenThrees (groups : List (α × α × α)) : List α :=
  groups.flatMap fun (a, b, c) => [a, b, c]

@[simp] theorem length_flattenThrees (groups : List (α × α × α)) :
    (flattenThrees groups).length = 3 * groups.length := by
  simp [flattenThrees, List.length_flatMap, Nat.mul_comm]

theorem inThrees_eq_some_iff (xs : List α) (groups : List (α × α × α)) :
    inThrees xs = some groups ↔ xs = flattenThrees groups := by
  constructor
  · intro grouped
    induction xs using inThrees.induct generalizing groups with
    | case1 =>
      cases grouped
      rfl
    | case2 a b c rest ih =>
      simp only [inThrees, Option.map_eq_some_iff] at grouped
      obtain ⟨tail, grouped, rfl⟩ := grouped
      rw [ih tail grouped]
      rfl
    | case3 xs notEmpty short =>
      match xs with
      | [] => exact absurd rfl notEmpty
      | [_] | [_, _] => cases grouped
      | a :: b :: c :: rest => exact absurd rfl (short a b c rest)
  · rintro rfl
    induction groups with
    | nil => rfl
    | cons group rest ih =>
      obtain ⟨a, b, c⟩ := group
      change (inThrees (flattenThrees rest)).map ((a, b, c) :: ·) = _
      rw [ih, Option.map_some]

theorem inThrees_isSome_iff (xs : List α) : (inThrees xs).isSome ↔ xs.length % 3 = 0 := by
  induction xs using inThrees.induct with
  | case1 => simp [inThrees]
  | case2 a b c rest ih =>
    simp only [inThrees, Option.isSome_map, ih, List.length_cons]
    omega
  | case3 xs notEmpty short =>
    match xs with
    | [] => exact absurd rfl notEmpty
    | [_] | [_, _] => simp [inThrees]
    | a :: b :: c :: rest => exact absurd rfl (short a b c rest)

end Text
