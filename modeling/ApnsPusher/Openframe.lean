import ApnsPusher.Text.Pieces

/-!
# The openframe library

The classes `Vars`, `StringToken` and `StringTool` come from a library that is
not part of this repository. They are a parameter of the model; what the code
relies on is stated as named laws, and each theorem asks for the laws it needs.
-/
namespace ApnsPusher

open Text

/-- `std::string`: a sequence of bytes. -/
abbrev Str := List UInt8

def lit (s : String) : Str := s.toList.map fun c => c.toNat.toUInt8

def comma : UInt8 := 44

structure Openframe where
  Vars : Type
  empty : Vars
  parse : Str → Vars
  is : Vars → Str → Bool
  get : Vars → Str → Str
  add : Vars → Str → Str → Vars
  compile : Vars → Str
  stringToken : UInt8 → Str → List Str
  toUpper : Str → Str

namespace Openframe

variable (lib : Openframe)

/-- `Vars` gives back the two shapes of entry that are written to memcached. -/
structure RoundTrips : Prop where
  notFound_is : lib.is (lib.parse (lib.compile (lib.add lib.empty (lit "fnd") (lit "0"))))
    (lit "fnd") = true
  notFound_get : lib.get (lib.parse (lib.compile (lib.add lib.empty (lit "fnd") (lit "0"))))
    (lit "fnd") = lit "0"
  found_is_fnd : ∀ bdy, bdy ≠ [] → lib.is (lib.parse (lib.compile
    (lib.add (lib.add lib.empty (lit "bdy") bdy) (lit "fnd") (lit "1")))) (lit "fnd") = true
  found_get_fnd : ∀ bdy, bdy ≠ [] → lib.get (lib.parse (lib.compile
    (lib.add (lib.add lib.empty (lit "bdy") bdy) (lit "fnd") (lit "1")))) (lit "fnd") = lit "1"
  found_is_bdy : ∀ bdy, bdy ≠ [] → lib.is (lib.parse (lib.compile
    (lib.add (lib.add lib.empty (lit "bdy") bdy) (lit "fnd") (lit "1")))) (lit "bdy") = true
  found_get_bdy : ∀ bdy, bdy ≠ [] → lib.get (lib.parse (lib.compile
    (lib.add (lib.add lib.empty (lit "bdy") bdy) (lit "fnd") (lit "1")))) (lit "bdy") = bdy

/-- A `Vars` made from the empty string holds no `fnd`. -/
def BlankIsEmpty : Prop := lib.is (lib.parse []) (lit "fnd") = false

/-- `is` of a comma separated list asks for every name of the list. -/
def IsAll : Prop := ∀ v, lib.is v (lit "sr,to,ms,pa") =
  (lib.is v (lit "sr") && lib.is v (lit "to") && lib.is v (lit "ms") && lib.is v (lit "pa"))

/-- `StringToken` yields the non-empty pieces between delimiters. -/
def Tokenizes : Prop := ∀ s, lib.stringToken comma s = pieces comma s

def UpperIdempotent : Prop := ∀ s, lib.toUpper (lib.toUpper s) = lib.toUpper s

end Openframe

/-!
## A textual form

The test program documents how a message looks: upper-case names, each with its
value after a colon, joined by bars. The instance below reads and writes that
form, so the laws are not empty.
-/

def upperByte (b : UInt8) : UInt8 := if 97 ≤ b ∧ b ≤ 122 then b - 32 else b

theorem upperByte_idempotent (b : UInt8) : upperByte (upperByte b) = upperByte b := by
  unfold upperByte
  split
  next lower =>
    obtain ⟨low, high⟩ := lower
    rw [if_neg]
    rintro ⟨again, _⟩
    rw [UInt8.le_iff_toNat_le] at low high again
    -- an upper-cased letter is no lower-case letter
    rw [UInt8.toNat_sub_of_le _ _ (UInt8.le_iff_toNat_le.mpr (Nat.le_trans (by decide) low))] at again
    simp at low high again
    omega
  · rfl

/-- A bar or a percent sign inside a value is written as a code. -/
def escape (value : Str) : Str :=
  value.flatMap fun b => if b = 124 then [37, 55, 67] else if b = 37 then [37, 50, 53] else [b]

def unescape : Str → Str
  | 37 :: 55 :: 67 :: rest => 124 :: unescape rest
  | 37 :: 50 :: 53 :: rest => 37 :: unescape rest
  | b :: rest => b :: unescape rest
  | [] => []

theorem unescape_plain (b : UInt8) (rest : Str) (plain : b ≠ 37) :
    unescape (b :: rest) = b :: unescape rest := by
  rw [unescape] <;> · intro _ equal; simp_all

theorem unescape_escape (value : Str) : unescape (escape value) = value := by
  induction value with
  | nil => rfl
  | cons b rest ih =>
    simp only [escape, List.flatMap_cons] at ih ⊢
    split
    next bar =>
      subst bar
      simp only [List.cons_append, List.nil_append, unescape, ih]
    · split
      next percent =>
        subst percent
        simp only [List.cons_append, List.nil_append, unescape, ih]
      next plain =>
        rw [List.singleton_append, unescape_plain b _ plain, ih]

theorem bar_not_mem_escape (value : Str) : (124 : UInt8) ∉ escape value := by
  intro member
  obtain ⟨b, _, written⟩ := List.mem_flatMap.mp member
  split at written
  · simp at written
  · split at written
    · simp at written
    next notBar _ => exact notBar (List.mem_singleton.mp written).symm

/-- One `NAME:value` stretch. -/
def readVar (piece : Str) : Str × Str :=
  (piece.takeWhile (· ≠ 58), unescape ((piece.dropWhile (· ≠ 58)).drop 1))

def writeVar (var : Str × Str) : Str := var.1 ++ 58 :: escape var.2

theorem readVar_writeVar (var : Str × Str) (plain : 58 ∉ var.1) : readVar (writeVar var) = var := by
  have name : ∀ b ∈ var.1, decide (b ≠ 58) = true := by
    intro b member
    simp only [decide_eq_true_eq]
    rintro rfl
    exact plain member
  have colon : decide ((58 : UInt8) ≠ 58) = false := by decide
  unfold readVar writeVar
  rw [List.takeWhile_append_of_pos name, List.dropWhile_append_of_pos name,
    List.takeWhile_cons, List.dropWhile_cons]
  simp only [colon, Bool.false_eq_true, if_false, List.append_nil, List.drop_succ_cons,
    List.drop_zero, unescape_escape]

def Openframe.textual : Openframe where
  Vars := List (Str × Str)
  empty := []
  parse s := (pieces 124 s).map readVar
  is v names := (pieces comma names).all fun name => (v.lookup (name.map upperByte)).isSome
  get v name := (v.lookup (name.map upperByte)).getD []
  add v name value := v ++ [(name.map upperByte, value)]
  compile v := [124].intercalate (v.map writeVar)
  stringToken := pieces
  toUpper s := s.map upperByte

namespace Openframe

theorem textual_parse_compile (v : List (Str × Str))
    (plain : ∀ var ∈ v, 58 ∉ var.1 ∧ 124 ∉ var.1) :
    textual.parse (textual.compile v) = v := by
  change (pieces 124 ([124].intercalate (v.map writeVar))).map readVar = v
  -- an escaped value holds no bar, so the cuts fall between the variables
  rw [pieces_intercalate, (flatMap_pieces_eq_iff 124 _).mpr]
  · rw [List.map_map]
    calc v.map (readVar ∘ writeVar)
        = v.map id := List.map_congr_left fun var member => readVar_writeVar var (plain var member).1
      _ = v := List.map_id v
  · intro field member
    obtain ⟨var, source, rfl⟩ := List.mem_map.mp member
    refine ⟨by simp [writeVar], ?_⟩
    simp only [writeVar, List.mem_append, List.mem_cons, not_or]
    exact ⟨(plain var source).2, by decide, bar_not_mem_escape var.2⟩

private theorem textual_notFound :
    textual.parse (textual.compile (textual.add textual.empty (lit "fnd") (lit "0"))) =
      ([(lit "FND", lit "0")] : List (Str × Str)) :=
  textual_parse_compile [(lit "FND", lit "0")] (by decide)

private theorem textual_found (bdy : Str) :
    textual.parse (textual.compile
      (textual.add (textual.add textual.empty (lit "bdy") bdy) (lit "fnd") (lit "1"))) =
      ([(lit "BDY", bdy), (lit "FND", lit "1")] : List (Str × Str)) := by
  refine textual_parse_compile [(lit "BDY", bdy), (lit "FND", lit "1")] ?_
  intro var member
  simp only [List.mem_cons, List.not_mem_nil, or_false] at member
  rcases member with rfl | rfl
  · exact ⟨by show 58 ∉ lit "BDY"; decide, by show 124 ∉ lit "BDY"; decide⟩
  · exact ⟨by decide, by decide⟩

theorem textual_roundTrips : textual.RoundTrips where
  notFound_is := by rw [textual_notFound]; decide
  notFound_get := by rw [textual_notFound]; decide
  found_is_fnd bdy _ := by rw [textual_found]; rfl
  found_get_fnd bdy _ := by rw [textual_found]; rfl
  found_is_bdy bdy _ := by rw [textual_found]; rfl
  found_get_bdy bdy _ := by rw [textual_found]; rfl

theorem textual_blankIsEmpty : textual.BlankIsEmpty := by
  unfold BlankIsEmpty
  decide

theorem textual_isAll : textual.IsAll := by
  intro v
  have names : pieces comma (lit "sr,to,ms,pa") = [lit "sr", lit "to", lit "ms", lit "pa"] := by
    decide
  have one (name : Str) (clean : Clean comma name) :
      textual.is v name = (v.lookup (name.map upperByte)).isSome := by
    simp only [textual, pieces_clean comma name clean, List.all_cons, List.all_nil, Bool.and_true]
  rw [one (lit "sr") (by decide), one (lit "to") (by decide), one (lit "ms") (by decide),
    one (lit "pa") (by decide)]
  simp only [textual, names, List.all_cons, List.all_nil, Bool.and_true, Bool.and_assoc]

theorem textual_tokenizes : textual.Tokenizes := fun _ => rfl

theorem textual_upperIdempotent : textual.UpperIdempotent := by
  intro s
  change (s.map upperByte).map upperByte = s.map upperByte
  rw [List.map_map]
  exact List.map_congr_left fun b _ => upperByte_idempotent b

end Openframe
end ApnsPusher
