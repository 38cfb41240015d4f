import ApnsPusher.Shared

/-!
# Which keys the controller takes

All operations make the same two checks, and make them on the joined key. It
always holds the colon, so the check for zero length never strikes, whatever its
message says about the namespace and the key.
-/
namespace ApnsPusher.MemcachedController

open Effects

variable {ns key value buf : Str} {expires : Int}
  {tr : List (Event Libmemcached.Call Libmemcached.Answer)}

theorem length_cacheKey (ns key : Str) : (cacheKey ns key).length = ns.length + 1 + key.length := by
  rw [cacheKey, List.length_append, List.length_append]
  rfl

theorem checkKey_cacheKey (ns key : Str) :
    (255 < (cacheKey ns key).length ∧ ∃ ex, checkKey (cacheKey ns key) = .error ex) ∨
      ((cacheKey ns key).length ≤ 255 ∧ checkKey (cacheKey ns key) = .ok ()) := by
  have colon := length_cacheKey ns key
  unfold checkKey
  -- the check for zero length fails on any pair
  rw [if_neg (by omega)]
  by_cases long : (cacheKey ns key).length > 255
  · rw [if_pos long]
    exact Or.inl ⟨long, _, rfl⟩
  · rw [if_neg long]
    exact Or.inr ⟨by omega, rfl⟩

/-- Thrown before any library call, so that nothing stored can have changed. -/
structure Refuses {α : Type} (tr : List (Event Libmemcached.Call Libmemcached.Answer))
    (reply : Except MemcachedControllerException α) : Prop where
  thrown : ∃ ex, reply = .error ex
  silent : tr = []
  kept : ∀ (ι : Type) (id : ι × Nat) (s s' : Shared ι), Libmemcached.ServesAll id tr s s' → s' = s

/-- The first thing done is the library call. -/
def Sends (tr : List (Event Libmemcached.Call Libmemcached.Answer)) (call : Libmemcached.Call) :
    Prop :=
  ∃ answer rest, tr = ⟨call, answer⟩ :: rest

theorem refuses_error (α : Type) (ex : MemcachedControllerException) :
    Refuses [] (.error ex : Except MemcachedControllerException α) :=
  ⟨⟨ex, rfl⟩, rfl, fun _ _ _ _ same => same⟩

theorem get_judges {reply : Except MemcachedControllerException MemcachedReturnEnum × Str}
    (runs : Prog.Runs (get ns key buf) tr reply) :
    (255 < (cacheKey ns key).length ∧ Refuses tr reply.1 ∧ reply.2 = buf) ∨
      ((cacheKey ns key).length ≤ 255 ∧ Sends tr (.get (cacheKey ns key))) := by
  unfold get at runs
  rcases checkKey_cacheKey ns key with ⟨long, ex, refused⟩ | ⟨fits, passed⟩
  · rw [refused] at runs
    obtain ⟨rfl, rfl⟩ := runs
    exact Or.inl ⟨long, refuses_error _ ex, rfl⟩
  · rw [passed] at runs
    obtain ⟨answer, rest, rfl, _⟩ := runs
    exact Or.inr ⟨fits, answer, rest, rfl⟩

/-- The library call of `put` or of `replace`. -/
def Storing.call : Storing → Str → Str → Int → UInt32 → Libmemcached.Call
  | .set => .set
  | .replace => .replace

theorem store_judges {storing : Storing} {reply : Except MemcachedControllerException Unit}
    (runs : Prog.Runs (store storing ns key value expires) tr reply) :
    (255 < (cacheKey ns key).length ∧ Refuses tr reply) ∨
      ((cacheKey ns key).length ≤ 255 ∧
        Sends tr (storing.call (cacheKey ns key) value expires 0)) := by
  unfold store at runs
  rcases checkKey_cacheKey ns key with ⟨long, ex, refused⟩ | ⟨fits, passed⟩
  · rw [refused] at runs
    obtain ⟨rfl, rfl⟩ := runs
    exact Or.inl ⟨long, refuses_error _ ex⟩
  · rw [passed] at runs
    cases storing with
    | set | replace =>
      obtain ⟨answer, rest, rfl, _⟩ := runs
      exact Or.inr ⟨fits, answer, rest, rfl⟩

/-- The pairs that the messages of the two exceptions speak of. -/
def Refusable (ns key : Str) : Prop := ns = [] ∨ key = [] ∨ 255 < (cacheKey ns key).length

/-- Every operation refuses the pair if it is refusable, and otherwise sends the
joined key. -/
structure ValidatesKey (ns key : Str) : Prop where
  get : ∀ buf tr reply, Prog.Runs (get ns key buf) tr reply →
    (Refusable ns key → Refuses tr reply.1 ∧ reply.2 = buf) ∧
      (¬ Refusable ns key → Sends tr (.get (cacheKey ns key)))
  put : ∀ value expires tr reply, Prog.Runs (put ns key value expires) tr reply →
    (Refusable ns key → Refuses tr reply) ∧
      (¬ Refusable ns key → Sends tr (.set (cacheKey ns key) value expires 0))
  replace : ∀ value expires tr reply, Prog.Runs (replace ns key value expires) tr reply →
    (Refusable ns key → Refuses tr reply) ∧
      (¬ Refusable ns key → Sends tr (.replace (cacheKey ns key) value expires 0))

theorem Sends.not_refuses {α : Type} {call : Libmemcached.Call}
    {reply : Except MemcachedControllerException α} (sends : Sends tr call) :
    ¬ Refuses tr reply := by
  obtain ⟨answer, rest, rfl⟩ := sends
  exact fun refuses => List.cons_ne_nil _ _ refuses.silent

/-- A short pair with an empty half is the only one that is wrongly taken. -/
theorem refusable_iff_long (apart : (ns ≠ [] ∧ key ≠ []) ∨ 255 < (cacheKey ns key).length) :
    Refusable ns key ↔ 255 < (cacheKey ns key).length := by
  constructor
  · rintro (none | none | long)
    · exact apart.resolve_left fun both => both.1 none
    · exact apart.resolve_left fun both => both.2 none
    · exact long
  · exact fun long => Or.inr (Or.inr long)

theorem validates_of_judges {refuses sends : Prop}
    (apart : (ns ≠ [] ∧ key ≠ []) ∨ 255 < (cacheKey ns key).length)
    (judges : (255 < (cacheKey ns key).length ∧ refuses) ∨
      ((cacheKey ns key).length ≤ 255 ∧ sends)) :
    (Refusable ns key → refuses) ∧ (¬ Refusable ns key → sends) := by
  rw [refusable_iff_long apart]
  rcases judges with ⟨long, refuses⟩ | ⟨fits, sends⟩
  · exact ⟨fun _ => refuses, fun short => absurd long short⟩
  · exact ⟨fun long => by omega, fun _ => sends⟩

/-- A library that has nothing and takes everything. -/
def emptyLibrary : (call : Libmemcached.Call) → Nat → Libmemcached.Answer call
  | .get _, _ => (.notFound, [])
  | .set .., _ | .replace .., _ => .success
  | .strerror _, _ => []

/-- The three operations validate a pair exactly when neither half is empty or
the joined key is too long anyway. -/
theorem validatesKey_iff (ns key : Str) :
    ValidatesKey ns key ↔ (ns ≠ [] ∧ key ≠ []) ∨ 255 < (cacheKey ns key).length := by
  constructor
  · intro validates
    by_contra taken
    obtain ⟨empty, short⟩ := not_or.mp taken
    have refusable : Refusable ns key := by
      rcases not_and_or.mp empty with none | none
      · exact Or.inl (not_not.mp none)
      · exact Or.inr (Or.inl (not_not.mp none))
    -- any run of a get shows it: the pair reaches the library
    have runs := Prog.play_runs emptyLibrary 0 (MemcachedController.get ns key [])
    rcases get_judges runs with ⟨long, _⟩ | ⟨_, sends⟩
    · exact short long
    · exact sends.not_refuses ((validates.get _ _ _ runs).1 refusable).1
  · intro apart
    refine ⟨?_, ?_, ?_⟩
    · exact fun buf tr reply runs => validates_of_judges apart (get_judges runs)
    · exact fun value expires tr reply runs => validates_of_judges apart (store_judges runs)
    · exact fun value expires tr reply runs => validates_of_judges apart (store_judges runs)

/-- With both halves empty the joined key is a colon, and it reaches the library. -/
theorem emptyPair_taken : ¬ ∀ ns key, ValidatesKey ns key := by
  intro validates
  have runs := Prog.play_runs emptyLibrary 0 (MemcachedController.get [] [] [])
  have silent := ((validates [] []).get _ _ _ runs).1 (Or.inl rfl) |>.1.silent
  exact absurd silent (by decide)

end ApnsPusher.MemcachedController
