import ApnsPusher.Store.Breaker
import ApnsPusher.Transparency

/-!
# Reading the cache

What a get makes of the controller's reply, and what a lookup makes of a payload,
whatever bytes it consists of.
-/
namespace ApnsPusher

open Effects Store

/-! ### The reply to a get -/

/-- `getMessageFromMemcached` or `getApnsRegisterFromMemcached`. -/
def CacheKind.getFromMemcached (lib : Openframe) :
    CacheKind → Store → Str → Str → Program ((Bool × Str) × Store)
  | .message => Store.getMessageFromMemcached
  | .register => Store.getApnsRegisterFromMemcached lib

/-- The key that goes to the controller. -/
def CacheKind.key (lib : Openframe) : CacheKind → Str → Str
  | .message, hash => hash
  | .register, callsign => lib.toUpper callsign

theorem CacheKind.getTrace_of_runs {lib : Openframe} {kind : CacheKind} {s : Store} {key ret : Str}
    {tr : Trace} {result : (Bool × Str) × Store}
    (runs : Prog.Runs (kind.getFromMemcached lib s key ret) tr result) :
    GetTrace kind.on kind.ns (kind.key lib key) s ret tr result := by
  cases kind with
  | message | register => exact runs.post (getFromMemcached_post _ _ _ _ _)

/-- The block of `kind` went through `f` in both ledgers. -/
def CountedAs (kind : CacheKind) (f : MemcacheStats → MemcacheStats) (s s' : Store) : Prop :=
  kind.block s'.stats = f (kind.block s.stats) ∧
    kind.block s'.stompstats = f (kind.block s.stompstats)

/-- A value is returned and counted as a hit exactly when the controller found one;
every other reply leaves the caller's buffer alone and is counted as a miss. -/
structure FailedReadIsMiss (kind : CacheKind) (s : Store) (ret : Str) (tr : Trace)
    (result : (Bool × Str) × Store) : Prop where
  found : ∀ ns key buf value,
    (⟨.memcachedGet ns key buf, (.ok .success, value)⟩ : Event Call Answer) ∈ tr →
      result.1 = (true, value) ∧ CountedAs kind (fun m => m.attempt.hit) s result.2
  missed : ∀ ns key buf reply, (⟨.memcachedGet ns key buf, reply⟩ : Event Call Answer) ∈ tr →
    reply.1 ≠ .ok .success →
      result.1 = (false, ret) ∧ CountedAs kind (fun m => m.attempt.miss) s result.2
  unasked : (∀ e ∈ tr, ∀ ns key buf, e.call ≠ .memcachedGet ns key buf) → result = ((false, ret), s)

/-- The controller threw, and the result local held the success code all along. -/
def TakenForSuccess (tr : Trace) : Prop :=
  ∃ ns key buf ex value,
    (⟨.memcachedGet ns key buf, (.error ex, value)⟩ : Event Call Answer) ∈ tr ∧
      (⟨.indeterminate, .success⟩ : Event Call Answer) ∈ tr

theorem concludeGet_success (kind : CacheKind) (ret buf : Str) (s : Store) :
    (concludeGet kind.on ret .success buf s).1 = (true, buf) ∧
      CountedAs kind MemcacheStats.hit s (concludeGet kind.on ret .success buf s).2 := by
  unfold concludeGet
  exact ⟨rfl, kind.block_on_stats s _, kind.block_on_stompstats s _⟩

theorem concludeGet_other (kind : CacheKind) (ret buf : Str) (s : Store)
    {mcr : MemcachedReturnEnum} (other : mcr ≠ .success) :
    (concludeGet kind.on ret mcr buf s).1 = (false, ret) ∧
      CountedAs kind MemcacheStats.miss s (concludeGet kind.on ret mcr buf s).2 := by
  unfold concludeGet
  rw [if_pos other]
  exact ⟨rfl, kind.block_on_stats s _, kind.block_on_stompstats s _⟩

/-- The try comes before the hit or the miss. -/
theorem CountedAs.after_try {kind : CacheKind} {f : MemcacheStats → MemcacheStats} {s s' mid : Store}
    (counted : CountedAs kind f mid s') (tried : mid.stats = (kind.on s .attempt).stats)
    (tried' : mid.stompstats = (kind.on s .attempt).stompstats) :
    CountedAs kind (fun m => f m.attempt) s s' := by
  obtain ⟨stats, stompstats⟩ := counted
  rw [tried, kind.block_on_stats] at stats
  rw [tried', kind.block_on_stompstats] at stompstats
  exact ⟨stats, stompstats⟩

/-- A failed read is a miss, unless the stack held the success code. -/
theorem failedReadIsMiss_iff (lib : Openframe) (kind : CacheKind) (s : Store) (key ret : Str)
    (tr : Trace) (result : (Bool × Str) × Store)
    (runs : Prog.Runs (kind.getFromMemcached lib s key ret) tr result) :
    FailedReadIsMiss kind s ret tr result ↔ ¬ TakenForSuccess tr := by
  cases CacheKind.getTrace_of_runs runs with
  -- the controller is not asked
  | skipped now cooling =>
    refine ⟨fun _ => ?_, fun _ => ⟨?_, ?_, fun _ => rfl⟩⟩
    · rintro ⟨ns, key', buf, ex, value, member, _⟩
      simp at member
    · intro ns key' buf value member
      simp at member
    · intro ns key' buf reply member
      simp at member
  -- it returns, and its reply is in the local that is tested
  | answered now mcr buf ready =>
    refine ⟨fun _ => ?_, fun _ => ⟨?_, ?_, ?_⟩⟩
    · rintro ⟨ns, key', buf', ex, value, _, garbage⟩
      simp at garbage
    · intro ns key' buf' value member
      obtain ⟨_, rfl, rfl⟩ : _ ∧ MemcachedReturnEnum.success = mcr ∧ value = buf := by
        simpa using member
      obtain ⟨taken, counted⟩ := concludeGet_success kind ret value (kind.on s .attempt)
      exact ⟨taken, counted.after_try rfl rfl⟩
    · intro ns key' buf' reply member other
      obtain ⟨_, rfl⟩ : _ ∧ reply = (.ok mcr, buf) := by simpa using member
      have unsuccessful : mcr ≠ .success := by simpa using other
      obtain ⟨left, counted⟩ := concludeGet_other kind ret buf (kind.on s .attempt) unsuccessful
      exact ⟨left, counted.after_try rfl rfl⟩
    · intro unasked
      exact absurd rfl (unasked _ (List.mem_cons_of_mem _ (List.mem_cons_self ..)) kind.ns
        (kind.key lib key) [])
  -- it throws, and the test is made on whatever the local held
  | failed now ex buf failedAt garbage ready =>
    have missed : (⟨.memcachedGet kind.ns (kind.key lib key) [], (.error ex, buf)⟩ :
        Event Call Answer) ∈ [⟨.time, now⟩, ⟨.memcachedGet kind.ns (kind.key lib key) [],
          (.error ex, buf)⟩, ⟨.time, failedAt⟩, ⟨.indeterminate, garbage⟩] := by simp
    constructor
    · -- a hit was counted although the controller threw
      rintro isMiss ⟨ns, key', buf', ex', value, _, success⟩
      obtain rfl : MemcachedReturnEnum.success = garbage := by simpa using success
      have left := (isMiss.missed _ _ _ _ missed (by simp)).1
      rw [(concludeGet_success kind ret buf _).1] at left
      cases left
    · intro notTaken
      have other : garbage ≠ .success := by
        rintro rfl
        exact notTaken ⟨_, _, _, ex, buf, missed, by simp⟩
      obtain ⟨left, counted⟩ := concludeGet_other kind ret buf
        { kind.on s .attempt with lastCacheFailAt := failedAt } other
      refine ⟨?_, fun _ _ _ _ _ _ => ⟨left, counted.after_try rfl rfl⟩, ?_⟩
      · intro ns key' buf' value member
        simp at member
      · intro unasked
        exact absurd rfl (unasked _ missed kind.ns (kind.key lib key) [])

/-- The controller throws out of the get of a new store, and the local holds `garbage`. -/
def throwingAnswers (garbage : MemcachedReturnEnum) : (call : Call) → Nat → Answer call
  | .indeterminate, _ => garbage
  | call, n => failingScript.answers call n

def playThrowing (garbage : MemcachedReturnEnum) : Trace × (Bool × Str) × Store :=
  Prog.play (throwingAnswers garbage) 0
    (CacheKind.register.getFromMemcached .textual .blank (lit "N0CALL") (lit "before"))

theorem failedReadIsMiss_notFound :
    FailedReadIsMiss .register .blank (lit "before") (playThrowing .notFound).1
        (playThrowing .notFound).2 ↔ ¬ TakenForSuccess (playThrowing .notFound).1 :=
  failedReadIsMiss_iff .textual .register .blank (lit "N0CALL") (lit "before") _ _
    (Prog.play_runs _ 0 _)

/-- With the success code left on the stack the failed read empties the caller's
buffer and reports a hit. -/
theorem failedRead_hits : ¬ ∀ (lib : Openframe) (kind : CacheKind) (s : Store) (key ret : Str)
    (tr : Trace) (result : (Bool × Str) × Store),
    Prog.Runs (kind.getFromMemcached lib s key ret) tr result →
      FailedReadIsMiss kind s ret tr result := by
  intro isMiss
  have missed := (isMiss .textual .register .blank (lit "N0CALL") (lit "before") _ _
    (Prog.play_runs (throwingAnswers .success) 0 _)).missed (lit "apnsregister") (lit "N0CALL") []
      (.error ⟨lit "memcached unable to get; "⟩, []) (by decide) (by simp)
  exact absurd missed.1 (by decide)

/-! ### The payload of a lookup -/

def queries (tr : Trace) : List (Str × QueryReply) :=
  tr.filterMap fun
    | ⟨.query callsign, reply⟩ => some (callsign, reply)
    | _ => none

theorem queries_of_none {tr : Trace} (none : ∀ callsign reply,
    (⟨.query callsign, reply⟩ : Event Call Answer) ∉ tr) : queries tr = [] := by
  simp only [queries, List.filterMap_eq_nil_iff]
  rintro ⟨call, answer⟩ member
  cases call with
  | query callsign => exact absurd member (none callsign answer)
  | time | indeterminate | memcachedGet | memcachedPut | execute | datapoint | report | subscribe
  | nextFrame | frameUse | ack | release | newApnsMessage | push | deleteRegister | queued => rfl

theorem Store.GetTrace.queries {on : Store → (MemcacheStats → MemcacheStats) → Store}
    {ns key ret : Str} {s : Store} {tr : Trace} {result : (Bool × Str) × Store}
    (get : GetTrace on ns key s ret tr result) : queries tr = [] :=
  queries_of_none fun _ _ member => by simpa using get.calls _ member

theorem Store.PutTrace.queries {on : Store → (MemcacheStats → MemcacheStats) → Store}
    {ns key buf : Str} {s : Store} {expire : Int} {tr : Trace} {result : Bool × Store}
    (set : PutTrace on ns key s buf expire tr result) : queries tr = [] :=
  queries_of_none fun _ _ member => by simpa using set.calls _ member

end ApnsPusher
