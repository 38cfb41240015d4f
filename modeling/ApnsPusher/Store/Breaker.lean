import ApnsPusher.Effects.Cooldown
import ApnsPusher.Store.Traces
import Mathlib.Data.List.Induction

/-!
# The circuit breaker

The store remembers when memcached last failed it and keeps away from memcached
for the next sixty seconds. The law holds over whole runs of its operations.
-/
namespace ApnsPusher

open Effects

def Call.isMemcached : Call → Bool
  | .memcachedGet .. | .memcachedPut .. => true
  | _ => false

namespace Store

/-- The controller threw out of this call. -/
def raises : Event Call Answer → Bool
  | ⟨.memcachedGet .., (.error _, _)⟩ => true
  | ⟨.memcachedPut .., .error _⟩ => true
  | _ => false

def clockReading : Event Call Answer → Option Int
  | ⟨.time, t⟩ => some t
  | _ => none

theorem isMemcached_of_raises (e : Event Call Answer) (raised : raises e = true) :
    e.call.isMemcached = true := by
  obtain ⟨call, answer⟩ := e
  cases call with
  | memcachedGet | memcachedPut => rfl
  | time | indeterminate | query | execute | datapoint | report | subscribe | nextFrame | frameUse
  | ack | release | newApnsMessage | push | deleteRegister | queued => cases raised

theorem eq_time_of_clockReading (e : Event Call Answer) (t : Int)
    (reads : clockReading e = some t) : e = ⟨.time, t⟩ := by
  obtain ⟨call, answer⟩ := e
  cases call with
  | time =>
    cases reads
    rfl
  | memcachedGet | memcachedPut | indeterminate | query | execute | datapoint | report | subscribe
  | nextFrame | frameUse | ack | release | newApnsMessage | push | deleteRegister | queued => cases reads

/-- The sixty seconds of `isMemcachedOk`. -/
def breaker : Cooldown (Event Call Answer) where
  reading := clockReading
  attempts e := e.call.isMemcached = true
  fails e := raises e = true
  wait := 60
  attempts_of_fails := isMemcached_of_raises

/-- Calls of the store's operations, one after another. -/
def operate (lib : Openframe) : List StoreOp → Store → Program Store
  | [], s => return s
  | op :: rest, s => do
    let (_, s) ← op.program lib s
    operate lib rest s

/-! ### Every operation is guarded -/

theorem guarded_idle (tr : Trace) (last : Int)
    (idle : ∀ e ∈ tr, e.call.isMemcached = false) : breaker.Guarded last tr last := by
  induction tr using List.reverseRecOn with
  | nil => exact .start
  | append_singleton tr e ih =>
    refine .other e (ih fun e' member => idle e' (List.mem_append_left _ member)) ?_
    simp [breaker, idle e (by simp)]

/-- The statistics block an operation counts in leaves the failure time alone. -/
def KeepsFailTime (on : Store → (MemcacheStats → MemcacheStats) → Store) : Prop :=
  ∀ s f, (on s f).lastCacheFailAt = s.lastCacheFailAt

theorem keepsFailTime_onMessage : KeepsFailTime onMessage := fun _ _ => rfl

theorem keepsFailTime_onRegister : KeepsFailTime onRegister := fun _ _ => rfl

theorem concludeGet_store (on : Store → (MemcacheStats → MemcacheStats) → Store) (ret : Str)
    (mcr : MemcachedReturnEnum) (buf : Str) (s : Store) :
    (concludeGet on ret mcr buf s).2 = on s .miss ∨ (concludeGet on ret mcr buf s).2 = on s .hit := by
  unfold concludeGet
  split
  · exact Or.inl rfl
  · exact Or.inr rfl

theorem concludeGet_lastCacheFailAt {on : Store → (MemcacheStats → MemcacheStats) → Store}
    (keeps : KeepsFailTime on) (ret : Str) (mcr : MemcachedReturnEnum) (buf : Str) (s : Store) :
    (concludeGet on ret mcr buf s).2.lastCacheFailAt = s.lastCacheFailAt := by
  rcases concludeGet_store on ret mcr buf s with same | same
  · rw [same, keeps]
  · rw [same, keeps]

theorem GetTrace.guarded {on : Store → (MemcacheStats → MemcacheStats) → Store} {ns key ret : Str}
    {s : Store} {tr : Trace} {result : (Bool × Str) × Store} (keeps : KeepsFailTime on)
    (get : GetTrace on ns key s ret tr result) :
    breaker.Guarded s.lastCacheFailAt tr result.2.lastCacheFailAt := by
  cases get with
  | skipped now cooling => exact guarded_idle _ _ (by simp [Call.isMemcached])
  | answered now mcr buf ready =>
    rw [concludeGet_lastCacheFailAt keeps, keeps]
    exact .attempt _ _ now (by simp [breaker, Call.isMemcached]) rfl ready (by simp [breaker, raises])
  | failed now ex buf failedAt garbage ready =>
    rw [concludeGet_lastCacheFailAt keeps]
    have caught : breaker.Guarded s.lastCacheFailAt
        [⟨.time, now⟩, ⟨.memcachedGet ns key [], (.error ex, buf)⟩, ⟨.time, failedAt⟩] failedAt :=
      .failure _ _ _ now failedAt (by simp [breaker, Call.isMemcached]) rfl ready rfl
        (by simp [breaker, Call.isMemcached]) rfl
    -- the result local is read after the failure was noted
    exact caught.trans (guarded_idle [⟨.indeterminate, garbage⟩] failedAt (by simp [Call.isMemcached]))

theorem PutTrace.guarded {on : Store → (MemcacheStats → MemcacheStats) → Store} {ns key buf : Str}
    {s : Store} {expire : Int} {tr : Trace} {result : Bool × Store} (keeps : KeepsFailTime on)
    (set : PutTrace on ns key s buf expire tr result) :
    breaker.Guarded s.lastCacheFailAt tr result.2.lastCacheFailAt := by
  cases set with
  | skipped now cooling => exact guarded_idle _ _ (by simp [Call.isMemcached])
  | stored now ready =>
    rw [keeps]
    exact .attempt _ _ now (by simp [breaker, Call.isMemcached]) rfl ready (by simp [breaker, raises])
  | failed now ex failedAt ready =>
    exact .failure _ _ _ now failedAt (by simp [breaker, Call.isMemcached]) rfl ready rfl
      (by simp [breaker, Call.isMemcached]) rfl

theorem LookupTrace.guarded {lib : Openframe} {s : Store} {callsign : Str} {ret : List ApnsRegister}
    {tr : Trace} {result : (Nat × List ApnsRegister) × Store}
    (lookup : LookupTrace lib s callsign ret tr result) :
    breaker.Guarded s.lastCacheFailAt tr result.2.lastCacheFailAt := by
  cases lookup with
  | cachedNotFound _ _ _ get _ => exact get.guarded keepsFailTime_onRegister
  | cachedFound _ _ _ _ get _ => exact get.guarded keepsFailTime_onRegister
  | asked got ok buf s' reply put wrote s'' get _ set =>
    have query : breaker.Guarded s'.lastCacheFailAt [⟨.query callsign, reply⟩] s'.lastCacheFailAt :=
      guarded_idle _ _ (by simp [Call.isMemcached])
    exact (get.guarded keepsFailTime_onRegister).trans
      (query.trans (set.guarded keepsFailTime_onRegister))

end Store

theorem StoreOp.Ran.guarded {lib : Openframe} {op : StoreOp} {s s' : Store} {tr : Trace}
    (ran : StoreOp.Ran lib s op tr s') :
    Store.breaker.Guarded s.lastCacheFailAt tr s'.lastCacheFailAt := by
  cases ran with
  | lookup trace => exact trace.guarded
  | getRegister trace => exact trace.guarded Store.keepsFailTime_onRegister
  | setRegister trace => exact trace.guarded Store.keepsFailTime_onRegister
  | getMessage trace => exact trace.guarded Store.keepsFailTime_onMessage
  | setMessage trace => exact trace.guarded Store.keepsFailTime_onMessage

namespace Store

theorem guarded_of_operate {lib : Openframe} {ops : List StoreOp} {s s' : Store} {tr : Trace}
    (runs : Prog.Runs (operate lib ops s) tr s') :
    breaker.Guarded s.lastCacheFailAt tr s'.lastCacheFailAt := by
  induction ops generalizing s tr with
  | nil =>
    obtain ⟨rfl, rfl⟩ := runs
    exact .start
  | cons op rest ih =>
    obtain ⟨⟨out, mid⟩, front, back, rfl, first, more⟩ := (Prog.runs_bind _ _ _ _).mp runs
    exact (StoreOp.ran_of_runs first).guarded.trans (ih more)

/-- A new store reads the clock and has seen no failure. -/
theorem create_post (reportInterval : Int) : Prog.Post (create reportInterval) fun tr s =>
    (∀ e ∈ tr, e.call = .time) ∧ s.lastCacheFailAt = 0 := by
  simp only [create, ObjStats.initStats, time, Prog.perform_bind, Prog.call_bind, if_true,
    Prog.post_call, Prog.pure_eq, Prog.ret_bind, Prog.post_ret]
  intro _ _ _ _
  simp

theorem guarded_of_run {lib : Openframe} {reportInterval : Int} {ops : List StoreOp} {s : Store}
    {tr : Trace} (runs : Prog.Runs (create reportInterval >>= operate lib ops) tr s) :
    breaker.Guarded 0 tr s.lastCacheFailAt := by
  obtain ⟨fresh, front, back, rfl, created, more⟩ := (Prog.runs_bind _ _ _ _).mp runs
  obtain ⟨times, failTime⟩ := created.post (create_post reportInterval)
  have guarded := guarded_of_operate more
  rw [failTime] at guarded
  exact (guarded_idle front 0 fun e member => by rw [times e member]; rfl).trans guarded

/-! ### A breaker that has cooled lets the operation through -/

/-- An operation reads the clock first; if the last failure is long enough ago,
its next call is one of memcached. -/
def StartsGuarded (s : Store) (tr : Trace) : Prop :=
  ∃ now rest, tr = ⟨.time, now⟩ :: rest ∧
    (s.lastCacheFailAt < now - 60 → ∃ e rest', rest = e :: rest' ∧ e.call.isMemcached = true)

theorem StartsGuarded.append {s : Store} {tr more : Trace} (starts : StartsGuarded s tr) :
    StartsGuarded s (tr ++ more) := by
  obtain ⟨now, rest, rfl, ready⟩ := starts
  refine ⟨now, rest ++ more, rfl, fun cooled => ?_⟩
  obtain ⟨e, rest', rfl, call⟩ := ready cooled
  exact ⟨e, rest' ++ more, rfl, call⟩

theorem GetTrace.starts {on : Store → (MemcacheStats → MemcacheStats) → Store} {ns key ret : Str}
    {s : Store} {tr : Trace} {result : (Bool × Str) × Store}
    (get : GetTrace on ns key s ret tr result) : StartsGuarded s tr := by
  cases get with
  | skipped now cooling => exact ⟨now, [], rfl, fun ready => absurd ready cooling⟩
  | answered now | failed now => exact ⟨now, _, rfl, fun _ => ⟨_, _, rfl, rfl⟩⟩

theorem PutTrace.starts {on : Store → (MemcacheStats → MemcacheStats) → Store} {ns key buf : Str}
    {s : Store} {expire : Int} {tr : Trace} {result : Bool × Store}
    (set : PutTrace on ns key s buf expire tr result) : StartsGuarded s tr := by
  cases set with
  | skipped now cooling => exact ⟨now, [], rfl, fun ready => absurd ready cooling⟩
  | stored now | failed now => exact ⟨now, _, rfl, fun _ => ⟨_, _, rfl, rfl⟩⟩

end Store

theorem StoreOp.Ran.starts {lib : Openframe} {op : StoreOp} {s s' : Store} {tr : Trace}
    (ran : StoreOp.Ran lib s op tr s') : Store.StartsGuarded s tr := by
  cases ran with
  | lookup trace =>
    cases trace with
    | cachedNotFound _ _ _ get _ => exact get.starts
    | cachedFound _ _ _ _ get _ => exact get.starts
    | asked _ _ _ _ _ _ _ _ get _ _ => exact get.starts.append
  | getRegister trace | getMessage trace => exact trace.starts
  | setRegister trace | setMessage trace => exact trace.starts

/-! ### The cache counters count memcached calls -/

/-- The two caches, each with its namespace and its statistics block. -/
inductive CacheKind where
  | message
  | register
  deriving DecidableEq

namespace CacheKind

def ns : CacheKind → Str
  | .message => lit "pushmessage"
  | .register => lit "apnsregister"

def block : CacheKind → Store.ObjStats → MemcacheStats
  | .message => Store.ObjStats.cacheMessage
  | .register => Store.ObjStats.cacheRegister

def on : CacheKind → Store → (MemcacheStats → MemcacheStats) → Store
  | .message => Store.onMessage
  | .register => Store.onRegister

def isGet (kind : CacheKind) : Event Call Answer → Bool
  | ⟨.memcachedGet ns _ _, _⟩ => ns == kind.ns
  | _ => false

/-- A put that the controller took. -/
def isStored (kind : CacheKind) : Event Call Answer → Bool
  | ⟨.memcachedPut ns _ _ _, .ok _⟩ => ns == kind.ns
  | _ => false

theorem ns_ne {kind other : CacheKind} (different : other ≠ kind) : kind.ns ≠ other.ns := by
  cases kind <;> cases other <;> first | exact absurd rfl different | decide

@[simp] theorem block_on_stats (kind : CacheKind) (s : Store) (f : MemcacheStats → MemcacheStats) :
    kind.block (kind.on s f).stats = f (kind.block s.stats) := by
  cases kind <;> rfl

@[simp] theorem block_on_stompstats (kind : CacheKind) (s : Store)
    (f : MemcacheStats → MemcacheStats) :
    kind.block (kind.on s f).stompstats = f (kind.block s.stompstats) := by
  cases kind <;> rfl

theorem block_on_other {kind other : CacheKind} (different : other ≠ kind) (s : Store)
    (f : MemcacheStats → MemcacheStats) :
    other.block (kind.on s f).stats = other.block s.stats ∧
      other.block (kind.on s f).stompstats = other.block s.stompstats := by
  cases kind <;> cases other <;> first | exact absurd rfl different | exact ⟨rfl, rfl⟩

end CacheKind

/-- The counters moved by `gets` tries, each a hit or a miss, and `puts` stores. -/
structure Tallied (gets puts : Nat) (m m' : MemcacheStats) : Prop where
  tries : m'.tries = m.tries + .ofNat gets
  found : ∃ hits misses, hits + misses = gets ∧ m'.hits = m.hits + .ofNat hits ∧
    m'.misses = m.misses + .ofNat misses
  stored : m'.stored = m.stored + .ofNat puts

namespace Tallied

theorem refl (m : MemcacheStats) : Tallied 0 0 m m :=
  ⟨by simp, ⟨0, 0, rfl, by simp, by simp⟩, by simp⟩

theorem trans {gets puts gets' puts' : Nat} {m m' m'' : MemcacheStats}
    (first : Tallied gets puts m m') (second : Tallied gets' puts' m' m'') :
    Tallied (gets + gets') (puts + puts') m m'' := by
  obtain ⟨hits, misses, rfl, hit, missed⟩ := first.found
  obtain ⟨hits', misses', rfl, hit', missed'⟩ := second.found
  refine ⟨?_, ⟨hits + hits', misses + misses', by omega, ?_, ?_⟩, ?_⟩
  · rw [second.tries, first.tries, UInt32.ofNat_add (hits + misses), UInt32.add_assoc]
  · rw [hit', hit, UInt32.ofNat_add, UInt32.add_assoc]
  · rw [missed', missed, UInt32.ofNat_add, UInt32.add_assoc]
  · rw [second.stored, first.stored, UInt32.ofNat_add, UInt32.add_assoc]

theorem eq_of_none {m m' : MemcacheStats} (tallied : Tallied 0 0 m m') : m' = m := by
  obtain ⟨hits, misses, none, hit, missed⟩ := tallied.found
  obtain ⟨rfl, rfl⟩ : hits = 0 ∧ misses = 0 := by omega
  have tries := tallied.tries
  have stored := tallied.stored
  cases m
  cases m'
  simp_all

theorem hit (m : MemcacheStats) : Tallied 1 0 m m.attempt.hit :=
  ⟨rfl, ⟨1, 0, rfl, rfl, by simp [MemcacheStats.attempt, MemcacheStats.hit]⟩,
    by simp [MemcacheStats.attempt, MemcacheStats.hit]⟩

theorem miss (m : MemcacheStats) : Tallied 1 0 m m.attempt.miss :=
  ⟨rfl, ⟨0, 1, rfl, by simp [MemcacheStats.attempt, MemcacheStats.miss], rfl⟩,
    by simp [MemcacheStats.attempt, MemcacheStats.miss]⟩

theorem store (m : MemcacheStats) : Tallied 0 1 m m.store :=
  ⟨by simp [MemcacheStats.store], ⟨0, 0, rfl, by simp [MemcacheStats.store],
    by simp [MemcacheStats.store]⟩, rfl⟩

end Tallied

/-- Both ledgers of the store moved by what the trace shows, for both caches. -/
def Store.Counted (tr : Trace) (s s' : Store) : Prop :=
  ∀ kind : CacheKind,
    Tallied (tr.countP kind.isGet) (tr.countP kind.isStored) (kind.block s.stats)
      (kind.block s'.stats) ∧
    Tallied (tr.countP kind.isGet) (tr.countP kind.isStored) (kind.block s.stompstats)
      (kind.block s'.stompstats)

namespace Store

theorem Counted.trans {tr tr' : Trace} {s s' s'' : Store} (first : Counted tr s s')
    (second : Counted tr' s' s'') : Counted (tr ++ tr') s s'' := by
  intro kind
  rw [List.countP_append, List.countP_append]
  exact ⟨(first kind).1.trans (second kind).1, (first kind).2.trans (second kind).2⟩

theorem countP_of_silent {tr : Trace} (silent : ∀ e ∈ tr, e.call.isMemcached = false)
    (kind : CacheKind) : tr.countP kind.isGet = 0 ∧ tr.countP kind.isStored = 0 := by
  constructor
  · rw [List.countP_eq_zero]
    rintro ⟨call, answer⟩ member get
    have quiet := silent _ member
    cases call <;> simp_all [CacheKind.isGet, Call.isMemcached]
  · rw [List.countP_eq_zero]
    rintro ⟨call, answer⟩ member put
    have quiet := silent _ member
    cases call <;> simp_all [CacheKind.isStored, Call.isMemcached]

/-- The cache counters of both ledgers stand as they were. -/
def CacheCountersKept (s s' : Store) : Prop :=
  ∀ kind : CacheKind, kind.block s'.stats = kind.block s.stats ∧
    kind.block s'.stompstats = kind.block s.stompstats

theorem Counted.of_silent {tr : Trace} {s s' : Store}
    (silent : ∀ e ∈ tr, e.call.isMemcached = false) (kept : CacheCountersKept s s') :
    Counted tr s s' := by
  intro kind
  obtain ⟨gets, puts⟩ := countP_of_silent silent kind
  rw [gets, puts, (kept kind).1, (kept kind).2]
  exact ⟨.refl _, .refl _⟩

theorem Counted.kept {tr : Trace} {s s' : Store} (counted : Counted tr s s')
    (silent : ∀ e ∈ tr, e.call.isMemcached = false) : CacheCountersKept s s' := by
  intro kind
  obtain ⟨gets, puts⟩ := countP_of_silent silent kind
  have both := counted kind
  rw [gets, puts] at both
  exact ⟨both.1.eq_of_none, both.2.eq_of_none⟩

/-- A get, whatever came of it, is a try and a hit or a miss of its own cache. -/
theorem counted_get (kind : CacheKind) (key buf : Str)
    (reply : Except MemcachedControllerException MemcachedReturnEnum × Str) (ret : Str)
    (mcr : MemcachedReturnEnum) (payload : Str) (s s' : Store)
    (tried : s'.stats = (kind.on s .attempt).stats)
    (tried' : s'.stompstats = (kind.on s .attempt).stompstats) :
    Counted [⟨.memcachedGet kind.ns key buf, reply⟩] s
      (concludeGet kind.on ret mcr payload s').2 := by
  intro other
  -- its own block counts the call, the other stands still
  by_cases same : other = kind
  · subst same
    have gets : [(⟨.memcachedGet other.ns key buf, reply⟩ : Event Call Answer)].countP
        other.isGet = 1 := by simp [CacheKind.isGet]
    have puts : [(⟨.memcachedGet other.ns key buf, reply⟩ : Event Call Answer)].countP
        other.isStored = 0 := rfl
    rw [gets, puts]
    rcases concludeGet_store other.on ret mcr payload s' with left | left
    · simp only [left, CacheKind.block_on_stats, CacheKind.block_on_stompstats, tried, tried']
      exact ⟨.miss _, .miss _⟩
    · simp only [left, CacheKind.block_on_stats, CacheKind.block_on_stompstats, tried, tried']
      exact ⟨.hit _, .hit _⟩
  · have gets : [(⟨.memcachedGet kind.ns key buf, reply⟩ : Event Call Answer)].countP
        other.isGet = 0 := by simp [CacheKind.isGet, CacheKind.ns_ne same]
    have puts : [(⟨.memcachedGet kind.ns key buf, reply⟩ : Event Call Answer)].countP
        other.isStored = 0 := rfl
    rw [gets, puts]
    rcases concludeGet_store kind.on ret mcr payload s' with left | left
    · simp only [left, CacheKind.block_on_other same, tried, tried']
      exact ⟨.refl _, .refl _⟩
    · simp only [left, CacheKind.block_on_other same, tried, tried']
      exact ⟨.refl _, .refl _⟩

theorem counted_stored (kind : CacheKind) (key buf : Str) (expire : Int) (s : Store) :
    Counted [⟨.memcachedPut kind.ns key buf expire, .ok ()⟩] s (kind.on s .store) := by
  intro other
  by_cases same : other = kind
  · subst same
    have puts : [(⟨.memcachedPut other.ns key buf expire, .ok ()⟩ : Event Call Answer)].countP
        other.isStored = 1 := by simp [CacheKind.isStored]
    rw [puts]
    simp only [CacheKind.block_on_stats, CacheKind.block_on_stompstats]
    exact ⟨.store _, .store _⟩
  · have puts : [(⟨.memcachedPut kind.ns key buf expire, .ok ()⟩ : Event Call Answer)].countP
        other.isStored = 0 := by simp [CacheKind.isStored, CacheKind.ns_ne same]
    rw [puts]
    simp only [CacheKind.block_on_other same]
    exact ⟨.refl _, .refl _⟩

theorem GetTrace.counted (kind : CacheKind) {key ret : Str} {s : Store} {tr : Trace}
    {result : (Bool × Str) × Store} (get : GetTrace kind.on kind.ns key s ret tr result) :
    Counted tr s result.2 := by
  have asked (now : Int) : Counted [⟨.time, now⟩] s s :=
    .of_silent (by simp [Call.isMemcached]) fun _ => ⟨rfl, rfl⟩
  cases get with
  | skipped now cooling => exact asked now
  | answered now mcr buf ready =>
    exact (asked now).trans (counted_get kind key [] (.ok mcr, buf) ret mcr buf s _ rfl rfl)
  | failed now ex buf failedAt garbage ready =>
    have got := counted_get kind key [] (.error ex, buf) ret garbage buf s
      { kind.on s .attempt with lastCacheFailAt := failedAt } rfl rfl
    have caught (s' : Store) : Counted [⟨.time, failedAt⟩, ⟨.indeterminate, garbage⟩] s' s' :=
      .of_silent (by simp [Call.isMemcached]) fun _ => ⟨rfl, rfl⟩
    exact ((asked now).trans got).trans (caught _)

theorem PutTrace.counted (kind : CacheKind) {key buf : Str} {s : Store} {expire : Int} {tr : Trace}
    {result : Bool × Store} (set : PutTrace kind.on kind.ns key s buf expire tr result) :
    Counted tr s result.2 := by
  have asked (now : Int) : Counted [⟨.time, now⟩] s s :=
    .of_silent (by simp [Call.isMemcached]) fun _ => ⟨rfl, rfl⟩
  cases set with
  | skipped now cooling => exact asked now
  | stored now ready => exact (asked now).trans (counted_stored kind key buf expire s)
  | failed now ex failedAt ready => exact fun _ => ⟨.refl _, .refl _⟩

theorem LookupTrace.counted {lib : Openframe} {s : Store} {callsign : Str} {ret : List ApnsRegister}
    {tr : Trace} {result : (Nat × List ApnsRegister) × Store}
    (lookup : LookupTrace lib s callsign ret tr result) : Counted tr s result.2 := by
  cases lookup with
  | cachedNotFound _ _ _ get _ => exact GetTrace.counted .register get
  | cachedFound _ _ _ _ get _ => exact GetTrace.counted .register get
  | asked got ok buf s' reply put wrote s'' get _ set =>
    have query : Counted [⟨.query callsign, reply⟩] s' (s'.sqlCounted reply.rows) :=
      .of_silent (by simp [Call.isMemcached]) fun kind => by cases kind <;> exact ⟨rfl, rfl⟩
    exact (GetTrace.counted .register get).trans
      (query.trans (PutTrace.counted .register set))

end Store

theorem StoreOp.Ran.counted {lib : Openframe} {op : StoreOp} {s s' : Store} {tr : Trace}
    (ran : StoreOp.Ran lib s op tr s') : Store.Counted tr s s' := by
  cases ran with
  | lookup trace => exact trace.counted
  | getRegister trace => exact Store.GetTrace.counted .register trace
  | setRegister trace => exact Store.PutTrace.counted .register trace
  | getMessage trace => exact Store.GetTrace.counted .message trace
  | setMessage trace => exact Store.PutTrace.counted .message trace

/-! ### The law over a run -/

namespace Store

/-- A run made the calls `tr`; its next operation then made the calls `tr'` and
took the store from `s` to `s'`. Entry `n` of the whole is made at `clk n`. -/
structure BreakerLaw (clk : Nat → Int) (tr tr' : Trace) (s s' : Store) : Prop where
  caught : ∀ i, breaker.FailsAt (tr ++ tr') i → (tr ++ tr')[i + 1]? = some ⟨.time, clk (i + 1)⟩
  quiet : ∀ i j, i < j → breaker.FailsAt (tr ++ tr') i → breaker.AttemptsAt (tr ++ tr') j →
    clk (i + 1) + 60 < clk j
  apart : ∀ i j, i < j → breaker.FailsAt (tr ++ tr') i → breaker.FailsAt (tr ++ tr') j →
    clk (i + 1) + 60 < clk (j + 1)
  tried : (∀ i, breaker.FailsAt tr i → clk (i + 1) + 60 < clk tr.length) →
    breaker.AttemptsAt (tr ++ tr') (tr.length + 1)
  counted : Counted tr' s s'
  still : ∀ i, breaker.FailsAt tr i →
    (∀ k, k < tr'.length → clk (tr.length + k) ≤ clk (i + 1) + 60) → CacheCountersKept s s'

/-- The run is that of a new store, with any operations in any order. -/
theorem breaker_law (lib : Openframe) (clk : Nat → Int) (monotone : Monotone clk)
    (above : ∀ n, 60 < clk n) (reportInterval : Int) (ops : List StoreOp) (op : StoreOp)
    (tr tr' : Trace) (s s' : Store) (out : StoreOut)
    (runs : Prog.Runs (create reportInterval >>= operate lib ops) tr s)
    (next : Prog.Runs (op.program lib s) tr' (out, s'))
    (clocked : breaker.Clocked clk (tr ++ tr')) : BreakerLaw clk tr tr' s s' := by
  have ran := StoreOp.ran_of_runs next
  have before := (guarded_of_run runs).obeys monotone clocked.of_append
  have obeys := ((guarded_of_run runs).trans ran.guarded).obeys monotone clocked
  refine ⟨?_, obeys.quiet, obeys.apart monotone, ?_, ran.counted, ?_⟩
  · intro i failed
    obtain ⟨e, place, reads⟩ := obeys.caught i failed
    rw [place, eq_time_of_clockReading e _ reads]
  · intro cooled
    obtain ⟨now, rest, rfl, ready⟩ := ran.starts
    have read : now = clk tr.length := clocked _ ⟨.time, now⟩ _ (by simp) rfl
    subst read
    -- a store that never failed starts at 0, which is long past
    have fresh := above tr.length
    obtain ⟨e, rest', rfl, call⟩ := ready (before.ready (by simp only [breaker]; omega) cooled)
    exact ⟨e, by simp, call⟩
  · intro i failed inside
    apply ran.counted.kept
    intro e member
    rw [← Bool.not_eq_true]
    intro call
    obtain ⟨k, bound, rfl⟩ := List.getElem_of_mem member
    have attempted : breaker.AttemptsAt (tr ++ tr') (tr.length + k) :=
      ⟨tr'[k], by simp [bound], call⟩
    -- a call of memcached here would come too soon after the failure
    have quiet := obeys.quiet i (tr.length + k) (by have := failed.attemptsAt.lt_length; omega)
      failed.append attempted
    have within := inside k bound
    simp only [breaker] at quiet
    omega

/-- Memcached fails every get; the clock stands at 1000. -/
def failingScript : Script where
  clock := 1000
  get := (.error ⟨lit "memcached unable to get; "⟩, [])
  put := .ok ()
  query := .stored [] (.ok ())
  execute := .executed 1 (.ok ())
  accepts _ := true
  frame := .none

def playFailingLookup : Trace × Store :=
  Prog.play failingScript.answers 0
    (create 3600 >>= operate .textual [.getApnsRegisterByCallsign (lit "N0CALL") []])

def playSetMessage (s : Store) : Trace × StoreOut × Store :=
  Prog.play failingScript.answers 0
    ((StoreOp.setMessageInMemcached (lit "h") (lit "1") 3600).program .textual s)

theorem breaker_law_failingLookup :
    BreakerLaw (fun _ => 1000) playFailingLookup.1 (playSetMessage playFailingLookup.2).1
      playFailingLookup.2 (playSetMessage playFailingLookup.2).2.2 := by
  refine breaker_law .textual (fun _ => 1000) monotone_const (fun _ => by decide) 3600
    [.getApnsRegisterByCallsign (lit "N0CALL") []] (.setMessageInMemcached (lit "h") (lit "1") 3600)
    _ _ _ _ (playSetMessage playFailingLookup.2).2.1 (Prog.play_runs _ 0 _) (Prog.play_runs _ 0 _) ?_
  intro n e t place reads
  have all : ∀ e ∈ playFailingLookup.1 ++ (playSetMessage playFailingLookup.2).1,
      clockReading e = none ∨ clockReading e = some 1000 := by decide
  rcases all e (List.mem_of_getElem? place) with none | same
  · exact absurd reads (by simp [breaker, none])
  · exact Option.some.inj (reads.symm.trans same)

end Store
end ApnsPusher
