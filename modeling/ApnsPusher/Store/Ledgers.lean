import ApnsPusher.Effects.Ledger
import ApnsPusher.Store.Breaker
import Mathlib.Data.List.Nodup
import Mathlib.Data.UInt

/-!
# The two ledgers

Every counter is kept twice, in the ledger that is logged and in the ledger that
is published, and the two are emptied at different times. Whatever is emptied was
counted before, so that the amounts of a whole run add up to the events in it.
-/
namespace ApnsPusher

open Effects

/-- A counter of `memcache_stats_t`. -/
inductive MemcacheStats.Part where
  | tries
  | misses
  | hits
  | stored
  deriving DecidableEq

def MemcacheStats.part (m : MemcacheStats) : Part → UInt32
  | .tries => m.tries
  | .misses => m.misses
  | .hits => m.hits
  | .stored => m.stored

/-- A counter of `sql_stats_t`. -/
inductive SqlStats.Part where
  | tries
  | hits
  | misses
  | inserted
  | failed
  deriving DecidableEq

def SqlStats.part (q : SqlStats) : Part → UInt32
  | .tries => q.tries
  | .hits => q.hits
  | .misses => q.misses
  | .inserted => q.inserted
  | .failed => q.failed

/-- A counter of a ledger. -/
inductive Counter where
  | sql (part : SqlStats.Part)
  | cache (kind : CacheKind) (part : MemcacheStats.Part)
  deriving DecidableEq

namespace Counter

/-- All counters, in the order of `try_stompstats`. -/
def all : List Counter :=
  [sql .tries, sql .hits, sql .misses, sql .inserted, sql .failed] ++
    [CacheKind.message, .register].flatMap fun kind =>
      [cache kind .tries, cache kind .misses, cache kind .hits, cache kind .stored]

/-- The name a counter is published under. -/
def name : Counter → Str
  | sql .tries => lit "store.num.sql.register.tries"
  | sql .hits => lit "store.num.sql.register.hits"
  | sql .misses => lit "store.num.sql.register.misses"
  | sql .inserted => lit "store.num.sql.register.inserted"
  | sql .failed => lit "store.num.sql.register.failed"
  | cache .message .tries => lit "store.num.cache.message.tries"
  | cache .message .misses => lit "store.num.cache.message.misses"
  | cache .message .hits => lit "store.num.cache.message.hits"
  | cache .message .stored => lit "store.num.cache.message.stored"
  | cache .register .tries => lit "store.num.cache.register.tries"
  | cache .register .misses => lit "store.num.cache.register.misses"
  | cache .register .hits => lit "store.num.cache.register.hits"
  | cache .register .stored => lit "store.num.cache.register.stored"

def value (stats : Store.ObjStats) : Counter → UInt32
  | sql part => stats.sqlRegister.part part
  | cache kind part => (kind.block stats).part part

/-- What the result local of a get holds when it is tested: the reply, or after an
exception whatever it held before. -/
def tested : Event Call Answer → Option MemcachedReturnEnum
  | ⟨.memcachedGet _ _ _, (.ok mcr, _)⟩ => some mcr
  | ⟨.indeterminate, mcr⟩ => some mcr
  | _ => none

/-- The rows a query was answered with, after an exception none. -/
def answered : Event Call Answer → Option (List ApnsRegister)
  | ⟨.query _, reply⟩ => some reply.rows
  | _ => none

/-- The events a counter stands for, in an operation on the cache `on`. -/
def counts (on : Option CacheKind) (e : Event Call Answer) : Counter → Bool
  | sql .tries => (answered e).isSome
  | sql .hits => (answered e).any (· ≠ [])
  | sql .misses => (answered e).any (· = [])
  | sql .inserted | sql .failed => false
  | cache kind .tries => kind.isGet e
  | cache kind .misses => on = some kind && (tested e).any (· ≠ .success)
  | cache kind .hits => on = some kind && (tested e).any (· = .success)
  | cache kind .stored => kind.isStored e

def countIn (on : Option CacheKind) (tr : Trace) (c : Counter) : Nat :=
  tr.countP fun e => c.counts on e

@[simp] theorem countIn_nil (on : Option CacheKind) (c : Counter) : c.countIn on [] = 0 := rfl

@[simp] theorem countIn_append (on : Option CacheKind) (tr tr' : Trace) (c : Counter) :
    c.countIn on (tr ++ tr') = c.countIn on tr + c.countIn on tr' := List.countP_append

theorem countIn_eq_zero {on : Option CacheKind} {tr : Trace} {c : Counter}
    (none : ∀ e ∈ tr, c.counts on e = false) : c.countIn on tr = 0 :=
  List.countP_eq_zero.mpr fun e member => by simp [none e member]

/-- What `try_stompstats` publishes. -/
theorem published_eq (stats : Store.ObjStats) :
    stats.published = all.map fun c => (c.name, c.value stats) := by
  simp only [all, List.flatMap_cons, List.flatMap_nil, List.cons_append, List.nil_append,
    List.map_cons, List.map_nil, name]
  rfl

theorem mem_all (c : Counter) : c ∈ all := by
  rcases c with part | ⟨kind, part⟩
  · cases part <;> decide
  · cases kind <;> cases part <;> decide

/-- The names differ already in the sums of their bytes. -/
theorem name_injective : Function.Injective name := by
  have sums : all.map (fun c => (c.name.map UInt8.toNat).sum) =
      [2833, 2722, 2942, 3144, 2895, 2869, 2978, 2758, 2975, 2997, 3106, 2886, 3103] := by
    decide +kernel
  have distinct : (all.map name).Nodup := by
    refine List.Nodup.of_map (fun bytes => (bytes.map UInt8.toNat).sum) ?_
    rw [List.map_map, Function.comp_def, sums]
    decide
  exact fun c c' same => List.inj_on_of_nodup_map distinct (mem_all c) (mem_all c') same

end Counter

namespace Store

/-- The two ledgers of a store. -/
inductive Ledger where
  | stats
  | stompstats
  deriving DecidableEq

def ledger (s : Store) : Ledger → ObjStats
  | .stats => s.stats
  | .stompstats => s.stompstats

end Store

namespace CacheKind

variable (kind : CacheKind) (s : Store) (f : MemcacheStats → MemcacheStats) (which : Store.Ledger)

@[simp] theorem block_on_ledger :
    kind.block ((kind.on s f).ledger which) = f (kind.block (s.ledger which)) := by
  cases kind <;> cases which <;> rfl

theorem block_on_ledger_of_ne {kind other : CacheKind} (different : other ≠ kind) :
    other.block ((kind.on s f).ledger which) = other.block (s.ledger which) := by
  cases which with
  | stats => exact (block_on_other different s f).1
  | stompstats => exact (block_on_other different s f).2

theorem sqlRegister_on_ledger :
    ((kind.on s f).ledger which).sqlRegister = (s.ledger which).sqlRegister := by
  cases kind <;> cases which <;> rfl

end CacheKind

namespace Store

/-- Both ledgers moved by the events of the trace. -/
def Moved (on : Option CacheKind) (tr : Trace) (s s' : Store) : Prop :=
  ∀ (which : Ledger) (c : Counter),
    c.value (s'.ledger which) = c.value (s.ledger which) + .ofNat (c.countIn on tr)

theorem Moved.trans {on : Option CacheKind} {tr tr' : Trace} {s mid s' : Store}
    (first : Moved on tr s mid) (second : Moved on tr' mid s') : Moved on (tr ++ tr') s s' := by
  intro which c
  rw [Counter.countIn_append, UInt32.ofNat_add, ← UInt32.add_assoc, second, first]

/-- An event that only the cache `kind` can count. -/
inductive IsAbout (kind : CacheKind) : Event Call Answer → Prop
  | time (now : Int) : IsAbout kind ⟨.time, now⟩
  | indeterminate (mcr : MemcachedReturnEnum) : IsAbout kind ⟨.indeterminate, mcr⟩
  | get (key buf : Str) (reply : Except MemcachedControllerException MemcachedReturnEnum × Str) :
      IsAbout kind ⟨.memcachedGet kind.ns key buf, reply⟩
  | put (key value : Str) (expires : Int) (reply : Except MemcachedControllerException Unit) :
      IsAbout kind ⟨.memcachedPut kind.ns key value expires, reply⟩

theorem IsAbout.elsewhere {kind : CacheKind} {e : Event Call Answer} (about : IsAbout kind e)
    {c : Counter} (other : ∀ part, c ≠ .cache kind part) : c.counts (some kind) e = false := by
  rcases c with part | ⟨kind', part⟩
  · cases about <;> cases part <;> rfl
  · have different : kind' ≠ kind := by
      rintro rfl
      exact other part rfl
    have ns : kind.ns ≠ kind'.ns := (CacheKind.ns_ne different)
    have on : kind ≠ kind' := Ne.symm different
    -- the namespaces keep the gets and puts apart, the operation's cache their outcomes
    cases about with
    | time now | indeterminate mcr =>
      cases part <;> simp [Counter.counts, CacheKind.isGet, CacheKind.isStored, on]
    | get key buf reply =>
      cases part <;> simp [Counter.counts, CacheKind.isGet, CacheKind.isStored, on, ns]
    | put key value expires reply =>
      cases part <;> cases reply <;>
        simp [Counter.counts, CacheKind.isGet, CacheKind.isStored, on, ns]

/-- An operation on one cache changes one block of each ledger. -/
theorem Moved.of_cache {kind : CacheKind} {tr : Trace} {s s' : Store}
    (about : ∀ e ∈ tr, IsAbout kind e) (f : MemcacheStats → MemcacheStats)
    (left : ∀ which, s'.ledger which = (kind.on s f).ledger which)
    (own : ∀ m part, (f m).part part =
      m.part part + .ofNat (Counter.countIn (some kind) tr (.cache kind part))) :
    Moved (some kind) tr s s' := by
  intro which c
  rw [left]
  by_cases its : ∃ part, c = .cache kind part
  · obtain ⟨part, rfl⟩ := its
    rw [Counter.value, CacheKind.block_on_ledger]
    exact own _ part
  -- no other counter is concerned, neither by the events nor by the change
  · have other := not_exists.mp its
    rw [Counter.countIn_eq_zero fun e member => (about e member).elsewhere other]
    rcases c with part | ⟨kind', part⟩
    · rw [Counter.value, Counter.value, CacheKind.sqlRegister_on_ledger]
      exact (UInt32.add_zero _).symm
    · have different : kind' ≠ kind := by
        rintro rfl
        exact other part rfl
      rw [Counter.value, Counter.value, CacheKind.block_on_ledger_of_ne _ _ _ different]
      exact (UInt32.add_zero _).symm

/-- One change of a block after another is one change. -/
theorem ledger_on_on (kind : CacheKind) (f g : MemcacheStats → MemcacheStats) {s mid : Store}
    (first : ∀ which, mid.ledger which = (kind.on s f).ledger which) (which : Ledger) :
    (kind.on mid g).ledger which = (kind.on s fun m => g (f m)).ledger which := by
  have same := first which
  cases kind <;> cases which <;>
    (simp only [ledger, CacheKind.on, onMessage, onRegister] at same ⊢
     rw [same])

/-- What a get that reached the controller does to its block. -/
def got (mcr : MemcachedReturnEnum) (m : MemcacheStats) : MemcacheStats :=
  if mcr ≠ .success then m.attempt.miss else m.attempt.hit

theorem ledger_concludeGet (kind : CacheKind) (ret buf : Str) (mcr : MemcachedReturnEnum)
    {s mid : Store} (tried : ∀ which, mid.ledger which = (kind.on s .attempt).ledger which)
    (which : Ledger) :
    (concludeGet kind.on ret mcr buf mid).2.ledger which = (kind.on s (got mcr)).ledger which := by
  unfold concludeGet got
  split
  · exact ledger_on_on kind .attempt .miss tried which
  · exact ledger_on_on kind .attempt .hit tried which

theorem GetTrace.moved (kind : CacheKind) {key ret : Str} {s : Store} {tr : Trace}
    {result : (Bool × Str) × Store} (get : GetTrace kind.on kind.ns key s ret tr result) :
    Moved (some kind) tr s result.2 := by
  cases get with
  | skipped now cooling =>
    refine .of_cache ?_ id (fun which => by cases kind <;> cases which <;> rfl) ?_
    · rintro e member
      obtain rfl := List.mem_singleton.mp member
      exact .time now
    · intro m part
      cases part <;>
        simp [Counter.countIn, Counter.counts, Counter.tested, CacheKind.isGet, CacheKind.isStored]
  | answered now mcr buf ready =>
    refine .of_cache ?_ (got mcr) (ledger_concludeGet kind ret buf mcr fun _ => rfl) ?_
    · simp only [List.mem_cons, List.not_mem_nil, or_false, forall_eq_or_imp, forall_eq]
      exact ⟨.time now, .get key [] _⟩
    · intro m part
      cases part <;> cases mcr <;>
        simp [Counter.countIn, Counter.counts, Counter.tested, CacheKind.isGet, CacheKind.isStored,
          got, MemcacheStats.part, MemcacheStats.attempt, MemcacheStats.hit, MemcacheStats.miss]
  | failed now ex buf failedAt garbage ready =>
    refine .of_cache ?_ (got garbage)
      (ledger_concludeGet kind ret buf garbage fun which => by cases which <;> rfl) ?_
    · simp only [List.mem_cons, List.not_mem_nil, or_false, forall_eq_or_imp, forall_eq]
      exact ⟨.time now, .get key [] _, .time failedAt, .indeterminate garbage⟩
    -- the get counts as a try, and what the local held decides between hit and miss
    · intro m part
      cases part <;> cases garbage <;>
        simp [Counter.countIn, Counter.counts, Counter.tested, CacheKind.isGet, CacheKind.isStored,
          got, MemcacheStats.part, MemcacheStats.attempt, MemcacheStats.hit, MemcacheStats.miss]

theorem PutTrace.moved (kind : CacheKind) {key buf : Str} {s : Store} {expire : Int} {tr : Trace}
    {result : Bool × Store} (set : PutTrace kind.on kind.ns key s buf expire tr result) :
    Moved (some kind) tr s result.2 := by
  cases set with
  | skipped now cooling =>
    refine .of_cache ?_ id (fun which => by cases kind <;> cases which <;> rfl) ?_
    · rintro e member
      obtain rfl := List.mem_singleton.mp member
      exact .time now
    · intro m part
      cases part <;>
        simp [Counter.countIn, Counter.counts, Counter.tested, CacheKind.isGet, CacheKind.isStored]
  | stored now ready =>
    refine .of_cache ?_ .store (fun _ => rfl) ?_
    · simp only [List.mem_cons, List.not_mem_nil, or_false, forall_eq_or_imp, forall_eq]
      exact ⟨.time now, .put key buf expire _⟩
    · intro m part
      cases part <;>
        simp [Counter.countIn, Counter.counts, Counter.tested, CacheKind.isGet, CacheKind.isStored,
          MemcacheStats.part, MemcacheStats.store]
  | failed now ex failedAt ready =>
    refine .of_cache ?_ id (fun which => by cases kind <;> cases which <;> rfl) ?_
    · simp only [List.mem_cons, List.not_mem_nil, or_false, forall_eq_or_imp, forall_eq]
      exact ⟨.time now, .put key buf expire _, .time failedAt⟩
    · intro m part
      cases part <;>
        simp [Counter.countIn, Counter.counts, Counter.tested, CacheKind.isGet, CacheKind.isStored]

/-- A query counts in the SQL block, whichever cache the operation is on. -/
theorem moved_query (on : Option CacheKind) (s : Store) (callsign : Str) (reply : QueryReply) :
    Moved on [⟨.query callsign, reply⟩] s (s.sqlCounted reply.rows) := by
  rintro which (part | ⟨kind, part⟩)
  · by_cases none : reply.rows = []
    · cases part <;> cases which <;>
        simp [Counter.countIn, Counter.counts, Counter.answered, Counter.value, SqlStats.part,
          sqlCounted, onSql, ledger, none, SqlStats.attempt, SqlStats.miss]
    · cases part <;> cases which <;>
        simp [Counter.countIn, Counter.counts, Counter.answered, Counter.value, SqlStats.part,
          sqlCounted, onSql, ledger, none, SqlStats.attempt, SqlStats.hit]
  -- the cache blocks stay, and no counter of theirs stands for a query
  · have kept :
        kind.block ((s.sqlCounted reply.rows).ledger which) = kind.block (s.ledger which) := by
      cases kind <;> cases which <;> rfl
    rw [Counter.value, Counter.value, kept, Counter.countIn_eq_zero]
    · exact (UInt32.add_zero _).symm
    · intro e member
      obtain rfl := List.mem_singleton.mp member
      cases part <;> simp [Counter.counts, Counter.tested, CacheKind.isGet, CacheKind.isStored]

theorem LookupTrace.moved {lib : Openframe} {s : Store} {callsign : Str} {ret : List ApnsRegister}
    {tr : Trace} {result : (Nat × List ApnsRegister) × Store}
    (lookup : LookupTrace lib s callsign ret tr result) : Moved (some .register) tr s result.2 := by
  cases lookup with
  | cachedNotFound _ _ _ get _ => exact GetTrace.moved .register get
  | cachedFound _ _ _ _ get _ => exact GetTrace.moved .register get
  | asked front ok buf s' reply put wrote s'' get _ set =>
    exact (GetTrace.moved .register get).trans
      ((moved_query _ s' callsign reply).trans (PutTrace.moved .register set))

end Store

/-- The cache an operation works on. -/
def StoreOp.kind : StoreOp → CacheKind
  | .getApnsRegisterByCallsign .. | .getApnsRegisterFromMemcached ..
  | .setApnsRegisterInMemcached .. => .register
  | .getMessageFromMemcached .. | .setMessageInMemcached .. => .message

theorem StoreOp.Ran.moved {lib : Openframe} {op : StoreOp} {s s' : Store} {tr : Trace}
    (ran : StoreOp.Ran lib s op tr s') : Store.Moved (some op.kind) tr s s' := by
  cases ran with
  | lookup trace => exact trace.moved
  | getRegister trace => exact Store.GetTrace.moved .register trace
  | setRegister trace => exact Store.PutTrace.moved .register trace
  | getMessage trace => exact Store.GetTrace.moved .message trace
  | setMessage trace => exact Store.PutTrace.moved .message trace

/-! ### Hits and misses make up the tries -/

namespace Store

/-- In each block of the ledger the hits and the misses make up the tries. -/
structure ObjStats.Consistent (stats : ObjStats) : Prop where
  cache : ∀ kind : CacheKind,
    (kind.block stats).hits + (kind.block stats).misses = (kind.block stats).tries
  sql : stats.sqlRegister.hits + stats.sqlRegister.misses = stats.sqlRegister.tries

end Store

theorem Tallied.consistent {gets puts : Nat} {m m' : MemcacheStats}
    (tallied : Tallied gets puts m m') (before : m.hits + m.misses = m.tries) :
    m'.hits + m'.misses = m'.tries := by
  obtain ⟨hits, misses, rfl, hit, missed⟩ := tallied.found
  rw [hit, missed, tallied.tries, ← before, UInt32.ofNat_add]
  ac_rfl

theorem Counter.countIn_sql (on : Option CacheKind) (tr : Trace) :
    (sql .hits).countIn on tr + (sql .misses).countIn on tr = (sql .tries).countIn on tr := by
  induction tr with
  | nil => rfl
  | cons e rest ih =>
    -- an answered query is a hit or a miss, every other event is neither
    have one : (sql .hits).countIn on [e] + (sql .misses).countIn on [e] =
        (sql .tries).countIn on [e] := by
      cases rows : answered e with
      | none => simp [countIn, counts, rows]
      | some rows' => by_cases empty : rows' = [] <;> simp [countIn, counts, rows, empty]
    have split (c : Counter) : c.countIn on (e :: rest) = c.countIn on [e] + c.countIn on rest :=
      countIn_append on [e] rest c
    rw [split, split, split]
    omega

theorem StoreOp.Ran.consistent {lib : Openframe} {op : StoreOp} {s s' : Store} {tr : Trace}
    (ran : StoreOp.Ran lib s op tr s') (which : Store.Ledger)
    (before : (s.ledger which).Consistent) : (s'.ledger which).Consistent where
  cache kind := by
    have tallied := ran.counted kind
    cases which with
    | stats => exact tallied.1.consistent (before.cache kind)
    | stompstats => exact tallied.2.consistent (before.cache kind)
  sql := by
    have hits : _ = _ := ran.moved which (.sql .hits)
    have misses : _ = _ := ran.moved which (.sql .misses)
    have tries : _ = _ := ran.moved which (.sql .tries)
    -- all three moved by events, and the hits and misses among them are the tries
    simp only [Counter.value, SqlStats.part] at hits misses tries
    rw [hits, misses, tries, ← before.sql, ← Counter.countIn_sql, UInt32.ofNat_add]
    ac_rfl

/-! ### Emptying a ledger -/

namespace Store

def ObjStats.emptied (stats : ObjStats) (now : Int) : ObjStats :=
  { stats with
    cacheMessage := ⟨0, 0, 0, 0⟩
    cacheRegister := ⟨0, 0, 0, 0⟩
    sqlRegister := ⟨0, 0, 0, 0, 0⟩
    lastReportAt := now }

theorem ObjStats.value_emptied (stats : ObjStats) (now : Int) (c : Counter) :
    c.value (stats.emptied now) = 0 := by
  rcases c with part | ⟨kind, part⟩
  · cases part <;> rfl
  · cases kind <;> cases part <;> rfl

theorem ObjStats.emptied_consistent (stats : ObjStats) (now : Int) :
    (stats.emptied now).Consistent := by
  refine ⟨fun kind => ?_, rfl⟩
  cases kind <;> rfl

/-- `try_stompstats`. -/
inductive Publishing (stats : ObjStats) : Trace → ObjStats → Prop
  | early (now : Int) (wait : stats.lastReportAt > now - stats.reportInterval) :
      Publishing stats [⟨.time, now⟩] stats
  | due (now resetAt : Int) (due : ¬ stats.lastReportAt > now - stats.reportInterval) :
      Publishing stats (⟨.time, now⟩ ::
        ((stats.published.map fun point => ⟨.datapoint point.1 point.2, ()⟩) ++ [⟨.time, resetAt⟩]))
        (stats.emptied resetAt)

/-- The rest of `try_stats`. -/
inductive Logging (stats : ObjStats) : Trace → ObjStats → Prop
  | early (now : Int) (wait : stats.lastReportAt > now - stats.reportInterval) :
      Logging stats [⟨.time, now⟩] stats
  | due (now resetAt : Int) (due : ¬ stats.lastReportAt > now - stats.reportInterval) :
      Logging stats [⟨.time, now⟩, ⟨.report stats.logged, ()⟩, ⟨.time, resetAt⟩] (stats.emptied resetAt)

/-- A call of `try_stats` deals with one ledger after the other. -/
inductive StatsTrace (s : Store) : Trace → Store → Prop
  | intro (points lines : Trace) (stompstats stats : ObjStats)
      (publishing : Publishing s.stompstats points stompstats)
      (logging : Logging s.stats lines stats) :
      StatsTrace s (points ++ lines) { s with stats := stats, stompstats := stompstats }

theorem datapoints_post (values : List (Str × UInt32)) : Prog.Post (datapoints values) fun tr _ =>
    tr = values.map fun point => ⟨.datapoint point.1 point.2, ()⟩ := by
  induction values with
  | nil => rfl
  | cons value rest ih =>
    intro _
    apply Prog.post_mono _ ih
    rintro tr _ rfl
    rfl

theorem tryStompstats_post (s : Store) : Prog.Post s.tryStompstats fun tr s' =>
    ∃ stompstats, Publishing s.stompstats tr stompstats ∧
      s' = { s with stompstats := stompstats } := by
  simp only [tryStompstats, time, Prog.perform_bind, Prog.post_call]
  intro now
  by_cases wait : s.stompstats.lastReportAt > now - s.stompstats.reportInterval
  · rw [if_pos wait]
    exact ⟨_, .early now wait, rfl⟩
  -- the counters are published one by one before `init_stats` empties them
  · rw [if_neg wait, Prog.post_bind]
    apply Prog.post_mono _ (datapoints_post _)
    rintro _ _ rfl
    simp only [ObjStats.initStats, time, Prog.perform_bind, Prog.call_bind, Prog.post_call]
    intro resetAt
    exact ⟨_, .due now resetAt wait, rfl⟩

theorem statsTrace_post (s : Store) : Prog.Post s.tryStats (StatsTrace s) := by
  unfold tryStats
  rw [Prog.post_bind]
  apply Prog.post_mono _ (tryStompstats_post s)
  rintro points _ ⟨stompstats, publishing, rfl⟩
  -- `_stats` is due by a clock reading and an interval of its own
  simp only [time, Prog.perform_bind, Prog.post_call]
  intro now
  by_cases wait : s.stats.lastReportAt > now - s.stats.reportInterval
  · rw [if_pos wait]
    exact .intro points _ stompstats s.stats publishing (.early now wait)
  · rw [if_neg wait]
    simp only [ObjStats.initStats, time, Prog.perform_bind, Prog.call_bind, Prog.post_call]
    intro _ resetAt
    exact .intro points _ stompstats _ publishing (.due now resetAt wait)

end Store

/-! ### What is never emptied -/

namespace Store

/-- The two fields that no operation changes. -/
def ObjStats.TimesKept (stats stats' : ObjStats) : Prop :=
  stats'.reportInterval = stats.reportInterval ∧ stats'.createdAt = stats.createdAt

theorem ObjStats.TimesKept.trans {stats mid stats' : ObjStats} (first : TimesKept stats mid)
    (second : TimesKept mid stats') : TimesKept stats stats' :=
  ⟨second.1.trans first.1, second.2.trans first.2⟩

theorem timesKept_on (kind : CacheKind) (s : Store) (f : MemcacheStats → MemcacheStats)
    (which : Ledger) : ((s.ledger which).TimesKept ((kind.on s f).ledger which)) := by
  cases kind <;> cases which <;> exact ⟨rfl, rfl⟩

theorem GetTrace.timesKept (kind : CacheKind) {key ret : Str} {s : Store} {tr : Trace}
    {result : (Bool × Str) × Store} (get : GetTrace kind.on kind.ns key s ret tr result)
    (which : Ledger) : (s.ledger which).TimesKept (result.2.ledger which) := by
  have tried (mid : Store) (mcr : MemcachedReturnEnum) (buf : Str)
      (same : mid.ledger which = (kind.on s .attempt).ledger which) :
      (s.ledger which).TimesKept ((concludeGet kind.on ret mcr buf mid).2.ledger which) := by
    have first := timesKept_on kind s .attempt which
    rw [← same] at first
    unfold concludeGet
    split
    · exact first.trans (timesKept_on kind mid .miss which)
    · exact first.trans (timesKept_on kind mid .hit which)
  cases get with
  | skipped now cooling => exact ⟨rfl, rfl⟩
  | answered now mcr buf ready => exact tried _ mcr buf rfl
  | failed now ex buf failedAt garbage ready => exact tried _ garbage buf (by cases which <;> rfl)

theorem PutTrace.timesKept (kind : CacheKind) {key buf : Str} {s : Store} {expire : Int}
    {tr : Trace} {result : Bool × Store} (set : PutTrace kind.on kind.ns key s buf expire tr result)
    (which : Ledger) : (s.ledger which).TimesKept (result.2.ledger which) := by
  cases set with
  | skipped now cooling => exact ⟨rfl, rfl⟩
  | stored now ready => exact timesKept_on kind s .store which
  | failed now ex failedAt ready => cases which <;> exact ⟨rfl, rfl⟩

theorem LookupTrace.timesKept {lib : Openframe} {s : Store} {callsign : Str}
    {ret : List ApnsRegister} {tr : Trace} {result : (Nat × List ApnsRegister) × Store}
    (lookup : LookupTrace lib s callsign ret tr result) (which : Ledger) :
    (s.ledger which).TimesKept (result.2.ledger which) := by
  cases lookup with
  | cachedNotFound _ _ _ get _ => exact GetTrace.timesKept .register get which
  | cachedFound _ _ _ _ get _ => exact GetTrace.timesKept .register get which
  | asked front ok buf s' reply put wrote s'' get _ set =>
    have query : (s'.ledger which).TimesKept ((s'.sqlCounted reply.rows).ledger which) := by
      cases which <;> exact ⟨rfl, rfl⟩
    exact (GetTrace.timesKept .register get which).trans
      (query.trans (PutTrace.timesKept .register set which))

end Store

theorem StoreOp.Ran.timesKept {lib : Openframe} {op : StoreOp} {s s' : Store} {tr : Trace}
    (ran : StoreOp.Ran lib s op tr s') (which : Store.Ledger) :
    (s.ledger which).TimesKept (s'.ledger which) := by
  cases ran with
  | lookup trace => exact trace.timesKept which
  | getRegister trace => exact Store.GetTrace.timesKept .register trace which
  | setRegister trace => exact Store.PutTrace.timesKept .register trace which
  | getMessage trace => exact Store.GetTrace.timesKept .message trace which
  | setMessage trace => exact Store.PutTrace.timesKept .message trace which

theorem Store.StatsTrace.timesKept {s s' : Store} {tr : Trace} (ran : Store.StatsTrace s tr s')
    (which : Store.Ledger) : (s.ledger which).TimesKept (s'.ledger which) := by
  obtain ⟨points, lines, stompstats, stats, publishing, logging⟩ := ran
  cases which with
  | stats =>
    cases logging with
    | early | due => exact ⟨rfl, rfl⟩
  | stompstats =>
    cases publishing with
    | early | due => exact ⟨rfl, rfl⟩

/-! ### A run -/

/-- What a store is asked to do between two looks at its counters. -/
inductive StatsOp where
  | operate (op : StoreOp)
  | tryStats
  deriving DecidableEq

def StatsOp.program (lib : Openframe) : StatsOp → Store → Program Store
  | .operate op, s => do
    let (_, s) ← op.program lib s
    return s
  | .tryStats, s => s.tryStats

def StatsOp.kind : StatsOp → Option CacheKind
  | .operate op => some op.kind
  | .tryStats => none

/-- An operation of a run, with its calls and the store before and after it. -/
structure Performed where
  op : StatsOp
  before : Store
  tr : Trace
  after : Store

def Performed.Step (lib : Openframe) (s : Store) (p : Performed) (s' : Store) : Prop :=
  p.before = s ∧ p.after = s' ∧ Prog.Runs (p.op.program lib s) p.tr s'

namespace Counter

/-- How often the counted event happened in an operation. -/
def occurred (c : Counter) (p : Performed) : Nat := c.countIn p.op.kind p.tr

/-- The value of a datapoint with the given name. -/
def pointNamed (name : Str) : Event Call Answer → Option UInt32
  | ⟨.datapoint name' value, _⟩ => if name' = name then some value else none
  | _ => none

def published (c : Counter) (p : Performed) : UInt32 := (p.tr.filterMap (pointNamed c.name)).sum

def isReport : Event Call Answer → Bool
  | ⟨.report _, _⟩ => true
  | _ => false

/-- What `_stats` held when it was logged and emptied. -/
def logged (c : Counter) (p : Performed) : UInt32 :=
  if p.tr.any isReport then c.value p.before.stats else 0

end Counter

/-- Nothing is lost from either ledger, however they are emptied. -/
structure LedgersConserved (performed : List Performed) (s : Store) : Prop where
  consistent : s.stats.Consistent ∧ s.stompstats.Consistent
  published : ∀ c : Counter, (performed.map c.published).sum + c.value s.stompstats =
    .ofNat (performed.map c.occurred).sum
  logged : ∀ c : Counter, (performed.map c.logged).sum + c.value s.stats =
    .ofNat (performed.map c.occurred).sum
  kept : ∀ p ∈ performed, ∀ which, (p.before.ledger which).TimesKept (p.after.ledger which)

namespace Store

/-- Of all the datapoints one carries the counter's name. -/
theorem points_published (stats : ObjStats) (c : Counter) :
    (stats.published.map fun point =>
      (⟨.datapoint point.1 point.2, ()⟩ : Event Call Answer)).filterMap
        (Counter.pointNamed c.name) = [c.value stats] := by
  rw [Counter.published_eq, List.map_map, List.filterMap_map]
  have named (c' : Counter) : (Counter.pointNamed c.name ∘ (fun point =>
      (⟨.datapoint point.1 point.2, ()⟩ : Event Call Answer)) ∘ fun c' => (c'.name, c'.value stats)) c' =
        if c' = c then some (c.value stats) else none := by
    by_cases same : c' = c
    · simp [Counter.pointNamed, same]
    · simp [Counter.pointNamed, same, Counter.name_injective.ne same]
  rw [List.filterMap_congr fun c' _ => named c']
  -- the list of all counters holds this one once
  generalize c.value stats = value
  rcases c with part | ⟨kind, part⟩
  · cases part <;> rfl
  · cases kind <;> cases part <;> rfl

theorem Publishing.balances {stats stats' : ObjStats} {tr : Trace}
    (publishing : Publishing stats tr stats') (c : Counter) :
    Balances (tr.filterMap (Counter.pointNamed c.name)).sum (c.value stats) 0 (c.value stats') := by
  cases publishing with
  | early now wait => exact Balances.refl _
  | due now resetAt due =>
    rw [ObjStats.value_emptied, List.filterMap_cons_none rfl, List.filterMap_append,
      points_published]
    rw [List.filterMap_cons_none rfl, List.filterMap_nil, List.append_nil, List.sum_singleton]
    exact Balances.pays _

theorem Logging.balances {stats stats' : ObjStats} {tr : Trace}
    (logging : Logging stats tr stats') (c : Counter) :
    Balances (if tr.any Counter.isReport then c.value stats else 0) (c.value stats) 0
      (c.value stats') := by
  cases logging with
  | early now wait => exact Balances.refl _
  | due now resetAt due =>
    rw [ObjStats.value_emptied]
    exact Balances.pays _

/-- Publishing reports no ledger and logging publishes none. -/
theorem Publishing.silent {stats stats' : ObjStats} {tr : Trace}
    (publishing : Publishing stats tr stats') : tr.any Counter.isReport = false := by
  cases publishing with
  | early now wait => rfl
  | due now resetAt due => simp [Counter.isReport]

theorem Logging.silent {stats stats' : ObjStats} {tr : Trace} (logging : Logging stats tr stats')
    (name : Str) : tr.filterMap (Counter.pointNamed name) = [] := by
  cases logging with
  | early now wait | due now resetAt due => rfl

theorem StatsTrace.uncounted {s s' : Store} {tr : Trace} (ran : StatsTrace s tr s')
    (c : Counter) : c.countIn none tr = 0 := by
  refine Counter.countIn_eq_zero fun e member => ?_
  -- it reads the clock, publishes and logs, and no counter stands for any of these
  have quiet : e.call = .time ∨ (∃ name value, e.call = .datapoint name value) ∨
      ∃ values, e.call = .report values := by
    obtain ⟨points, lines, stompstats, stats, publishing, logging⟩ := ran
    rcases List.mem_append.mp member with member | member
    · cases publishing with
      | early => simp_all
      | due =>
        simp only [List.mem_cons, List.mem_append, List.mem_map, List.not_mem_nil, or_false] at member
        rcases member with rfl | ⟨point, _, rfl⟩ | rfl <;> simp
    · cases logging with
      | early => simp_all
      | due =>
        simp only [List.mem_cons, List.not_mem_nil, or_false] at member
        rcases member with rfl | rfl | rfl <;> simp
  obtain ⟨call, answer⟩ := e
  rcases c with part | ⟨kind, part⟩
  · rcases quiet with rfl | ⟨name, value, rfl⟩ | ⟨values, rfl⟩ <;> cases part <;> rfl
  · rcases quiet with rfl | ⟨name, value, rfl⟩ | ⟨values, rfl⟩ <;> cases part <;> rfl

end Store

/-- An operation on memcached or SQL neither publishes nor logs. -/
theorem StoreOp.Ran.quiet {lib : Openframe} {op : StoreOp} {s s' : Store} {tr : Trace}
    (ran : StoreOp.Ran lib s op tr s') : ∀ e ∈ tr, Store.isLookup e.call = true := by
  intro e member
  cases ran with
  | lookup trace => exact trace.calls e member
  | getRegister trace | getMessage trace =>
    rcases trace.calls e member with call | call | call <;> rw [call] <;> rfl
  | setRegister trace | setMessage trace =>
    rcases trace.calls e member with call | call <;> rw [call] <;> rfl

theorem Counter.published_eq_zero {c : Counter} {p : Performed}
    (quiet : ∀ e ∈ p.tr, Store.isLookup e.call = true) : c.published p = 0 := by
  have none : p.tr.filterMap (pointNamed c.name) = [] := by
    refine List.filterMap_eq_nil_iff.mpr fun e member => ?_
    obtain ⟨call, answer⟩ := e
    have lookup := quiet _ member
    cases call <;> first | rfl | cases lookup
  rw [published, none, List.sum_nil]

theorem Counter.logged_eq_zero {c : Counter} {p : Performed}
    (quiet : ∀ e ∈ p.tr, Store.isLookup e.call = true) : c.logged p = 0 := by
  have none : p.tr.any isReport = false := by
    refine List.any_eq_false.mpr fun e member => ?_
    obtain ⟨call, answer⟩ := e
    have lookup := quiet _ member
    cases call with
    | report => cases lookup
    | time | indeterminate | memcachedGet | memcachedPut | query | execute | datapoint | subscribe
    | nextFrame | frameUse | ack | release | newApnsMessage | push | deleteRegister | queued =>
      simp [isReport]
  rw [logged, none]
  rfl

namespace Performed

/-- What one operation does to a run's accounts. -/
structure Accounts (s : Store) (p : Performed) (s' : Store) : Prop where
  published : ∀ c : Counter, Balances (c.published p) (c.value s.stompstats) (.ofNat (c.occurred p))
    (c.value s'.stompstats)
  logged : ∀ c : Counter, Balances (c.logged p) (c.value s.stats) (.ofNat (c.occurred p))
    (c.value s'.stats)
  consistent : ∀ which, (s.ledger which).Consistent → (s'.ledger which).Consistent

theorem Step.accounts {lib : Openframe} {s s' : Store} {p : Performed} (step : Step lib s p s') :
    Accounts s p s' := by
  obtain ⟨op, before, tr, after⟩ := p
  obtain ⟨rfl, rfl, runs⟩ := step
  dsimp only at runs
  cases op with
  | operate op =>
    obtain ⟨⟨out, s'⟩, front, back, rfl, first, rfl, rfl⟩ := (Prog.runs_bind _ _ _ _).mp runs
    rw [List.append_nil]
    have ran := StoreOp.ran_of_runs first
    -- an operation earns what it counted, and pays nothing out
    refine ⟨fun c => ?_, fun c => ?_, ran.consistent⟩
    · rw [Counter.published_eq_zero ran.quiet]
      change Balances 0 (c.value before.stompstats) _ (c.value after.stompstats)
      rw [show c.value after.stompstats = _ from ran.moved .stompstats c]
      exact Balances.earns _ _
    · rw [Counter.logged_eq_zero ran.quiet]
      change Balances 0 (c.value before.stats) _ (c.value after.stats)
      rw [show c.value after.stats = _ from ran.moved .stats c]
      exact Balances.earns _ _
  | tryStats =>
    have ran : Store.StatsTrace before tr after := runs.post (Store.statsTrace_post before)
    have none (c : Counter) : c.occurred ⟨.tryStats, before, tr, after⟩ = 0 := ran.uncounted c
    -- a report pays out, one ledger apart from the other
    obtain ⟨points, lines, stompstats, stats, publishing, logging⟩ := ran
    refine ⟨fun c => ?_, fun c => ?_, ?_⟩
    · rw [none, Counter.published, List.filterMap_append, logging.silent, List.append_nil]
      exact publishing.balances c
    · rw [none, Counter.logged, List.any_append, publishing.silent, Bool.false_or]
      exact logging.balances c
    · rintro (_ | _) consistent
      · cases logging with
        | early => exact consistent
        | due => exact before.stats.emptied_consistent _
      · cases publishing with
        | early => exact consistent
        | due => exact before.stompstats.emptied_consistent _

theorem Step.timesKept {lib : Openframe} {s s' : Store} {p : Performed} (step : Step lib s p s')
    (which : Store.Ledger) : (p.before.ledger which).TimesKept (p.after.ledger which) := by
  obtain ⟨op, before, tr, after⟩ := p
  obtain ⟨rfl, rfl, runs⟩ := step
  cases op with
  | operate op =>
    obtain ⟨⟨out, s'⟩, front, back, _, first, rfl, rfl⟩ := (Prog.runs_bind _ _ _ _).mp runs
    exact (StoreOp.ran_of_runs first).timesKept which
  | tryStats => exact Store.StatsTrace.timesKept (runs.post (Store.statsTrace_post before)) which

end Performed

/-- A new store has counted nothing. -/
theorem Store.create_empty (reportInterval : Int) :
    Prog.Post (Store.create reportInterval) fun _ s =>
      ∀ which, (s.ledger which).Consistent ∧ ∀ c : Counter, c.value (s.ledger which) = 0 := by
  simp only [Store.create, Store.ObjStats.initStats, time, Prog.perform_bind, Prog.call_bind,
    if_true, Prog.post_call, Prog.pure_eq, Prog.ret_bind, Prog.post_ret]
  intro now createdAt now' createdAt' which
  have empty (interval now createdAt : Int) :
      (⟨⟨0, 0, 0, 0⟩, ⟨0, 0, 0, 0⟩, ⟨0, 0, 0, 0, 0⟩, now, interval, createdAt⟩ :
        Store.ObjStats).Consistent ∧ ∀ c : Counter,
          c.value ⟨⟨0, 0, 0, 0⟩, ⟨0, 0, 0, 0⟩, ⟨0, 0, 0, 0, 0⟩, now, interval, createdAt⟩ = 0 :=
    ⟨Store.ObjStats.emptied_consistent
        { Store.ObjStats.blank with reportInterval := interval, createdAt := createdAt } now,
      Store.ObjStats.value_emptied
        { Store.ObjStats.blank with reportInterval := interval, createdAt := createdAt } now⟩
  cases which with
  | stats => exact empty reportInterval now createdAt
  | stompstats => exact empty 5 now' createdAt'

theorem ofNat_sum (amounts : List Nat) :
    (amounts.map UInt32.ofNat).sum = UInt32.ofNat amounts.sum := by
  induction amounts with
  | nil => rfl
  | cons amount rest ih => rw [List.map_cons, List.sum_cons, List.sum_cons, ih, UInt32.ofNat_add]

/-- Over every run of a new store nothing is lost from its ledgers. -/
theorem ledgers_conserved (lib : Openframe) (reportInterval : Int) (created : Trace)
    (fresh s : Store) (performed : List Performed)
    (creates : Prog.Runs (Store.create reportInterval) created fresh)
    (follows : Follows (Performed.Step lib) fresh performed s) : LedgersConserved performed s := by
  have empty := creates.post (Store.create_empty reportInterval)
  have total (c : Counter) : (performed.map fun p => UInt32.ofNat (c.occurred p)).sum =
      .ofNat (performed.map c.occurred).sum := by
    rw [← ofNat_sum, List.map_map]
    rfl
  refine ⟨⟨?_, ?_⟩, fun c => ?_, fun c => ?_, ?_⟩
  · exact follows.keeps (fun s => s.stats.Consistent)
      (fun _ _ _ step => step.accounts.consistent .stats) (empty .stats).1
  · exact follows.keeps (fun s => s.stompstats.Consistent)
      (fun _ _ _ step => step.accounts.consistent .stompstats) (empty .stompstats).1
  -- the accounts of the steps add up, from the nothing a new store has counted
  · have balances := follows.balances (fun s => c.value s.stompstats) c.published
      (fun p => .ofNat (c.occurred p)) fun _ _ _ step => step.accounts.published c
    rw [Balances, total, show c.value fresh.stompstats = 0 from (empty .stompstats).2 c] at balances
    rw [balances, UInt32.zero_add]
  · have balances := follows.balances (fun s => c.value s.stats) c.logged
      (fun p => .ofNat (c.occurred p)) fun _ _ _ step => step.accounts.logged c
    rw [Balances, total, show c.value fresh.stats = 0 from (empty .stats).2 c] at balances
    rw [balances, UInt32.zero_add]
  · intro p member
    obtain ⟨s, s', step⟩ := follows.step_of_mem member
    exact step.timesKept

/-- One operation at `clock`, while memcached fails every get. -/
def playPerformed (clock : Int) (s : Store) (op : StatsOp) : Performed where
  op := op
  before := s
  tr := (Prog.play { Store.failingScript with clock := clock }.answers 0
    (op.program .textual s)).1
  after := (Prog.play { Store.failingScript with clock := clock }.answers 0
    (op.program .textual s)).2

theorem playPerformed_step (clock : Int) (s : Store) (op : StatsOp) :
    Performed.Step .textual s (playPerformed clock s op) (playPerformed clock s op).after :=
  ⟨rfl, rfl, Prog.play_runs _ 0 _⟩

def freshStore : Store := (Prog.play Store.failingScript.answers 0 (Store.create 3600)).2

/-- A lookup, counted. -/
def playedLookup : Performed :=
  playPerformed 1000 freshStore (.operate (.getApnsRegisterByCallsign (lit "N0CALL") []))

/-- More than an hour later both ledgers are reported and emptied. -/
def playedReport : Performed := playPerformed 5000 playedLookup.after .tryStats

def secondLookup : Performed :=
  playPerformed 5000 playedReport.after (.operate (.getApnsRegisterByCallsign (lit "N0CALL") []))

theorem ledgers_conserved_dueReport :
    (Counter.sql .tries).published playedReport = 1 ∧ (Counter.sql .tries).logged playedReport = 1 ∧
    (Counter.sql .tries).value secondLookup.after.stompstats = 1 ∧
    LedgersConserved [playedLookup, playedReport, secondLookup] secondLookup.after :=
  ⟨by decide, by decide, by decide, ledgers_conserved .textual 3600 _ freshStore _ _
    (Prog.play_runs _ 0 _) (.cons (playPerformed_step _ _ _)
      (.cons (playPerformed_step _ _ _) (.single (playPerformed_step _ _ _))))⟩

end ApnsPusher
