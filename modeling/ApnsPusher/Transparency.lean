import ApnsPusher.Provenance
import ApnsPusher.Store.Codec

/-!
# The cache is transparent

Any number of workers look registers up through one memcached, in any order of
their calls, while entries vanish, calls fail and the table changes. Each lookup
still returns the whole answer of one query for its callsign: its own, or the
one behind the entry it was handed.
-/
namespace ApnsPusher

open Effects Store

variable {ι : Type}

/-- The store's operations as the workers of this system run them. -/
def storeMachine (ι : Type) (lib : Openframe) :
    Machine ι Call Answer (Shared ι) StoreOp Store StoreOut :=
  Shared.machine (StoreOp.program lib)

section Conditions

variable (log : List (Entry ι Call Answer (Shared ι) StoreOp))

/-- Lookups are made as `process_message` makes them, and register entries are
written by lookups only. -/
structure CalledByWorkers (lib : Openframe) : Prop where
  upper : ∀ entry ∈ log, ∀ callsign ret, entry.op = .getApnsRegisterByCallsign callsign ret →
    ∃ target, callsign = lib.toUpper target
  indirect : ∀ entry ∈ log, ∀ callsign buf expire,
    entry.op ≠ .setApnsRegisterInMemcached callsign buf expire

/-- No query raises, and the rows hold non-empty fields without commas. -/
def AnsweredCleanly : Prop :=
  ∀ entry ∈ log, ∀ callsign reply, entry.event = ⟨.query callsign, reply⟩ →
    ∃ rows, reply = .stored rows (.ok ()) ∧ CleanRows rows

end Conditions

theorem CalledByWorkers.follows {lib : Openframe}
    {log : List (Entry ι Call Answer (Shared ι) StoreOp)} (workers : CalledByWorkers log lib) :
    ∀ entry ∈ log, ∀ before tr result, Prog.Runs (StoreOp.program lib entry.op before) tr result →
      PutsFollowQueries lib tr :=
  fun entry member _ _ _ runs => StoreOp.putsFollowQueries (workers.indirect entry member) runs

/-- A query of the log is one of a lookup for that callsign. -/
theorem lookup_of_query [DecidableEq ι] {lib : Openframe} {shared : Shared ι} {state : ι → Store}
    {c : Config ι Call Answer (Shared ι) StoreOp Store StoreOut}
    (reachable : (storeMachine ι lib).Reachable shared state c)
    {asked : Entry ι Call Answer (Shared ι) StoreOp} (member : asked ∈ c.log) {callsign : Str}
    {reply : QueryReply} (event : asked.event = ⟨.query callsign, reply⟩) :
    ∃ ret, asked.op = .getApnsRegisterByCallsign callsign ret := by
  obtain ⟨before, rest, result, runs⟩ := reachable.runs_of_mem member
  exact StoreOp.query_mem runs
    (List.mem_append_left _ ((mem_own c.log asked.id _).mpr ⟨asked, member, rfl, event⟩))

/-- What a thread has done when its lookup is about to return. -/
theorem lookupTrace_of_returning [DecidableEq ι] {lib : Openframe} {shared : Shared ι}
    {state : ι → Store} {c : Config ι Call Answer (Shared ι) StoreOp Store StoreOut}
    (reachable : (storeMachine ι lib).Reachable shared state c) {i : ι} {callsign : Str}
    {ret rows : List ApnsRegister} {count : Nat} {store : Store}
    (returning : (c.threads i).current =
      some (.getApnsRegisterByCallsign callsign ret, .ret (.lookup count rows, store))) :
    LookupTrace lib (c.threads i).state callsign ret (own c.log (i, (c.threads i).finished))
      ((count, rows), store) := by
  have runs := (reachable.traced.running i _ _ returning).runs
    ((Prog.runs_ret _ _ _).mpr ⟨rfl, rfl⟩)
  obtain ⟨⟨⟨count', rows'⟩, store'⟩, front, back, split, lookup, rfl, same⟩ :=
    (Prog.runs_bind _ _ _ _).mp runs
  simp only [Prod.mk.injEq, StoreOut.lookup.injEq] at same
  obtain ⟨⟨rfl, rfl⟩, rfl⟩ := same
  rw [List.append_nil, List.append_nil] at split
  rw [split]
  exact lookupTrace_of_runs lookup

/-! ### Two lookups of one callsign, the second from the cache -/

def nocallLookup : StoreOp := .getApnsRegisterByCallsign (lit "N0CALL") []

/-- The first lookup finds nothing in memcached and is told `reply`. -/
def askTrace (reply : QueryReply) : Trace :=
  [⟨.time, (1000 : Int)⟩, ⟨.memcachedGet (lit "apnsregister") (lit "N0CALL") [], (.ok .notFound, [])⟩,
    ⟨.query (lit "N0CALL"), reply⟩, ⟨.time, (1000 : Int)⟩,
    ⟨.memcachedPut (lit "apnsregister") (lit "N0CALL") (entryFor .textual reply.rows) 3600, .ok ()⟩]

/-- The second lookup is handed the entry of the first. -/
def cachedTrace (reply : QueryReply) : Trace :=
  [⟨.time, (1000 : Int)⟩, ⟨.memcachedGet (lit "apnsregister") (lit "N0CALL") [],
    (.ok .success, entryFor .textual reply.rows)⟩]

theorem ask_then_cached (reply : QueryReply) (table : Str → List ApnsRegister)
    (tells : ∀ rows drained, reply = .stored rows drained → rows = table (lit "N0CALL"))
    (out out' : StoreOut) (s s' : Store)
    (asks : Prog.Runs (StoreOp.program .textual nocallLookup .blank) (askTrace reply) (out, s))
    (reads : Prog.Runs (StoreOp.program .textual nocallLookup .blank) (cachedTrace reply) (out', s')) :
    ∃ c : Config (Fin 2) Call Answer (Shared (Fin 2)) StoreOp Store StoreOut,
      (storeMachine (Fin 2) .textual).Reachable (Shared.initial table) (fun _ => .blank) c ∧
      (∀ entry ∈ c.log, entry.op = nocallLookup) ∧
      c.log.map Entry.event = askTrace reply ++ cachedTrace reply ∧
      own c.log (1, 0) = cachedTrace reply ∧ c.shared.table = table ∧
      (c.threads 1).finished = 0 ∧ (c.threads 1).current = some (nocallLookup, .ret (out', s')) := by
  have fits : MemcachedController.checkKey
      (MemcachedController.cacheKey (lit "apnsregister") (lit "N0CALL")) = .ok () := by decide
  -- thread 0 asks SQL and leaves the entry
  obtain ⟨mid, front, reached, cache, same, thread, log, events, named⟩ :
      ∃ (mid : Config (Fin 2) Call Answer (Shared (Fin 2)) StoreOp Store StoreOut) (front : _),
        (storeMachine (Fin 2) .textual).Reachable (Shared.initial table) (fun _ => .blank) mid ∧
        mid.shared.cache (MemcachedController.cacheKey (lit "apnsregister") (lit "N0CALL")) =
          some (entryFor .textual reply.rows, (0, 0)) ∧
        mid.shared.table = table ∧ mid.threads 1 = ⟨.blank, 0, none⟩ ∧ mid.log = front ∧
        front.map Entry.event = askTrace reply ∧
        ∀ entry ∈ front, entry.id = (0, 0) ∧ entry.op = nocallLookup := by
    obtain ⟨front, events, named, steps⟩ := (storeMachine (Fin 2) .textual).run_alone 0
      nocallLookup (askTrace reply) out s (.initial (Shared.initial table) fun _ => .blank) rfl asks
      ((Shared.initial table).write
        (MemcachedController.cacheKey (lit "apnsregister") (lit "N0CALL"))
        (entryFor .textual reply.rows) (0, 0))
      ⟨_, rfl, _, Shared.serves_miss _ _ _ _ _ fits, _, ⟨rfl, tells⟩, _, rfl, _,
        Shared.serves_stored _ _ _ _ _ _ fits, rfl⟩
    exact ⟨_, front, steps, Shared.write_cache_self .., rfl, rfl, List.nil_append front, events, named⟩
  -- thread 1 finds it and stops just before it returns
  obtain ⟨back, events', named', steps⟩ := (storeMachine (Fin 2) .textual).run_to_return 1
    nocallLookup (cachedTrace reply) out' s' mid (by rw [thread]) (by rw [thread]; exact reads)
    mid.shared ⟨_, rfl, _, Shared.serves_hit _ _ _ _ _ _ (0, 0) fits cache, rfl⟩
  simp only [thread] at named'
  refine ⟨_, reached.trans steps, ?_, ?_, ?_, same, ?_, ?_⟩
  · intro entry member
    rcases List.mem_append.mp member with first | second
    · exact (named entry (log ▸ first)).2
    · exact (named' entry second).2
  · rw [List.map_append, log, events, events']
  · have none : own front (1, 0) = [] :=
      own_of_none fun entry member => by simp [(named entry member).1]
    have all : own back (1, 0) = back.map Entry.event :=
      own_of_all fun entry member => by simp [(named' entry member).1]
    rw [own_append, log, none, all, events', List.nil_append]
  · simp [thread]
  · simp

/-! ### Every lookup -/

/-- The query behind the answer of a lookup: its own, or that of the operation
which wrote the entry it was handed, and then it made none itself. -/
inductive AnsweredBy [DecidableEq ι] (lib : Openframe)
    (log : List (Entry ι Call Answer (Shared ι) StoreOp)) (id : ι × Nat) (callsign : Str)
    (asked : Entry ι Call Answer (Shared ι) StoreOp) : Prop
  | itself (same : asked.id = id)
  | writer (payload : Str) (handed : HandedOver lib log id callsign payload asked)
      (none : ∀ callsign' reply, ⟨.query callsign', reply⟩ ∉ own log id)

/-- A lookup the cache settles returns the answer of its entry's query. -/
theorem cached_transparent [DecidableEq ι] (lib : Openframe) (blank : lib.BlankIsEmpty)
    (roundTrips : lib.RoundTrips) (tokenizes : lib.Tokenizes) (upper : lib.UpperIdempotent)
    (table : Str → List ApnsRegister) (state : ι → Store)
    (c : Config ι Call Answer (Shared ι) StoreOp Store StoreOut)
    (reachable : (storeMachine ι lib).Reachable (Shared.initial table) state c)
    (workers : CalledByWorkers c.log lib) (cleanly : AnsweredCleanly c.log) (id : ι × Nat)
    (target : Str) (s s' : Store) (buf : Str)
    (get : GetTrace onRegister (lit "apnsregister") (lib.toUpper (lib.toUpper target)) s []
      (own c.log id) ((true, buf), s'))
    (rows : List ApnsRegister) (settles : Settles lib buf rows) :
    ∃ asked ∈ c.log, asked.event = ⟨.query (lib.toUpper target), .stored rows (.ok ())⟩ ∧
      AnsweredBy lib c.log id (lib.toUpper target) asked := by
  obtain ⟨asked, member, handed, callsign, reply, event, same, entry⟩ :=
    handedOver_of_get blank reachable workers.follows get (fun _ member => member) settles.usable
  obtain ⟨ret, op⟩ := lookup_of_query reachable member event
  obtain ⟨target', rfl⟩ := workers.upper asked member _ ret op
  -- both callsigns were upper-cased before, so they are the same text
  rw [upper, upper] at same
  obtain ⟨rows', rfl, clean⟩ := cleanly asked member _ reply event
  obtain rfl := (settles_entryFor_iff lib roundTrips tokenizes rows' rows clean).mp (entry ▸ settles)
  refine ⟨asked, member, by rw [event, same], .writer buf handed ?_⟩
  intro callsign' reply' query
  simpa using get.calls _ query

/-- Every lookup returns, with its count, exactly the answer that SQL gave for
its callsign at one instant of the run so far. -/
theorem lookup_transparent [DecidableEq ι] (lib : Openframe) (blank : lib.BlankIsEmpty)
    (roundTrips : lib.RoundTrips) (tokenizes : lib.Tokenizes) (upper : lib.UpperIdempotent)
    (table : Str → List ApnsRegister) (state : ι → Store)
    (c : Config ι Call Answer (Shared ι) StoreOp Store StoreOut)
    (reachable : (storeMachine ι lib).Reachable (Shared.initial table) state c)
    (workers : CalledByWorkers c.log lib) (cleanly : AnsweredCleanly c.log)
    (i : ι) (target : Str) (count : Nat) (rows : List ApnsRegister) (store : Store)
    (returning : (c.threads i).current = some
      (.getApnsRegisterByCallsign (lib.toUpper target) [], .ret (.lookup count rows, store))) :
    count = rows.length ∧ ∃ asked ∈ c.log,
      asked.event = ⟨.query (lib.toUpper target), .stored rows (.ok ())⟩ ∧
      asked.found.table (lib.toUpper target) = rows ∧
      AnsweredBy lib c.log (i, (c.threads i).finished) (lib.toUpper target) asked := by
  have queried := (Shared.explained_of_reachable reachable).queried
  have cached (buf : Str) (settles : Settles lib buf rows)
      (get : GetTrace onRegister (lit "apnsregister") (lib.toUpper (lib.toUpper target))
        (c.threads i).state [] (own c.log (i, (c.threads i).finished)) ((true, buf), store)) :
      ∃ asked ∈ c.log, asked.event = ⟨.query (lib.toUpper target), .stored rows (.ok ())⟩ ∧
        asked.found.table (lib.toUpper target) = rows ∧
        AnsweredBy lib c.log (i, (c.threads i).finished) (lib.toUpper target) asked := by
    obtain ⟨asked, member, event, answered⟩ := cached_transparent lib blank roundTrips tokenizes upper
      table state c reachable workers cleanly _ target _ _ buf get rows settles
    exact ⟨asked, member, event, (queried asked member _ _ _ event).symm, answered⟩
  have lookup := lookupTrace_of_returning reachable returning
  generalize trace : own c.log (i, (c.threads i).finished) = tr at lookup
  cases lookup with
  | cachedNotFound _ buf _ get reads =>
    exact ⟨rfl, cached buf (Or.inl ⟨reads, rfl⟩) (trace ▸ get)⟩
  | cachedFound _ buf _ rows' get reads =>
    exact ⟨rfl, cached buf (Or.inr reads) (trace ▸ get)⟩
  | asked got ok buf s' reply put wrote s'' get reads set =>
    have owned : (⟨.query (lib.toUpper target), reply⟩ : Event Call Answer) ∈
        own c.log (i, (c.threads i).finished) := by
      rw [trace]
      simp
    obtain ⟨asked, member, id, event⟩ := (mem_own c.log _ _).mp owned
    obtain ⟨rows', rfl, _⟩ := cleanly asked member _ reply event
    exact ⟨countFor_self rows', asked, member, event, (queried asked member _ _ _ event).symm,
      .itself id⟩

/-- A lookup that the cache answers, one row. -/
theorem lookup_transparent_oneRow :
    ∃ c : Config (Fin 2) Call Answer (Shared (Fin 2)) StoreOp Store StoreOut,
      (storeMachine (Fin 2) .textual).Reachable (Shared.initial fun _ => oneRow) (fun _ => .blank) c ∧
      1 = oneRow.length ∧ ∃ asked ∈ c.log,
        asked.event = ⟨.query (lit "N0CALL"), .stored oneRow (.ok ())⟩ ∧
        asked.found.table (lit "N0CALL") = oneRow ∧
        AnsweredBy .textual c.log (1, (c.threads 1).finished) (lit "N0CALL") asked := by
  obtain ⟨c, reachable, ops, events, _, _, _, returning⟩ := ask_then_cached (.stored oneRow (.ok ()))
    (fun _ => oneRow) (by simp) _ (.lookup 1 oneRow) _ _
    (Prog.play_runs (readBackScript oneRow (.ok .notFound, [])).answers 0 _)
    (Prog.play_runs (readBackScript [] (.ok .success, foundEntry .textual oneRow)).answers 0 _)
  have upper : Openframe.textual.toUpper (lit "N0CALL") = lit "N0CALL" := by decide
  refine ⟨c, reachable, ?_⟩
  refine lookup_transparent .textual Openframe.textual_blankIsEmpty Openframe.textual_roundTrips
    Openframe.textual_tokenizes Openframe.textual_upperIdempotent _ _ c reachable ⟨?_, ?_⟩ ?_ 1
    (lit "N0CALL") 1 oneRow _ returning
  · intro entry member callsign ret op
    rw [ops entry member] at op
    cases op
    exact ⟨lit "N0CALL", upper.symm⟩
  · intro entry member callsign buf expire op
    rw [ops entry member] at op
    cases op
  · intro entry member callsign reply event
    have logged : entry.event ∈ c.log.map Entry.event := List.mem_map_of_mem member
    rw [events, event] at logged
    simp [askTrace, cachedTrace] at logged
    exact ⟨oneRow, logged.2, by decide⟩

end ApnsPusher
