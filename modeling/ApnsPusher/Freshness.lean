import ApnsPusher.Expiry
import ApnsPusher.Worker.Acknowledge

/-!
# How old a cached answer can be

A worker puts register entries for an hour, each after the query it records. What
memcached hands a worker was therefore put less than an hour before, by memcached's
clock, with no later put for its key reported stored, and is the answer that SQL gave
the operation which put it.
-/
namespace ApnsPusher

open Effects Store Worker

/-! ### What a worker puts -/

theorem Store.LookupTrace.put_mem {lib : Openframe} {s : Store} {callsign : Str}
    {ret : List ApnsRegister} {tr : Trace} {result : (Nat × List ApnsRegister) × Store}
    (lookup : LookupTrace lib s callsign ret tr result) {ns key value : Str} {expires : Int}
    {stored : Except MemcachedControllerException Unit}
    (put : (⟨.memcachedPut ns key value expires, stored⟩ : Event Call Answer) ∈ tr) :
    ns = lit "apnsregister" ∧ expires = 3600 := by
  cases lookup with
  | cachedNotFound _ _ _ get _ => simpa using get.calls _ put
  | cachedFound _ _ _ _ get _ => simpa using get.calls _ put
  | asked _ _ _ _ _ _ _ _ get _ set =>
    rcases List.mem_append.mp put with member | member
    · simpa using get.calls _ member
    · rcases List.mem_cons.mp member with equal | member
      · cases equal
      -- the entry is written once SQL has answered, and for an hour
      · obtain ⟨register, _, _, hour⟩ := set.put_mem member
        exact ⟨register, hour⟩

/-- The only get of a lookup reads the entry for its callsign. -/
theorem Store.LookupTrace.get_mem {lib : Openframe} {s : Store} {callsign : Str}
    {ret : List ApnsRegister} {tr : Trace} {result : (Nat × List ApnsRegister) × Store}
    (lookup : LookupTrace lib s callsign ret tr result) {ns key buf : Str}
    {reply : Except MemcachedControllerException MemcachedReturnEnum × Str}
    (got : (⟨.memcachedGet ns key buf, reply⟩ : Event Call Answer) ∈ tr) :
    ns = lit "apnsregister" ∧ key = lib.toUpper callsign ∧ buf = [] := by
  cases lookup with
  | cachedNotFound _ _ _ get _ => simpa using get.calls _ got
  | cachedFound _ _ _ _ get _ => simpa using get.calls _ got
  | asked _ _ _ _ _ _ _ _ get _ set =>
    rcases List.mem_append.mp got with member | member
    · simpa using get.calls _ member
    · rcases List.mem_cons.mp member with equal | member
      · cases equal
      · simpa using set.calls _ member

theorem isShared_of_isOpening (call : Call) (opening : isOpening call = true) :
    isShared call = false := by
  cases call <;> first | rfl | cases opening

theorem isShared_of_isDelivery (call : Call) (delivery : isDelivery call = true) :
    isShared call = false := by
  cases call <;> first | rfl | cases delivery

theorem isShared_of_isClosing (call : Call) (closing : isClosing call = true) :
    isShared call = false := by
  cases call <;> first | rfl | cases closing

/-- What a worker asks of memcached and SQL, it asks in the lookup of a message. -/
theorem Worker.RunTrace.lookup_of_mem {lib : Openframe} {w : Worker} {tr : Trace}
    {result : Bool × Worker} (ran : RunTrace lib w tr result) {e : Event Call Answer}
    (member : e ∈ tr) (shared : isShared e.call = true) : ∃ s body looked result',
      LookupTrace lib s (targetOf lib body) [] looked result' ∧ e ∈ looked := by
  obtain ⟨front, message, back, rfl, opening, closing, shape⟩ := ran.message
  -- what comes before and after the message's own work asks nobody else
  have apart {call : Prop} (unshared : isShared e.call = false) : call := by
    rw [unshared] at shared
    cases shared
  rcases List.mem_append.mp member with before | member
  · exact apart (isShared_of_isOpening _ (opening e before))
  rcases List.mem_append.mp member with inside | after
  · rcases shape with rfl | ⟨s, body, result', processed⟩
    · cases inside
    cases processed with
    | incomplete | ackonly => cases inside
    | unregistered _ _ _ rows s' lookup =>
      exact ⟨s, body, _, _, lookupTrace_of_runs lookup, inside⟩
    | queued _ _ _ count rows s' lookup _ loop left numSent walks =>
      rcases List.mem_append.mp inside with looked | delivered
      · exact ⟨s, body, _, _, lookupTrace_of_runs lookup, looked⟩
      · exact apart (isShared_of_isDelivery _ (isDelivery_loop walks e delivered))
  · exact apart (isShared_of_isClosing _ (closing e after))

/-- Every put of a worker is an hour's entry for the query it has just made. -/
theorem Worker.RunTrace.put_split {lib : Openframe} {w : Worker} {front back : Trace}
    {result : Bool × Worker} {ns key value : Str} {expires : Int}
    {stored : Except MemcachedControllerException Unit}
    (ran : RunTrace lib w (front ++ ⟨.memcachedPut ns key value expires, stored⟩ :: back) result) :
    ns = lit "apnsregister" ∧ expires = 3600 ∧ ∃ callsign reply, key = lib.toUpper callsign ∧
      value = entryFor lib reply.rows ∧ ⟨.query callsign, reply⟩ ∈ front := by
  obtain ⟨s, body, looked, result', lookup, put⟩ :=
    ran.lookup_of_mem (List.mem_append_right _ (List.mem_cons_self ..)) rfl
  obtain ⟨rfl, rfl⟩ := lookup.put_mem put
  refine ⟨rfl, rfl, ?_⟩
  rcases ran.putsFollowQueries front _ key value _ stored back rfl with message | ⟨_, rest⟩
  · exact absurd message (by decide)
  · exact rest

/-! ### What memcached hands to a worker -/

variable {ι : Type} [DecidableEq ι]

/-- Workers over one memcached, with its clock, and one table. -/
def expiringWorkers (ι : Type) (lib : Openframe) :
    Machine ι Call Answer (Expiring ι) Unit Worker Bool :=
  Expiring.machine fun _ => Worker.run lib

/-- The entry `read` was handed: the log before it has the query `asked` and then the
`put` of what the query answered, less than an hour ago. The put itself may have been
reported failed; no later put for its key was reported stored. -/
structure FreshHit (lib : Openframe) (before : List (Entry ι Call Answer (Expiring ι) Unit))
    (asked put : Entry ι Call Answer (Expiring ι) Unit)
    (since : List (Entry ι Call Answer (Expiring ι) Unit))
    (read : Entry ι Call Answer (Expiring ι) Unit) (ns key payload : Str) : Prop where
  /-- The query came before the put and was of the same operation. -/
  made : asked ∈ before ∧ asked.id = put.id
  answered : ∃ callsign reply, asked.event = ⟨.query callsign, reply⟩ ∧ lib.toUpper callsign = key ∧
    payload = entryFor lib reply.rows ∧
      ∀ rows drained, reply = .stored rows drained → rows = asked.found.table callsign
  stored : ns = lit "apnsregister" ∧
    ∃ reply, put.event = ⟨.memcachedPut ns key payload 3600, reply⟩
  fresh : put.found.now ≤ read.found.now ∧ read.found.now < put.found.now + 3600
  last : ∀ later ∈ since,
    ¬ Expiring.Overwrites (MemcachedController.cacheKey ns key) later.event

section Reachable

variable {lib : Openframe} {now : Int} {table : Str → List ApnsRegister} {state : ι → Worker}
  {c : Config ι Call Answer (Expiring ι) Unit Worker Bool}

/-- What the workers' runs are without the dates. -/
theorem forgotten_reachable
    (reachable : (expiringWorkers ι lib).Reachable (Expiring.initial now table) state c) :
    (workerMachine ι lib).Reachable (Shared.initial table) state (c.map Expiring.forget) :=
  (Expiring.abstracts fun _ => Worker.run lib).reachable reachable

/-- The put of a worker comes after its query. -/
theorem asked_of_put
    (reachable : (expiringWorkers ι lib).Reachable (Expiring.initial now table) state c)
    {before since : List (Entry ι Call Answer (Expiring ι) Unit)}
    {put : Entry ι Call Answer (Expiring ι) Unit} (split : c.log = before ++ put :: since)
    {ns key value : Str} {expires : Int} {stored : Except MemcachedControllerException Unit}
    (event : put.event = ⟨.memcachedPut ns key value expires, stored⟩) :
    ns = lit "apnsregister" ∧ expires = 3600 ∧ ∃ asked ∈ before, asked.id = put.id ∧
      ∃ callsign reply, asked.event = ⟨.query callsign, reply⟩ ∧ lib.toUpper callsign = key ∧
        value = entryFor lib reply.rows := by
  have logged : put ∈ c.log := by simp [split]
  obtain ⟨w, rest, result, runs⟩ := reachable.runs_of_mem logged
  have ran := runs.post (run_post lib w)
  have one : own [put] put.id = [⟨.memcachedPut ns key value expires, stored⟩] := by
    rw [← event]
    exact own_self put.id put.op put.event put.found
  -- the operation's calls, up to the put and from it on
  have whole : own c.log put.id ++ rest =
      own before put.id ++
        ⟨.memcachedPut ns key value expires, stored⟩ :: (own since put.id ++ rest) := by
    rw [split, List.append_cons, own_append, own_append, one]
    simp only [List.append_assoc, List.cons_append, List.nil_append]
  rw [whole] at ran
  obtain ⟨register, hour, callsign, reply, upper, entry, asked⟩ := ran.put_split
  obtain ⟨asked, member, id, event'⟩ := (mem_own before put.id _).mp asked
  exact ⟨register, hour, asked, member, id, callsign, reply, event', upper.symm, entry⟩

/-- Everything that memcached hands to a worker is fresh. -/
theorem freshHit_of_reachable
    (reachable : (expiringWorkers ι lib).Reachable (Expiring.initial now table) state c)
    {front : List (Entry ι Call Answer (Expiring ι) Unit)}
    {read : Entry ι Call Answer (Expiring ι) Unit} (upTo : front ++ [read] <+: c.log)
    {ns key buf payload : Str}
    (event : read.event = ⟨.memcachedGet ns key buf, (.ok .success, payload)⟩) :
    ∃ before asked put since, front = before ++ put :: since ∧
      FreshHit lib before asked put since read ns key payload := by
  have dated := Expiring.dated_of_reachable reachable
  obtain ⟨after, whole⟩ := upTo
  obtain ⟨item, rfl, hit, before, put, since, rfl, last⟩ :=
    dated.handed front read ⟨after, whole⟩ ns key buf payload event
  obtain ⟨ns', key', expires, reply, putEvent, joined, deadline⟩ := last.stored
  have split : c.log = before ++ put :: (since ++ read :: after) := by simp [← whole]
  obtain ⟨rfl, rfl, asked, member, id, callsign, reply', askedEvent, upper, entry⟩ :=
    asked_of_put reachable split putEvent
  -- a worker reads register entries only, so the two keys are one
  obtain rfl : ns = lit "apnsregister" := by
    have logged : read ∈ c.log := by simp [split]
    obtain ⟨w, rest, result, runs⟩ := reachable.runs_of_mem logged
    have owned : (⟨.memcachedGet ns key buf, (.ok .success, item.value)⟩ : Event Call Answer) ∈
        own c.log read.id ++ rest :=
      List.mem_append_left _ ((mem_own c.log read.id _).mpr ⟨read, logged, rfl, event⟩)
    obtain ⟨_, _, _, _, lookup, got⟩ := (runs.post (run_post lib w)).lookup_of_mem owned rfl
    exact (lookup.get_mem got).1
  obtain rfl : key' = key := cacheKey_injective _ _ _ joined
  refine ⟨before, asked, put, since, rfl, ⟨member, id⟩, ?_, ⟨rfl, reply, putEvent⟩, ?_, last.last⟩
  · refine ⟨callsign, reply', askedEvent, upper, entry, ?_⟩
    have queried := (Shared.explained_of_reachable (forgotten_reachable reachable)).queried
    rintro rows drained rfl
    exact queried (asked.map Expiring.forget)
      (List.mem_map_of_mem (by simp [split, member])) callsign rows drained askedEvent
  · have hour : item.deadline = some (put.found.now + 3600) :=
      deadline.trans (by simp [Memcached.deadline])
    exact ⟨dated.le_of_split split, hit.2 _ hour⟩

end Reachable
end ApnsPusher
