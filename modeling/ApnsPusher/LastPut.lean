import ApnsPusher.Expiry
import ApnsPusher.Provenance
import ApnsPusher.Store.Breaker
import ApnsPusher.Store.Codec

/-!
# What the caches hand back

Any number of threads use the two caches of the store through one memcached, with its
clock. What a get of either cache reports is what a put under its key stored, by an
operation on the same cache; the entry's date has not come, and no later put under the
key was reported done.
-/
namespace ApnsPusher

open Effects Store

/-- What the operation reads: the cache and the key. -/
inductive StoreOp.Gets (lib : Openframe) : StoreOp → CacheKind → Str → Prop
  | register (callsign ret : Str) :
      Gets lib (.getApnsRegisterFromMemcached callsign ret) .register (lib.toUpper callsign)
  | message (hash ret : Str) : Gets lib (.getMessageFromMemcached hash ret) .message hash

/-- What the operation may write: the cache, the key, the value and its expiration time. -/
inductive StoreOp.Puts (lib : Openframe) : StoreOp → CacheKind → Str → Str → Int → Prop
  | lookup (callsign : Str) (ret rows : List ApnsRegister) :
      Puts lib (.getApnsRegisterByCallsign callsign ret) .register (lib.toUpper callsign)
        (entryFor lib rows) 3600
  | register (callsign buf : Str) (expire : Int) :
      Puts lib (.setApnsRegisterInMemcached callsign buf expire) .register (lib.toUpper callsign) buf
        expire
  | message (hash buf : Str) (expire : Int) :
      Puts lib (.setMessageInMemcached hash buf expire) .message hash buf expire

theorem CacheKind.cacheKey_inj {kind kind' : CacheKind} {key key' : Str}
    (same : MemcachedController.cacheKey kind.ns key = MemcachedController.cacheKey kind'.ns key') :
    kind = kind' ∧ key = key' := by
  cases kind with
  | message =>
    cases kind' with
    | message => exact ⟨rfl, cacheKey_injective _ _ _ same⟩
    | register => exact absurd same (cacheKey_pushmessage_ne_apnsregister key key')
  | register =>
    cases kind' with
    | message => exact absurd same.symm (cacheKey_pushmessage_ne_apnsregister key' key)
    | register => exact ⟨rfl, cacheKey_injective _ _ _ same⟩

/-! ### The operations -/

theorem StoreOp.puts_of_mem {lib : Openframe} {op : StoreOp} {s s' : Store} {tr : Trace}
    {out : StoreOut} (runs : Prog.Runs (op.program lib s) tr (out, s')) {ns key value : Str}
    {expires : Int} {stored : Except MemcachedControllerException Unit}
    (put : (⟨.memcachedPut ns key value expires, stored⟩ : Event Call Answer) ∈ tr) :
    ∃ kind : CacheKind, ns = kind.ns ∧ op.Puts lib kind key value expires := by
  cases StoreOp.ran_of_runs runs with
  | @lookup callsign ret _ _ trace =>
    cases trace with
    | cachedNotFound _ _ _ get _ => simpa using get.calls _ put
    | cachedFound _ _ _ _ get _ => simpa using get.calls _ put
    | asked _ _ _ _ reply _ _ _ get _ set =>
      rcases List.mem_append.mp put with member | member
      · simpa using get.calls _ member
      · rcases List.mem_cons.mp member with equal | member
        · cases equal
        -- a lookup writes what it was told into the register cache
        · obtain ⟨rfl, rfl, rfl, rfl⟩ := set.put_mem member
          exact ⟨.register, rfl, .lookup callsign ret reply.rows⟩
  | getRegister trace | getMessage trace => simpa using trace.calls _ put
  | setRegister trace =>
    obtain ⟨rfl, rfl, rfl, rfl⟩ := trace.put_mem put
    exact ⟨.register, rfl, .register ..⟩
  | setMessage trace =>
    obtain ⟨rfl, rfl, rfl, rfl⟩ := trace.put_mem put
    exact ⟨.message, rfl, .message ..⟩

/-- The run of a get that reports a value. -/
theorem StoreOp.Gets.trace {lib : Openframe} {op : StoreOp} {kind : CacheKind} {key : Str}
    (gets : op.Gets lib kind key) {s s' : Store} {tr : Trace} {value : Str}
    (runs : Prog.Runs (op.program lib s) tr (.get true value, s')) :
    ∃ ret, GetTrace kind.on kind.ns key s ret tr ((true, value), s') := by
  cases gets with
  | register callsign ret | message hash ret =>
    obtain ⟨⟨⟨ok, value'⟩, store⟩, front, back, rfl, get, rfl, same⟩ :=
      (Prog.runs_bind _ _ _ _).mp runs
    simp only [Prod.mk.injEq, StoreOut.get.injEq] at same
    obtain ⟨⟨rfl, rfl⟩, rfl⟩ := same
    rw [List.append_nil]
    exact ⟨ret, get.post (getFromMemcached_post _ _ _ _ _)⟩

/-! ### Any number of threads -/

variable {ι : Type} [DecidableEq ι]

/-- Threads that use the store's operations over one memcached, with its clock, and one
table. -/
def expiringStores (ι : Type) (lib : Openframe) :
    Machine ι Call Answer (Expiring ι) StoreOp Store StoreOut :=
  Expiring.machine (StoreOp.program lib)

/-- `put` stored what `read` was handed: for the same key of the same cache, with its
date still to come, and no later put under the key reported done. -/
structure LastPut (lib : Openframe) (kind : CacheKind) (key value : Str)
    (put : Entry ι Call Answer (Expiring ι) StoreOp)
    (since : List (Entry ι Call Answer (Expiring ι) StoreOp))
    (read : Entry ι Call Answer (Expiring ι) StoreOp) : Prop where
  handed : read.event = ⟨.memcachedGet kind.ns key [], (.ok .success, value)⟩
  stored : ∃ expires reply, put.op.Puts lib kind key value expires ∧
    put.event = ⟨.memcachedPut kind.ns key value expires, reply⟩ ∧
    ∀ date, Memcached.deadline put.found.now expires = some date → read.found.now < date
  earlier : put.found.now ≤ read.found.now
  last : ∀ later ∈ since,
    ¬ Expiring.Overwrites (MemcachedController.cacheKey kind.ns key) later.event

section Reachable

variable {lib : Openframe} {now : Int} {table : Str → List ApnsRegister} {state : ι → Store}
  {c : Config ι Call Answer (Expiring ι) StoreOp Store StoreOut}

theorem lastPut_of_handed
    (reachable : (expiringStores ι lib).Reachable (Expiring.initial now table) state c)
    {front : List (Entry ι Call Answer (Expiring ι) StoreOp)}
    {read : Entry ι Call Answer (Expiring ι) StoreOp} (upTo : front ++ [read] <+: c.log)
    {kind : CacheKind} {key value : Str}
    (event : read.event = ⟨.memcachedGet kind.ns key [], (.ok .success, value)⟩) :
    ∃ before put since, front = before ++ put :: since ∧
      LastPut lib kind key value put since read := by
  have dated := Expiring.dated_of_reachable reachable
  obtain ⟨item, rfl, hit, before, put, since, rfl, last⟩ :=
    dated.handed front read upTo kind.ns key [] value event
  obtain ⟨after, whole⟩ := upTo
  have split : c.log = before ++ put :: (since ++ read :: after) := by simp [← whole]
  obtain ⟨ns', key', expires, reply, putEvent, joined, deadline⟩ := last.stored
  -- the put is one of an operation, so its namespace is that of a cache
  obtain ⟨kind', rfl, puts⟩ : ∃ kind' : CacheKind, ns' = kind'.ns ∧
      put.op.Puts lib kind' key' item.value expires := by
    have logged : put ∈ c.log := by simp [split]
    obtain ⟨s, rest, ⟨out, s'⟩, runs⟩ := reachable.runs_of_mem logged
    exact StoreOp.puts_of_mem runs
      (List.mem_append_left _ ((mem_own c.log put.id _).mpr ⟨put, logged, rfl, putEvent⟩))
  obtain ⟨rfl, rfl⟩ := CacheKind.cacheKey_inj joined
  exact ⟨before, put, since, rfl, event,
    ⟨expires, reply, puts, putEvent, fun date comes => hit.2 date (deadline.trans comes)⟩,
    dated.le_of_split split, last.last⟩

end Reachable

/-- In every run, a get that is about to report a value was handed it by memcached, which
has it from a put under the key whose date has not come, with no later put under the key
reported done; or the controller raised, the result local held the success code all the
same, and the value is blank. -/
theorem get_lastPut (lib : Openframe) (now : Int) (table : Str → List ApnsRegister)
    (state : ι → Store) (c : Config ι Call Answer (Expiring ι) StoreOp Store StoreOut)
    (reachable : (expiringStores ι lib).Reachable (Expiring.initial now table) state c)
    (i : ι) (op : StoreOp) (kind : CacheKind) (key : Str) (gets : op.Gets lib kind key) (value : Str)
    (store : Store) (returning : (c.threads i).current = some (op, .ret (.get true value, store))) :
    (∃ before put since read after, c.log = before ++ put :: since ++ read :: after ∧
      read.id = (i, (c.threads i).finished) ∧ LastPut lib kind key value put since read) ∨
    value = [] ∧ (∃ ex, ⟨.memcachedGet kind.ns key [], (.error ex, [])⟩ ∈
      own c.log (i, (c.threads i).finished)) ∧
      ⟨.indeterminate, .success⟩ ∈ own c.log (i, (c.threads i).finished) := by
  have runs := (reachable.traced.running i _ _ returning).runs
    ((Prog.runs_ret _ _ _).mpr ⟨rfl, rfl⟩)
  rw [List.append_nil] at runs
  obtain ⟨ret, get⟩ := gets.trace runs
  rcases get.source with member | ⟨ex, member, garbage⟩
  · obtain ⟨read, logged, id, event⟩ := (mem_own c.log _ _).mp member
    obtain ⟨front, after, whole⟩ := List.append_of_mem logged
    have upTo : front ++ [read] <+: c.log := ⟨after, by simp [whole]⟩
    obtain ⟨before, put, since, rfl, last⟩ := lastPut_of_handed reachable upTo event
    exact Or.inl ⟨before, put, since, read, after, whole, id, last⟩
  · obtain ⟨read, logged, _, event⟩ := (mem_own c.log _ _).mp member
    have explained := Shared.explained_of_reachable
      ((Expiring.abstracts fun op => StoreOp.program lib op).reachable reachable)
    -- the buffer that a raise leaves alone
    obtain rfl : value = [] := explained.untouched (read.map Expiring.forget)
      (List.mem_map_of_mem logged) _ _ _ _ _ event
    exact Or.inr ⟨rfl, ⟨ex, member⟩, garbage⟩

/-! ### One thread sets a message for a minute, another gets it -/

def setMessage : StoreOp := .setMessageInMemcached (lit "5d41") (lit "sent") 60

def getMessage : StoreOp := .getMessageFromMemcached (lit "5d41") []

def setTrace : Trace :=
  [⟨.time, (1000 : Int)⟩, ⟨.memcachedPut (lit "pushmessage") (lit "5d41") (lit "sent") 60, .ok ()⟩]

def getTrace : Trace :=
  [⟨.time, (1000 : Int)⟩,
    ⟨.memcachedGet (lit "pushmessage") (lit "5d41") [], (.ok .success, lit "sent")⟩]

theorem get_lastPut_setMessage : ∃ c : Config (Fin 2) Call Answer (Expiring (Fin 2)) StoreOp Store
    StoreOut, (expiringStores (Fin 2) .textual).Reachable (Expiring.initial 1000 fun _ => [])
      (fun _ => .blank) c ∧
    ((∃ before put since read after, c.log = before ++ put :: since ++ read :: after ∧
      read.id = (1, (c.threads 1).finished) ∧
      LastPut .textual .message (lit "5d41") (lit "sent") put since read) ∨
    lit "sent" = [] ∧ (∃ ex, ⟨.memcachedGet (CacheKind.ns .message) (lit "5d41") [], (.error ex, [])⟩ ∈
      own c.log (1, (c.threads 1).finished)) ∧
      ⟨.indeterminate, .success⟩ ∈ own c.log (1, (c.threads 1).finished)) := by
  have fits : MemcachedController.checkKey
      (MemcachedController.cacheKey (lit "pushmessage") (lit "5d41")) = .ok () := by decide
  let stored : Expiring (Fin 2) := (Expiring.initial 1000 fun _ => []).store
    (MemcachedController.cacheKey (lit "pushmessage") (lit "5d41")) (lit "sent") 60 (0, 0)
  -- the first thread stores the value, and the second then reads it
  obtain ⟨mid, reached, shared, thread⟩ :
      ∃ mid : Config (Fin 2) Call Answer (Expiring (Fin 2)) StoreOp Store StoreOut,
        (expiringStores (Fin 2) .textual).Reachable (Expiring.initial 1000 fun _ => [])
          (fun _ => .blank) mid ∧
        mid.shared = stored ∧ mid.threads 1 = ⟨.blank, 0, none⟩ := by
    obtain ⟨_, _, _, steps⟩ := (expiringStores (Fin 2) .textual).run_alone 0 setMessage setTrace
      (.set true) _ (.initial (Expiring.initial 1000 fun _ => []) fun _ => .blank) rfl
      (Prog.play_runs (readBackScript [] (.ok .notFound, [])).answers 0 _) stored
      ⟨_, rfl, _, Expiring.serves_stored _ _ _ _ _ _ fits, rfl⟩
    exact ⟨_, steps, rfl, rfl⟩
  have hit : mid.shared.Hit (MemcachedController.cacheKey (lit "pushmessage") (lit "5d41"))
      ⟨lit "sent", (0, 0), some 1060⟩ := by
    rw [shared]
    refine ⟨Expiring.store_items_self .., ?_⟩
    rintro _ ⟨⟩
    decide
  obtain ⟨_, _, _, steps⟩ := (expiringStores (Fin 2) .textual).run_to_return 1 getMessage getTrace
    (.get true (lit "sent")) _ mid (by rw [thread])
    (by
      rw [thread]
      exact Prog.play_runs (readBackScript [] (.ok .success, lit "sent")).answers 0 _)
    mid.shared ⟨_, rfl, _, Expiring.serves_hit _ _ _ _ _ _ fits hit, rfl⟩
  refine ⟨_, reached.trans steps, ?_⟩
  exact get_lastPut .textual 1000 (fun _ => []) (fun _ => .blank) _ (reached.trans steps) 1 getMessage
    .message (lit "5d41") (.message ..) (lit "sent") ((blank.onMessage .attempt).onMessage .hit) (by simp)

end ApnsPusher
