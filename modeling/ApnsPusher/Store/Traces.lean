import ApnsPusher.Store

/-!
# What the store's operations can do

One inductive per memcached operation and one for the lookup: their
constructors are all the ways an operation can run, with its trace, its result
and the fields it leaves. Everything later about the store is read off these.
-/
namespace ApnsPusher.Store

open Effects Text

theorem readRows_eq_some_iff (st : List Str) (rows : List ApnsRegister) :
    readRows st = some rows ↔ st = rows.flatMap fun ar => [ar.id, ar.deviceToken, ar.environment] := by
  constructor
  · intro grouped
    obtain ⟨groups, threes, rfl⟩ := Option.map_eq_some_iff.mp grouped
    rw [(inThrees_eq_some_iff st groups).mp threes, flattenThrees, List.flatMap_map]
  · rintro rfl
    have threes : inThrees (rows.flatMap fun ar => [ar.id, ar.deviceToken, ar.environment]) =
        some (rows.map fun ar => (ar.id, ar.deviceToken, ar.environment)) := by
      rw [inThrees_eq_some_iff, flattenThrees, List.flatMap_map]
    rw [readRows, threes, Option.map_some, List.map_map]
    exact congrArg some (List.map_id rows)

theorem readCached_ne_outOfRange (lib : Openframe) (buf : Str) :
    readCached lib buf ≠ .outOfRange := by
  intro out
  unfold readCached at out
  dsimp only at out
  split at out
  · split at out
    · cases out
    · split at out
      · split at out
        next size =>
          have grouped := (inThrees_isSome_iff _).mpr size.2
          cases rows : readRows (lib.stringToken comma (lib.get (lib.parse buf) (lit "bdy"))) with
          | none =>
            rw [readRows, Option.map_eq_none_iff] at rows
            rw [rows] at grouped
            cases grouped
          | some rows' =>
            rw [rows] at out
            cases out
        · cases out
      · cases out
  · cases out

theorem readCached_found_ne_nil (lib : Openframe) (buf : Str) (rows : List ApnsRegister)
    (found : readCached lib buf = .found rows) : rows ≠ [] := by
  rintro rfl
  unfold readCached at found
  dsimp only at found
  split at found
  · split at found
    · cases found
    · split at found
      · split at found
        next size =>
          split at found
          next rows' grouped =>
            cases found
            rw [(readRows_eq_some_iff _ _).mp grouped] at size
            exact size.1 rfl
          · cases found
        · cases found
      · cases found
  · cases found

/-- What follows the `try` block of a get: the test on `mcr`. -/
def concludeGet (on : Store → (MemcacheStats → MemcacheStats) → Store) (ret : Str)
    (mcr : MemcachedReturnEnum) (buf : Str) (s : Store) : (Bool × Str) × Store :=
  if mcr ≠ .success then ((false, ret), on s .miss) else ((true, buf), on s .hit)

inductive GetTrace (on : Store → (MemcacheStats → MemcacheStats) → Store) (ns key : Str)
    (s : Store) (ret : Str) : Trace → (Bool × Str) × Store → Prop
  | skipped (now : Int) (cooling : ¬ s.lastCacheFailAt < now - 60) :
      GetTrace on ns key s ret [⟨.time, now⟩] ((false, ret), s)
  | answered (now : Int) (mcr : MemcachedReturnEnum) (buf : Str)
      (ready : s.lastCacheFailAt < now - 60) :
      GetTrace on ns key s ret [⟨.time, now⟩, ⟨.memcachedGet ns key [], (.ok mcr, buf)⟩]
        (concludeGet on ret mcr buf (on s .attempt))
  | failed (now : Int) (ex : MemcachedControllerException) (buf : Str) (failedAt : Int)
      (garbage : MemcachedReturnEnum) (ready : s.lastCacheFailAt < now - 60) :
      GetTrace on ns key s ret
        [⟨.time, now⟩, ⟨.memcachedGet ns key [], (.error ex, buf)⟩, ⟨.time, failedAt⟩,
          ⟨.indeterminate, garbage⟩]
        (concludeGet on ret garbage buf { on s .attempt with lastCacheFailAt := failedAt })

inductive PutTrace (on : Store → (MemcacheStats → MemcacheStats) → Store) (ns key : Str)
    (s : Store) (buf : Str) (expire : Int) : Trace → Bool × Store → Prop
  | skipped (now : Int) (cooling : ¬ s.lastCacheFailAt < now - 60) :
      PutTrace on ns key s buf expire [⟨.time, now⟩] (false, s)
  | stored (now : Int) (ready : s.lastCacheFailAt < now - 60) :
      PutTrace on ns key s buf expire
        [⟨.time, now⟩, ⟨.memcachedPut ns key buf expire, .ok ()⟩] (true, on s .store)
  | failed (now : Int) (ex : MemcachedControllerException) (failedAt : Int)
      (ready : s.lastCacheFailAt < now - 60) :
      PutTrace on ns key s buf expire
        [⟨.time, now⟩, ⟨.memcachedPut ns key buf expire, .error ex⟩, ⟨.time, failedAt⟩]
        (false, { s with lastCacheFailAt := failedAt })

theorem isMemcachedOk_post (s : Store) : Prog.Post s.isMemcachedOk fun tr ok =>
    ∃ now : Int, tr = [⟨.time, now⟩] ∧ ok = decide (s.lastCacheFailAt < now - 60) := by
  intro now
  exact ⟨now, rfl, rfl⟩

theorem getFromMemcached_post (on : Store → (MemcacheStats → MemcacheStats) → Store)
    (ns key : Str) (s : Store) (ret : Str) :
    Prog.Post (getFromMemcached on ns key s ret) (GetTrace on ns key s ret) := by
  unfold getFromMemcached
  rw [Prog.post_bind]
  apply Prog.post_mono _ (isMemcachedOk_post s)
  rintro _ _ ⟨now, rfl, rfl⟩
  by_cases ready : s.lastCacheFailAt < now - 60
  · simp only [ready, decide_true, Bool.not_true, Bool.false_eq_true, if_false, tryGet,
      Prog.perform_bind, Prog.call_bind, Prog.post_call]
    rintro ⟨reply, buf⟩
    cases reply with
    | ok mcr =>
      have shape : GetTrace on ns key s ret _ _ := .answered now mcr buf ready
      by_cases success : mcr = .success
      · simpa [concludeGet, success] using shape
      · simpa [concludeGet, success] using shape
    | error ex =>
      simp only [time, indeterminate, Prog.perform_bind, Prog.call_bind, Prog.post_call]
      intro failedAt garbage
      have shape : GetTrace on ns key s ret _ _ := .failed now ex buf failedAt garbage ready
      by_cases success : garbage = .success
      · simpa [concludeGet, success] using shape
      · simpa [concludeGet, success] using shape
  · simpa [ready] using GetTrace.skipped now ready

theorem setInMemcached_post (on : Store → (MemcacheStats → MemcacheStats) → Store)
    (ns key : Str) (s : Store) (buf : Str) (expire : Int) :
    Prog.Post (setInMemcached on ns key s buf expire) (PutTrace on ns key s buf expire) := by
  unfold setInMemcached
  rw [Prog.post_bind]
  apply Prog.post_mono _ (isMemcachedOk_post s)
  rintro _ _ ⟨now, rfl, rfl⟩
  by_cases ready : s.lastCacheFailAt < now - 60
  · simp only [ready, decide_true, Bool.not_true, Bool.false_eq_true, if_false,
      Prog.perform_bind, Prog.post_call]
    intro reply
    cases reply with
    | ok _ => simpa using PutTrace.stored now ready
    | error ex =>
      simp only [time, Prog.perform_bind, Prog.post_call]
      intro failedAt
      simpa using PutTrace.failed now ex failedAt ready
  · simpa [ready] using PutTrace.skipped now ready

end ApnsPusher.Store

namespace ApnsPusher

open Effects

/-- The rows `res` holds after the query, whatever happened. -/
def QueryReply.rows : QueryReply → List ApnsRegister
  | .raised _ => []
  | .stored rows _ => rows

namespace Store

theorem GetTrace.calls {on : Store → (MemcacheStats → MemcacheStats) → Store} {ns key ret : Str}
    {s : Store} {tr : Trace} {result : (Bool × Str) × Store}
    (get : GetTrace on ns key s ret tr result) (e : Event Call Answer) (member : e ∈ tr) :
    e.call = .time ∨ e.call = .indeterminate ∨ e.call = .memcachedGet ns key [] := by
  cases get with
  | skipped | answered | failed =>
    simp only [List.mem_cons, List.not_mem_nil, or_false] at member
    rcases member with rfl | rfl | rfl | rfl <;> simp

theorem PutTrace.calls {on : Store → (MemcacheStats → MemcacheStats) → Store} {ns key buf : Str}
    {s : Store} {expire : Int} {tr : Trace} {result : Bool × Store}
    (set : PutTrace on ns key s buf expire tr result) (e : Event Call Answer) (member : e ∈ tr) :
    e.call = .time ∨ e.call = .memcachedPut ns key buf expire := by
  cases set with
  | skipped | stored | failed =>
    simp only [List.mem_cons, List.not_mem_nil, or_false] at member
    rcases member with rfl | rfl | rfl <;> simp

/-- The only put of a set is the one it was called for. -/
theorem PutTrace.put_mem {on : Store → (MemcacheStats → MemcacheStats) → Store} {ns key buf : Str}
    {s : Store} {expire : Int} {tr : Trace} {result : Bool × Store}
    (set : PutTrace on ns key s buf expire tr result) {ns' key' value : Str} {expires : Int}
    {stored : Except MemcachedControllerException Unit}
    (member : (⟨.memcachedPut ns' key' value expires, stored⟩ : Event Call Answer) ∈ tr) :
    ns' = ns ∧ key' = key ∧ value = buf ∧ expires = expire := by
  have call := set.calls _ member
  simpa only [reduceCtorEq, Call.memcachedPut.injEq, false_or] using call

/-- A value that memcached handed over is what the get returns. -/
theorem GetTrace.handedOver {on : Store → (MemcacheStats → MemcacheStats) → Store}
    {ns key ret : Str} {s : Store} {tr : Trace} {result : (Bool × Str) × Store}
    (get : GetTrace on ns key s ret tr result) {ns' key' buf' value : Str}
    (member : (⟨.memcachedGet ns' key' buf', (.ok .success, value)⟩ : Event Call Answer) ∈ tr) :
    result.1 = (true, value) := by
  cases get with
  | skipped now cooling => simp at member
  | answered now mcr buf ready =>
    simp only [List.mem_cons, List.not_mem_nil, or_false, Event.mk.injEq, reduceCtorEq, false_and,
      false_or, Call.memcachedGet.injEq] at member
    obtain ⟨⟨rfl, rfl, rfl⟩, same⟩ := member
    cases same
    rfl
  | failed now ex buf failedAt garbage ready =>
    simp only [List.mem_cons, List.not_mem_nil, or_false, Event.mk.injEq, reduceCtorEq, false_and,
      false_or, Call.memcachedGet.injEq] at member
    obtain ⟨⟨rfl, rfl, rfl⟩, same⟩ := member
    cases same

/-- A get that reports a value was handed it, or it raised and the result local
happened to hold the success code. -/
theorem GetTrace.source {on : Store → (MemcacheStats → MemcacheStats) → Store}
    {ns key ret buf : Str} {s s' : Store} {tr : Trace}
    (get : GetTrace on ns key s ret tr ((true, buf), s')) :
    (⟨.memcachedGet ns key [], (.ok .success, buf)⟩ : Event Call Answer) ∈ tr ∨
    ∃ ex, (⟨.memcachedGet ns key [], (.error ex, buf)⟩ : Event Call Answer) ∈ tr ∧
      (⟨.indeterminate, .success⟩ : Event Call Answer) ∈ tr := by
  generalize out : ((true, buf), s') = result at get
  cases get with
  | skipped now cooling => simp at out
  | answered now mcr buf' ready =>
    unfold concludeGet at out
    split at out
    · simp at out
    next success =>
      obtain rfl : mcr = .success := not_not.mp success
      obtain ⟨rfl, _⟩ : buf = buf' ∧ _ := by simpa using out
      exact Or.inl (by simp)
  | failed now ex buf' failedAt garbage ready =>
    unfold concludeGet at out
    split at out
    · simp at out
    next success =>
      -- no reply set the local, so its old value passed the test
      obtain rfl : garbage = .success := not_not.mp success
      obtain ⟨rfl, _⟩ : buf = buf' ∧ _ := by simpa using out
      exact Or.inr ⟨ex, by simp, by simp⟩

/-- What the lookup writes for the rows of its query. -/
def entryFor (lib : Openframe) (rows : List ApnsRegister) : Str :=
  if rows = [] then notFoundEntry lib else foundEntry lib rows

def countFor (rows ret : List ApnsRegister) : Nat :=
  if rows = [] then 0 else ret.length

@[simp] theorem countFor_self (rows : List ApnsRegister) : countFor rows rows = rows.length := by
  unfold countFor
  split
  next none => rw [none, List.length_nil]
  · rfl

def sqlCounted (s : Store) (rows : List ApnsRegister) : Store :=
  (s.onSql .attempt).onSql (if rows = [] then .miss else .hit)

/-- A payload that settles a lookup without SQL, and the rows it settles it with. -/
def Settles (lib : Openframe) (buf : Str) (rows : List ApnsRegister) : Prop :=
  (readCached lib buf = .notFound ∧ rows = []) ∨ readCached lib buf = .found rows

theorem Settles.usable {lib : Openframe} {buf : Str} {rows : List ApnsRegister}
    (settles : Settles lib buf rows) : readCached lib buf ≠ .unusable := by
  rcases settles with ⟨reads, _⟩ | reads <;> simp [reads]

/-- The runs of a lookup: the cache settles it, or it asks SQL once and then
writes what it was told. -/
inductive LookupTrace (lib : Openframe) (s : Store) (callsign : Str) (ret : List ApnsRegister) :
    Trace → (Nat × List ApnsRegister) × Store → Prop
  | cachedNotFound (got : Trace) (buf : Str) (s' : Store)
      (get : GetTrace onRegister (lit "apnsregister") (lib.toUpper callsign) s [] got
        ((true, buf), s'))
      (reads : readCached lib buf = .notFound) :
      LookupTrace lib s callsign ret got ((0, ret), s')
  | cachedFound (got : Trace) (buf : Str) (s' : Store) (rows : List ApnsRegister)
      (get : GetTrace onRegister (lit "apnsregister") (lib.toUpper callsign) s [] got
        ((true, buf), s'))
      (reads : readCached lib buf = .found rows) :
      LookupTrace lib s callsign ret got (((ret ++ rows).length, ret ++ rows), s')
  | asked (got : Trace) (ok : Bool) (buf : Str) (s' : Store) (reply : QueryReply) (put : Trace)
      (wrote : Bool) (s'' : Store)
      (get : GetTrace onRegister (lit "apnsregister") (lib.toUpper callsign) s [] got
        ((ok, buf), s'))
      (reads : ok = true → readCached lib buf = .unusable)
      (set : PutTrace onRegister (lit "apnsregister") (lib.toUpper callsign)
        (s'.sqlCounted reply.rows) (entryFor lib reply.rows) 3600 put (wrote, s'')) :
      LookupTrace lib s callsign ret (got ++ ⟨.query callsign, reply⟩ :: put)
        ((countFor reply.rows (ret ++ reply.rows), ret ++ reply.rows), s'')

/-- The only query of a lookup is for its own callsign. -/
theorem LookupTrace.query_mem {lib : Openframe} {s : Store} {callsign callsign' : Str}
    {ret : List ApnsRegister} {tr : Trace} {result : (Nat × List ApnsRegister) × Store}
    (lookup : LookupTrace lib s callsign ret tr result) {reply : QueryReply}
    (asked : (⟨.query callsign', reply⟩ : Event Call Answer) ∈ tr) : callsign' = callsign := by
  cases lookup with
  | cachedNotFound _ _ _ get _ => simpa using get.calls _ asked
  | cachedFound _ _ _ _ get _ => simpa using get.calls _ asked
  | asked _ _ _ _ _ _ _ _ get _ set =>
    rcases List.mem_append.mp asked with member | member
    · simpa using get.calls _ member
    · rcases List.mem_cons.mp member with equal | member
      · cases equal
        rfl
      · simpa using set.calls _ member

/-- A lookup reads the clock, asks memcached and SQL, and does nothing else. -/
def isLookup : Call → Bool
  | .time | .indeterminate | .memcachedGet .. | .memcachedPut .. | .query _ => true
  | _ => false

theorem LookupTrace.calls {lib : Openframe} {s : Store} {callsign : Str} {ret : List ApnsRegister}
    {tr : Trace} {result : (Nat × List ApnsRegister) × Store}
    (lookup : LookupTrace lib s callsign ret tr result) (e : Event Call Answer) (member : e ∈ tr) :
    isLookup e.call = true := by
  have ofGet {s : Store} {got : Trace} {out : (Bool × Str) × Store}
      (get : GetTrace onRegister (lit "apnsregister") (lib.toUpper callsign) s [] got out)
      (member : e ∈ got) : isLookup e.call = true := by
    rcases get.calls e member with call | call | call <;> rw [call] <;> rfl
  cases lookup with
  | cachedNotFound _ _ _ get _ => exact ofGet get member
  | cachedFound _ _ _ _ get _ => exact ofGet get member
  | asked _ _ _ _ _ _ _ _ get _ set =>
    rcases List.mem_append.mp member with member | member
    · exact ofGet get member
    · rcases List.mem_cons.mp member with rfl | member
      · rfl
      · rcases set.calls e member with call | call <;> rw [call] <;> rfl

/-- A lookup that starts with an empty list counts the rows it returns. -/
theorem LookupTrace.count {lib : Openframe} {s s' : Store} {callsign : Str} {tr : Trace}
    {count : Nat} {rows : List ApnsRegister}
    (lookup : LookupTrace lib s callsign [] tr ((count, rows), s')) : count = rows.length := by
  cases lookup with
  | cachedNotFound => rfl
  | cachedFound => rfl
  | asked _ _ _ _ reply => exact countFor_self reply.rows

theorem askSql_post (lib : Openframe) (s : Store) (callsign : Str) (ret : List ApnsRegister) :
    Prog.Post (askSql lib s callsign ret) fun tr result =>
      ∃ reply put wrote s', tr = ⟨.query callsign, reply⟩ :: put ∧
        PutTrace onRegister (lit "apnsregister") (lib.toUpper callsign)
          (s.sqlCounted reply.rows) (entryFor lib reply.rows) 3600 put (wrote, s') ∧
        result = ((countFor reply.rows (ret ++ reply.rows), ret ++ reply.rows), s') := by
  simp only [askSql, DbiApns.getApnsRegisterByCallsign, Prog.perform_bind, Prog.call_bind,
    Prog.post_call]
  intro reply
  -- hit and miss differ in the counters and the entry only, both functions of the rows
  have shape (rows : List ApnsRegister) (same : reply.rows = rows) :
      Prog.Post (setApnsRegisterInMemcached lib (s.sqlCounted reply.rows) callsign
          (entryFor lib reply.rows) 3600 >>= fun wrote =>
          .ret ((countFor rows (ret ++ rows), ret ++ rows), wrote.2)) fun tr result =>
        ∃ reply' put wrote s', (⟨.query callsign, reply⟩ :: tr : Trace) = ⟨.query callsign, reply'⟩ :: put ∧
          PutTrace onRegister (lit "apnsregister") (lib.toUpper callsign)
            (s.sqlCounted reply'.rows) (entryFor lib reply'.rows) 3600 put (wrote, s') ∧
          result = ((countFor reply'.rows (ret ++ reply'.rows), ret ++ reply'.rows), s') := by
    subst same
    rw [Prog.post_bind]
    apply Prog.post_mono _ (setInMemcached_post _ _ _ _ _ _)
    rintro put ⟨wrote, s'⟩ set
    exact ⟨reply, put, wrote, s', by rw [List.append_nil], set, rfl⟩
  cases reply with
  | raised ex => simpa [countFor, entryFor, sqlCounted, QueryReply.rows] using shape [] rfl
  | stored rows drained =>
    cases rows with
    | nil => simpa [countFor, entryFor, sqlCounted, QueryReply.rows] using shape [] rfl
    | cons row rest => simpa [countFor, entryFor, sqlCounted, QueryReply.rows] using shape (row :: rest) rfl

theorem getApnsRegisterByCallsign_post (lib : Openframe) (s : Store) (callsign : Str)
    (ret : List ApnsRegister) :
    Prog.Post (getApnsRegisterByCallsign lib s callsign ret) (LookupTrace lib s callsign ret) := by
  unfold getApnsRegisterByCallsign
  rw [Prog.post_bind]
  apply Prog.post_mono _ (getFromMemcached_post _ _ _ _ _)
  rintro got ⟨⟨ok, buf⟩, s'⟩ get
  -- both ways past the cache: no payload, or one that is neither entry
  have sql (reads : ok = true → readCached lib buf = .unusable) :
      Prog.Post (askSql lib s' callsign ret) fun tr => LookupTrace lib s callsign ret (got ++ tr) := by
    apply Prog.post_mono _ (askSql_post lib s' callsign ret)
    rintro _ _ ⟨reply, put, wrote, s'', rfl, set, rfl⟩
    exact .asked got ok buf s' reply put wrote s'' get reads set
  cases ok with
  | false => exact sql (by simp)
  | true =>
    simp only [if_true]
    split
    next reads => simpa using LookupTrace.cachedNotFound got buf s' get reads
    next rows reads => simpa using LookupTrace.cachedFound got buf s' rows get reads
    next reads => exact absurd reads (readCached_ne_outOfRange lib buf)
    next reads => exact sql fun _ => reads

theorem lookupTrace_of_runs {lib : Openframe} {s : Store} {callsign : Str}
    {ret : List ApnsRegister} {tr : Trace} {result : (Nat × List ApnsRegister) × Store}
    (runs : Prog.Runs (getApnsRegisterByCallsign lib s callsign ret) tr result) :
    LookupTrace lib s callsign ret tr result :=
  runs.post (getApnsRegisterByCallsign_post lib s callsign ret)

end Store
/-- What one operation can do, in terms of the traces of its parts. -/
inductive StoreOp.Ran (lib : Openframe) (s : Store) : StoreOp → Trace → Store → Prop
  | lookup {callsign : Str} {ret : List ApnsRegister} {tr : Trace}
      {result : (Nat × List ApnsRegister) × Store}
      (trace : Store.LookupTrace lib s callsign ret tr result) :
      Ran lib s (.getApnsRegisterByCallsign callsign ret) tr result.2
  | getRegister {callsign ret : Str} {tr : Trace} {result : (Bool × Str) × Store}
      (trace : Store.GetTrace Store.onRegister (lit "apnsregister") (lib.toUpper callsign) s ret tr
        result) : Ran lib s (.getApnsRegisterFromMemcached callsign ret) tr result.2
  | setRegister {callsign buf : Str} {expire : Int} {tr : Trace} {result : Bool × Store}
      (trace : Store.PutTrace Store.onRegister (lit "apnsregister") (lib.toUpper callsign) s buf
        expire tr result) : Ran lib s (.setApnsRegisterInMemcached callsign buf expire) tr result.2
  | getMessage {hash ret : Str} {tr : Trace} {result : (Bool × Str) × Store}
      (trace : Store.GetTrace Store.onMessage (lit "pushmessage") hash s ret tr result) :
      Ran lib s (.getMessageFromMemcached hash ret) tr result.2
  | setMessage {hash buf : Str} {expire : Int} {tr : Trace} {result : Bool × Store}
      (trace : Store.PutTrace Store.onMessage (lit "pushmessage") hash s buf expire tr result) :
      Ran lib s (.setMessageInMemcached hash buf expire) tr result.2

theorem StoreOp.ran_of_runs {lib : Openframe} {op : StoreOp} {s s' : Store} {tr : Trace}
    {out : StoreOut} (runs : Prog.Runs (op.program lib s) tr (out, s')) : Ran lib s op tr s' := by
  cases op with
  | getApnsRegisterByCallsign callsign ret =>
    obtain ⟨result, front, back, rfl, lookup, rfl, same⟩ := (Prog.runs_bind _ _ _ _).mp runs
    obtain ⟨_, rfl⟩ := Prod.mk.inj same
    rw [List.append_nil]
    exact .lookup (Store.lookupTrace_of_runs lookup)
  | getApnsRegisterFromMemcached callsign ret =>
    obtain ⟨result, front, back, rfl, get, rfl, same⟩ := (Prog.runs_bind _ _ _ _).mp runs
    obtain ⟨_, rfl⟩ := Prod.mk.inj same
    rw [List.append_nil]
    exact .getRegister (get.post (Store.getFromMemcached_post _ _ _ _ _))
  | setApnsRegisterInMemcached callsign buf expire =>
    obtain ⟨result, front, back, rfl, set, rfl, same⟩ := (Prog.runs_bind _ _ _ _).mp runs
    obtain ⟨_, rfl⟩ := Prod.mk.inj same
    rw [List.append_nil]
    exact .setRegister (set.post (Store.setInMemcached_post _ _ _ _ _ _))
  | getMessageFromMemcached hash ret =>
    obtain ⟨result, front, back, rfl, get, rfl, same⟩ := (Prog.runs_bind _ _ _ _).mp runs
    obtain ⟨_, rfl⟩ := Prod.mk.inj same
    rw [List.append_nil]
    exact .getMessage (get.post (Store.getFromMemcached_post _ _ _ _ _))
  | setMessageInMemcached hash buf expire =>
    obtain ⟨result, front, back, rfl, set, rfl, same⟩ := (Prog.runs_bind _ _ _ _).mp runs
    obtain ⟨_, rfl⟩ := Prod.mk.inj same
    rw [List.append_nil]
    exact .setMessage (set.post (Store.setInMemcached_post _ _ _ _ _ _))

end ApnsPusher
