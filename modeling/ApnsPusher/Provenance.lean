import ApnsPusher.Shared
import ApnsPusher.Store.Traces

/-!
# Where a cached register entry comes from

Inside one operation a register entry is put only after the query it records.
Across all workers this makes every register entry in memcached the answer of a
query that its writer made, for the same callsign up to case.
-/
namespace ApnsPusher

open Effects Store

/-- Every register entry put in the trace is the entry for a query made before it. -/
def PutsFollowQueries (lib : Openframe) (tr : Trace) : Prop :=
  ∀ front ns key value expires stored back,
    tr = front ++ ⟨.memcachedPut ns key value expires, stored⟩ :: back →
    ns = lit "pushmessage" ∨
    ns = lit "apnsregister" ∧ ∃ callsign reply, key = lib.toUpper callsign ∧
      value = entryFor lib reply.rows ∧ ⟨.query callsign, reply⟩ ∈ front

namespace PutsFollowQueries

variable {lib : Openframe}

theorem of_noPut (tr : Trace)
    (noPut : ∀ e ∈ tr, ∀ ns key value expires, e.call ≠ .memcachedPut ns key value expires) :
    PutsFollowQueries lib tr := by
  rintro front ns key value expires stored back rfl
  exact absurd rfl (noPut _ (List.mem_append_right _ (List.mem_cons_self ..)) ns key value expires)

/-- Calls of a kind that is never a put. -/
theorem of_calls {tr : Trace} (kind : Call → Bool)
    (noPut : ∀ ns key value expires, kind (.memcachedPut ns key value expires) = false)
    (all : ∀ e ∈ tr, kind e.call = true) : PutsFollowQueries lib tr := by
  apply of_noPut tr
  intro e member ns key value expires put
  have call := all e member
  rw [put, noPut] at call
  cases call

/-- A run that has stopped early has the property when the whole run has it. -/
theorem of_append {front rest : Trace} (follows : PutsFollowQueries lib (front ++ rest)) :
    PutsFollowQueries lib front := by
  rintro before ns key value expires stored back rfl
  exact follows before ns key value expires stored (back ++ rest) (by simp)

theorem append {tr tr' : Trace} (first : PutsFollowQueries lib tr)
    (second : PutsFollowQueries lib tr') : PutsFollowQueries lib (tr ++ tr') := by
  intro front ns key value expires stored back split
  have earlier (before : Trace) (inSecond : tr' = before ++ ⟨.memcachedPut ns key value expires,
      stored⟩ :: back) (whole : front = tr ++ before) :
      ns = lit "pushmessage" ∨ ns = lit "apnsregister" ∧ ∃ callsign reply,
        key = lib.toUpper callsign ∧ value = entryFor lib reply.rows ∧
          ⟨.query callsign, reply⟩ ∈ front := by
    rcases second before ns key value expires stored back inSecond with
      message | ⟨register, callsign, reply, upper, entry, asked⟩
    · exact Or.inl message
    · exact Or.inr ⟨register, callsign, reply, upper, entry, whole ▸ List.mem_append_right _ asked⟩
  -- the put is in the second trace, or in the first and so is the query before it
  rcases List.append_eq_append_iff.mp split with ⟨before, whole, inSecond⟩ | ⟨after, inFirst, rest⟩
  · exact earlier before inSecond whole
  · cases after with
    | nil => exact earlier [] (by simpa using rest.symm) (by simpa using inFirst.symm)
    | cons e after =>
      obtain ⟨rfl, _⟩ := List.cons.inj rest
      exact first front ns key value expires stored after inFirst

end PutsFollowQueries

theorem Store.GetTrace.putsFollowQueries {lib : Openframe}
    {on : Store → (MemcacheStats → MemcacheStats) → Store} {ns key ret : Str} {s : Store}
    {tr : Trace} {result : (Bool × Str) × Store} (get : GetTrace on ns key s ret tr result) :
    PutsFollowQueries lib tr := by
  refine .of_noPut tr ?_
  intro e member ns' key' value expires put
  rcases get.calls e member with call | call | call <;> simp [call] at put

theorem Store.PutTrace.putsFollowQueries {lib : Openframe}
    {on : Store → (MemcacheStats → MemcacheStats) → Store} {key buf : Str} {s : Store}
    {expire : Int} {tr : Trace} {result : Bool × Store}
    (set : PutTrace on (lit "pushmessage") key s buf expire tr result) :
    PutsFollowQueries lib tr := by
  rintro front ns key' value expires stored back rfl
  exact Or.inl (set.put_mem (List.mem_append_right _ (List.mem_cons_self ..))).1

theorem Store.LookupTrace.putsFollowQueries {lib : Openframe} {s : Store} {callsign : Str}
    {ret : List ApnsRegister} {tr : Trace} {result : (Nat × List ApnsRegister) × Store}
    (lookup : LookupTrace lib s callsign ret tr result) : PutsFollowQueries lib tr := by
  cases lookup with
  | cachedNotFound _ _ _ get _ => exact get.putsFollowQueries
  | cachedFound _ _ _ _ get _ => exact get.putsFollowQueries
  | asked got ok buf s' reply put wrote s'' get _ set =>
    refine get.putsFollowQueries.append ?_
    intro front ns key value expires stored back split
    -- the query heads this part of the trace, so the put cannot
    cases front with
    | nil => cases (List.cons.inj split).1
    | cons e front =>
      obtain ⟨rfl, rest⟩ := List.cons.inj split
      obtain ⟨register, sameKey, entry, _⟩ :=
        set.put_mem (by rw [rest]; exact List.mem_append_right _ (List.mem_cons_self ..))
      exact Or.inr ⟨register, callsign, reply, sameKey, entry, List.mem_cons_self ..⟩

/-- Of the store's operations only a direct call of `setApnsRegisterInMemcached`
can put a register entry that no query stands behind. -/
theorem StoreOp.putsFollowQueries {lib : Openframe} {op : StoreOp} {s s' : Store} {tr : Trace}
    {out : StoreOut}
    (indirect : ∀ callsign buf expire, op ≠ .setApnsRegisterInMemcached callsign buf expire)
    (runs : Prog.Runs (op.program lib s) tr (out, s')) : PutsFollowQueries lib tr := by
  cases StoreOp.ran_of_runs runs with
  | lookup trace => exact trace.putsFollowQueries
  | getRegister trace | getMessage trace => exact trace.putsFollowQueries
  | setRegister trace => exact absurd rfl (indirect _ _ _)
  | setMessage trace => exact trace.putsFollowQueries

/-- Only a lookup asks SQL, and it asks for its own callsign. -/
theorem StoreOp.query_mem {lib : Openframe} {op : StoreOp} {s s' : Store} {tr : Trace}
    {out : StoreOut} (runs : Prog.Runs (op.program lib s) tr (out, s')) {callsign : Str}
    {reply : QueryReply} (asked : (⟨.query callsign, reply⟩ : Event Call Answer) ∈ tr) :
    ∃ ret, op = .getApnsRegisterByCallsign callsign ret := by
  cases StoreOp.ran_of_runs runs with
  | @lookup callsign' ret _ _ trace =>
    obtain rfl := trace.query_mem asked
    exact ⟨ret, rfl⟩
  | getRegister trace | getMessage trace => simpa using trace.calls _ asked
  | setRegister trace | setMessage trace => simpa using trace.calls _ asked

/-- A lookup puts register entries only. -/
theorem StoreOp.put_of_lookup {lib : Openframe} {callsign : Str} {ret : List ApnsRegister}
    {s s' : Store} {tr : Trace} {out : StoreOut}
    (runs : Prog.Runs (StoreOp.program lib (.getApnsRegisterByCallsign callsign ret) s) tr (out, s'))
    {ns key value : Str} {expires : Int} {stored : Except MemcachedControllerException Unit}
    (put : (⟨.memcachedPut ns key value expires, stored⟩ : Event Call Answer) ∈ tr) :
    ns = lit "apnsregister" := by
  cases StoreOp.ran_of_runs runs with
  | lookup trace =>
    cases trace with
    | cachedNotFound _ _ _ get _ => simpa using get.calls _ put
    | cachedFound _ _ _ _ get _ => simpa using get.calls _ put
    | asked _ _ _ _ _ _ _ _ get _ set =>
      rcases List.mem_append.mp put with member | member
      · simpa using get.calls _ member
      · rcases List.mem_cons.mp member with equal | member
        · cases equal
        · exact (set.put_mem member).1

/-! ### The joined key -/

theorem cacheKey_injective (ns key key' : Str)
    (same : MemcachedController.cacheKey ns key = MemcachedController.cacheKey ns key') :
    key = key' :=
  List.append_cancel_left same

theorem cacheKey_pushmessage_ne_apnsregister (key key' : Str) :
    MemcachedController.cacheKey (lit "pushmessage") key ≠
      MemcachedController.cacheKey (lit "apnsregister") key' := by
  intro same
  have first : some (112 : UInt8) = some 97 := congrArg List.head? same
  simp at first

/-! ### All workers -/

variable {ι Op L Out : Type} [DecidableEq ι] {prog : Op → L → Program (Out × L)}

/-- A value put under a register key records a query of the same operation for the
same callsign up to case. -/
theorem asked_of_written {lib : Openframe} {shared : Shared ι} {state : ι → L}
    {c : Config ι Call Answer (Shared ι) Op L Out}
    (reachable : (Shared.machine prog).Reachable shared state c)
    (follows : ∀ entry ∈ c.log, ∀ before tr result, Prog.Runs (prog entry.op before) tr result →
      PutsFollowQueries lib tr) {key value : Str} {writer : ι × Nat}
    (written : Shared.Written c.log (MemcachedController.cacheKey (lit "apnsregister") key) value
      writer) :
    ∃ asked ∈ c.log, asked.id = writer ∧ ∃ callsign reply,
      asked.event = ⟨.query callsign, reply⟩ ∧ lib.toUpper callsign = key ∧
        value = entryFor lib reply.rows := by
  obtain ⟨put, member, rfl, ns, key', expires, stored, event, joined⟩ := written
  obtain ⟨before, rest, result, runs⟩ := reachable.runs_of_mem member
  -- the writer may still be running; what it has done begins a run
  have ownFollows := (follows put member before _ _ runs).of_append
  have ownPut := (mem_own c.log put.id _).mpr ⟨put, member, rfl, event⟩
  obtain ⟨front, back, split⟩ := List.append_of_mem ownPut
  rcases ownFollows front ns key' value expires stored back split with
    rfl | ⟨rfl, callsign, reply, rfl, entry, asked⟩
  -- the two caches share memcached but not their keys
  · exact absurd joined (cacheKey_pushmessage_ne_apnsregister key' key)
  · have ownAsked : (⟨.query callsign, reply⟩ : Event Call Answer) ∈ own c.log put.id := by
      rw [split]
      exact List.mem_append_left _ asked
    obtain ⟨asked, memberAsked, id, eventAsked⟩ := (mem_own c.log put.id _).mp ownAsked
    exact ⟨asked, memberAsked, id, callsign, reply, eventAsked, cacheKey_injective _ _ _ joined, entry⟩

/-- Operation `id` was handed `payload` for `callsign`; the entry had been put by
the operation that made the query `asked`. -/
def HandedOver (lib : Openframe) (log : List (Entry ι Call Answer (Shared ι) Op)) (id : ι × Nat)
    (callsign payload : Str) (asked : Entry ι Call Answer (Shared ι) Op) : Prop :=
  ∃ read ∈ log, read.id = id ∧
    read.event = ⟨.memcachedGet (lit "apnsregister") (lib.toUpper callsign) [],
      (.ok .success, payload)⟩ ∧
    read.found.cache (MemcachedController.cacheKey (lit "apnsregister") (lib.toUpper callsign)) =
      some (payload, asked.id)

/-- A payload that settles a lookup is the entry for the answer of a query. The
blank text that is left after a failed get settles nothing. -/
theorem handedOver_of_get {lib : Openframe} (blank : lib.BlankIsEmpty)
    {table : Str → List ApnsRegister} {state : ι → L} {c : Config ι Call Answer (Shared ι) Op L Out}
    (reachable : (Shared.machine prog).Reachable (Shared.initial table) state c)
    (follows : ∀ entry ∈ c.log, ∀ before tr result, Prog.Runs (prog entry.op before) tr result →
      PutsFollowQueries lib tr) {id : ι × Nat} {callsign buf : Str} {s s' : Store} {got : Trace}
    (get : GetTrace onRegister (lit "apnsregister") (lib.toUpper callsign) s [] got ((true, buf), s'))
    (logged : ∀ e ∈ got, e ∈ own c.log id) (usable : readCached lib buf ≠ .unusable) :
    ∃ asked ∈ c.log, HandedOver lib c.log id callsign buf asked ∧ ∃ callsign' reply,
      asked.event = ⟨.query callsign', reply⟩ ∧ lib.toUpper callsign' = lib.toUpper callsign ∧
        buf = entryFor lib reply.rows := by
  have explained := Shared.explained_of_reachable reachable
  -- after a raise the result local may still hold the success code; the buffer is blank then
  rcases get.source with member | ⟨ex, member, _⟩
  · obtain ⟨read, memberRead, id, event⟩ := (mem_own c.log _ _).mp (logged _ member)
    obtain ⟨writer, hit, written⟩ := explained.handedOver read memberRead _ _ _ _ event
    obtain ⟨asked, memberAsked, rfl, rest⟩ := asked_of_written reachable follows written
    exact ⟨asked, memberAsked, ⟨read, memberRead, id, event, hit⟩, rest⟩
  · obtain ⟨read, memberRead, _, event⟩ := (mem_own c.log _ _).mp (logged _ member)
    have untouched : buf = [] := explained.untouched read memberRead _ _ _ _ _ event
    refine absurd ?_ usable
    have none : lib.is (lib.parse buf) (lit "fnd") = false := untouched ▸ blank
    simp only [readCached, none, Bool.false_eq_true, if_false]

end ApnsPusher
