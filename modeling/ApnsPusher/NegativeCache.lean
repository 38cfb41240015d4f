import ApnsPusher.Transparency

/-!
# The 'not found' entry

A register query that raises comes back as zero rows, which the lookup cannot
tell from an empty answer: it caches 'not found' for an hour. The entry is sound
in every run in which no query raises before it has stored a row.
-/
namespace ApnsPusher

open Effects Store

/-- The reply leaves no rows behind only when the query completed and had none. -/
def QueryReply.EmptyOnlyWhenTold : QueryReply → Prop
  | .raised _ => False
  | .stored [] drained => drained = .ok ()
  | .stored (_ :: _) _ => True

theorem QueryReply.EmptyOnlyWhenTold.eq_empty {reply : QueryReply} (told : reply.EmptyOnlyWhenTold)
    (none : reply.rows = []) : reply = .stored [] (.ok ()) := by
  cases reply with
  | raised ex => exact told.elim
  | stored rows drained =>
    obtain rfl : rows = [] := none
    obtain rfl : drained = .ok () := told
    rfl

variable {ι : Type} [DecidableEq ι]

/-- A completed query of operation `id`, for the key's callsign up to case, that
found the table without a row for it. -/
def FoundNothing (lib : Openframe) (log : List (Entry ι Call Answer (Shared ι) StoreOp))
    (id : ι × Nat) (key : Str) : Prop :=
  ∃ asked ∈ log, asked.id = id ∧ ∃ callsign, lib.toUpper callsign = key ∧
    asked.event = ⟨.query callsign, .stored [] (.ok ())⟩ ∧ asked.found.table callsign = []

/-- Behind every 'not found' entry put, and every 'not found' answered from the
cache, stands a completed query without rows. -/
structure NotFoundIsSound (lib : Openframe)
    (c : Config ι Call Answer (Shared ι) StoreOp Store StoreOut) : Prop where
  written : ∀ put ∈ c.log, ∀ ns key value expires stored,
    put.event = ⟨.memcachedPut ns key value expires, stored⟩ → readCached lib value = .notFound →
      FoundNothing lib c.log put.id key
  answered : ∀ i callsign ret rows store,
    (c.threads i).current =
      some (.getApnsRegisterByCallsign callsign ret, .ret (.lookup 0 rows, store)) →
    (∀ callsign' reply, ⟨.query callsign', reply⟩ ∉ own c.log (i, (c.threads i).finished)) →
      ∃ asked ∈ c.log, FoundNothing lib c.log asked.id (lib.toUpper callsign) ∧
        ∃ payload, HandedOver lib c.log (i, (c.threads i).finished) callsign payload asked

def OnlyLookups (log : List (Entry ι Call Answer (Shared ι) StoreOp)) : Prop :=
  ∀ entry ∈ log, ∃ callsign ret, entry.op = .getApnsRegisterByCallsign callsign ret

def NoneRaises (log : List (Entry ι Call Answer (Shared ι) StoreOp)) : Prop :=
  ∀ entry ∈ log, ∀ callsign reply, entry.event = ⟨.query callsign, reply⟩ → reply.EmptyOnlyWhenTold

section Sound

variable {lib : Openframe} {table : Str → List ApnsRegister} {state : ι → Store}
  {c : Config ι Call Answer (Shared ι) StoreOp Store StoreOut}

omit [DecidableEq ι] in
theorem OnlyLookups.follows (lookups : OnlyLookups c.log) :
    ∀ entry ∈ c.log, ∀ before tr result, Prog.Runs (StoreOp.program lib entry.op before) tr result →
      PutsFollowQueries lib tr := by
  intro entry member before tr result runs
  refine StoreOp.putsFollowQueries ?_ runs
  obtain ⟨callsign, ret, op⟩ := lookups entry member
  simp [op]

/-- A query whose entry reads as 'not found' was told that there is no row. -/
theorem foundNothing_of_entry (roundTrips : lib.RoundTrips) (tokenizes : lib.Tokenizes)
    (reachable : (storeMachine ι lib).Reachable (Shared.initial table) state c)
    (told : NoneRaises c.log) {asked : Entry ι Call Answer (Shared ι) StoreOp}
    (member : asked ∈ c.log) {callsign key : Str} {reply : QueryReply}
    (event : asked.event = ⟨.query callsign, reply⟩) (upper : lib.toUpper callsign = key)
    (reads : readCached lib (entryFor lib reply.rows) = .notFound) :
    FoundNothing lib c.log asked.id key := by
  -- an entry with rows never reads as 'not found'
  have none : reply.rows = [] := by
    by_contra nonempty
    rw [entryFor, if_neg nonempty] at reads
    exact readCached_foundEntry_ne_notFound lib roundTrips tokenizes _ nonempty reads
  obtain rfl := (told asked member callsign reply event).eq_empty none
  exact ⟨asked, member, rfl, callsign, upper, event,
    ((Shared.explained_of_reachable reachable).queried asked member _ _ _ event).symm⟩

theorem notFound_written (roundTrips : lib.RoundTrips) (tokenizes : lib.Tokenizes)
    (reachable : (storeMachine ι lib).Reachable (Shared.initial table) state c)
    (lookups : OnlyLookups c.log) (told : NoneRaises c.log)
    {put : Entry ι Call Answer (Shared ι) StoreOp} (member : put ∈ c.log) {ns key value : Str}
    {expires : Int} {stored : Except MemcachedControllerException Unit}
    (event : put.event = ⟨.memcachedPut ns key value expires, stored⟩)
    (reads : readCached lib value = .notFound) : FoundNothing lib c.log put.id key := by
  -- lookups put register entries only
  have register : ns = lit "apnsregister" := by
    obtain ⟨before, rest, result, runs⟩ := reachable.runs_of_mem member
    obtain ⟨callsign, ret, op⟩ := lookups put member
    have called := List.mem_append_left rest ((mem_own c.log put.id _).mpr ⟨put, member, rfl, event⟩)
    rw [op] at runs
    exact StoreOp.put_of_lookup runs called
  subst register
  obtain ⟨asked, memberAsked, id, callsign, reply, eventAsked, upper, rfl⟩ :=
    asked_of_written reachable lookups.follows
      ⟨put, member, rfl, _, key, expires, stored, event, rfl⟩
  rw [← id]
  exact foundNothing_of_entry roundTrips tokenizes reachable told memberAsked eventAsked upper reads

theorem notFound_answered (blank : lib.BlankIsEmpty) (roundTrips : lib.RoundTrips)
    (tokenizes : lib.Tokenizes)
    (reachable : (storeMachine ι lib).Reachable (Shared.initial table) state c)
    (lookups : OnlyLookups c.log) (told : NoneRaises c.log) {i : ι} {callsign : Str}
    {ret rows : List ApnsRegister} {store : Store}
    (returning : (c.threads i).current =
      some (.getApnsRegisterByCallsign callsign ret, .ret (.lookup 0 rows, store)))
    (unasked : ∀ callsign' reply,
      ⟨.query callsign', reply⟩ ∉ own c.log (i, (c.threads i).finished)) :
    ∃ asked ∈ c.log, FoundNothing lib c.log asked.id (lib.toUpper callsign) ∧
      ∃ payload, HandedOver lib c.log (i, (c.threads i).finished) callsign payload asked := by
  have lookup := lookupTrace_of_returning reachable returning
  generalize trace : own c.log (i, (c.threads i).finished) = tr at lookup
  generalize result : ((0, rows), store) = out at lookup
  cases lookup with
  | cachedNotFound _ buf _ get reads =>
    obtain ⟨asked, member, handed, callsign', reply, event, upper, rfl⟩ :=
      handedOver_of_get blank reachable lookups.follows (trace ▸ get) (fun _ member => member)
        (by simp [reads])
    exact ⟨asked, member,
      foundNothing_of_entry roundTrips tokenizes reachable told member event upper reads, _, handed⟩
  | cachedFound _ buf _ rows' get reads =>
    -- a 'found' entry has a row, so the count would not be zero
    have count : 0 = (ret ++ rows').length := congrArg (fun out => out.1.1) result
    rw [List.length_append] at count
    exact absurd (List.eq_nil_of_length_eq_zero (by omega)) (readCached_found_ne_nil lib buf rows' reads)
  | asked got ok buf s' reply put wrote s'' get reads set =>
    exact absurd (trace ▸ by simp) (unasked callsign reply)

end Sound

/-- In every run of lookups in which no query raises before it has stored a row,
every 'not found' entry and every 'not found' answered from the cache is true. -/
theorem notFound_sound (lib : Openframe) (blank : lib.BlankIsEmpty) (roundTrips : lib.RoundTrips)
    (tokenizes : lib.Tokenizes) (table : Str → List ApnsRegister) (state : ι → Store)
    (c : Config ι Call Answer (Shared ι) StoreOp Store StoreOut)
    (reachable : (storeMachine ι lib).Reachable (Shared.initial table) state c)
    (lookups : OnlyLookups c.log) (told : NoneRaises c.log) : NotFoundIsSound lib c where
  written _ member _ _ _ _ _ event reads :=
    notFound_written roundTrips tokenizes reachable lookups told member event reads
  answered _ _ _ _ _ returning unasked :=
    notFound_answered blank roundTrips tokenizes reachable lookups told returning unasked

/-- An empty table, a query that completes, and a lookup that the entry answers. -/
theorem notFound_sound_emptyTable :
    ∃ c : Config (Fin 2) Call Answer (Shared (Fin 2)) StoreOp Store StoreOut,
      (storeMachine (Fin 2) .textual).Reachable (Shared.initial fun _ => []) (fun _ => .blank) c ∧
      c.log ≠ [] ∧ NotFoundIsSound .textual c := by
  obtain ⟨c, reachable, ops, events, _, _, _, _⟩ := ask_then_cached (.stored [] (.ok ()))
    (fun _ => []) (by simp) _ _ _ _
    (Prog.play_runs (readBackScript [] (.ok .notFound, [])).answers 0 _)
    (Prog.play_runs (readBackScript [] (.ok .success, notFoundEntry .textual)).answers 0 _)
  refine ⟨c, reachable, ?_, ?_⟩
  · intro none
    simp [none, askTrace] at events
  refine notFound_sound .textual Openframe.textual_blankIsEmpty Openframe.textual_roundTrips
    Openframe.textual_tokenizes _ _ c reachable ?_ ?_
  · exact fun entry member => ⟨lit "N0CALL", [], ops entry member⟩
  · intro entry member callsign reply event
    have logged : entry.event ∈ c.log.map Entry.event := List.mem_map_of_mem member
    rw [events, event] at logged
    obtain ⟨_, rfl⟩ : callsign = lit "N0CALL" ∧ reply = .stored [] (.ok ()) := by
      simpa [askTrace, cachedTrace] using logged
    rfl

/-- The connection breaks under a query; the entry it leaves then answers 'not
found' for a callsign that has a row. -/
theorem notFound_after_raise :
    ∃ c : Config (Fin 2) Call Answer (Shared (Fin 2)) StoreOp Store StoreOut,
      (storeMachine (Fin 2) .textual).Reachable (Shared.initial fun _ => oneRow) (fun _ => .blank) c ∧
      OnlyLookups c.log ∧ c.shared.table (lit "N0CALL") = oneRow ∧
      (∃ store, (c.threads 1).current = some (nocallLookup, .ret (.lookup 0 [], store))) ∧
      (∀ callsign reply, ⟨.query callsign, reply⟩ ∉ own c.log (1, (c.threads 1).finished)) ∧
      ¬ NotFoundIsSound .textual c := by
  obtain ⟨c, reachable, ops, events, cached, table, finished, returning⟩ :=
    ask_then_cached (.raised (.badQuery 2006)) (fun _ => oneRow) (by simp) _ (.lookup 0 []) _ _
      (Prog.play_runs { readBackScript [] (.ok .notFound, []) with
        query := .raised (.badQuery 2006) }.answers 0 _)
      (Prog.play_runs (readBackScript [] (.ok .success, notFoundEntry .textual)).answers 0 _)
  refine ⟨c, reachable, fun entry member => ⟨lit "N0CALL", [], ops entry member⟩, by rw [table],
    ⟨_, returning⟩, ?_, ?_⟩
  · rw [finished, cached]
    simp [cachedTrace]
  · intro sound
    have put : (⟨.memcachedPut (lit "apnsregister") (lit "N0CALL") (notFoundEntry .textual) 3600,
        .ok ()⟩ : Event Call Answer) ∈ c.log.map Entry.event := by
      rw [events]
      simp [askTrace, entryFor, QueryReply.rows]
    obtain ⟨entry, member, event⟩ := List.mem_map.mp put
    obtain ⟨asked, memberAsked, _, callsign, _, eventAsked, _⟩ :=
      sound.written entry member _ _ _ _ _ event (by decide)
    have logged : asked.event ∈ c.log.map Entry.event := List.mem_map_of_mem memberAsked
    rw [events, eventAsked] at logged
    simp [askTrace, cachedTrace] at logged

end ApnsPusher
