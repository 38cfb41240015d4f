import ApnsPusher.MemcachedController.Keys
import ApnsPusher.Store.Traces

/-!
# One message and the next

The breaker is shared by all lookups of a store. Whether the lookup of one
callsign may close it for the lookup of another is a question about two runs:
with the first lookup and without it.
-/
namespace ApnsPusher

open Effects

/-- The library reports an error. -/
def Libmemcached.Errs : Event Libmemcached.Call Libmemcached.Answer → Prop
  | ⟨.get _, (rc, _)⟩ => ∃ code, rc = .other code
  | ⟨.set .., rc⟩ | ⟨.replace .., rc⟩ => rc ≠ .success
  | ⟨.strerror _, _⟩ => False

/-- A controller call as the controller answers it over a library without errors. -/
def AnsweredByLibrary : Event Call Answer → Prop
  | ⟨.memcachedGet ns key buf, reply⟩ => ∃ tr,
    Prog.Runs (MemcachedController.get ns key buf) tr reply ∧ ∀ e ∈ tr, ¬ Libmemcached.Errs e
  | ⟨.memcachedPut ns key value expires, reply⟩ => ∃ tr,
    Prog.Runs (MemcachedController.put ns key value expires) tr reply ∧
      ∀ e ∈ tr, ¬ Libmemcached.Errs e
  | _ => True

def Faultless (tr : Trace) : Prop := ∀ e ∈ tr, AnsweredByLibrary e

/-- The lookup gets as far as asking memcached. -/
def Consults (tr : Trace) : Prop :=
  ∃ ns key buf reply, (⟨.memcachedGet ns key buf, reply⟩ : Event Call Answer) ∈ tr

/-- The key of a callsign's register entry. -/
def registerKey (lib : Openframe) (callsign : Str) : Str :=
  MemcachedController.cacheKey (lit "apnsregister") (lib.toUpper callsign)

namespace Store

/-- A lookup of `a` makes no difference to whether a lookup of `b`, begun at the
same time with and without it, consults memcached. -/
def LeavesConsulting (lib : Openframe) (s : Store) (a b : Str) : Prop :=
  ∀ (ret : List ApnsRegister) (first : Trace) (out : Nat × List ApnsRegister) (s' : Store),
    Prog.Runs (s.getApnsRegisterByCallsign lib a ret) first (out, s') → Faultless first →
  ∀ (now : Int) (ret' : List ApnsRegister) (after alone : Trace)
    (result result' : (Nat × List ApnsRegister) × Store),
    Prog.Runs (s'.getApnsRegisterByCallsign lib b ret') after result → Faultless after →
    Prog.Runs (s.getApnsRegisterByCallsign lib b ret') alone result' → Faultless alone →
    after.head? = some ⟨.time, now⟩ → alone.head? = some ⟨.time, now⟩ →
    (Consults after ↔ Consults alone)

/-- A lookup of `a` leaves the time of the last failure as it was. -/
def LeavesBreaker (lib : Openframe) (s : Store) (a : Str) : Prop :=
  ∀ (ret : List ApnsRegister) (tr : Trace) (out : Nat × List ApnsRegister) (s' : Store),
    Prog.Runs (s.getApnsRegisterByCallsign lib a ret) tr (out, s') → Faultless tr →
    s'.lastCacheFailAt = s.lastCacheFailAt

/-! ### What consulting depends on -/

theorem GetTrace.consults {on : Store → (MemcacheStats → MemcacheStats) → Store} {ns key ret : Str}
    {s : Store} {tr more : Trace} {result : (Bool × Str) × Store}
    (get : GetTrace on ns key s ret tr result) (none : ¬ Consults more) :
    ∃ now, (tr ++ more).head? = some ⟨.time, now⟩ ∧
      (Consults (tr ++ more) ↔ s.lastCacheFailAt < now - 60) := by
  cases get with
  | skipped now cooling =>
    refine ⟨now, rfl, ?_⟩
    simpa [Consults, cooling] using none
  | answered now mcr buf ready =>
    exact ⟨now, rfl, fun _ => ready, fun _ =>
      ⟨ns, key, [], _, List.mem_cons_of_mem _ (List.mem_cons_self ..)⟩⟩
  | failed now ex buf failedAt garbage ready =>
    exact ⟨now, rfl, fun _ => ready, fun _ =>
      ⟨ns, key, [], _, List.mem_cons_of_mem _ (List.mem_cons_self ..)⟩⟩

/-- Only the time of the last failure and the first clock reading count. -/
theorem LookupTrace.consults {lib : Openframe} {s : Store} {callsign : Str}
    {ret : List ApnsRegister} {tr : Trace} {result : (Nat × List ApnsRegister) × Store}
    (lookup : LookupTrace lib s callsign ret tr result) :
    ∃ now, tr.head? = some ⟨.time, now⟩ ∧ (Consults tr ↔ s.lastCacheFailAt < now - 60) := by
  have empty : ¬ Consults [] := by
    rintro ⟨_, _, _, _, member⟩
    cases member
  cases lookup with
  | cachedNotFound _ _ _ get _ => simpa only [List.append_nil] using get.consults empty
  | cachedFound _ _ _ _ get _ => simpa only [List.append_nil] using get.consults empty
  | asked front ok buf s₁ reply put wrote s₂ get reads set =>
    refine get.consults ?_
    rintro ⟨ns, key, buf', reply', member⟩
    rcases List.mem_cons.mp member with equal | member
    · cases equal
    · simpa using set.calls _ member

/-! ### A key that fits -/

theorem get_of_fits {ns key buf : Str} {reply : Answer (.memcachedGet ns key buf)}
    (fits : (MemcachedController.cacheKey ns key).length ≤ 255)
    (answered : AnsweredByLibrary ⟨.memcachedGet ns key buf, reply⟩) :
    ∃ mcr, reply.1 = .ok mcr := by
  obtain ⟨tr, runs, faultless⟩ := answered
  rcases MemcachedController.get_judges runs with ⟨long, _⟩ | ⟨_, answer, rest, sent⟩
  · omega
  -- the library is called, and only its error makes the controller throw then
  · rcases runs.post (MemcachedController.get_post ns key buf) with
      ⟨silent, _⟩ | ⟨str, _, rfl⟩ | ⟨str, _, rfl⟩ | ⟨code, str, text, ex, _, rfl⟩
    · rw [silent] at sent
      cases sent
    · exact ⟨_, rfl⟩
    · exact ⟨_, rfl⟩
    · exact absurd ⟨code, rfl⟩ (faultless _ (List.mem_cons_self ..))

theorem put_of_fits {ns key value : Str} {expires : Int}
    {reply : Answer (.memcachedPut ns key value expires)}
    (fits : (MemcachedController.cacheKey ns key).length ≤ 255)
    (answered : AnsweredByLibrary ⟨.memcachedPut ns key value expires, reply⟩) :
    reply = .ok () := by
  obtain ⟨tr, runs, faultless⟩ := answered
  rcases MemcachedController.store_judges runs with ⟨long, _⟩ | ⟨_, answer, rest, sent⟩
  · omega
  · rcases runs.post (MemcachedController.put_post ns key value expires) with
      ⟨silent, _⟩ | ⟨_, stored⟩ | ⟨rc, text, failed, _, rfl⟩
    · rw [silent] at sent
      cases sent
    · exact stored
    · exact absurd failed (faultless _ (List.mem_cons_self ..))

theorem GetTrace.kept_of_fits {on : Store → (MemcacheStats → MemcacheStats) → Store}
    {ns key ret : Str} {s : Store} {tr : Trace} {result : (Bool × Str) × Store}
    (get : GetTrace on ns key s ret tr result) (faultless : Faultless tr)
    (same : ∀ s f, (on s f).lastCacheFailAt = s.lastCacheFailAt)
    (fits : (MemcachedController.cacheKey ns key).length ≤ 255) :
    result.2.lastCacheFailAt = s.lastCacheFailAt := by
  cases get with
  | skipped now cooling => rfl
  | answered now mcr buf ready =>
    unfold concludeGet
    split
    · rw [same, same]
    · rw [same, same]
  | failed now ex buf failedAt garbage ready =>
    obtain ⟨mcr, ok⟩ :=
      get_of_fits fits (faultless _ (List.mem_cons_of_mem _ (List.mem_cons_self ..)))
    cases ok

theorem PutTrace.kept_of_fits {on : Store → (MemcacheStats → MemcacheStats) → Store}
    {ns key buf : Str} {s : Store} {expire : Int} {tr : Trace} {result : Bool × Store}
    (set : PutTrace on ns key s buf expire tr result) (faultless : Faultless tr)
    (same : ∀ s f, (on s f).lastCacheFailAt = s.lastCacheFailAt)
    (fits : (MemcachedController.cacheKey ns key).length ≤ 255) :
    result.2.lastCacheFailAt = s.lastCacheFailAt := by
  cases set with
  | skipped now cooling => rfl
  | stored now ready => rw [same]
  | failed now ex failedAt ready =>
    have stored := put_of_fits fits (faultless _ (List.mem_cons_of_mem _ (List.mem_cons_self ..)))
    cases stored

theorem leavesBreaker_of_fits {lib : Openframe} {s : Store} {a : Str}
    (fits : (registerKey lib a).length ≤ 255) : LeavesBreaker lib s a := by
  intro ret tr out s' runs faultless
  cases lookupTrace_of_runs runs with
  | cachedNotFound _ _ _ get _ => exact get.kept_of_fits faultless (fun _ _ => rfl) fits
  | cachedFound _ _ _ _ get _ => exact get.kept_of_fits faultless (fun _ _ => rfl) fits
  | asked front ok buf s₁ reply put wrote s₂ get reads set =>
    have first := get.kept_of_fits (fun e member => faultless e (List.mem_append_left _ member))
      (fun _ _ => rfl) fits
    have second := set.kept_of_fits
      (fun e member => faultless e (List.mem_append_right _ (List.mem_cons_of_mem _ member)))
      (fun _ _ => rfl) fits
    exact second.trans first

theorem leavesConsulting_of_fits {lib : Openframe} {s : Store} {a b : Str}
    (fits : (registerKey lib a).length ≤ 255) : LeavesConsulting lib s a b := by
  intro ret first out s' runs faultless now ret' after alone result result' together _ without _ head
    head'
  have kept := leavesBreaker_of_fits fits ret first out s' runs faultless
  obtain ⟨now', read, consults⟩ := (lookupTrace_of_runs together).consults
  obtain ⟨now'', read', consults'⟩ := (lookupTrace_of_runs without).consults
  -- both lookups compare the same failure time with the same clock reading
  obtain rfl : now' = now := by simpa [head] using read.symm
  obtain rfl : now'' = now' := by simpa [head'] using read'.symm
  rw [consults, consults', kept]

/-! ### A key that is too long -/

theorem get_of_long {ns key buf : Str} {reply : Answer (.memcachedGet ns key buf)}
    (long : 255 < (MemcachedController.cacheKey ns key).length)
    (answered : AnsweredByLibrary ⟨.memcachedGet ns key buf, reply⟩) :
    ∃ ex, reply.1 = .error ex := by
  obtain ⟨tr, runs, _⟩ := answered
  rcases MemcachedController.get_judges runs with ⟨_, refuses, _⟩ | ⟨fits, _⟩
  · exact refuses.thrown
  · omega

/-- The refusal is taken for a failure of memcached. -/
theorem GetTrace.trips_of_long {on : Store → (MemcacheStats → MemcacheStats) → Store}
    {ns key ret : Str} {s : Store} {tr : Trace} {result : (Bool × Str) × Store} {clock : Int}
    (get : GetTrace on ns key s ret tr result) (faultless : Faultless tr)
    (same : ∀ s f, (on s f).lastCacheFailAt = s.lastCacheFailAt)
    (stopped : ∀ now, (⟨.time, now⟩ : Event Call Answer) ∈ tr → now = clock)
    (ready : s.lastCacheFailAt < clock - 60)
    (long : 255 < (MemcachedController.cacheKey ns key).length) :
    result.2.lastCacheFailAt = clock := by
  cases get with
  | skipped now cooling =>
    obtain rfl := stopped now (List.mem_cons_self ..)
    exact absurd ready cooling
  | answered now mcr buf _ =>
    obtain ⟨ex, thrown⟩ :=
      get_of_long long (faultless _ (List.mem_cons_of_mem _ (List.mem_cons_self ..)))
    cases thrown
  | failed now ex buf failedAt garbage _ =>
    -- the handler takes the time it reads for that of a failure
    obtain rfl := stopped failedAt (by simp)
    unfold concludeGet
    split
    · rw [same]
    · rw [same]

theorem PutTrace.remains {on : Store → (MemcacheStats → MemcacheStats) → Store} {ns key buf : Str}
    {s : Store} {expire : Int} {tr : Trace} {result : Bool × Store}
    (set : PutTrace on ns key s buf expire tr result)
    (same : ∀ s f, (on s f).lastCacheFailAt = s.lastCacheFailAt)
    (stopped : ∀ now, (⟨.time, now⟩ : Event Call Answer) ∈ tr → now = s.lastCacheFailAt) :
    result.2.lastCacheFailAt = s.lastCacheFailAt := by
  cases set with
  | skipped now cooling => rfl
  | stored now ready => rw [same]
  | failed now ex failedAt ready => exact stopped failedAt (by simp)

/-- A lookup with a refused key, made while the breaker lets calls through and the clock
stands still, sets the time of the last failure. -/
theorem LookupTrace.trips_of_long {lib : Openframe} {s s' : Store} {a : Str}
    {ret : List ApnsRegister} {tr : Trace} {out : Nat × List ApnsRegister} {clock : Int}
    (lookup : LookupTrace lib s a ret tr (out, s')) (faultless : Faultless tr)
    (stopped : ∀ now, (⟨.time, now⟩ : Event Call Answer) ∈ tr → now = clock)
    (ready : s.lastCacheFailAt < clock - 60) (long : 255 < (registerKey lib a).length) :
    s'.lastCacheFailAt = clock := by
  cases lookup with
  | cachedNotFound _ _ _ get _ =>
    exact get.trips_of_long faultless (fun _ _ => rfl) stopped ready long
  | cachedFound _ _ _ _ get _ =>
    exact get.trips_of_long faultless (fun _ _ => rfl) stopped ready long
  | asked front ok buf s₁ reply put wrote s₂ get reads set =>
    have tripped : s₁.lastCacheFailAt = clock :=
      get.trips_of_long (fun e member => faultless e (List.mem_append_left _ member))
        (fun _ _ => rfl) (fun now member => stopped now (List.mem_append_left _ member)) ready long
    -- the set after the query finds the breaker at that time, and may only set it again
    have remains := set.remains (fun _ _ => rfl) fun now member =>
      (stopped now (List.mem_append_right _ (List.mem_cons_of_mem _ member))).trans tripped.symm
    exact remains.trans tripped

/-- A script that leaves memcached to the controller, over a library that has
nothing and takes everything. -/
def libraryAnswers (script : Script) : (call : Call) → Nat → Answer call
  | .memcachedGet ns key buf, _ =>
    (Prog.play MemcachedController.emptyLibrary 0 (MemcachedController.get ns key buf)).2
  | .memcachedPut ns key value expires, _ =>
    (Prog.play MemcachedController.emptyLibrary 0 (MemcachedController.put ns key value expires)).2
  | call, n => script.answers call n

/-- The clock stands still, and nobody is registered. -/
def stillScript (clock : Int) : Script where
  clock := clock
  get := (.ok .notFound, [])
  put := .ok ()
  query := .stored [] (.ok ())
  execute := .executed 1 (.ok ())
  accepts _ := true
  frame := .none

theorem emptyLibrary_errs {α : Type} (program : Prog Libmemcached.Call Libmemcached.Answer α) :
    ∀ e ∈ (Prog.play MemcachedController.emptyLibrary 0 program).1, ¬ Libmemcached.Errs e := by
  rintro ⟨call, answer⟩ member errs
  obtain ⟨k, rfl⟩ : ∃ k, answer = MemcachedController.emptyLibrary call k := Prog.mem_play member
  cases call with
  | get key =>
    obtain ⟨code, other⟩ := errs
    cases other
  | set | replace => exact errs rfl
  | strerror rc => exact errs

theorem libraryAnswers_faultless {α : Type} (script : Script) (program : Program α) :
    Faultless (Prog.play (libraryAnswers script) 0 program).1 := by
  rintro ⟨call, answer⟩ member
  obtain ⟨k, rfl⟩ : ∃ k, answer = libraryAnswers script call k := Prog.mem_play member
  cases call with
  | memcachedGet ns key buf => exact ⟨_, Prog.play_runs _ 0 _, emptyLibrary_errs _⟩
  | memcachedPut ns key value expires => exact ⟨_, Prog.play_runs _ 0 _, emptyLibrary_errs _⟩
  | time | indeterminate | query | execute | datapoint | report | subscribe | nextFrame | frameUse
  | ack | release | newApnsMessage | push | deleteRegister | queued => trivial

theorem libraryAnswers_stopped {α : Type} {clock : Int} {program : Program α} (now : Int)
    (member : (⟨.time, now⟩ : Event Call Answer) ∈
      (Prog.play (libraryAnswers (stillScript clock)) 0 program).1) : now = clock := by
  obtain ⟨k, same⟩ := Prog.mem_play member
  exact same

theorem not_leavesBreaker_of_long {lib : Openframe} {s : Store} {a : Str}
    (long : 255 < (registerKey lib a).length) : ¬ LeavesBreaker lib s a := by
  intro leaves
  have runs := Prog.play_runs (libraryAnswers (stillScript (s.lastCacheFailAt + 61))) 0
    (s.getApnsRegisterByCallsign lib a [])
  have faultless := libraryAnswers_faultless (stillScript (s.lastCacheFailAt + 61))
    (s.getApnsRegisterByCallsign lib a [])
  have kept := leaves _ _ _ _ runs faultless
  have tripped := (lookupTrace_of_runs runs).trips_of_long faultless libraryAnswers_stopped
    (by omega) long
  omega

theorem not_leavesConsulting_of_long {lib : Openframe} {s : Store} {a : Str} (b : Str)
    (long : 255 < (registerKey lib a).length) : ¬ LeavesConsulting lib s a b := by
  intro leaves
  -- everything happens at one time, just after the breaker has cooled
  obtain ⟨clock, hclock⟩ : ∃ clock, clock = s.lastCacheFailAt + 61 := ⟨_, rfl⟩
  have looks (store : Store) (callsign : Str) :=
    Prog.play_runs (libraryAnswers (stillScript clock)) 0
      (store.getApnsRegisterByCallsign lib callsign [])
  have faultless (store : Store) (callsign : Str) := libraryAnswers_faultless (stillScript clock)
    (store.getApnsRegisterByCallsign lib callsign [])
  have tripped := (lookupTrace_of_runs (looks s a)).trips_of_long (faultless s a)
    libraryAnswers_stopped (by omega) long
  have consults (store : Store) (callsign : Str) :
      (Prog.play (libraryAnswers (stillScript clock)) 0
        (store.getApnsRegisterByCallsign lib callsign [])).1.head? = some ⟨.time, clock⟩ ∧
      (Consults (Prog.play (libraryAnswers (stillScript clock)) 0
        (store.getApnsRegisterByCallsign lib callsign [])).1 ↔
          store.lastCacheFailAt < clock - 60) := by
    obtain ⟨now, head, asks⟩ := (lookupTrace_of_runs (looks store callsign)).consults
    obtain rfl := libraryAnswers_stopped now (List.mem_of_head? head)
    exact ⟨head, asks⟩
  have same := leaves _ _ _ _ (looks s a) (faultless s a) clock [] _ _ _ _
    (looks _ b) (faultless _ b) (looks s b) (faultless s b) (consults _ b).1 (consults s b).1
  -- alone `b` consults memcached, after `a` it does not
  rw [(consults _ b).2, (consults s b).2, tripped, hclock] at same
  have ready := same.mpr (by omega)
  omega

/-- Over a library without errors a lookup of `a` leaves the cache to the lookups
after it, and the breaker as it was, exactly when the key of `a` is short enough
for the controller. -/
theorem interference_iff (lib : Openframe) (s : Store) (a b : Str) :
    (LeavesConsulting lib s a b ↔ (registerKey lib a).length ≤ 255) ∧
      (LeavesBreaker lib s a ↔ (registerKey lib a).length ≤ 255) := by
  constructor
  · refine ⟨fun leaves => ?_, leavesConsulting_of_fits⟩
    by_contra long
    exact not_leavesConsulting_of_long b (by omega) leaves
  · refine ⟨fun leaves => ?_, leavesBreaker_of_fits⟩
    by_contra long
    exact not_leavesBreaker_of_long (by omega) leaves

/-- After a target of 243 letters the breaker refuses every other callsign. -/
theorem longTarget_interferes : ¬ ∀ (lib : Openframe) (s : Store) (a b : Str),
    LeavesConsulting lib s a b ∧ LeavesBreaker lib s a := by
  intro leaves
  have long : 255 < (registerKey .textual (List.replicate 243 65)).length := by
    have upper (s : Str) : (Openframe.textual.toUpper s).length = s.length := List.length_map _
    rw [registerKey, MemcachedController.length_cacheKey, upper, List.length_replicate]
    decide
  exact not_leavesConsulting_of_long (lit "N0CALL") long
    (leaves .textual .blank (List.replicate 243 65) (lit "N0CALL")).1

end Store
end ApnsPusher
