import ApnsPusher.Effects.Interleaving
import ApnsPusher.Calls

/-!
# What the workers share

One memcached and one register table. A memcached entry carries, besides its
value, the operation that wrote it, which the program itself cannot see. Entries
may vanish and the table may change at any time.
-/
namespace ApnsPusher

open Effects

structure Shared (ι : Type) where
  cache : Str → Option (Str × (ι × Nat))
  /-- What the register query would answer for each callsign at this instant. -/
  table : Str → List ApnsRegister

variable {ι : Type}

def Shared.write (s : Shared ι) (key value : Str) (writer : ι × Nat) : Shared ι :=
  { s with cache := Function.update s.cache key (some (value, writer)) }

@[simp] theorem Shared.write_cache_self (s : Shared ι) (key value : Str) (writer : ι × Nat) :
    (s.write key value writer).cache key = some (value, writer) :=
  Function.update_self ..

@[simp] theorem Shared.write_cache_of_ne (s : Shared ι) (key value : Str) (writer : ι × Nat)
    (key' : Str) (other : key' ≠ key) : (s.write key value writer).cache key' = s.cache key' :=
  Function.update_of_ne other ..

/-- Memcached answering the library. A get may miss at any time; a set that
reports an error may still have stored its value; a replace stores only over a value. -/
def Libmemcached.Serves (id : ι × Nat) (s : Shared ι) :
    Event Libmemcached.Call Libmemcached.Answer → Shared ι → Prop
  | ⟨.get key, (rc, value)⟩, s' =>
    s' = s ∧ (rc = .success → ∃ writer, s.cache key = some (value, writer))
  | ⟨.set key value _ _, rc⟩, s' => s' = s.write key value id ∨ (rc ≠ .success ∧ s' = s)
  | ⟨.replace key value _ _, rc⟩, s' =>
    (s' = s.write key value id ∧ (s.cache key).isSome = true) ∨ (rc ≠ .success ∧ s' = s)
  | ⟨.strerror _, _⟩, s' => s' = s

def Libmemcached.ServesAll (id : ι × Nat) :
    List (Event Libmemcached.Call Libmemcached.Answer) → Shared ι → Shared ι → Prop
  | [], s, s' => s' = s
  | event :: tr, s, s' => ∃ mid, Serves id s event mid ∧ ServesAll id tr mid s'

namespace Shared

/-- A call of the controller is answered by running the controller over memcached;
the query reads the table; nothing else touches what is shared. -/
def serves (id : ι × Nat) (s : Shared ι) : Event Call Answer → Shared ι → Prop
  | ⟨.memcachedGet ns key buf, reply⟩, s' => ∃ tr,
    Prog.Runs (MemcachedController.get ns key buf) tr reply ∧ Libmemcached.ServesAll id tr s s'
  | ⟨.memcachedPut ns key value expires, reply⟩, s' => ∃ tr,
    Prog.Runs (MemcachedController.put ns key value expires) tr reply ∧
      Libmemcached.ServesAll id tr s s'
  | ⟨.query callsign, reply⟩, s' =>
    s' = s ∧ ∀ rows drained, reply = .stored rows drained → rows = s.table callsign
  | _, s' => s' = s

/-- Eviction and expiry, and any change of the table. -/
def drifts (s s' : Shared ι) : Prop := ∀ key, s'.cache key = s.cache key ∨ s'.cache key = none

/-- Workers whose operations are `prog`, over one memcached and one table. -/
def machine {Op L Out : Type} (prog : Op → L → Program (Out × L)) :
    Machine ι Call Answer (Shared ι) Op L Out where
  prog := prog
  serves := serves
  drifts := drifts

/-- An empty memcached over the given table. -/
def initial (table : Str → List ApnsRegister) : Shared ι := ⟨fun _ => none, table⟩

theorem serves_get (id : ι × Nat) (s s' : Shared ι) (ns key buf : Str)
    (reply : Except MemcachedControllerException MemcachedReturnEnum × Str)
    (served : serves id s ⟨.memcachedGet ns key buf, reply⟩ s') :
    s' = s ∧
      ((reply.1 = .ok .success ∧
        ∃ writer, s.cache (MemcachedController.cacheKey ns key) = some (reply.2, writer)) ∨
      (reply.1 ≠ .ok .success ∧ reply.2 = buf)) := by
  obtain ⟨tr, runs, answers⟩ := served
  rcases runs.post (MemcachedController.get_post ns key buf) with
    ⟨rfl, same, ex, failed⟩ | ⟨str, rfl, rfl⟩ | ⟨str, rfl, rfl⟩ | ⟨code, str, text, ex, rfl, rfl⟩
  · exact ⟨answers, Or.inr ⟨by simp [failed], same⟩⟩
  · obtain ⟨mid, ⟨rfl, found⟩, rfl⟩ := answers
    exact ⟨rfl, Or.inl ⟨rfl, found rfl⟩⟩
  · obtain ⟨mid, ⟨rfl, _⟩, rfl⟩ := answers
    exact ⟨rfl, Or.inr ⟨by simp, rfl⟩⟩
  · obtain ⟨mid, ⟨rfl, _⟩, mid', same, rfl⟩ := answers
    exact ⟨same, Or.inr ⟨by simp, rfl⟩⟩

theorem serves_put (id : ι × Nat) (s s' : Shared ι) (ns key value : Str) (expires : Int)
    (reply : Except MemcachedControllerException Unit)
    (served : serves id s ⟨.memcachedPut ns key value expires, reply⟩ s') :
    s' = s ∨ s' = s.write (MemcachedController.cacheKey ns key) value id := by
  obtain ⟨tr, runs, answers⟩ := served
  rcases runs.post (MemcachedController.put_post ns key value expires) with
    ⟨rfl, _⟩ | ⟨rfl, _⟩ | ⟨rc, text, _, _, rfl⟩
  · exact Or.inl answers
  · obtain ⟨mid, written, rfl⟩ := answers
    rcases written with same | ⟨failed, same⟩
    · exact Or.inr same
    · exact Or.inl same
  · obtain ⟨mid, written, mid', same, rfl⟩ := answers
    obtain rfl : s' = mid := same
    rcases written with same | ⟨_, same⟩
    · exact Or.inr same
    · exact Or.inl same

theorem serves_miss (id : ι × Nat) (s : Shared ι) (ns key buf : Str)
    (fits : MemcachedController.checkKey (MemcachedController.cacheKey ns key) = .ok ()) :
    serves id s ⟨.memcachedGet ns key buf, (.ok .notFound, buf)⟩ s := by
  refine ⟨[⟨.get (MemcachedController.cacheKey ns key), (.notFound, [])⟩], ?_, s, ⟨rfl, by simp⟩, rfl⟩
  simp only [MemcachedController.get, fits]
  exact ⟨(.notFound, []), [], rfl, rfl, rfl⟩

theorem serves_hit (id : ι × Nat) (s : Shared ι) (ns key buf value : Str) (writer : ι × Nat)
    (fits : MemcachedController.checkKey (MemcachedController.cacheKey ns key) = .ok ())
    (hit : s.cache (MemcachedController.cacheKey ns key) = some (value, writer)) :
    serves id s ⟨.memcachedGet ns key buf, (.ok .success, value)⟩ s := by
  refine ⟨[⟨.get (MemcachedController.cacheKey ns key), (.success, value)⟩], ?_, s,
    ⟨rfl, fun _ => ⟨writer, hit⟩⟩, rfl⟩
  simp only [MemcachedController.get, fits]
  exact ⟨(.success, value), [], rfl, rfl, rfl⟩

theorem serves_stored (id : ι × Nat) (s : Shared ι) (ns key value : Str) (expires : Int)
    (fits : MemcachedController.checkKey (MemcachedController.cacheKey ns key) = .ok ()) :
    serves id s ⟨.memcachedPut ns key value expires, .ok ()⟩
      (s.write (MemcachedController.cacheKey ns key) value id) := by
  refine ⟨[⟨.set (MemcachedController.cacheKey ns key) value expires 0, .success⟩], ?_, _,
    Or.inl rfl, rfl⟩
  simp only [MemcachedController.put, MemcachedController.store, fits]
  exact ⟨.success, [], rfl, rfl, rfl⟩

theorem serves_other (id : ι × Nat) (s s' : Shared ι) (event : Event Call Answer)
    (served : serves id s event s')
    (notPut : ∀ ns key value expires, event.call ≠ .memcachedPut ns key value expires) :
    s' = s := by
  obtain ⟨call, answer⟩ := event
  cases call with
  | memcachedGet ns key buf => exact (serves_get id s s' ns key buf answer served).1
  | memcachedPut ns key value expires => exact absurd rfl (notPut ns key value expires)
  | query callsign => exact served.1
  | time | indeterminate | execute | datapoint | report | subscribe | nextFrame | frameUse | ack
  | release | newApnsMessage | push | deleteRegister | queued => exact served

variable {Op : Type}

/-- Operation `writer` has put `value` under the joined key. -/
def Written (log : List (Entry ι Call Answer (Shared ι) Op)) (cacheKey value : Str)
    (writer : ι × Nat) : Prop :=
  ∃ entry ∈ log, entry.id = writer ∧ ∃ ns key expires reply,
    entry.event = ⟨.memcachedPut ns key value expires, reply⟩ ∧
      MemcachedController.cacheKey ns key = cacheKey

/-- Everything in memcached was put there by the operation it names, everything
read from it was in it, and every query was answered from the table. -/
structure Explained (s : Shared ι) (log : List (Entry ι Call Answer (Shared ι) Op)) : Prop where
  cached : ∀ cacheKey value writer, s.cache cacheKey = some (value, writer) →
    Written log cacheKey value writer
  handedOver : ∀ entry ∈ log, ∀ ns key buf value,
    entry.event = ⟨.memcachedGet ns key buf, (.ok .success, value)⟩ →
      ∃ writer, entry.found.cache (MemcachedController.cacheKey ns key) = some (value, writer) ∧
        Written log (MemcachedController.cacheKey ns key) value writer
  untouched : ∀ entry ∈ log, ∀ ns key buf ex value,
    entry.event = ⟨.memcachedGet ns key buf, (.error ex, value)⟩ → value = buf
  queried : ∀ entry ∈ log, ∀ callsign rows drained,
    entry.event = ⟨.query callsign, .stored rows drained⟩ → rows = entry.found.table callsign

theorem Written.append {log more : List (Entry ι Call Answer (Shared ι) Op)} {cacheKey value : Str}
    {writer : ι × Nat} (written : Written log cacheKey value writer) :
    Written (log ++ more) cacheKey value writer := by
  obtain ⟨entry, member, rest⟩ := written
  exact ⟨entry, List.mem_append_left _ member, rest⟩

theorem explained_initial (table : Str → List ApnsRegister) :
    Explained (initial table) ([] : List (Entry ι Call Answer (Shared ι) Op)) where
  cached := by intro _ _ _ hit; cases hit
  handedOver := by intro _ member; cases member
  untouched := by intro _ member; cases member
  queried := by intro _ member; cases member

theorem explained_drift (s s' : Shared ι) (log : List (Entry ι Call Answer (Shared ι) Op))
    (drifted : drifts s s') (explained : Explained s log) : Explained s' log where
  cached := by
    intro cacheKey value writer hit
    rcases drifted cacheKey with same | gone
    · exact explained.cached cacheKey value writer (same ▸ hit)
    · rw [gone] at hit
      cases hit
  handedOver := explained.handedOver
  untouched := explained.untouched
  queried := explained.queried

theorem explained_call (entry : Entry ι Call Answer (Shared ι) Op) (s' : Shared ι)
    (log : List (Entry ι Call Answer (Shared ι) Op))
    (served : serves entry.id entry.found entry.event s')
    (explained : Explained entry.found log) : Explained s' (log ++ [entry]) where
  cached := by
    intro cacheKey value writer hit
    -- only a put changes memcached, and only at its own key
    by_cases put : ∃ ns key value expires, entry.event.call = .memcachedPut ns key value expires
    · obtain ⟨ns, key, value', expires, call⟩ := put
      obtain ⟨id, op, ⟨_, reply⟩, found⟩ := entry
      subst call
      rcases serves_put id found s' ns key value' expires reply served with rfl | rfl
      · exact (explained.cached cacheKey value writer hit).append
      · by_cases same : cacheKey = MemcachedController.cacheKey ns key
        · subst same
          simp only [write_cache_self, Option.some.injEq, Prod.mk.injEq] at hit
          obtain ⟨rfl, rfl⟩ := hit
          exact ⟨_, List.mem_append_right _ (List.mem_singleton.mpr rfl), rfl, ns, key, expires,
            reply, rfl, rfl⟩
        · rw [write_cache_of_ne _ _ _ _ _ same] at hit
          exact (explained.cached cacheKey value writer hit).append
    · rw [serves_other entry.id entry.found s' entry.event served
        fun ns key value expires call => put ⟨ns, key, value, expires, call⟩] at hit
      exact (explained.cached cacheKey value writer hit).append
  handedOver := by
    intro other member ns key buf value event
    rcases List.mem_append.mp member with old | new
    · obtain ⟨writer, hit, written⟩ := explained.handedOver other old ns key buf value event
      exact ⟨writer, hit, written.append⟩
    · obtain rfl := List.mem_singleton.mp new
      rw [event] at served
      -- memcached held the value when it was handed over
      rcases (serves_get _ _ _ _ _ _ _ served).2 with ⟨_, writer, hit⟩ | ⟨missed, _⟩
      · exact ⟨writer, hit, (explained.cached _ _ _ hit).append⟩
      · exact absurd rfl missed
  untouched := by
    intro other member ns key buf ex value event
    rcases List.mem_append.mp member with old | new
    · exact explained.untouched other old ns key buf ex value event
    · obtain rfl := List.mem_singleton.mp new
      rw [event] at served
      rcases (serves_get _ _ _ _ _ _ _ served).2 with ⟨ok, _⟩ | ⟨_, same⟩
      · cases ok
      · exact same
  queried := by
    intro other member callsign rows drained event
    rcases List.mem_append.mp member with old | new
    · exact explained.queried other old callsign rows drained event
    · obtain rfl := List.mem_singleton.mp new
      rw [event] at served
      exact served.2 rows drained rfl

theorem explained_of_reachable [DecidableEq ι] {L Out : Type}
    {prog : Op → L → Program (Out × L)} {table : Str → List ApnsRegister} {state : ι → L}
    {c : Config ι Call Answer (Shared ι) Op L Out}
    (reachable : (machine prog).Reachable (initial table) state c) :
    Explained c.shared c.log :=
  reachable.log_invariant Explained (explained_initial table) explained_drift explained_call

end Shared
end ApnsPusher
