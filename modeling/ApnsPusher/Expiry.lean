import ApnsPusher.Effects.Abstraction
import ApnsPusher.Effects.Monitor
import ApnsPusher.Shared

/-!
# What the workers share, with the clock of memcached

Each entry has the date its expiration time comes to, and memcached hands it over
only before that date. Without the dates this is what the workers share, so that
everything known of that holds here.
-/
namespace ApnsPusher

open Effects

namespace Memcached

/-- How memcached reads an expiration time: zero is never, a negative one is now, up
to thirty days count from now, and anything above is a date. -/
def deadline (now expires : Int) : Option Int :=
  if expires = 0 then none
  else if expires < 0 then some now
  else if expires ≤ 60 * 60 * 24 * 30 then some (now + expires)
  else some expires

structure Item (ι : Type) where
  value : Str
  /-- The operation that wrote it. -/
  writer : ι × Nat
  deadline : Option Int

variable {ι : Type}

def Item.Live (item : Item ι) (now : Int) : Prop :=
  ∀ deadline, item.deadline = some deadline → now < deadline

end Memcached

open Memcached

structure Expiring (ι : Type) where
  now : Int
  items : Str → Option (Item ι)
  table : Str → List ApnsRegister

namespace Expiring

variable {ι : Type}

/-- An empty memcached over the given table. -/
def initial (now : Int) (table : Str → List ApnsRegister) : Expiring ι := ⟨now, fun _ => none, table⟩

def store (s : Expiring ι) (key value : Str) (expires : Int) (writer : ι × Nat) : Expiring ι :=
  { s with items := Function.update s.items key (some ⟨value, writer, deadline s.now expires⟩) }

@[simp] theorem store_items_self (s : Expiring ι) (key value : Str) (expires : Int)
    (writer : ι × Nat) : (s.store key value expires writer).items key =
      some ⟨value, writer, deadline s.now expires⟩ :=
  Function.update_self ..

@[simp] theorem store_items_of_ne (s : Expiring ι) {key key' : Str} (other : key' ≠ key)
    (value : Str) (expires : Int) (writer : ι × Nat) :
    (s.store key value expires writer).items key' = s.items key' :=
  Function.update_of_ne other ..

/-- There is an entry for the key, and its date has not come. -/
def Hit (s : Expiring ι) (key : Str) (item : Item ι) : Prop :=
  s.items key = some item ∧ item.Live s.now

/-- Memcached answering the library, as without the dates, but for a get and a
replace, which an entry whose date has come is not there for. -/
inductive Answers (id : ι × Nat) (s : Expiring ι) :
    Event Libmemcached.Call Libmemcached.Answer → Expiring ι → Prop
  | handed (key : Str) (item : Item ι) (hit : s.Hit key item) :
      Answers id s ⟨.get key, (.success, item.value)⟩ s
  | missed (key value : Str) (rc : Libmemcached.Return) (failed : rc ≠ .success) :
      Answers id s ⟨.get key, (rc, value)⟩ s
  | stored (key value : Str) (expires : Int) (flags : UInt32) (rc : Libmemcached.Return) :
      Answers id s ⟨.set key value expires flags, rc⟩ (s.store key value expires id)
  | refused (key value : Str) (expires : Int) (flags : UInt32) (rc : Libmemcached.Return)
      (failed : rc ≠ .success) : Answers id s ⟨.set key value expires flags, rc⟩ s
  | replaced (key value : Str) (expires : Int) (flags : UInt32) (rc : Libmemcached.Return)
      (item : Item ι) (hit : s.Hit key item) :
      Answers id s ⟨.replace key value expires flags, rc⟩ (s.store key value expires id)
  | notReplaced (key value : Str) (expires : Int) (flags : UInt32) (rc : Libmemcached.Return)
      (failed : rc ≠ .success) : Answers id s ⟨.replace key value expires flags, rc⟩ s
  | told (rc : Libmemcached.Return) (text : Str) : Answers id s ⟨.strerror rc, text⟩ s

/-- The controller runs over memcached and the query reads the table; nothing else
touches what is shared. -/
def serves (id : ι × Nat) (s : Expiring ι) : Event Call Answer → Expiring ι → Prop
  | ⟨.memcachedGet ns key buf, reply⟩, s' => ∃ tr,
    Prog.Runs (MemcachedController.get ns key buf) tr reply ∧ Follows (Answers id) s tr s'
  | ⟨.memcachedPut ns key value expires, reply⟩, s' => ∃ tr,
    Prog.Runs (MemcachedController.put ns key value expires) tr reply ∧
      Follows (Answers id) s tr s'
  | ⟨.query callsign, reply⟩, s' =>
    s' = s ∧ ∀ rows drained, reply = .stored rows drained → rows = s.table callsign
  | _, s' => s' = s

/-- The clock goes on, entries are thrown out, and the table changes. -/
def drifts (s s' : Expiring ι) : Prop :=
  s.now ≤ s'.now ∧ ∀ key, s'.items key = s.items key ∨ s'.items key = none

def machine {Op L Out : Type} (prog : Op → L → Program (Out × L)) :
    Machine ι Call Answer (Expiring ι) Op L Out where
  prog := prog
  serves := serves
  drifts := drifts

/-! ### Without the dates -/

/-- What is left when the dates are forgotten. -/
def forget (s : Expiring ι) : Shared ι :=
  ⟨fun key => (s.items key).map fun item => (item.value, item.writer), s.table⟩

theorem forget_store (s : Expiring ι) (key value : Str) (expires : Int) (writer : ι × Nat) :
    (s.store key value expires writer).forget = s.forget.write key value writer := by
  simp only [forget, Shared.write, Shared.mk.injEq]
  refine ⟨?_, rfl⟩
  funext key'
  by_cases same : key' = key
  · subst same
    simp
  · simp [same]

theorem Hit.forget {s : Expiring ι} {key : Str} {item : Item ι} (hit : s.Hit key item) :
    s.forget.cache key = some (item.value, item.writer) := by
  simp [Expiring.forget, hit.1]

theorem Answers.forget {id : ι × Nat} {s s' : Expiring ι}
    {event : Event Libmemcached.Call Libmemcached.Answer} (answers : Answers id s event s') :
    Libmemcached.Serves id s.forget event s'.forget := by
  cases answers with
  | handed key item hit => exact ⟨rfl, fun _ => ⟨item.writer, hit.forget⟩⟩
  | missed key value rc failed => exact ⟨rfl, fun success => absurd success failed⟩
  | stored key value expires flags rc => exact Or.inl (s.forget_store key value expires id)
  | refused key value expires flags rc failed => exact Or.inr ⟨failed, rfl⟩
  | replaced key value expires flags rc item hit =>
    exact Or.inl ⟨s.forget_store key value expires id, by simp [hit.forget]⟩
  | notReplaced key value expires flags rc failed => exact Or.inr ⟨failed, rfl⟩
  | told => rfl

theorem servesAll_of_follows {id : ι × Nat} {s s' : Expiring ι}
    {tr : List (Event Libmemcached.Call Libmemcached.Answer)} (follows : Follows (Answers id) s tr s') :
    Libmemcached.ServesAll id tr s.forget s'.forget := by
  induction follows with
  | nil => rfl
  | cons first _ ih => exact ⟨_, first.forget, ih⟩

theorem abstracts {Op L Out : Type} (prog : Op → L → Program (Out × L)) :
    (machine (ι := ι) prog).Abstracts (Shared.machine prog) forget where
  prog := rfl
  serves := by
    rintro id s ⟨call, answer⟩ s' served
    cases call with
    | memcachedGet ns key buf | memcachedPut ns key value expires =>
      obtain ⟨tr, runs, follows⟩ := served
      exact ⟨tr, runs, servesAll_of_follows follows⟩
    | query callsign =>
      obtain ⟨rfl, told⟩ := served
      exact ⟨rfl, told⟩
    | time | indeterminate | execute | datapoint | report | subscribe | nextFrame | frameUse | ack
    | release | newApnsMessage | push | deleteRegister | queued =>
      exact congrArg forget served
  drifts := by
    intro s s' drifted key
    -- an entry that expires is one evicted, to who does not know the time
    rcases drifted.2 key with same | gone
    · exact Or.inl (by simp [forget, same])
    · exact Or.inr (by simp [forget, gone])

/-! ### Who stored what, and when -/

theorem serves_get {id : ι × Nat} {s s' : Expiring ι} {ns key buf : Str}
    {reply : Except MemcachedControllerException MemcachedReturnEnum × Str}
    (served : serves id s ⟨.memcachedGet ns key buf, reply⟩ s') :
    s' = s ∧ (reply.1 = .ok .success →
      ∃ item, item.value = reply.2 ∧ s.Hit (MemcachedController.cacheKey ns key) item) := by
  obtain ⟨tr, runs, follows⟩ := served
  rcases runs.post (MemcachedController.get_post ns key buf) with
    ⟨rfl, _, ex, failed⟩ | ⟨str, rfl, rfl⟩ | ⟨str, rfl, rfl⟩ | ⟨code, str, text, ex, rfl, rfl⟩
  -- a key that is refused never gets to the library
  · cases follows
    exact ⟨rfl, by simp [failed]⟩
  · cases follows with
    | cons first more =>
      cases more
      cases first with
      -- only an entry that is there and has not expired is handed over
      | handed _ item hit => exact ⟨rfl, fun _ => ⟨item, rfl, hit⟩⟩
      | missed _ _ _ failed => exact absurd rfl failed
  · cases follows with
    | cons first more =>
      cases more
      cases first
      exact ⟨rfl, by simp⟩
  · cases follows with
    | cons first more =>
      cases first
      cases more with
      | cons second more =>
        cases more
        cases second
        exact ⟨rfl, by simp⟩

/-- A put that the controller reports as done has stored its value; one that raised
may have. -/
theorem serves_put {id : ι × Nat} {s s' : Expiring ι} {ns key value : Str} {expires : Int}
    {reply : Except MemcachedControllerException Unit}
    (served : serves id s ⟨.memcachedPut ns key value expires, reply⟩ s') :
    s' = s.store (MemcachedController.cacheKey ns key) value expires id ∨
      (s' = s ∧ reply ≠ .ok ()) := by
  obtain ⟨tr, runs, follows⟩ := served
  rcases runs.post (MemcachedController.put_post ns key value expires) with
    ⟨rfl, refused⟩ | ⟨rfl, rfl⟩ | ⟨rc, text, _, raised, rfl⟩
  · cases follows
    exact Or.inr ⟨rfl, refused⟩
  · cases follows with
    | cons first more =>
      cases more
      cases first with
      | stored => exact Or.inl rfl
      | refused _ _ _ _ _ failed => exact absurd rfl failed
  · cases follows with
    | cons first more =>
      cases more with
      | cons second more =>
        cases more
        cases second
        cases first with
        -- an error may be reported after the value was stored
        | stored => exact Or.inl rfl
        | refused => exact Or.inr ⟨rfl, raised⟩

theorem serves_other {id : ι × Nat} {s s' : Expiring ι} {event : Event Call Answer}
    (served : serves id s event s')
    (notPut : ∀ ns key value expires, event.call ≠ .memcachedPut ns key value expires) :
    s' = s := by
  obtain ⟨call, answer⟩ := event
  cases call with
  | memcachedGet ns key buf => exact (serves_get served).1
  | memcachedPut ns key value expires => exact absurd rfl (notPut ns key value expires)
  | query callsign => exact served.1
  | time | indeterminate | execute | datapoint | report | subscribe | nextFrame | frameUse | ack
  | release | newApnsMessage | push | deleteRegister | queued => exact served

theorem now_of_serves {id : ι × Nat} {s s' : Expiring ι} {event : Event Call Answer}
    (served : serves id s event s') : s'.now = s.now := by
  by_cases put : ∃ ns key value expires, event.call = .memcachedPut ns key value expires
  · obtain ⟨ns, key, value, expires, call⟩ := put
    obtain ⟨_, reply⟩ := event
    subst call
    rcases serves_put served with rfl | ⟨rfl, _⟩ <;> rfl
  · rw [serves_other served fun ns key value expires call => put ⟨ns, key, value, expires, call⟩]

/-! Three ways memcached can answer; they show that runs exist. -/

theorem serves_miss (id : ι × Nat) (s : Expiring ι) (ns key buf : Str)
    (fits : MemcachedController.checkKey (MemcachedController.cacheKey ns key) = .ok ()) :
    serves id s ⟨.memcachedGet ns key buf, (.ok .notFound, buf)⟩ s := by
  refine ⟨[⟨.get (MemcachedController.cacheKey ns key), (.notFound, [])⟩], ?_,
    .single (.missed _ _ _ (by simp))⟩
  simp only [MemcachedController.get, fits]
  exact ⟨(.notFound, []), [], rfl, rfl, rfl⟩

theorem serves_hit (id : ι × Nat) (s : Expiring ι) (ns key buf : Str) (item : Item ι)
    (fits : MemcachedController.checkKey (MemcachedController.cacheKey ns key) = .ok ())
    (hit : s.Hit (MemcachedController.cacheKey ns key) item) :
    serves id s ⟨.memcachedGet ns key buf, (.ok .success, item.value)⟩ s := by
  refine ⟨[⟨.get (MemcachedController.cacheKey ns key), (.success, item.value)⟩], ?_,
    .single (.handed _ item hit)⟩
  simp only [MemcachedController.get, fits]
  exact ⟨(.success, item.value), [], rfl, rfl, rfl⟩

theorem serves_stored (id : ι × Nat) (s : Expiring ι) (ns key value : Str) (expires : Int)
    (fits : MemcachedController.checkKey (MemcachedController.cacheKey ns key) = .ok ()) :
    serves id s ⟨.memcachedPut ns key value expires, .ok ()⟩
      (s.store (MemcachedController.cacheKey ns key) value expires id) := by
  refine ⟨[⟨.set (MemcachedController.cacheKey ns key) value expires 0, .success⟩], ?_,
    .single (.stored _ _ _ _ _)⟩
  simp only [MemcachedController.put, MemcachedController.store, fits]
  exact ⟨.success, [], rfl, rfl, rfl⟩

section Log

variable {Op : Type}

/-- A put under the joined key that the controller reports as done. -/
def Overwrites (joined : Str) (event : Event Call Answer) : Prop :=
  ∃ ns key value expires, event = ⟨.memcachedPut ns key value expires, .ok ()⟩ ∧
    MemcachedController.cacheKey ns key = joined

/-- The put of `item`, and nothing known to have overwritten it since. -/
structure LastStored (before : List (Entry ι Call Answer (Expiring ι) Op))
    (put : Entry ι Call Answer (Expiring ι) Op) (since : List (Entry ι Call Answer (Expiring ι) Op))
    (joined : Str) (item : Item ι) : Prop where
  writer : put.id = item.writer
  stored : ∃ ns key expires reply, put.event = ⟨.memcachedPut ns key item.value expires, reply⟩ ∧
    MemcachedController.cacheKey ns key = joined ∧ item.deadline = deadline put.found.now expires
  last : ∀ later ∈ since, ¬ Overwrites joined later.event

/-- The log has the put of `item`. -/
def StoredIn (log : List (Entry ι Call Answer (Expiring ι) Op)) (joined : Str) (item : Item ι) :
    Prop :=
  ∃ before put since, log = before ++ put :: since ∧ LastStored before put since joined item

/-- Time goes forward in the log, every entry has its put there, and an entry that
was handed over was there with its date still to come. -/
structure Dated (s : Expiring ι) (log : List (Entry ι Call Answer (Expiring ι) Op)) : Prop where
  ordered : log.Pairwise fun first second => first.found.now ≤ second.found.now
  past : ∀ entry ∈ log, entry.found.now ≤ s.now
  stored : ∀ joined item, s.items joined = some item → StoredIn log joined item
  handed : ∀ front read, front ++ [read] <+: log → ∀ ns key buf value,
    read.event = ⟨.memcachedGet ns key buf, (.ok .success, value)⟩ → ∃ item, item.value = value ∧
      read.found.Hit (MemcachedController.cacheKey ns key) item ∧
      StoredIn front (MemcachedController.cacheKey ns key) item

theorem StoredIn.snoc {log : List (Entry ι Call Answer (Expiring ι) Op)} {joined : Str}
    {item : Item ι} (stored : StoredIn log joined item) {entry : Entry ι Call Answer (Expiring ι) Op}
    (other : ¬ Overwrites joined entry.event) : StoredIn (log ++ [entry]) joined item := by
  obtain ⟨before, put, since, rfl, last⟩ := stored
  refine ⟨before, put, since ++ [entry], by simp, last.writer, last.stored, ?_⟩
  intro later member
  rcases List.mem_append.mp member with old | new
  · exact last.last later old
  · exact List.mem_singleton.mp new ▸ other

/-- What was called later was called at a later time. -/
theorem Dated.le_of_split {s : Expiring ι} {log : List (Entry ι Call Answer (Expiring ι) Op)}
    (dated : Dated s log) {before since after : List (Entry ι Call Answer (Expiring ι) Op)}
    {put read : Entry ι Call Answer (Expiring ι) Op}
    (split : log = before ++ put :: (since ++ read :: after)) : put.found.now ≤ read.found.now := by
  have ordered := dated.ordered
  rw [split] at ordered
  have later := (List.pairwise_append.mp ordered).2.1
  exact (List.pairwise_cons.mp later).1 read (by simp)

theorem dated_initial (now : Int) (table : Str → List ApnsRegister) :
    Dated (initial now table) ([] : List (Entry ι Call Answer (Expiring ι) Op)) where
  ordered := .nil
  past := by simp
  stored := by simp [initial]
  handed := by simp

theorem Dated.drift {s s' : Expiring ι} {log : List (Entry ι Call Answer (Expiring ι) Op)}
    (dated : Dated s log) (drifted : drifts s s') : Dated s' log where
  ordered := dated.ordered
  past entry member := Int.le_trans (dated.past entry member) drifted.1
  stored joined item there := by
    rcases drifted.2 joined with same | gone
    · exact dated.stored joined item (same ▸ there)
    · rw [gone] at there
      cases there
  handed := dated.handed

/-- What is in memcached after a call. -/
theorem Dated.stored_call {entry : Entry ι Call Answer (Expiring ι) Op} {s' : Expiring ι}
    {log : List (Entry ι Call Answer (Expiring ι) Op)} (dated : Dated entry.found log)
    (served : serves entry.id entry.found entry.event s') {joined : Str} {item : Item ι}
    (there : s'.items joined = some item) : StoredIn (log ++ [entry]) joined item := by
  by_cases put : ∃ ns key value expires, entry.event.call = .memcachedPut ns key value expires
  · obtain ⟨ns, key, value, expires, call⟩ := put
    obtain ⟨id, op, ⟨_, reply⟩, found⟩ := entry
    subst call
    rcases serves_put served with rfl | ⟨rfl, raised⟩
    -- this put is the one behind what is there now under its key
    · by_cases same : joined = MemcachedController.cacheKey ns key
      · subst same
        obtain rfl : _ = item := by simpa using there
        exact ⟨log, _, [], rfl, rfl, ⟨ns, key, expires, reply, rfl, rfl, rfl⟩, by simp⟩
      · refine (dated.stored joined item (by simpa [same] using there)).snoc ?_
        rintro ⟨ns', key', value', expires', event, rfl⟩
        cases event
        exact same rfl
    · refine (dated.stored joined item there).snoc ?_
      rintro ⟨_, _, _, _, event, _⟩
      cases event
      exact raised rfl
  · rw [serves_other served fun ns key value expires call => put ⟨ns, key, value, expires, call⟩]
      at there
    refine (dated.stored joined item there).snoc ?_
    rintro ⟨ns, key, value, expires, event, _⟩
    exact put ⟨ns, key, value, expires, congrArg Event.call event⟩

theorem Dated.call {entry : Entry ι Call Answer (Expiring ι) Op} {s' : Expiring ι}
    {log : List (Entry ι Call Answer (Expiring ι) Op)} (dated : Dated entry.found log)
    (served : serves entry.id entry.found entry.event s') : Dated s' (log ++ [entry]) where
  ordered := by
    refine List.pairwise_append.mpr ⟨dated.ordered, List.pairwise_singleton .., ?_⟩
    intro first member second new
    exact List.mem_singleton.mp new ▸ dated.past first member
  past := by
    intro other member
    rw [now_of_serves served]
    rcases List.mem_append.mp member with old | new
    · exact dated.past other old
    · exact List.mem_singleton.mp new ▸ Int.le_refl _
  stored _ _ there := dated.stored_call served there
  handed := by
    intro front read before ns key buf value event
    rcases List.prefix_concat_iff.mp before with whole | earlier
    · obtain ⟨rfl, new⟩ := List.append_inj' whole rfl
      obtain rfl := List.singleton_inj.mp new
      rw [event] at served
      -- what is handed over is in memcached now, so its put is in the log
      obtain ⟨item, same, hit⟩ := (serves_get served).2 rfl
      exact ⟨item, same, hit, dated.stored _ item hit.1⟩
    · exact dated.handed front read earlier ns key buf value event

theorem dated_of_reachable [DecidableEq ι] {L Out : Type} {prog : Op → L → Program (Out × L)}
    {now : Int} {table : Str → List ApnsRegister} {state : ι → L}
    {c : Config ι Call Answer (Expiring ι) Op L Out}
    (reachable : (machine prog).Reachable (initial now table) state c) : Dated c.shared c.log :=
  reachable.log_invariant Dated (dated_initial now table)
    (fun _ _ _ drifted dated => dated.drift drifted) fun _ _ _ served dated => dated.call served

end Log

end Expiring
end ApnsPusher
