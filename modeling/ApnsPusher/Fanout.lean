import ApnsPusher.Dispatch.Broker
import ApnsPusher.Store.Interference
import ApnsPusher.Worker.Acknowledge
import ApnsPusher.Worker.Session
import Mathlib.Data.List.Induction

/-!
# Any number of workers on one destination

Every worker subscribes to the notification destination for itself, and has only
memcached and SQL in common with the others. What is published reaches the workers as
the broker treats the destination.
-/
namespace ApnsPusher

open Effects Dispatch Store Worker

/-- How a STOMP broker treats a destination. -/
def destinationKind (destination : Str) : Option Kind :=
  if lit "/topic/" <+: destination then some .topic
  else if lit "/queue/" <+: destination then some .queue
  else none

/-- What the workers share, and the broker they are subscribed with. -/
structure Site (ι : Type) where
  shared : Shared ι
  broker : Broker ι Str Str

namespace Site

variable {ι : Type} [DecidableEq ι]

def initial (table : Str → List ApnsRegister) : Site ι := ⟨.initial table, .empty⟩

/-- The broker answers what concerns subscriptions and frames. A frame that is no
message is not one of the items published. -/
def serves (id : ι × Nat) (s : Site ι) : Event Call Answer → Site ι → Prop
  | ⟨.subscribe destination _, ok⟩, s' =>
    s' = if ok then { s with broker := s.broker.subscribe id.1 destination } else s
  | ⟨.nextFrame, .none⟩, s' => s' = s
  -- the connection is never lost
  | ⟨.nextFrame, .raised _⟩, _ => False
  | ⟨.nextFrame, .frame frame⟩, s' => (¬ Usable frame ∧ s' = s) ∨
    (Usable frame ∧ s'.shared = s.shared ∧ ∃ item, s.broker.published[item]? = some frame.body ∧
      s.broker.Delivers id item s'.broker)
  | event, s' => s'.broker = s.broker ∧ Shared.serves id s.shared event s'.shared

/-- Beside what drifts anyway, messages are published once all workers have subscribed. -/
inductive Drifts (s : Site ι) : Site ι → Prop
  | shared (shared : Shared ι) (drifted : Shared.drifts s.shared shared) :
      Drifts s { s with shared := shared }
  | publish (body : Str) (broker : Broker ι Str Str)
      (subscribed : ∀ i, (s.broker.subscription i).isSome = true)
      (publishes : s.broker.Publishes destinationKind kDefaultStompDestNotifyMessages body broker) :
      Drifts s { s with broker := broker }

/-- The workers, each calling `run` again and again. -/
def machine (ι : Type) [DecidableEq ι] (lib : Openframe) :
    Machine ι Call Answer (Site ι) Unit Worker Bool where
  prog _ := Worker.run lib
  serves := serves
  drifts := Drifts

/-- What an answered call does to the broker. -/
theorem broker_of_serves {id : ι × Nat} {s s' : Site ι} {event : Event Call Answer}
    (served : serves id s event s') :
    s'.broker = s.broker ∨ (∃ destination, s'.broker = s.broker.subscribe id.1 destination) ∨
      ∃ frame item, event = ⟨.nextFrame, .frame frame⟩ ∧ Usable frame ∧
        s.broker.published[item]? = some frame.body ∧ s.broker.Delivers id item s'.broker := by
  obtain ⟨call, answer⟩ := event
  cases call with
  | subscribe destination sub =>
    cases answer with
    | false => exact Or.inl (congrArg broker served)
    | true => exact Or.inr (Or.inl ⟨destination, congrArg broker served⟩)
  | nextFrame =>
    cases answer with
    | none => exact Or.inl (congrArg broker served)
    | raised message => exact served.elim
    | frame frame =>
      rcases served with ⟨_, same⟩ | ⟨usable, _, item, content, delivers⟩
      · exact Or.inl (congrArg broker same)
      · exact Or.inr (Or.inr ⟨frame, item, rfl, usable, content, delivers⟩)
  | memcachedGet | memcachedPut | time | indeterminate | query | execute | datapoint | report
  | frameUse | ack | release | newApnsMessage | push | deleteRegister | queued => exact Or.inl served.1

/-- The broker keeps its promise, and every receipt has its frame in the log. -/
structure Handed (s : Site ι) (log : List (Entry ι Call Answer (Site ι) Unit)) : Prop where
  once : s.broker.Once
  framed : ∀ receipt item, (receipt, item) ∈ s.broker.received → ∃ frame, Usable frame ∧
    s.broker.published[item]? = some frame.body ∧
      ∃ entry ∈ log, entry.id = receipt ∧ entry.event = ⟨.nextFrame, .frame frame⟩

omit [DecidableEq ι] in
theorem handed_initial (table : Str → List ApnsRegister) :
    Handed (initial table : Site ι) [] :=
  ⟨Broker.once_empty, by intro _ _ member; cases member⟩

theorem handed_drift (s s' : Site ι) (log : List (Entry ι Call Answer (Site ι) Unit))
    (drifted : Drifts s s') (handed : Handed s log) : Handed s' log := by
  cases drifted with
  | shared => exact ⟨handed.once, handed.framed⟩
  | publish body broker _ publishes =>
    refine ⟨handed.once.publishes publishes, ?_⟩
    intro receipt item received
    obtain ⟨frame, usable, content, logged⟩ :=
      handed.framed receipt item (publishes.received ▸ received)
    refine ⟨frame, usable, ?_, logged⟩
    rw [publishes.published, List.getElem?_append_left (List.getElem?_eq_some_iff.mp content).1]
    exact content

theorem handed_call (entry : Entry ι Call Answer (Site ι) Unit) (s' : Site ι)
    (log : List (Entry ι Call Answer (Site ι) Unit))
    (served : serves entry.id entry.found entry.event s') (handed : Handed entry.found log) :
    Handed s' (log ++ [entry]) := by
  have older (receipt : ι × Nat) (item : Nat)
      (received : (receipt, item) ∈ entry.found.broker.received) : ∃ frame, Usable frame ∧
        entry.found.broker.published[item]? = some frame.body ∧
          ∃ other ∈ log ++ [entry], other.id = receipt ∧ other.event = ⟨.nextFrame, .frame frame⟩ := by
    obtain ⟨frame, usable, content, other, member, logged⟩ := handed.framed receipt item received
    exact ⟨frame, usable, content, other, List.mem_append_left _ member, logged⟩
  rcases broker_of_serves served with same | ⟨destination, same⟩ |
    ⟨frame, item, event, usable, content, delivers⟩
  · exact ⟨same ▸ handed.once, same ▸ older⟩
  · refine ⟨same ▸ handed.once.subscribe _ _, ?_⟩
    rw [same]
    exact older
  · refine ⟨handed.once.delivers delivers, ?_⟩
    intro receipt item' received
    rw [delivers.received] at received
    rw [delivers.published]
    rcases List.mem_append.mp received with old | new
    · exact older receipt item' old
    · obtain ⟨rfl, rfl⟩ := Prod.mk.inj (List.mem_singleton.mp new)
      exact ⟨frame, usable, content, entry, List.mem_append_right _ (List.mem_singleton_self _), rfl,
        event⟩

theorem handed_of_reachable {lib : Openframe} {table : Str → List ApnsRegister} {state : ι → Worker}
    {c : Config ι Call Answer (Site ι) Unit Worker Bool}
    (reachable : (machine ι lib).Reachable (initial table) state c) : Handed c.shared c.log :=
  reachable.log_invariant Handed (handed_initial table) handed_drift handed_call

/-! ### Notifications for one message -/

section Notifications

variable (lib : Openframe) (c : Config ι Call Answer (Site ι) Unit Worker Bool)

/-- The notifications enqueued for an item, by all calls of `run` that received it. -/
def enqueued (item : Nat) : List ApnsMessage :=
  notifications ((c.log.filter fun entry => (entry.id, item) ∈ c.shared.broker.received).map
    Entry.event)

/-- A call of `run` that received the item looked the target up and found `rows`. -/
inductive Matched (item : Nat) (target : Str) (rows : List ApnsRegister) : Prop
  | intro (id : ι × Nat) (received : (id, item) ∈ c.shared.broker.received) (s s' : Store)
      (count : Nat) (lookup : Trace) (during : lookup <:+: own c.log id)
      (looks : Prog.Runs (s.getApnsRegisterByCallsign lib target []) lookup ((count, rows), s'))

/-- No notification is enqueued for a message more often than matching rows ask for it. -/
def OnePerRow : Prop :=
  ∀ item body, c.shared.broker.published[item]? = some body → ∀ message ∈ enqueued c item,
    ∃ rows, Matched lib c item (messageOf lib (lib.parse body)).target rows ∧
      (enqueued c item).count message ≤
        (rows.map (messageOf lib (lib.parse body)).notification).count message

end Notifications

/-- A body that makes a worker look its target up. -/
def Notifiable (lib : Openframe) (body : Str) : Prop :=
  Complete lib body ∧ (messageOf lib (lib.parse body)).isAckonly = false

/-- In no run of `n` new workers does a message published from `bodies` get more
notifications than its rows ask for. -/
def Unmultiplied (lib : Openframe) (n : Nat) (bodies : List Str) : Prop :=
  ∀ (table : Str → List ApnsRegister) (state : Fin n → Worker),
    (∀ i, ∃ tr, Prog.Runs Worker.create tr (state i)) →
    ∀ c, (machine (Fin n) lib).Reachable (initial table) state c →
      c.shared.broker.published <+: bodies → OnePerRow lib c

/-! ### Each worker on its own -/

section Alone

variable {lib : Openframe} {table : Str → List ApnsRegister} {state : ι → Worker}
  {c : Config ι Call Answer (Site ι) Unit Worker Bool}

omit [DecidableEq ι] in
theorem notifications_of_kind {kind : Call → Bool}
    (apart : ∀ call, kind call = true → isDelivery call = false) {tr : Trace}
    (calls : ∀ e ∈ tr, kind e.call = true) : notifications tr = [] :=
  (projections_of_calls apart calls).2.2.1

omit [DecidableEq ι] in
theorem notifications_lookup {s : Store} {target : Str} {lookup : Trace}
    {result : (Nat × List ApnsRegister) × Store}
    (looks : Prog.Runs (s.getApnsRegisterByCallsign lib target []) lookup result) :
    notifications lookup = [] :=
  notifications_of_kind isDelivery_of_isLookup (lookupTrace_of_runs looks).calls

omit [DecidableEq ι] in
/-- A walk over the rows enqueues some of what they ask for, in their order. -/
theorem notifications_walk {pm : ProcessMessage} {rows : List ApnsRegister} {loop : Trace}
    {left : List (Nat × ApnsRegister)} {numSent : Nat}
    (walks : Prog.Runs (queueRegisters pm (allocate rows) 0) loop (left, numSent)) :
    (notifications loop).Sublist (rows.map pm.notification) := by
  obtain ⟨attempts, walked, rfl, _⟩ := attempts_of_runs walks
  have same : rows.map pm.notification = attempts.map fun a => pm.notification a.ar := by
    rw [← allocate_rows rows, ← walked, List.map_map, List.map_map]
    rfl
  rw [notifications_attempts, same]
  exact List.filter_sublist.map _

/-- What one call of `run` has enqueued for the message it received. -/
theorem enqueued_alone (reachable : (machine ι lib).Reachable (initial table) state c)
    {id : ι × Nat} {item : Nat} (received : (id, item) ∈ c.shared.broker.received) {body : Str}
    (content : c.shared.broker.published[item]? = some body) :
    notifications (own c.log id) = [] ∨ Notifiable lib body ∧
      ∃ rows, Matched lib c item (messageOf lib (lib.parse body)).target rows ∧
        (notifications (own c.log id)).Sublist
          (rows.map (messageOf lib (lib.parse body)).notification) := by
  obtain ⟨frame, usable, carries, entry, member, rfl, event⟩ :=
    (handed_of_reachable reachable).framed id item received
  obtain rfl : frame.body = body := Option.some.inj (carries.symm.trans content)
  have delivered : (⟨.nextFrame, .frame frame⟩ : Event Call Answer) ∈ own c.log entry.id :=
    (mem_own c.log _ _).mpr ⟨entry, member, rfl, event⟩
  obtain ⟨before, rest, result, runs⟩ := reachable.runs_of_mem member
  have ran : RunTrace lib before (own c.log entry.id ++ rest) result := runs.post (run_post lib before)
  obtain ⟨front, s, message, result', whole, opening, processed⟩ :=
    ((ran.delivered (List.mem_append_left _ delivered)).resolve_right fun other => other.1 usable).2
  have opened : notifications front = [] := notifications_of_kind isDelivery_of_isOpening opening
  have closed : notifications (conclusion frame) = [] := rfl
  have sent := congrArg notifications whole
  simp only [notifications_append, opened, closed, List.nil_append, List.append_nil] at sent
  cases processed with
  | incomplete | ackonly => exact Or.inl (List.append_eq_nil_iff.mp sent).1
  | unregistered _ _ _ rows s' looks =>
    rw [notifications_lookup looks] at sent
    exact Or.inl (List.append_eq_nil_iff.mp sent).1
  | queued complete wanted lookup count rows s' looks _ loop left numSent walks =>
    by_cases none : notifications (own c.log entry.id) = []
    · exact Or.inl none
    refine Or.inr ⟨⟨complete, wanted⟩, rows, ⟨entry.id, received, s, s', count, lookup, ?_, looks⟩, ?_⟩
    · rw [List.append_assoc, ← List.append_assoc front] at whole
      -- nothing is enqueued before the lookup has returned, so the log holds all of it
      rcases List.append_eq_append_iff.mp whole with ⟨extra, early, _⟩ | ⟨extra, late, _⟩
      · have quiet := congrArg notifications early
        simp only [notifications_append, opened, notifications_lookup looks, List.append_nil] at quiet
        exact absurd (List.append_eq_nil_iff.mp quiet.symm).1 none
      · exact ⟨front, extra, late.symm⟩
    · have ends : notifications [⟨.queued numSent, ()⟩] = [] := rfl
      simp only [notifications_append, notifications_lookup looks, ends, List.append_nil,
        List.nil_append] at sent
      have begins : (notifications (own c.log entry.id)).Sublist (notifications loop) :=
        sent ▸ List.sublist_append_left _ _
      exact begins.trans (notifications_walk walks)

/-- A message that one call of `run` received got what that call enqueued. -/
theorem enqueued_of_only {id : ι × Nat} {item : Nat}
    (received : (id, item) ∈ c.shared.broker.received)
    (only : ∀ other, (other, item) ∈ c.shared.broker.received → other = id) :
    enqueued c item = notifications (own c.log id) := by
  have same : (fun entry : Entry ι Call Answer (Site ι) Unit =>
      decide ((entry.id, item) ∈ c.shared.broker.received)) = fun entry => decide (entry.id = id) := by
    funext entry
    refine decide_eq_decide.mpr ⟨only entry.id, ?_⟩
    rintro rfl
    exact received
  rw [enqueued, same, own]

/-- Something enqueued for an item was enqueued by a call of `run` that received it. -/
theorem received_of_enqueued {item : Nat} {message : ApnsMessage} (member : message ∈ enqueued c item) :
    ∃ id, (id, item) ∈ c.shared.broker.received ∧ message ∈ notifications (own c.log id) := by
  obtain ⟨entry, kept, pushes⟩ := List.mem_map.mp (mem_notifications.mp member)
  obtain ⟨listed, received⟩ := List.mem_filter.mp kept
  refine ⟨entry.id, of_decide_eq_true received, mem_notifications.mpr ?_⟩
  exact (mem_own c.log _ _).mpr ⟨entry, listed, rfl, pushes⟩

end Alone

theorem unmultiplied_of_alone {lib : Openframe} {n : Nat} (alone : n ≤ 1) (bodies : List Str) :
    Unmultiplied lib n bodies := by
  intro table state _ c reachable _ item body content message member
  obtain ⟨⟨i, k⟩, received, _⟩ := received_of_enqueued member
  -- the only worker received the message once
  have only : ∀ other, (other, item) ∈ c.shared.broker.received → other = (i, k) := by
    rintro ⟨j, k'⟩ again
    obtain rfl : j = i := Fin.ext (by omega)
    rw [(handed_of_reachable reachable).once.unique j k' k item again received]
  rw [enqueued_of_only received only] at member ⊢
  rcases enqueued_alone reachable received content with none | ⟨_, rows, matched, asked⟩
  · rw [none] at member
    cases member
  · exact ⟨rows, matched, asked.count_le message⟩

theorem unmultiplied_of_unnotifiable {lib : Openframe} {bodies : List Str}
    (unnotifiable : ∀ body ∈ bodies, ¬ Notifiable lib body) (n : Nat) : Unmultiplied lib n bodies := by
  intro table state _ c reachable among item body content message member
  obtain ⟨id, received, pushed⟩ := received_of_enqueued member
  have listed : body ∈ bodies := among.subset (List.mem_of_getElem? content)
  rcases enqueued_alone reachable received content with none | ⟨notifiable, _⟩
  · rw [none] at pushed
    cases pushed
  · exact absurd notifiable (unnotifiable body listed)

/-! ### A site where everything goes well -/

/-- SQL knows one device for everybody. -/
def siteScript (reply : FrameReply) : Script where
  clock := 1000
  get := (.ok .notFound, [])
  put := .ok ()
  query := .stored oneRow (.ok ())
  execute := .executed 1 (.ok ())
  accepts _ := true
  frame := reply

def Scripted (reply : FrameReply) (e : Event Call Answer) : Prop :=
  ∃ k, e.answer = libraryAnswers (siteScript reply) e.call k

theorem nextFrame_of_scripted {reply reply' : FrameReply} {tr : Trace}
    (scripted : ∀ e ∈ tr, Scripted reply e)
    (member : (⟨.nextFrame, reply'⟩ : Event Call Answer) ∈ tr) : reply' = reply := by
  obtain ⟨_, answer⟩ := scripted _ member
  exact answer

theorem get_emptyLibrary (ns key buf : Str) :
    (Prog.play MemcachedController.emptyLibrary 0 (MemcachedController.get ns key buf)).2.1 ≠
      .ok .success := by
  unfold MemcachedController.get
  split
  · simp [Prog.play]
  · simp [Prog.play, Libmemcached.get, Prog.perform, MemcachedController.emptyLibrary]

/-- Every lookup finds the one row. -/
theorem rows_of_scripted {lib : Openframe} {s : Store} {target : Str} {tr : Trace}
    {rows : List ApnsRegister} {count : Nat} {s' : Store}
    (looks : Prog.Runs (s.getApnsRegisterByCallsign lib target []) tr ((count, rows), s'))
    (scripted : ∀ e ∈ tr, ∃ reply, Scripted reply e) : rows = oneRow := by
  have missed {got : Trace} {buf : Str} {s'' : Store} (get : GetTrace onRegister (lit "apnsregister")
      (lib.toUpper target) s [] got ((true, buf), s''))
      (scripted : ∀ e ∈ got, ∃ reply, Scripted reply e) : False := by
    rcases get.source with handed | ⟨ex, _, garbage⟩
    · obtain ⟨_, _, answer⟩ := scripted _ handed
      exact get_emptyLibrary _ _ _ (congrArg Prod.fst answer).symm
    · obtain ⟨_, _, answer⟩ := scripted _ garbage
      cases answer
  cases lookupTrace_of_runs looks with
  | cachedNotFound _ _ _ get _ => exact (missed get scripted).elim
  | cachedFound _ _ _ _ get _ => exact (missed get scripted).elim
  | asked got ok buf s₁ reply put wrote s₂ get reads set =>
    obtain ⟨_, _, answer⟩ := scripted ⟨.query target, reply⟩ (by simp)
    obtain rfl : reply = .stored oneRow (.ok ()) := answer
    rfl

theorem serves_scripted (id : ι × Nat) (s : Site ι) (one : s.shared.table = fun _ => oneRow)
    (e : Event Call Answer) {reply : FrameReply} (scripted : Scripted reply e)
    (apart : isConnection e.call = false) :
    ∃ s', serves id s e s' ∧ s'.broker = s.broker ∧ s'.shared.table = fun _ => oneRow := by
  obtain ⟨call, answer⟩ := e
  obtain ⟨k, rfl⟩ : ∃ k, answer = libraryAnswers (siteScript reply) call k := scripted
  cases call with
  | memcachedGet ns key buf =>
    refine ⟨s, ⟨rfl, _, Prog.play_runs _ 0 _, ?_⟩, rfl, one⟩
    unfold MemcachedController.get
    split
    · rfl
    · exact ⟨_, ⟨rfl, by rintro ⟨⟩⟩, rfl⟩
  | memcachedPut ns key value expires =>
    cases fits : MemcachedController.checkKey (MemcachedController.cacheKey ns key) with
    | error ex =>
      refine ⟨s, ⟨rfl, _, Prog.play_runs _ 0 _, ?_⟩, rfl, one⟩
      simp only [MemcachedController.put, MemcachedController.store, fits]
      rfl
    | ok _ =>
      refine ⟨{ s with shared := s.shared.write (MemcachedController.cacheKey ns key) value id },
        ⟨rfl, _, Prog.play_runs _ 0 _, ?_⟩, rfl, one⟩
      simp only [MemcachedController.put, MemcachedController.store, fits]
      exact ⟨_, Or.inl rfl, rfl⟩
  | query callsign =>
    refine ⟨s, ⟨rfl, rfl, ?_⟩, rfl, one⟩
    rintro rows drained same
    cases same
    rw [one]
  | subscribe | nextFrame => cases apart
  | time | indeterminate | execute | datapoint | report | frameUse | ack | release | newApnsMessage
  | push | deleteRegister | queued => exact ⟨s, ⟨rfl, rfl⟩, rfl, one⟩

theorem answers_scripted (lib : Openframe) (id : ι × Nat) {reply : FrameReply} {tr : Trace}
    (scripted : ∀ e ∈ tr, Scripted reply e) (apart : ∀ e ∈ tr, isConnection e.call = false)
    (s : Site ι) (one : s.shared.table = fun _ => oneRow) :
    ∃ s', (machine ι lib).Answers id tr s s' ∧ s'.broker = s.broker ∧
      s'.shared.table = fun _ => oneRow := by
  induction tr generalizing s with
  | nil => exact ⟨s, rfl, rfl, one⟩
  | cons e rest ih =>
    obtain ⟨mid, served, same, kept⟩ := serves_scripted id s one e
      (scripted e (List.mem_cons_self ..)) (apart e (List.mem_cons_self ..))
    obtain ⟨s', answered, same', kept'⟩ := ih (fun e' later => scripted e' (List.mem_cons_of_mem _ later))
      (fun e' later => apart e' (List.mem_cons_of_mem _ later)) mid kept
    exact ⟨s', ⟨mid, served, answered⟩, same'.trans same, kept'⟩

section Runs

variable {lib : Openframe} {w : Worker} {tr : Trace} {result : Bool × Worker}

/-- A worker that is not connected subscribes, and finds no frame. -/
theorem opens_of_run (runs : Prog.Runs (Worker.run lib w) tr result)
    (scripted : ∀ e ∈ tr, Scripted .none e) (down : w.connected = false) :
    result.2.connected = true ∧ ∃ front, (∀ e ∈ front, isConnection e.call = false) ∧
      tr = front ++ [⟨.subscribe kDefaultStompDestNotifyMessages (lit "1"), true⟩,
        ⟨.nextFrame, .none⟩] := by
  cases runs.post (run_post lib w) with
  | refused front _ _ w' _ =>
    obtain ⟨_, answer⟩ := scripted ⟨.subscribe _ _, false⟩
      (List.mem_append_right _ (List.mem_singleton_self _))
    cases answer
  | raised | received =>
    cases nextFrame_of_scripted scripted (List.mem_append_right _ (List.mem_cons_self ..))
  | idle front connects w' up =>
    cases connects with
    | already _ _ connected => simp [down] at connected
    | subscribes front statistics _ =>
      exact ⟨up, front, fun e member => isConnection_of_isStatistics _ (statistics e member), by simp⟩

/-- The message of a frame is looked up, and the one row it finds is notified. -/
theorem notified_of_message {s : Store} {body : Str} {result : Bool × Store} {reply : FrameReply}
    (processed : MessageTrace lib s body tr result) (scripted : ∀ e ∈ tr, Scripted reply e)
    (notifiable : Notifiable lib body) :
    ∀ ar ∈ oneRow, (⟨.push ((messageOf lib (lib.parse body)).notification ar), ()⟩ :
      Event Call Answer) ∈ tr := by
  cases processed with
  | incomplete lacks => exact absurd notifiable.1 lacks
  | ackonly _ only => exact absurd (notifiable.2.symm.trans only) (by simp)
  | unregistered _ _ _ rows s' looks =>
    -- the lookup of the script finds a row
    obtain rfl := rows_of_scripted looks fun e member => ⟨reply, scripted e member⟩
    exact absurd (lookupTrace_of_runs looks).count (by simp [oneRow])
  | queued _ _ lookup count rows s' looks _ loop left numSent walks =>
    obtain rfl := rows_of_scripted looks fun e member =>
      ⟨reply, scripted e (List.mem_append_left _ member)⟩
    obtain ⟨attempts, walked, rfl, _⟩ := attempts_of_runs walks
    have same : attempts.map Attempt.ar = oneRow := by
      rw [← allocate_rows oneRow, ← walked, List.map_map]
      rfl
    intro ar member
    rw [← same] at member
    obtain ⟨a, attempted, rfl⟩ := List.mem_map.mp member
    -- the script takes every token
    have constructed : a.constructed = true := by
      obtain ⟨_, answer⟩ := scripted ⟨.newApnsMessage a.ar.deviceToken, a.constructed⟩ (by
        refine List.mem_append_right _ (List.mem_append_left _ ?_)
        exact List.mem_flatMap.mpr ⟨a, attempted, by simp [Attempt.trace]⟩)
      exact answer
    refine List.mem_append_right _ (List.mem_append_left _ ?_)
    exact List.mem_flatMap.mpr ⟨a, attempted, by simp [Attempt.trace, constructed]⟩

/-- A worker that is connected receives the frame and notifies the one row. -/
theorem receives_of_run (runs : Prog.Runs (Worker.run lib w) tr result) {frame : StompFrame}
    (scripted : ∀ e ∈ tr, Scripted (.frame frame) e) (up : w.connected = true)
    (usable : Usable frame) (notifiable : Notifiable lib frame.body) :
    result.2.connected = true ∧
      (∀ ar ∈ oneRow, (messageOf lib (lib.parse frame.body)).notification ar ∈ notifications tr) ∧
      ∃ front back, (∀ e ∈ front, isConnection e.call = false) ∧
        (∀ e ∈ back, isConnection e.call = false) ∧
        tr = front ++ ⟨.nextFrame, .frame frame⟩ :: back := by
  cases runs.post (run_post lib w) with
  | refused _ _ down => simp [up] at down
  | raised | idle =>
    cases nextFrame_of_scripted scripted (List.mem_append_right _ (List.mem_cons_self ..))
  | received front connects frame' tr' processed w' up' =>
    obtain rfl : frame' = frame := FrameReply.frame.inj
      (nextFrame_of_scripted scripted (List.mem_append_right _ (List.mem_cons_self ..)))
    cases connects with
    | subscribes _ _ down => simp [up] at down
    | already _ statistics _ =>
      refine ⟨up', ?_, front, tr', fun e member => isConnection_of_isStatistics _ (statistics e member),
        processed.calls, rfl⟩
      cases processed with
      | unusable other => exact absurd usable other
      | usable _ s message result processed =>
        intro ar member
        have pushed := notified_of_message processed (fun e member => scripted e (by simp [member]))
          notifiable ar member
        exact mem_notifications.mpr (by simp [pushed])

end Runs

/-! ### One message, two workers -/

/-- The workers are between their calls of `run`, and all went as scripted. -/
structure Resting (c : Config ι Call Answer (Site ι) Unit Worker Bool) : Prop where
  one : c.shared.shared.table = fun _ => oneRow
  idle : ∀ i, (c.threads i).current = none
  scripted : ∀ entry ∈ c.log, ∃ reply, Scripted reply entry.event

section Turns

variable (lib : Openframe) {c : Config ι Call Answer (Site ι) Unit Worker Bool}

/-- A worker calls `run` once while the others rest. -/
theorem runs_turn (resting : Resting c) (i : ι) {tr : Trace} {ok : Bool} {w : Worker}
    (runs : Prog.Runs (Worker.run lib (c.threads i).state) tr (ok, w)) {reply : FrameReply}
    (scripted : ∀ e ∈ tr, Scripted reply e) {s : Site ι}
    (answered : (machine ι lib).Answers (i, (c.threads i).finished) tr c.shared s)
    (one : s.shared.table = fun _ => oneRow) :
    ∃ c', Relation.ReflTransGen (machine ι lib).Step c c' ∧ Resting c' ∧ c'.shared = s ∧
      (c'.threads i).state = w ∧ (∀ j, j ≠ i → c'.threads j = c.threads j) ∧
      ∃ entries, c'.log = c.log ++ entries ∧ entries.map Entry.event = tr ∧
        ∀ entry ∈ entries, entry.id = (i, (c.threads i).finished) := by
  obtain ⟨entries, events, named, steps⟩ :=
    (machine ι lib).run_alone i () tr ok w c (resting.idle i) runs s answered
  refine ⟨_, steps, ⟨one, fun j => ?_, ?_⟩, rfl, by simp, fun j other => by simp [other], entries, rfl,
    events, fun entry member => (named entry member).1⟩
  · by_cases same : j = i
    · subst same
      simp
    · simpa [same] using resting.idle j
  · intro entry member
    rcases List.mem_append.mp member with old | new
    · exact resting.scripted entry old
    · exact ⟨reply, scripted _ (events ▸ List.mem_map_of_mem new)⟩

theorem exists_scripted (w : Worker) (reply : FrameReply) :
    ∃ tr ok w', Prog.Runs (Worker.run lib w) tr (ok, w') ∧ ∀ e ∈ tr, Scripted reply e :=
  ⟨_, _, _, Prog.play_runs (libraryAnswers (siteScript reply)) 0 _, fun _ => Prog.mem_play⟩

/-- A worker that is not connected takes a turn to subscribe. -/
theorem turn_subscribes (resting : Resting c) (i : ι) (down : (c.threads i).state.connected = false) :
    ∃ c', Relation.ReflTransGen (machine ι lib).Step c c' ∧ Resting c' ∧
      c'.shared.broker = c.shared.broker.subscribe i kDefaultStompDestNotifyMessages ∧
      (c'.threads i).state.connected = true ∧ ∀ j, j ≠ i → c'.threads j = c.threads j := by
  obtain ⟨tr, ok, w, runs, scripted⟩ := exists_scripted lib (c.threads i).state .none
  obtain ⟨up, front, apart, rfl⟩ := opens_of_run runs scripted down
  obtain ⟨s, answered, same, one⟩ := answers_scripted lib (i, (c.threads i).finished)
    (fun e member => scripted e (List.mem_append_left _ member)) apart c.shared resting.one
  have whole := Machine.answers_append _ answered
    (show (machine ι lib).Answers (i, (c.threads i).finished) [⟨.subscribe
        kDefaultStompDestNotifyMessages (lit "1"), true⟩, ⟨.nextFrame, .none⟩] s
        { s with broker := s.broker.subscribe i kDefaultStompDestNotifyMessages } from
      ⟨_, rfl, _, rfl, rfl⟩)
  obtain ⟨c', steps, resting', shared, self, others, _⟩ :=
    runs_turn lib resting i runs scripted whole one
  exact ⟨c', steps, resting', by rw [shared, same], self ▸ up, others⟩

/-- A connected worker takes a turn with one of the messages that wait for it. -/
theorem turn_receives (resting : Resting c) (i : ι) (up : (c.threads i).state.connected = true)
    {item : Nat} (waiting : item ∈ c.shared.broker.inbox i) {body : Str}
    (content : c.shared.broker.published[item]? = some body) (notifiable : Notifiable lib body) :
    ∃ c' k entries, Relation.ReflTransGen (machine ι lib).Step c c' ∧ Resting c' ∧
      c'.shared.broker.published = c.shared.broker.published ∧
      c'.shared.broker.received = c.shared.broker.received ++ [((i, k), item)] ∧
      (∀ j, j ≠ i → c'.threads j = c.threads j ∧
        c'.shared.broker.inbox j = c.shared.broker.inbox j) ∧
      c'.log = c.log ++ entries ∧ (∀ entry ∈ entries, entry.id = (i, k)) ∧
      ∀ ar ∈ oneRow, (messageOf lib (lib.parse body)).notification ar ∈
        notifications (entries.map Entry.event) := by
  obtain ⟨frame, rfl, usable⟩ : ∃ frame : StompFrame, frame.body = body ∧ Usable frame :=
    ⟨⟨0, .commandMessage, [(messageIdHeader, lit "m-1")], body⟩, rfl, rfl, rfl⟩
  obtain ⟨tr, ok, w, runs, scripted⟩ := exists_scripted lib (c.threads i).state (.frame frame)
  obtain ⟨_, notified, front, back, apart, apart', rfl⟩ :=
    receives_of_run runs scripted up usable notifiable
  obtain ⟨s, answered, same, one⟩ := answers_scripted lib (i, (c.threads i).finished)
    (fun e member => scripted e (List.mem_append_left _ member)) apart c.shared resting.one
  -- between the opening and the rest the broker hands the frame over
  obtain ⟨broker, delivers⟩ : ∃ broker, s.broker.Delivers (i, (c.threads i).finished) item broker :=
    Broker.exists_delivers (by rw [same]; exact waiting)
  have handed : serves (i, (c.threads i).finished) s ⟨.nextFrame, .frame frame⟩ ⟨s.shared, broker⟩ :=
    Or.inr ⟨usable, rfl, item, same ▸ content, delivers⟩
  obtain ⟨s', answered', same', one'⟩ := answers_scripted lib (i, (c.threads i).finished)
    (fun e member => scripted e (List.mem_append_right _ (List.mem_cons_of_mem _ member))) apart'
    ⟨s.shared, broker⟩ one
  have whole := Machine.answers_append _ answered
    (show (machine ι lib).Answers _ (⟨.nextFrame, .frame frame⟩ :: back) s s' from
      ⟨_, handed, answered'⟩)
  obtain ⟨c', steps, resting', rfl, _, others, entries, log, events, named⟩ :=
    runs_turn lib resting i runs scripted whole one'
  refine ⟨c', _, entries, steps, resting', ?_, ?_, fun j other => ⟨others j other, ?_⟩, log, named,
    events ▸ notified⟩
  · rw [same', delivers.published, same]
  · rw [same', delivers.received, same]
  · rw [same', delivers.inbox_of_ne other, same]

end Turns

theorem exists_subscribed (lib : Openframe) {state : ι → Worker}
    (down : ∀ i, (state i).connected = false) (l : List ι) :
    ∃ c, (machine ι lib).Reachable (initial fun _ => oneRow) state c ∧ Resting c ∧
      c.shared.broker.published = [] ∧ (∀ i, c.shared.broker.inbox i = []) ∧
      c.shared.broker.received = [] ∧
      (∀ i, (c.threads i).state.connected = true ↔ i ∈ l) ∧
      ∀ i ∈ l, c.shared.broker.subscription i = some kDefaultStompDestNotifyMessages := by
  induction l with
  | nil =>
    refine ⟨_, .refl, ⟨rfl, fun _ => rfl, by intro _ member; cases member⟩, rfl, fun _ => rfl, rfl, ?_,
      by intro _ member; cases member⟩
    intro i
    simp [Config.initial, down]
  | cons i l ih =>
    obtain ⟨c, reachable, resting, published, inbox, received, connected, subscribed⟩ := ih
    by_cases already : i ∈ l
    · refine ⟨c, reachable, resting, published, inbox, received, ?_, ?_⟩
      · intro j
        rw [connected, List.mem_cons]
        exact ⟨Or.inr, fun here => here.elim (fun same => same ▸ already) id⟩
      · intro j member
        exact subscribed j ((List.mem_cons.mp member).elim (fun same => same ▸ already) id)
    · have notYet : (c.threads i).state.connected = false := by
        simpa using mt (connected i).mp already
      obtain ⟨c', steps, resting', broker, up, others⟩ := turn_subscribes lib resting i notYet
      refine ⟨c', reachable.trans steps, resting', ?_, ?_, ?_, ?_, ?_⟩
      · rw [broker]
        exact published
      · rw [broker]
        exact inbox
      · rw [broker]
        exact received
      · intro j
        by_cases same : j = i
        · subst same
          simp [up]
        · rw [others j same, connected, List.mem_cons]
          simp [same]
      · intro j member
        rw [broker]
        by_cases same : j = i
        · subst same
          exact Function.update_self ..
        · exact (Function.update_of_ne same ..).trans
            (subscribed j ((List.mem_cons.mp member).resolve_left same))

/-- All workers are subscribed, and every message published waits for each of them. -/
theorem exists_published (lib : Openframe) {n : Nat} (state : Fin n → Worker)
    (down : ∀ i, (state i).connected = false) (bodies : List Str) :
    ∃ c, (machine (Fin n) lib).Reachable (initial fun _ => oneRow) state c ∧ Resting c ∧
      c.shared.broker.published = bodies ∧
      (∀ i, c.shared.broker.inbox i = List.range bodies.length) ∧
      c.shared.broker.received = [] ∧ (∀ i, (c.threads i).state.connected = true) ∧
      ∀ i, c.shared.broker.subscription i = some kDefaultStompDestNotifyMessages := by
  induction bodies using List.reverseRecOn with
  | nil =>
    obtain ⟨c, reachable, resting, published, inbox, received, connected, subscribed⟩ :=
      exists_subscribed lib down (List.finRange n)
    exact ⟨c, reachable, resting, published, inbox, received,
      fun i => (connected i).mpr (List.mem_finRange i), fun i => subscribed i (List.mem_finRange i)⟩
  | append_singleton bodies body ih =>
    obtain ⟨c, reachable, resting, published, inbox, received, connected, subscribed⟩ := ih
    have step : (machine (Fin n) lib).Step c _ := .drift c _ (.publish body _
      (fun i => by rw [subscribed i]; rfl) (.topic (by decide)))
    refine ⟨_, reachable.tail step, ⟨resting.one, resting.idle, resting.scripted⟩, ?_, ?_, received,
      connected, subscribed⟩
    · exact congrArg (· ++ [body]) published
    · intro i
      simp only [Broker.send, subscribed i, decide_true, if_true, inbox i, published,
        List.length_append, List.length_singleton, List.range_succ]

/-- Every call of `run` that received an item adds what it enqueued. -/
theorem enqueued_of_log {c : Config ι Call Answer (Site ι) Unit Worker Bool} (item : Nat)
    {front first second : List (Entry ι Call Answer (Site ι) Unit)}
    (log : c.log = front ++ first ++ second)
    (received : ∀ entry ∈ first ++ second, (entry.id, item) ∈ c.shared.broker.received) :
    ∃ before, enqueued c item = before ++ (notifications (first.map Entry.event) ++
      notifications (second.map Entry.event)) := by
  have all : (first ++ second).filter (fun entry => (entry.id, item) ∈ c.shared.broker.received) =
      first ++ second :=
    List.filter_eq_self.mpr fun entry member => decide_eq_true (received entry member)
  refine ⟨notifications ((front.filter fun entry =>
    (entry.id, item) ∈ c.shared.broker.received).map Entry.event), ?_⟩
  rw [enqueued, log, List.append_assoc, List.filter_append, all, List.map_append, List.map_append,
    notifications_append, notifications_append]

/-- Two workers of many notify the same row of the same message. -/
theorem not_unmultiplied {lib : Openframe} {n : Nat} (several : 2 ≤ n) {bodies : List Str} {body : Str}
    (listed : body ∈ bodies) (notifiable : Notifiable lib body) : ¬ Unmultiplied lib n bodies := by
  intro unmultiplied
  obtain ⟨w, created⟩ : ∃ w, ∃ tr, Prog.Runs Worker.create tr w :=
    ⟨_, _, Prog.play_runs (siteScript .none).answers 0 _⟩
  have down : w.connected = false := (created.choose_spec.post create_post).2
  obtain ⟨item, content⟩ := List.mem_iff_getElem?.mp listed
  obtain ⟨c, reachable, resting, published, inbox, none, connected, _⟩ :=
    exists_published lib (fun _ : Fin n => w) (fun _ => down) bodies
  have waiting (i : Fin n) : item ∈ c.shared.broker.inbox i := by
    rw [inbox]
    exact List.mem_range.mpr (List.getElem?_eq_some_iff.mp content).1
  -- one worker after the other, each with the message
  obtain ⟨c₁, k, first, steps, resting, published₁, received₁, others, log₁, named, notified⟩ :=
    turn_receives lib resting ⟨0, by omega⟩ (connected _) (waiting _) (published ▸ content) notifiable
  have other : (⟨1, by omega⟩ : Fin n) ≠ ⟨0, by omega⟩ := by simp
  obtain ⟨c₂, k', second, steps', resting, published₂, received₂, _, log₂, named', notified'⟩ :=
    turn_receives lib resting ⟨1, by omega⟩ (by rw [(others _ other).1]; exact connected _)
      (by rw [(others _ other).2]; exact waiting _) (published₁ ▸ published ▸ content) notifiable
  have content₂ : c₂.shared.broker.published = bodies := published₂.trans (published₁.trans published)
  obtain ⟨ar, single⟩ : ∃ ar, oneRow = [ar] := ⟨_, rfl⟩
  have row : ar ∈ oneRow := single ▸ List.mem_singleton_self ar
  obtain ⟨before, both⟩ := enqueued_of_log item (log₂.trans (congrArg (· ++ second) log₁)) (by
    intro entry member
    rw [received₂, received₁, none]
    rcases List.mem_append.mp member with member | member
    · simp [named entry member]
    · simp [named' entry member])
  have twice : 2 ≤ (enqueued c₂ item).count ((messageOf lib (lib.parse body)).notification ar) := by
    have one := List.count_pos_iff.mpr (notified ar row)
    have two := List.count_pos_iff.mpr (notified' ar row)
    rw [both, List.count_append, List.count_append]
    omega
  obtain ⟨rows, ⟨id, _, s, s', count, lookup, during, looks⟩, bound⟩ := unmultiplied (fun _ => oneRow) _
    (fun _ => created) c₂ ((reachable.trans steps).trans steps') (content₂ ▸ List.prefix_refl _) item
    body (content₂ ▸ content) _ (List.count_pos_iff.mp (Nat.lt_of_lt_of_le Nat.zero_lt_two twice))
  -- every lookup found the one row
  obtain rfl : rows = oneRow := rows_of_scripted looks fun e member => by
    obtain ⟨entry, logged, _, rfl⟩ := (mem_own _ _ _).mp (during.subset member)
    exact resting.scripted entry logged
  rw [single, List.map_singleton, List.count_singleton_self] at bound
  omega

/-- Whatever is published and however the workers take turns, no message gets more
notifications than its rows ask for exactly when there is one worker, or nothing to
notify about. -/
theorem unmultiplied_iff (lib : Openframe) (n : Nat) (bodies : List Str) :
    Unmultiplied lib n bodies ↔ n ≤ 1 ∨ ∀ body ∈ bodies, ¬ Notifiable lib body := by
  constructor
  · intro unmultiplied
    by_contra multiplies
    obtain ⟨several, notSilent⟩ := not_or.mp multiplies
    obtain ⟨body, notifiable⟩ := not_forall.mp notSilent
    obtain ⟨listed, notifiable⟩ := Classical.not_imp.mp notifiable
    exact not_unmultiplied (by omega) listed (not_not.mp notifiable) unmultiplied
  · rintro (alone | unnotifiable)
    · exact unmultiplied_of_alone alone bodies
    · exact unmultiplied_of_unnotifiable unnotifiable n

/-- Two workers, and one message. -/
theorem twoWorkers_multiply : ¬ ∀ (lib : Openframe) (n : Nat) (bodies : List Str), 1 ≤ n →
    Unmultiplied lib n bodies := by
  intro unmultiplied
  have notifiable : Notifiable .textual messageBody := by
    unfold Notifiable Complete
    decide
  exact not_unmultiplied (Nat.le_refl 2) (List.mem_singleton_self messageBody) notifiable
    (unmultiplied .textual 2 [messageBody] (by decide))

end Site
end ApnsPusher
