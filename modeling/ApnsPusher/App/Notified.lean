import ApnsPusher.App.Served
import ApnsPusher.Registered
import ApnsPusher.Store.Reading

/-!
# Whom the application notifies

The application with its workers over one memcached, with its clock, and one table. What
holds of the workers' runs holds of it: memcached hands over nothing that is an hour
old, and every message queued in an `APNS` is for a registered device.
-/
namespace ApnsPusher

open Effects Worker

namespace App.Served

variable {n m : Nat}

/-- In every run of the application everything that memcached hands to a worker was put
less than an hour before, no later put for its key was reported stored, and it is what SQL
answered the worker that put it. -/
theorem hits_fresh (lib : Openframe) (maxQueue : Int) (enableFeedback : Bool) (now : Int)
    (table : Str → List ApnsRegister) (s : Served n m (Expiring (Fin n)))
    (reachable : Reachable (expiringWorkers (Fin n) lib) lib maxQueue enableFeedback
      (Expiring.initial now table) s)
    (front : List (Entry (Fin n) Call Answer (Expiring (Fin n)) Unit))
    (read : Entry (Fin n) Call Answer (Expiring (Fin n)) Unit) (upTo : front ++ [read] <+: s.log)
    (ns key buf payload : Str)
    (event : read.event = ⟨.memcachedGet ns key buf, (.ok .success, payload)⟩) :
    ∃ before asked put since, front = before ++ put :: since ∧
      FreshHit lib before asked put since read ns key payload := by
  obtain ⟨state, c, reached, agrees⟩ := reachable.simulated rfl
  exact freshHit_of_reachable reached (agrees.log ▸ upTo) event

/-- What is queued in a worker's `APNS` was pushed in one of its calls of `run`. -/
theorem push_of_queued {lib : Openframe} {maxQueue : Int} {enableFeedback : Bool} {σ : Type}
    {machine : Machine (Fin n) Call Answer σ Unit Worker Bool} {shared : σ} {s : Served n m σ}
    (reachable : Reachable machine lib maxQueue enableFeedback shared s) (i : Fin n)
    {message : Message} (queued : message ∈ (s.app.workers i).apns.apns.pushed) :
    ∃ k, ⟨.push message.message, ()⟩ ∈ own s.log (i, k) := by
  have asked := (queued_of_reachable reachable.app i).asked
  have member : message.message ∈ notifications (s.app.workers i).trace :=
    asked ▸ List.mem_map_of_mem queued
  obtain ⟨built, statistics, trace⟩ := (told_of_reachable reachable i).trace
  rw [trace] at member
  rcases List.mem_append.mp (mem_notifications.mp member) with inBuilt | inPart
  -- a constructor pushes nothing
  · cases statistics _ inBuilt
  · obtain ⟨entry, kept, event⟩ := List.mem_map.mp inPart
    obtain ⟨logged, mine⟩ := List.mem_filter.mp kept
    have mine : entry.id.1 = i := by simpa using mine
    exact ⟨entry.id.2, (mem_own s.log _ _).mpr ⟨entry, logged, Prod.ext mine rfl, event⟩⟩

/-- In every run of the application every message that any worker has queued was asked
for by a frame delivered to that worker, and goes to a device that SQL named for the
frame's target: when the same call asked, or when the call did that put the entry which
memcached handed to this one within the hour. -/
theorem pushes_registered (lib : Openframe) (blank : lib.BlankIsEmpty) (roundTrips : lib.RoundTrips)
    (tokenizes : lib.Tokenizes) (upper : lib.UpperIdempotent) (maxQueue : Int)
    (enableFeedback : Bool) (now : Int) (table : Str → List ApnsRegister)
    (s : Served n m (Expiring (Fin n)))
    (reachable : Reachable (expiringWorkers (Fin n) lib) lib maxQueue enableFeedback
      (Expiring.initial now table) s)
    (clean : StoredCleanly s.log) (i : Fin n) (message : Message)
    (queued : message ∈ (s.app.workers i).apns.apns.pushed) :
    ∃ k, Registered lib s.log (i, k) message.message := by
  obtain ⟨k, pushed⟩ := push_of_queued reachable i queued
  obtain ⟨state, c, reached, agrees⟩ := reachable.simulated rfl
  rw [← agrees.log] at clean pushed ⊢
  exact ⟨k, registered_of_push blank roundTrips tokenizes upper reached clean pushed⟩

/-- The notifications of one call of `run` are in the worker's queue, in their order. -/
theorem notifications_sublist {lib : Openframe} {maxQueue : Int} {enableFeedback : Bool} {σ : Type}
    {machine : Machine (Fin n) Call Answer σ Unit Worker Bool} {shared : σ} {s : Served n m σ}
    (reachable : Reachable machine lib maxQueue enableFeedback shared s) (i : Fin n) (k : Nat) :
    (notifications (own s.log (i, k))).Sublist
      ((s.app.workers i).apns.apns.pushed.map Message.message) := by
  obtain ⟨built, _, trace⟩ := (told_of_reachable reachable i).trace
  -- one call is part of what the worker has logged, and that is the end of its trace
  have inPart : (own s.log (i, k)).Sublist (logOf s.log i) := by
    refine List.Sublist.map _ (List.monotone_filter_right s.log fun entry mine => ?_)
    have mine : entry.id = (i, k) := of_decide_eq_true mine
    simp [mine]
  have inTrace : (own s.log (i, k)).Sublist (s.app.workers i).trace := by
    rw [trace]
    exact inPart.trans (List.sublist_append_right built _)
  rw [(queued_of_reachable reachable.app i).asked]
  exact inTrace.filterMap _

/-- An acknowledged frame is accounted for: `rows` is what SQL said of its target, the
tokens in it that `took` accepts have their `messages` in the queue in the same order, and
each of these waits there or is with exactly one SSL thread. -/
structure Accounted (lib : Openframe) (s : Served n m (Expiring (Fin n))) (i : Fin n) (k : Nat)
    (frame : StompFrame) (rows : List ApnsRegister) (took : List Bool) (messages : List Message) :
    Prop where
  answered : ∃ asked, AnsweredFor lib s.log (i, k) (targetOf lib frame.body) rows asked
  constructed : took.length = rows.length ∧
    constructions (own s.log (i, k)) = (rows.map ApnsRegister.deviceToken).zip took
  queued : messages.Sublist (s.app.workers i).apns.apns.pushed ∧
    messages.map Message.message =
      (accepted rows took).map (notificationFor productionByStrcasecmp lib frame.body)
  held : ∀ message ∈ messages, message ∈ (s.app.workers i).apns.apns.messageQ ∨
    ∃! j, message ∈ ((s.app.workers i).apns.apns.threads j).taken

/-- In every run of the application in which no register query raises, every frame that
a worker has acknowledged is accounted for, down to the SSL threads and whatever the
other threads do. -/
theorem acknowledged_accounted (lib : Openframe) (isAll : lib.IsAll) (blank : lib.BlankIsEmpty)
    (roundTrips : lib.RoundTrips) (tokenizes : lib.Tokenizes) (upper : lib.UpperIdempotent)
    (maxQueue : Int) (enableFeedback : Bool) (now : Int) (table : Str → List ApnsRegister)
    (s : Served n m (Expiring (Fin n)))
    (reachable : Reachable (expiringWorkers (Fin n) lib) lib maxQueue enableFeedback
      (Expiring.initial now table) s)
    (clean : StoredCleanly s.log) (complete : QueriesComplete s.log) (i : Fin n) (k : Nat)
    (frame : StompFrame) (delivered : ⟨.nextFrame, .frame frame⟩ ∈ own s.log (i, k))
    (wanted : Wanted lib frame.body) (messageId' sub : Str)
    (acked : ⟨.ack messageId' sub, ()⟩ ∈ own s.log (i, k)) :
    ∃ rows took messages, Accounted lib s i k frame rows took messages := by
  have inQueue := notifications_sublist reachable i k
  obtain ⟨handed, handedOver⟩ :=
    APNS.handedOver_of_reachable (inv_of_reachable reachable.app i).apns.apns
  obtain ⟨rows, asked, answered, took, length, constructed, notified⟩ : ∃ rows asked,
      AnsweredFor lib s.log (i, k) (targetOf lib frame.body) rows asked ∧
      ∃ took : List Bool, took.length = rows.length ∧
        constructions (own s.log (i, k)) = (rows.map ApnsRegister.deviceToken).zip took ∧
        notifications (own s.log (i, k)) =
          (accepted rows took).map (notificationFor productionByStrcasecmp lib frame.body) := by
    obtain ⟨state, c, reached, agrees⟩ := reachable.simulated rfl
    rw [← agrees.log] at clean complete delivered acked ⊢
    exact deliveries_of_acknowledged isAll blank roundTrips tokenizes upper reached clean complete
      delivered wanted acked
  rw [notified] at inQueue
  obtain ⟨messages, within, same⟩ := List.sublist_map_iff.mp inQueue
  refine ⟨rows, took, messages, ⟨asked, answered⟩, ⟨length, constructed⟩, ⟨within, same.symm⟩, ?_⟩
  intro message member
  -- what was queued has been handed over or still waits
  have pushed := within.subset member
  rw [handedOver.split] at pushed
  rcases List.mem_append.mp pushed with gone | waits
  · exact Or.inr (handedOver.once message gone)
  · exact Or.inl waits

/-! ### Two turns, the second answered from memcached -/

def brokerRows : List ApnsRegister := [⟨lit "1", lit "aabb", lit "prod"⟩]

def brokerKey : Str := MemcachedController.cacheKey (lit "apnsregister") (lit "N1ABC")

def brokerEntry : Str := Store.foundEntry .textual brokerRows

/-- What the first turn asks of memcached and SQL. -/
def askingTrace : Trace :=
  [⟨.memcachedGet (lit "apnsregister") (lit "N1ABC") [], (.ok .notFound, [])⟩,
    ⟨.query (lit "N1ABC"), .stored brokerRows (.ok ())⟩, ⟨.time, (1000 : Int)⟩,
    ⟨.memcachedPut (lit "apnsregister") (lit "N1ABC") brokerEntry 3600, .ok ()⟩]

def firstTurn : Trace := (brokerRun createdWorker.2).1

/-- The second turn of the worker, which memcached answers. -/
def secondTurn : Trace :=
  (Prog.play { brokerScript with get := (.ok .success, brokerEntry) }.answers 0
    (Worker.run .textual (brokerRun createdWorker.2).2.2)).1

theorem answers_apart {ι : Type} {tr : Trace} (apart : ∀ e ∈ tr, isShared e.call = false)
    (id : ι × Nat) (s : Expiring ι) (lib : Openframe) : (expiringWorkers ι lib).Answers id tr s s := by
  refine Machine.answers_of_unchanged _ fun event member => ?_
  have call := apart event member
  obtain ⟨call', answer⟩ := event
  cases call' <;> first | rfl | cases call

/-- What the workers share before the first turn and after it. -/
def sharedBefore : Expiring (Fin 1) := .initial 1000 fun _ => brokerRows

def sharedAfter : Expiring (Fin 1) := sharedBefore.store brokerKey brokerEntry 3600 (Fin.last 0, 0)

theorem answers_firstTurn :
    (expiringWorkers (Fin 1) .textual).Answers (0, 0) firstTurn sharedBefore sharedAfter := by
  have fits : MemcachedController.checkKey brokerKey = .ok () := by decide
  have split : firstTurn = firstTurn.take 11 ++ (askingTrace ++ firstTurn.drop 15) := by decide
  rw [split]
  refine Machine.answers_append _ (answers_apart (by decide) _ _ _)
    (Machine.answers_append _ ?_ (answers_apart (by decide) _ _ _))
  exact ⟨sharedBefore, Expiring.serves_miss _ _ _ _ _ fits,
    sharedBefore, ⟨rfl, by simp [sharedBefore, Expiring.initial]⟩,
    sharedBefore, rfl, sharedAfter, Expiring.serves_stored _ _ _ _ _ _ fits, rfl⟩

/-- The entry is still there when it is handed over one second before the hour is up. -/
theorem answers_secondTurn (id : Fin 1 × Nat) :
    (expiringWorkers (Fin 1) .textual).Answers id secondTurn
    { sharedAfter with now := 4599 } { sharedAfter with now := 4599 } := by
  have fits : MemcachedController.checkKey brokerKey = .ok () := by decide
  have split : secondTurn = secondTurn.take 10 ++
      (⟨.memcachedGet (lit "apnsregister") (lit "N1ABC") [], (.ok .success, brokerEntry)⟩ ::
        secondTurn.drop 11) := by decide
  rw [split]
  refine Machine.answers_append _ (answers_apart (by decide) _ _ _)
    ⟨_, ?_, answers_apart (by decide) _ _ _⟩
  refine Expiring.serves_hit _ _ _ _ _ ⟨brokerEntry, (0, 0), some 4600⟩ fits ⟨?_, ?_⟩
  · exact sharedBefore.store_items_self brokerKey brokerEntry 3600 (0, 0)
  · rintro _ ⟨⟩
    decide

/-- The worker is made, asks SQL in its first turn and is handed the entry in its second. -/
theorem twoTurns : ∃ s : Served 1 1 (Expiring (Fin 1)),
    Reachable (expiringWorkers (Fin 1) .textual) .textual 100 false sharedBefore s ∧
      s.log.map Entry.event = firstTurn ++ secondTurn ∧ own s.log (0, 1) = secondTurn ∧
      (s.app.workers 0).apns.apns.pushed.length = 2 := by
  obtain ⟨app, t, app', t', app'', t'', boots, building, builds, turns, running, zero, calls, turns',
      running', one, calls', pushed⟩ : ∃ app t app' t' app'' t'',
      playAll (App.step .textual 100) [.main] (App.initial 1 1 false) = some app ∧
      (app.workers 0).pc.phase = 1 ∧
      playAll WorkerThread.answer createdWorker.1 (app.workers 0) = some t ∧
      playAll (App.step .textual 100) [workerTurn, apnsAction .start, workerTurn, workerTurn]
        (app.setWorker 0 t) = some app' ∧
      (app'.workers 0).pc.phase = 3 ∧ (app'.workers 0).turns = 0 ∧
      playAll WorkerThread.answer firstTurn (app'.workers 0) = some t' ∧
      playAll (App.step .textual 100) [workerTurn, workerTurn] (app'.setWorker 0 t') = some app'' ∧
      (app''.workers 0).pc.phase = 3 ∧ (app''.workers 0).turns = 1 ∧
      playAll WorkerThread.answer secondTurn (app''.workers 0) = some t'' ∧
      t''.apns.apns.pushed.length = 2 :=
    ⟨_, _, _, _, _, _, rfl, rfl, rfl, rfl, rfl, rfl, rfl, rfl, rfl, rfl, rfl, rfl⟩
  have boot : Reachable (expiringWorkers (Fin 1) .textual) .textual 100 false sharedBefore
      ⟨app, sharedBefore, []⟩ := reaches_alone boots (by simp [Apart])
  have built : Reachable _ .textual 100 false sharedBefore ⟨app', sharedBefore, []⟩ :=
    (boot.trans (reaches_built builds building)).trans
      (reaches_alone turns (by simp [Apart, workerTurn, apnsAction]))
  obtain ⟨entries, events, named, steps⟩ := reaches_called (s := ⟨app', sharedBefore, []⟩) calls
    running (by rw [zero]; exact answers_firstTurn)
  -- one second is left of the hour when the second frame comes
  have waited : Reachable _ .textual 100 false sharedBefore
      ⟨app'', { sharedAfter with now := 4599 }, entries⟩ :=
    ((built.trans steps).trans (reaches_alone turns' (by simp [Apart, workerTurn]))).tail
      (.drift _ _ ⟨show (1000 : Int) ≤ 4599 by decide, fun _ => Or.inl rfl⟩)
  obtain ⟨entries', events', named', steps'⟩ := reaches_called (s := ⟨app'', _, entries⟩) calls'
    running' (answers_secondTurn _)
  refine ⟨_, waited.trans steps', ?_, ?_, ?_⟩
  · rw [List.map_append, events, events']
  · have earlier : own entries (0, 1) = [] := own_of_none fun entry member => by
      simp [named entry member, zero]
    have later : own entries' (0, 1) = entries'.map Entry.event := own_of_all fun entry member => by
      simp [named' entry member, one]
    rw [own_append, earlier, later, events', List.nil_append]
  · simpa using pushed

/-- What the two turns asked SQL. -/
theorem query_of_twoTurns {log : List (Entry (Fin 1) Call Answer (Expiring (Fin 1)) Unit)}
    (events : log.map Entry.event = firstTurn ++ secondTurn)
    {entry : Entry (Fin 1) Call Answer (Expiring (Fin 1)) Unit} (member : entry ∈ log)
    {callsign : Str} {reply : QueryReply} (event : entry.event = ⟨.query callsign, reply⟩) :
    reply = .stored brokerRows (.ok ()) := by
  have asked : queries (firstTurn ++ secondTurn) =
      [(lit "N1ABC", .stored brokerRows (.ok ()))] := by decide
  have logged : (callsign, reply) ∈ queries (firstTurn ++ secondTurn) := by
    rw [← events]
    exact List.mem_filterMap.mpr ⟨_, List.mem_map_of_mem member, by rw [event]⟩
  rw [asked] at logged
  exact (Prod.mk.inj (List.mem_singleton.mp logged)).2

theorem storedCleanly_of_twoTurns {log : List (Entry (Fin 1) Call Answer (Expiring (Fin 1)) Unit)}
    (events : log.map Entry.event = firstTurn ++ secondTurn) : StoredCleanly log := by
  intro entry member callsign rows drained event
  cases query_of_twoTurns events member event
  decide

theorem hits_fresh_twoTurns : ∃ s : Served 1 1 (Expiring (Fin 1)),
    Reachable (expiringWorkers (Fin 1) .textual) .textual 100 false sharedBefore s ∧
      ∃ front read, front ++ [read] <+: s.log ∧ ∃ earlier asked put since,
        front = earlier ++ put :: since ∧
          FreshHit .textual earlier asked put since read (lit "apnsregister") (lit "N1ABC")
            brokerEntry := by
  obtain ⟨s, reachable, events, _, _⟩ := twoTurns
  have hit : (⟨.memcachedGet (lit "apnsregister") (lit "N1ABC") [], (.ok .success, brokerEntry)⟩ :
      Event Call Answer) ∈ s.log.map Entry.event := by
    rw [events]
    decide
  obtain ⟨read, member, event⟩ := List.mem_map.mp hit
  obtain ⟨front, rest, split⟩ := List.append_of_mem member
  have upTo : front ++ [read] <+: s.log := ⟨rest, by simp [split]⟩
  exact ⟨s, reachable, front, read, upTo,
    hits_fresh .textual 100 false 1000 (fun _ => brokerRows) s reachable front read upTo _ _ _ _ event⟩

theorem pushes_registered_twoTurns : ∃ s : Served 1 1 (Expiring (Fin 1)),
    Reachable (expiringWorkers (Fin 1) .textual) .textual 100 false sharedBefore s ∧
      ∃ message ∈ (s.app.workers 0).apns.apns.pushed, ∃ k,
        Registered .textual s.log (0, k) message.message := by
  obtain ⟨s, reachable, events, _, two⟩ := twoTurns
  obtain ⟨message, queued⟩ := List.exists_mem_of_length_pos (by omega :
    0 < (s.app.workers 0).apns.apns.pushed.length)
  exact ⟨s, reachable, message, queued, pushes_registered .textual Openframe.textual_blankIsEmpty
    Openframe.textual_roundTrips Openframe.textual_tokenizes Openframe.textual_upperIdempotent 100
    false 1000 (fun _ => brokerRows) s reachable (storedCleanly_of_twoTurns events) 0 message queued⟩

def brokerFrame : StompFrame :=
  ⟨0, .commandMessage, [(lit "message-id", lit "m-1")], lit "SR:n0call|TO:n1abc|MS:hello|PA:APU25N"⟩

theorem acknowledged_accounted_twoTurns : ∃ s : Served 1 1 (Expiring (Fin 1)),
    Reachable (expiringWorkers (Fin 1) .textual) .textual 100 false sharedBefore s ∧
      ∃ rows took messages, Accounted .textual s 0 1 brokerFrame rows took messages := by
  obtain ⟨s, reachable, events, owned, _⟩ := twoTurns
  refine ⟨s, reachable, acknowledged_accounted .textual Openframe.textual_isAll
    Openframe.textual_blankIsEmpty Openframe.textual_roundTrips Openframe.textual_tokenizes
    Openframe.textual_upperIdempotent 100 false 1000 (fun _ => brokerRows) s reachable
    (storedCleanly_of_twoTurns events) ?_ 0 1 brokerFrame ?_ ?_ (lit "m-1") (lit "1") ?_⟩
  · intro entry member callsign reply event
    exact ⟨brokerRows, query_of_twoTurns events member event⟩
  · rw [owned]
    decide
  · unfold Wanted
    decide
  · rw [owned]
    decide

end App.Served
end ApnsPusher
