import ApnsPusher.Freshness

/-!
# Who is notified

A notification goes to a device that SQL named for the target of a message: in the
answer to a query of the same call of `run`, or of the call that put the entry which
memcached handed to this one, and then it was handed over within an hour of the put.
-/
namespace ApnsPusher

open Effects Store Worker

/-! ### The message behind a push -/

theorem mem_of_accepted {rows : List ApnsRegister} {took : List Bool} {row : ApnsRegister}
    (member : row ∈ accepted rows took) : row ∈ rows := by
  obtain ⟨⟨row, _⟩, kept, rfl⟩ := List.mem_map.mp member
  exact (List.of_mem_zip (List.mem_of_mem_filter kept)).1

/-- A push of a message is for a row of the lookup for its target. -/
theorem Worker.MessageTrace.pushed {lib : Openframe} {s : Store} {body : Str} {tr : Trace}
    {result : Bool × Store} (processed : MessageTrace lib s body tr result) {message : ApnsMessage}
    (pushed : (⟨.push message, ()⟩ : Event Call Answer) ∈ tr) :
    ∃ looked back count rows s', tr = looked ++ back ∧
      LookupTrace lib s (targetOf lib body) [] looked ((count, rows), s') ∧
      ∃ row ∈ rows, message = notificationFor productionByStrcasecmp lib body row := by
  cases processed with
  | incomplete | ackonly => cases pushed
  | unregistered _ _ _ rows s' lookup =>
    cases (lookupTrace_of_runs lookup).calls _ pushed
  | queued _ _ looked count rows s' lookup nonzero loop left numSent walks =>
    refine ⟨looked, _, count, rows, s', rfl, lookupTrace_of_runs lookup, ?_⟩
    rcases List.mem_append.mp pushed with inLookup | delivered
    · cases (lookupTrace_of_runs lookup).calls _ inLookup
    -- every notification of the loop is the one made from its row
    obtain ⟨took, _, _, notified⟩ :=
      (delivers_of_walks lib body rows (ne_nil_of_lookup lookup nonzero) loop left numSent
        walks).notified
    have member := mem_notifications.mpr delivered
    rw [notified] at member
    obtain ⟨row, kept, rfl⟩ := List.mem_map.mp member
    exact ⟨row, mem_of_accepted kept, rfl⟩

/-- A call of `run` that pushes was delivered a frame, has looked its target up, and
pushes for a row of the lookup. -/
theorem Worker.RunTrace.pushed {lib : Openframe} {w : Worker} {tr : Trace} {result : Bool × Worker}
    (ran : RunTrace lib w tr result) {message : ApnsMessage}
    (pushed : (⟨.push message, ()⟩ : Event Call Answer) ∈ tr) :
    ∃ frame front looked back s count rows s', tr = (front ++ looked) ++ back ∧
      (⟨.nextFrame, .frame frame⟩ : Event Call Answer) ∈ front ∧
      (∀ e ∈ front ++ looked, isDelivery e.call = false) ∧
      LookupTrace lib s (targetOf lib frame.body) [] looked ((count, rows), s') ∧
      ∃ row ∈ rows, message = notificationFor productionByStrcasecmp lib frame.body row := by
  cases ran with
  | refused tr statistics down w' stays =>
    rcases List.mem_append.mp pushed with member | member
    · cases statistics _ member
    · simp at member
  | raised tr connects | idle tr connects =>
    cases isOpening_connects connects _ pushed
  | received tr connects frame tr' processed w' up =>
    have delivered : (⟨.nextFrame, .frame frame⟩ : Event Call Answer) ∈
        tr ++ ⟨.nextFrame, .frame frame⟩ :: tr' := by simp
    rcases processed.parts connects with
      ⟨_, front, s, inside, result', whole, opening, worked⟩ | ⟨_, front, whole, opening⟩
    -- the frame was a message, and what it pushes its own work has pushed
    · rw [whole] at pushed delivered
      obtain ⟨looked, back, count, rows, s', rfl, lookup, row, member, same⟩ :
          ∃ looked back count rows s', inside = looked ++ back ∧
            LookupTrace lib s (targetOf lib frame.body) [] looked ((count, rows), s') ∧
            ∃ row ∈ rows, message = notificationFor productionByStrcasecmp lib frame.body row := by
        rcases List.mem_append.mp pushed with before | member
        · cases opening _ before
        rcases List.mem_append.mp member with member | after
        · exact worked.pushed member
        · simp [conclusion] at after
      refine ⟨frame, front, looked, back ++ conclusion frame, s, count, rows, s', ?_, ?_, ?_, lookup,
        row, member, same⟩
      · rw [whole]
        simp
      · rcases List.mem_append.mp delivered with before | member
        · exact before
        rcases List.mem_append.mp member with member | after
        · rcases worked.calls _ member with call | call <;> cases call
        · simp [conclusion] at after
      · intro e member
        rcases List.mem_append.mp member with before | inLookup
        · exact isDelivery_of_isOpening _ (opening e before)
        · exact isDelivery_of_isLookup _ (lookup.calls e inLookup)
    -- or it was passed over, and nothing was pushed
    · rw [whole] at pushed
      rcases List.mem_append.mp pushed with before | member
      · cases opening _ before
      · simp at member

/-! ### The query behind a push -/

variable {ι : Type} [DecidableEq ι]

/-- What SQL stores has no empty field and no comma in one. -/
def StoredCleanly (log : List (Entry ι Call Answer (Expiring ι) Unit)) : Prop :=
  ∀ entry ∈ log, ∀ callsign rows drained, entry.event = ⟨.query callsign, .stored rows drained⟩ →
    CleanRows rows

/-- No register query of the run raised. -/
def QueriesComplete (log : List (Entry ι Call Answer (Expiring ι) Unit)) : Prop :=
  ∀ entry ∈ log, ∀ callsign reply, entry.event = ⟨.query callsign, reply⟩ →
    ∃ rows, reply = .stored rows (.ok ())

/-- A get of operation `id` was handed the entry for `target` that the operation of the
query `asked` had put for its answer, less than an hour before. -/
def HandedWithinTheHour (lib : Openframe) (log : List (Entry ι Call Answer (Expiring ι) Unit))
    (id : ι × Nat) (target : Str) (asked : Entry ι Call Answer (Expiring ι) Unit) : Prop :=
  ∃ before put since read after payload, log = before ++ put :: (since ++ read :: after) ∧
    read.id = id ∧ read.event = ⟨.memcachedGet (lit "apnsregister") (lib.toUpper target) [],
      (.ok .success, payload)⟩ ∧
    FreshHit lib before asked put since read (lit "apnsregister") (lib.toUpper target) payload

/-- `asked` is the query of operation `id`, or the one behind the entry it was handed. -/
def BehindWithinTheHour (lib : Openframe) (log : List (Entry ι Call Answer (Expiring ι) Unit))
    (id : ι × Nat) (target : Str) (asked : Entry ι Call Answer (Expiring ι) Unit) : Prop :=
  asked.id = id ∨ HandedWithinTheHour lib log id target asked

/-- The answer `rows` for `target`: what was in the table when some query asked. -/
structure AnsweredFor (lib : Openframe) (log : List (Entry ι Call Answer (Expiring ι) Unit))
    (id : ι × Nat) (target : Str) (rows : List ApnsRegister)
    (asked : Entry ι Call Answer (Expiring ι) Unit) : Prop where
  logged : asked ∈ log
  query : ∃ drained, asked.event = ⟨.query target, .stored rows drained⟩
  registered : rows = asked.found.table target
  recent : BehindWithinTheHour lib log id target asked

/-- Operation `id` was delivered a frame and pushes to a device that is registered for
the frame's target. -/
def Registered (lib : Openframe) (log : List (Entry ι Call Answer (Expiring ι) Unit)) (id : ι × Nat)
    (message : ApnsMessage) : Prop :=
  ∃ frame, ⟨.nextFrame, .frame frame⟩ ∈ own log id ∧ ∃ rows asked,
    AnsweredFor lib log id (targetOf lib frame.body) rows asked ∧
    ∃ row ∈ rows, message = notificationFor productionByStrcasecmp lib frame.body row

section Reachable

variable {lib : Openframe} {now : Int} {table : Str → List ApnsRegister} {state : ι → Worker}
  {c : Config ι Call Answer (Expiring ι) Unit Worker Bool}

theorem table_of_query
    (reachable : (expiringWorkers ι lib).Reachable (Expiring.initial now table) state c)
    {asked : Entry ι Call Answer (Expiring ι) Unit} (member : asked ∈ c.log) {callsign : Str}
    {rows : List ApnsRegister} {drained : Except MysqlppException Unit}
    (event : asked.event = ⟨.query callsign, .stored rows drained⟩) :
    rows = asked.found.table callsign :=
  (Shared.explained_of_reachable (forgotten_reachable reachable)).queried
    (asked.map Expiring.forget) (List.mem_map_of_mem member) callsign rows drained event

/-- Behind an entry that settles a worker's lookup is a query for the same target. -/
theorem asked_of_handed (blank : lib.BlankIsEmpty) (upper : lib.UpperIdempotent)
    (reachable : (expiringWorkers ι lib).Reachable (Expiring.initial now table) state c)
    {id : ι × Nat} {body buf : Str} {s s' : Store} {got : Trace}
    (get : GetTrace onRegister (lit "apnsregister") (lib.toUpper (targetOf lib body)) s [] got
      ((true, buf), s'))
    (logged : ∀ e ∈ got, e ∈ own c.log id) (usable : readCached lib buf ≠ .unusable) :
    ∃ asked ∈ c.log, BehindWithinTheHour lib c.log id (targetOf lib body) asked ∧ ∃ reply,
      asked.event = ⟨.query (targetOf lib body), reply⟩ ∧ buf = entryFor lib reply.rows := by
  have forgotten := forgotten_reachable reachable
  rcases get.source with handed | ⟨ex, raised, _⟩
  · obtain ⟨read, member, rfl, event⟩ := (mem_own c.log id _).mp (logged _ handed)
    obtain ⟨front, after, split⟩ := List.append_of_mem member
    have upTo : front ++ [read] <+: c.log := ⟨after, by simp [split]⟩
    obtain ⟨before, asked, put, since, rfl, hit⟩ := freshHit_of_reachable reachable upTo event
    obtain ⟨callsign, reply, askedEvent, same, entry, _⟩ := hit.answered
    have askedLogged : asked ∈ c.log := by simp [split, hit.made.1]
    -- the writer's callsign was upper-cased too, so the query was for this target
    obtain ⟨other, rfl⟩ := target_of_query forgotten (List.mem_map_of_mem askedLogged) askedEvent
    have target : targetOf lib other = targetOf lib body := by
      simpa only [targetOf, upper _] using same
    have handed : HandedWithinTheHour lib c.log read.id (targetOf lib body) asked :=
      ⟨before, put, since, read, after, buf, by simp [split], rfl, event, hit⟩
    exact ⟨asked, askedLogged, Or.inr handed, reply, target ▸ askedEvent, entry⟩
  -- after a raise the buffer is blank, and a blank entry says nothing
  · obtain ⟨read, member, _, event⟩ := (mem_own c.log id _).mp (logged _ raised)
    have untouched : buf = [] := (Shared.explained_of_reachable forgotten).untouched _
      (List.mem_map_of_mem member) _ _ _ _ _ event
    have noAnswer : lib.is (lib.parse buf) (lit "fnd") = false := untouched ▸ blank
    exact absurd (by simp [readCached, noAnswer]) usable

/-- The answer of a lookup is what was in the table when its query asked; only an
empty answer can come of a query that did not complete. -/
theorem answeredFor_of_lookup (blank : lib.BlankIsEmpty) (roundTrips : lib.RoundTrips)
    (tokenizes : lib.Tokenizes) (upper : lib.UpperIdempotent)
    (reachable : (expiringWorkers ι lib).Reachable (Expiring.initial now table) state c)
    (clean : StoredCleanly c.log) {id : ι × Nat} {body : Str} {s s' : Store} {tr : Trace}
    {count : Nat} {rows : List ApnsRegister} (complete : rows = [] → QueriesComplete c.log)
    (lookup : LookupTrace lib s (targetOf lib body) [] tr ((count, rows), s'))
    (logged : ∀ e ∈ tr, e ∈ own c.log id) :
    ∃ asked, AnsweredFor lib c.log id (targetOf lib body) rows asked := by
  -- whoever asked SQL, the rows are those it was told, or there are none
  have ofQuery {asked : Entry ι Call Answer (Expiring ι) Unit} (member : asked ∈ c.log)
      (behind : BehindWithinTheHour lib c.log id (targetOf lib body) asked) {reply : QueryReply}
      (event : asked.event = ⟨.query (targetOf lib body), reply⟩)
      (settled : CleanRows reply.rows → rows = reply.rows) :
      ∃ asked, AnsweredFor lib c.log id (targetOf lib body) rows asked := by
    cases reply with
    | raised ex =>
      obtain rfl := settled (by simp [CleanRows, fieldsOf, QueryReply.rows])
      obtain ⟨_, stored⟩ := complete rfl asked member _ _ event
      cases stored
    | stored stored drained =>
      obtain rfl := settled (clean asked member _ _ _ event)
      exact ⟨asked, member, ⟨drained, event⟩, table_of_query reachable member event, behind⟩
  -- an entry stands for the query of the call that put it
  have cached (buf : Str) (settles : Settles lib buf rows)
      (get : GetTrace onRegister (lit "apnsregister") (lib.toUpper (targetOf lib body)) s [] tr
        ((true, buf), s')) : ∃ asked, AnsweredFor lib c.log id (targetOf lib body) rows asked := by
    obtain ⟨asked, member, behind, reply, event, rfl⟩ :=
      asked_of_handed blank upper reachable get logged settles.usable
    exact ofQuery member behind event fun cleanly =>
      (settles_entryFor_iff lib roundTrips tokenizes _ _ cleanly).mp settles
  cases lookup with
  | cachedNotFound _ buf _ get reads => exact cached buf (Or.inl ⟨reads, rfl⟩) get
  | cachedFound _ buf _ rows get reads => exact cached buf (Or.inr reads) get
  | asked got ok buf _ reply put wrote _ get reads set =>
    obtain ⟨asked, member, id, event⟩ := (mem_own c.log _ _).mp
      (logged ⟨.query (targetOf lib body), reply⟩ (by simp))
    exact ofQuery member (Or.inl id) event fun _ => rfl

/-- What an operation pushes goes to a registered device. -/
theorem registered_of_push (blank : lib.BlankIsEmpty) (roundTrips : lib.RoundTrips)
    (tokenizes : lib.Tokenizes) (upper : lib.UpperIdempotent)
    (reachable : (expiringWorkers ι lib).Reachable (Expiring.initial now table) state c)
    (clean : StoredCleanly c.log) {id : ι × Nat} {message : ApnsMessage}
    (pushed : ⟨.push message, ()⟩ ∈ own c.log id) : Registered lib c.log id message := by
  obtain ⟨entry, member, rfl, _⟩ := (mem_own c.log id _).mp pushed
  obtain ⟨w, rest, result, runs⟩ := reachable.runs_of_mem member
  obtain ⟨frame, front, looked, back, s, count, rows, s', whole, delivered, quiet, lookup, row, inRows,
    same⟩ := (runs.post (run_post lib w)).pushed (List.mem_append_left rest pushed)
  -- the push is in the log, so is everything before it
  obtain ⟨tail, upTo⟩ : ∃ tail, own c.log entry.id = front ++ looked ++ tail := by
    rcases List.append_eq_append_iff.mp whole with ⟨extra, stops, _⟩ | ⟨extra, goesOn, _⟩
    · have inFront := stops ▸ List.mem_append_left extra pushed
      cases quiet _ inFront
    · exact ⟨extra, goesOn⟩
  have logged : ∀ e ∈ front ++ looked, e ∈ own c.log entry.id :=
    fun e early => upTo ▸ List.mem_append_left tail early
  refine ⟨frame, logged _ (List.mem_append_left _ delivered), rows, ?_⟩
  obtain ⟨asked, answered⟩ := answeredFor_of_lookup blank roundTrips tokenizes upper reachable clean
    (by rintro rfl; cases inRows) lookup fun e inLookup => logged e (List.mem_append_right _ inLookup)
  exact ⟨asked, answered, row, inRows, same⟩

/-! ### Nobody is passed over -/

/-- The deliveries of a call of `run` are those of its message. -/
theorem deliveries_of_parts {front message back : Trace}
    (opening : ∀ e ∈ front, isOpening e.call = true) (closing : ∀ e ∈ back, isClosing e.call = true) :
    constructions (front ++ (message ++ back)) = constructions message ∧
      notifications (front ++ (message ++ back)) = notifications message := by
  obtain ⟨_, constructed, notified, _⟩ := projections_of_calls isDelivery_of_isOpening opening
  obtain ⟨_, constructed', notified', _⟩ := projections_of_calls isDelivery_of_isClosing closing
  simp [constructed, notified, constructed', notified']

/-- An acknowledged message was answered for, and every row of the answer, in order, has
its notification pushed or its token rejected. -/
theorem deliveries_of_acknowledged (isAll : lib.IsAll) (blank : lib.BlankIsEmpty)
    (roundTrips : lib.RoundTrips) (tokenizes : lib.Tokenizes) (upper : lib.UpperIdempotent)
    (reachable : (expiringWorkers ι lib).Reachable (Expiring.initial now table) state c)
    (clean : StoredCleanly c.log) (complete : QueriesComplete c.log) {id : ι × Nat}
    {frame : StompFrame} (delivered : ⟨.nextFrame, .frame frame⟩ ∈ own c.log id)
    (wanted : Wanted lib frame.body) {messageId' sub : Str}
    (acked : ⟨.ack messageId' sub, ()⟩ ∈ own c.log id) :
    ∃ rows asked, AnsweredFor lib c.log id (targetOf lib frame.body) rows asked ∧
      ∃ took : List Bool, took.length = rows.length ∧
        constructions (own c.log id) = (rows.map ApnsRegister.deviceToken).zip took ∧
        notifications (own c.log id) =
          (accepted rows took).map (notificationFor productionByStrcasecmp lib frame.body) := by
  have sameOwn : own (c.map Expiring.forget).log id = own c.log id := own_map _ _ _
  obtain ⟨front, s, message, result, back, whole, opening, closing, processed⟩ :=
    own_of_acknowledged (forgotten_reachable reachable) (sameOwn ▸ delivered) (sameOwn ▸ acked)
  rw [sameOwn] at whole
  obtain ⟨constructed, notified⟩ : constructions (own c.log id) = constructions message ∧
      notifications (own c.log id) = notifications message :=
    whole ▸ deliveries_of_parts opening closing
  rw [constructed, notified]
  obtain ⟨full, want⟩ := (wanted_iff lib isAll frame.body).mp wanted
  have logged (e : Event Call Answer) (member : e ∈ message) : e ∈ own c.log id := by
    rw [whole]
    exact List.mem_append_right _ (List.mem_append_left _ member)
  cases processed with
  -- the body is wanted, so the message got as far as the lookup
  | incomplete lacks => exact absurd full lacks
  | ackonly _ only => exact absurd (want.symm.trans only) (by simp)
  | unregistered _ _ _ rows s' looked =>
    have lookup := lookupTrace_of_runs looked
    obtain rfl : rows = [] := List.eq_nil_of_length_eq_zero lookup.count.symm
    obtain ⟨asked, answered⟩ := answeredFor_of_lookup blank roundTrips tokenizes upper reachable clean
      (fun _ => complete) lookup logged
    obtain ⟨_, constructed, notified, _⟩ := projections_of_calls isDelivery_of_isLookup lookup.calls
    exact ⟨[], asked, answered, [], rfl, constructed, notified⟩
  | queued _ _ front count rows s' looked nonzero loop left numSent walks =>
    have lookup := lookupTrace_of_runs looked
    obtain ⟨asked, answered⟩ := answeredFor_of_lookup blank roundTrips tokenizes upper reachable clean
      (fun _ => complete) lookup fun e member => logged e (List.mem_append_left _ member)
    obtain ⟨_, constructed, notified, _⟩ := projections_of_calls isDelivery_of_isLookup lookup.calls
    obtain ⟨took, length, constructed', notified'⟩ :=
      (delivers_of_walks lib frame.body rows (ne_nil_of_lookup looked nonzero) loop left numSent
        walks).notified
    refine ⟨rows, asked, answered, took, length, ?_, ?_⟩
    · rw [constructions_append, constructed, List.nil_append, constructed']
    · rw [notifications_append, notified, List.nil_append, notified']

end Reachable
end ApnsPusher
