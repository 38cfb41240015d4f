import ApnsPusher.Transparency
import ApnsPusher.Worker.Message

/-!
# Acknowledged messages

Workers that share one memcached and one table run and acknowledge frames. As
long as no register query raises, an acknowledged message has reached everyone
its target's answer named, or a completed query said that there is no one.
-/
namespace ApnsPusher

open Effects Store Worker

variable {ι : Type}

/-- Workers over one memcached and one table; an operation is a call of `run`. -/
def workerMachine (ι : Type) (lib : Openframe) :
    Machine ι Call Answer (Shared ι) Unit Worker Bool :=
  Shared.machine fun _ => Worker.run lib

/-! ### Queries and entries of a worker -/

theorem Worker.MessageTrace.putsFollowQueries {lib : Openframe} {s : Store} {body : Str}
    {tr : Trace} {result : Bool × Store} (message : MessageTrace lib s body tr result) :
    PutsFollowQueries lib tr := by
  cases message with
  | incomplete | ackonly => exact .of_noPut [] (by simp)
  | unregistered _ _ _ rows s' lookup => exact (lookupTrace_of_runs lookup).putsFollowQueries
  | queued _ _ front count rows s' lookup _ loop left numSent walks =>
    exact (lookupTrace_of_runs lookup).putsFollowQueries.append
      (.of_calls isDelivery (fun _ _ _ _ => rfl) (isDelivery_loop walks))

theorem Worker.RunTrace.putsFollowQueries {lib : Openframe} {w : Worker} {tr : Trace}
    {result : Bool × Worker} (ran : RunTrace lib w tr result) : PutsFollowQueries lib tr := by
  obtain ⟨front, message, back, rfl, opening, closing, shape⟩ := ran.message
  have middle : PutsFollowQueries lib message := by
    rcases shape with rfl | ⟨s, body, result', processed⟩
    · exact .of_noPut [] (by simp)
    · exact processed.putsFollowQueries
  exact (PutsFollowQueries.of_calls isOpening (fun _ _ _ _ => rfl) opening).append
    (middle.append (.of_calls isClosing (fun _ _ _ _ => rfl) closing))

/-- A worker asks SQL for upper-cased callsigns only. -/
theorem Worker.MessageTrace.query_mem {lib : Openframe} {s : Store} {body : Str} {tr : Trace}
    {result : Bool × Store} (message : MessageTrace lib s body tr result) {callsign : Str}
    {reply : QueryReply} (asked : (⟨.query callsign, reply⟩ : Event Call Answer) ∈ tr) :
    callsign = targetOf lib body := by
  cases message with
  | incomplete | ackonly => cases asked
  | unregistered _ _ _ rows s' lookup => exact (lookupTrace_of_runs lookup).query_mem asked
  | queued _ _ front count rows s' lookup _ loop left numSent walks =>
    rcases List.mem_append.mp asked with member | member
    · exact (lookupTrace_of_runs lookup).query_mem member
    · cases isDelivery_loop walks _ member

theorem Worker.RunTrace.query_mem {lib : Openframe} {w : Worker} {tr : Trace}
    {result : Bool × Worker} (ran : RunTrace lib w tr result) {callsign : Str}
    {reply : QueryReply} (asked : (⟨.query callsign, reply⟩ : Event Call Answer) ∈ tr) :
    ∃ body, callsign = targetOf lib body := by
  obtain ⟨front, message, back, rfl, opening, closing, shape⟩ := ran.message
  rcases List.mem_append.mp asked with member | member
  · cases opening _ member
  · rcases List.mem_append.mp member with member | member
    · rcases shape with rfl | ⟨s, body, result', processed⟩
      · cases member
      · exact ⟨body, processed.query_mem member⟩
    · cases closing _ member

/-! ### Nothing is lost -/

theorem isDelivery_of_isOpening (call : Call) (opening : isOpening call = true) :
    isDelivery call = false := by
  cases call <;> first | rfl | cases opening

theorem isDelivery_of_isClosing (call : Call) (closing : isClosing call = true) :
    isDelivery call = false := by
  cases call <;> first | rfl | cases closing

section Log

variable [DecidableEq ι] (lib : Openframe) (log : List (Entry ι Call Answer (Shared ι) Unit))
  (id : ι × Nat)

/-- No register query of the run raised. -/
def NoQueryRaised : Prop :=
  ∀ entry ∈ log, ∀ callsign reply, entry.event = ⟨.query callsign, reply⟩ →
    ∃ rows, reply = .stored rows (.ok ())

/-- The query behind operation `id`'s answer for `target`: its own, or that of the
operation whose entry it was handed. -/
def Behind (target : Str) (asked : Entry ι Call Answer (Shared ι) Unit) : Prop :=
  asked.id = id ∨ ∃ payload, HandedOver lib log id target payload asked

/-- `rows` is the answer operation `id` had for `target`: the rows of its own
query, or what it read from the entry that another query left. -/
def AnswerIs (target : Str) (rows : List ApnsRegister) : Prop :=
  ∃ asked ∈ log, ∃ stored, asked.event = ⟨.query target, .stored stored (.ok ())⟩ ∧
    ((asked.id = id ∧ rows = stored) ∨
      ((∃ payload, HandedOver lib log id target payload asked) ∧
        Settles lib (entryFor lib stored) rows ∧ (CleanRows stored → rows = stored)))

/-- A completed query said that there is no active registration, or every row of
the answer, in order, has its notification queued or its token rejected. -/
structure NotLost (frame : StompFrame) : Prop where
  accounted :
    (∃ asked ∈ log, asked.event = ⟨.query (targetOf lib frame.body), .stored [] (.ok ())⟩ ∧
      Behind lib log id (targetOf lib frame.body) asked) ∨
    ∃ rows, AnswerIs lib log id (targetOf lib frame.body) rows ∧
      ∃ took : List Bool, took.length = rows.length ∧
        constructions (own log id) = (rows.map ApnsRegister.deviceToken).zip took ∧
        notifications (own log id) =
          (accepted rows took).map (notificationFor productionByStrcasecmp lib frame.body)
  completed : ∀ callsign reply, ⟨.query callsign, reply⟩ ∈ own log id →
    ∃ rows, reply = .stored rows (.ok ())

end Log

section Reachable

variable [DecidableEq ι] {lib : Openframe} {table : Str → List ApnsRegister} {state : ι → Worker}
  {c : Config ι Call Answer (Shared ι) Unit Worker Bool}

omit [DecidableEq ι] in
theorem follows_of_worker (entry : Entry ι Call Answer (Shared ι) Unit) (_ : entry ∈ c.log)
    (before : Worker) (tr : Trace) (result : Bool × Worker)
    (runs : Prog.Runs (Worker.run lib before) tr result) : PutsFollowQueries lib tr :=
  (runs.post (run_post lib before)).putsFollowQueries

theorem target_of_query
    (reachable : (workerMachine ι lib).Reachable (Shared.initial table) state c)
    {asked : Entry ι Call Answer (Shared ι) Unit} (member : asked ∈ c.log) {callsign : Str}
    {reply : QueryReply} (event : asked.event = ⟨.query callsign, reply⟩) :
    ∃ body, callsign = targetOf lib body := by
  obtain ⟨before, rest, result, runs⟩ := reachable.runs_of_mem member
  exact (runs.post (run_post lib before)).query_mem
    (List.mem_append_left _ ((mem_own c.log asked.id _).mpr ⟨asked, member, rfl, event⟩))

/-- Every lookup of the run has an answer with a completed query behind it. -/
theorem answer_of_lookup (blank : lib.BlankIsEmpty) (roundTrips : lib.RoundTrips)
    (tokenizes : lib.Tokenizes) (upper : lib.UpperIdempotent)
    (reachable : (workerMachine ι lib).Reachable (Shared.initial table) state c)
    (noRaise : NoQueryRaised c.log) {id : ι × Nat} {body : Str} {s s' : Store} {tr : Trace}
    {count : Nat} {rows : List ApnsRegister}
    (lookup : LookupTrace lib s (targetOf lib body) [] tr ((count, rows), s'))
    (logged : ∀ e ∈ tr, e ∈ own c.log id) : AnswerIs lib c.log id (targetOf lib body) rows := by
  have cached (buf : Str) (settles : Settles lib buf rows)
      (get : GetTrace onRegister (lit "apnsregister") (lib.toUpper (targetOf lib body)) s [] tr
        ((true, buf), s')) : AnswerIs lib c.log id (targetOf lib body) rows := by
    obtain ⟨asked, member, handed, callsign, reply, event, same, rfl⟩ :=
      handedOver_of_get blank reachable follows_of_worker get logged settles.usable
    -- the writer's callsign was upper-cased too, so the query was for this target
    obtain ⟨other, rfl⟩ := target_of_query reachable member event
    obtain ⟨stored, rfl⟩ := noRaise asked member _ reply event
    have target : targetOf lib other = targetOf lib body := by
      simpa only [targetOf, upper _] using same
    exact ⟨asked, member, stored, by rw [event, target], Or.inr ⟨⟨_, handed⟩, settles,
      fun clean => (settles_entryFor_iff lib roundTrips tokenizes stored rows clean).mp settles⟩⟩
  cases lookup with
  | cachedNotFound _ buf _ get reads => exact cached buf (Or.inl ⟨reads, rfl⟩) get
  | cachedFound _ buf _ rows' get reads => exact cached buf (Or.inr reads) get
  | asked got ok buf _ reply put wrote _ get reads set =>
    obtain ⟨asked, member, id', event⟩ := (mem_own c.log _ _).mp
      (logged ⟨.query (targetOf lib body), reply⟩ (by simp))
    obtain ⟨stored, rfl⟩ := noRaise asked member _ reply event
    exact ⟨asked, member, stored, event, Or.inl ⟨id', rfl⟩⟩

omit [DecidableEq ι] in
/-- An entry that reads as no rows was written for no rows. -/
theorem eq_nil_of_settles (roundTrips : lib.RoundTrips) (tokenizes : lib.Tokenizes)
    {stored : List ApnsRegister} (settles : Settles lib (entryFor lib stored) []) : stored = [] := by
  by_contra nonempty
  rw [entryFor, if_neg nonempty] at settles
  rcases settles with ⟨reads, _⟩ | reads
  · exact readCached_foundEntry_ne_notFound lib roundTrips tokenizes stored nonempty reads
  · exact readCached_found_ne_nil lib _ [] reads rfl

omit [DecidableEq ι] in
theorem nobody_of_answer (roundTrips : lib.RoundTrips) (tokenizes : lib.Tokenizes)
    {id : ι × Nat} {target : Str} (answer : AnswerIs lib c.log id target []) :
    ∃ asked ∈ c.log, asked.event = ⟨.query target, .stored [] (.ok ())⟩ ∧
      Behind lib c.log id target asked := by
  obtain ⟨asked, member, stored, event, ⟨mine, rfl⟩ | ⟨handed, settles, _⟩⟩ := answer
  · exact ⟨asked, member, event, Or.inl mine⟩
  · obtain rfl := eq_nil_of_settles roundTrips tokenizes settles
    exact ⟨asked, member, event, Or.inr handed⟩

omit [DecidableEq ι] in
/-- What comes before a mark, when the mark is in a beginning of the list. -/
theorem append_of_mem_prefix {α : Type} {front rest before after : List α} {mark other : α}
    (split : front ++ rest = before ++ mark :: after) (member : other ∈ front)
    (notBefore : other ∉ before) : ∃ tail, front = before ++ mark :: tail ∧ after = tail ++ rest := by
  rcases List.append_eq_append_iff.mp split with ⟨extra, whole, _⟩ | ⟨extra, whole, tail⟩
  · exact absurd (whole ▸ List.mem_append_left _ member) notBefore
  · cases extra with
    | nil =>
      rw [List.append_nil] at whole
      exact absurd (whole ▸ member) notBefore
    | cons e extra =>
      obtain ⟨rfl, same⟩ := List.cons.inj tail
      exact ⟨extra, whole, same⟩

/-- What an acknowledging call of `run` has done so far: its opening, the message,
and a beginning of the conclusion. -/
theorem own_of_acknowledged
    (reachable : (workerMachine ι lib).Reachable (Shared.initial table) state c) {id : ι × Nat}
    {frame : StompFrame} (delivered : ⟨.nextFrame, .frame frame⟩ ∈ own c.log id)
    {messageId' sub : Str} (acked : ⟨.ack messageId' sub, ()⟩ ∈ own c.log id) :
    ∃ front s message result back, own c.log id = front ++ (message ++ back) ∧
      (∀ e ∈ front, isOpening e.call = true) ∧ (∀ e ∈ back, isClosing e.call = true) ∧
      MessageTrace lib s frame.body message result := by
  obtain ⟨entry, member, rfl, _⟩ := (mem_own c.log id _).mp acked
  obtain ⟨before, rest, result, runs⟩ := reachable.runs_of_mem member
  obtain ⟨front, s, message, result', split, opening, processed⟩ :=
    (runs.post (run_post lib before)).acknowledged (List.mem_append_left _ acked)
      (List.mem_append_left _ delivered)
  -- the acknowledgement is in the log, so is everything before it
  obtain ⟨tail, whole, ending⟩ : ∃ tail, own c.log entry.id =
      (front ++ (message ++ [⟨.frameUse frame .getHeader, ()⟩])) ++
        ⟨.ack (messageId frame) (lit "1"), ()⟩ :: tail ∧ [⟨.release frame, ()⟩] = tail ++ rest := by
    refine append_of_mem_prefix (by simpa [conclusion] using split) acked ?_
    intro member
    rcases List.mem_append.mp member with member | member
    · cases opening _ member
    · rcases List.mem_append.mp member with member | member
      · rcases processed.calls _ member with call | call <;> cases call
      · simp at member
  refine ⟨front, s, message, result', ⟨.frameUse frame .getHeader, ()⟩ ::
    ⟨.ack (messageId frame) (lit "1"), ()⟩ :: tail, by simp [whole], opening, ?_, processed⟩
  intro e member
  simp only [List.mem_cons] at member
  rcases member with rfl | rfl | member
  · rfl
  · rfl
  · obtain rfl : e = ⟨.release frame, ()⟩ :=
      List.mem_singleton.mp (ending ▸ List.mem_append_left rest member)
    rfl

/-- In every run of any number of workers in which no register query raises, no
acknowledged message is lost. -/
theorem acknowledged_not_lost (lib : Openframe) (isAll : lib.IsAll) (blank : lib.BlankIsEmpty)
    (roundTrips : lib.RoundTrips) (tokenizes : lib.Tokenizes) (upper : lib.UpperIdempotent)
    (table : Str → List ApnsRegister) (state : ι → Worker)
    (c : Config ι Call Answer (Shared ι) Unit Worker Bool)
    (reachable : (workerMachine ι lib).Reachable (Shared.initial table) state c)
    (noRaise : NoQueryRaised c.log) (id : ι × Nat) (frame : StompFrame)
    (delivered : ⟨.nextFrame, .frame frame⟩ ∈ own c.log id) (wanted : Wanted lib frame.body)
    (messageId' sub : Str) (acked : ⟨.ack messageId' sub, ()⟩ ∈ own c.log id) :
    NotLost lib c.log id frame where
  accounted := by
    obtain ⟨front, s, message, result, back, whole, opening, closing, processed⟩ :=
      own_of_acknowledged reachable delivered acked
    obtain ⟨complete, want⟩ := (wanted_iff lib isAll frame.body).mp wanted
    have logged (e : Event Call Answer) (member : e ∈ message) : e ∈ own c.log id := by
      rw [whole]
      exact List.mem_append_right _ (List.mem_append_left _ member)
    -- all the deliveries of the call are those of the message
    have quiet : constructions (own c.log id) = constructions message ∧
        notifications (own c.log id) = notifications message := by
      obtain ⟨_, noConstructions, noNotifications, _⟩ :=
        projections_of_calls isDelivery_of_isOpening opening
      obtain ⟨_, noConstructions', noNotifications', _⟩ :=
        projections_of_calls isDelivery_of_isClosing closing
      simp [whole, noConstructions, noNotifications, noConstructions', noNotifications']
    cases processed with
    -- the body is wanted, so the message got as far as the lookup
    | incomplete lacks => exact absurd complete lacks
    | ackonly _ only => exact absurd (want.symm.trans only) (by simp)
    | unregistered _ _ _ rows s' lookup =>
      left
      have trace := lookupTrace_of_runs lookup
      -- no rows: the answer behind them was empty
      obtain rfl : rows = [] := List.eq_nil_of_length_eq_zero trace.count.symm
      exact nobody_of_answer roundTrips tokenizes
        (answer_of_lookup blank roundTrips tokenizes upper reachable noRaise trace logged)
    | queued _ _ lookup count rows s' looked nonzero loop left numSent walks =>
      right
      have trace := lookupTrace_of_runs looked
      obtain ⟨_, noConstructions, noNotifications, _⟩ :=
        projections_of_calls isDelivery_of_isLookup trace.calls
      obtain ⟨took, length, constructed, notified⟩ :=
        (delivers_of_walks lib frame.body rows (ne_nil_of_lookup looked nonzero) loop left numSent
          walks).notified
      refine ⟨rows, answer_of_lookup blank roundTrips tokenizes upper reachable noRaise trace
        fun e member => logged e (List.mem_append_left _ member), took, length, ?_, ?_⟩
      · rw [quiet.1, constructions_append, noConstructions, List.nil_append, constructed]
      · rw [quiet.2, notifications_append, noNotifications, List.nil_append, notified]
  completed := by
    intro callsign reply asked
    obtain ⟨entry, member, _, event⟩ := (mem_own c.log id _).mp asked
    exact noRaise entry member callsign reply event

end Reachable

/-! ### One frame, one worker -/

def nocallFrame : StompFrame :=
  ⟨0, .commandMessage, [(lit "message-id", lit "m-1")], lit "SR:n1abc|TO:n0call|MS:hello|PA:APU25N"⟩

/-- A worker subscribes, is delivered the frame and acknowledges it. Memcached has
nothing and SQL says `reply`. -/
def frameTrace (reply : QueryReply) (delivery : Trace) : Trace :=
  (List.replicate 4 ⟨.time, (1000 : Int)⟩ ++
    (⟨.subscribe Worker.kDefaultStompDestNotifyMessages (lit "1"), true⟩ :: reception nocallFrame)) ++
  (askTrace reply ++ (delivery ++ conclusion nocallFrame))

theorem answers_ask (reply : QueryReply) (table : Str → List ApnsRegister)
    (tells : ∀ rows drained, reply = .stored rows drained → rows = table (lit "N0CALL"))
    (id : ι × Nat) : ∃ s : Shared ι,
      (workerMachine ι .textual).Answers id (askTrace reply) (Shared.initial table) s := by
  have fits : MemcachedController.checkKey
      (MemcachedController.cacheKey (lit "apnsregister") (lit "N0CALL")) = .ok () := by decide
  exact ⟨_, _, rfl, _, Shared.serves_miss _ _ _ _ _ fits, _, ⟨rfl, tells⟩, _, rfl, _,
    Shared.serves_stored _ _ _ _ _ _ fits, rfl⟩

/-- The calls whose answer depends on what the workers share. -/
def isShared : Call → Bool
  | .memcachedGet .. | .memcachedPut .. | .query _ => true
  | _ => false

theorem answers_private {tr : Trace} (apart : ∀ e ∈ tr, isShared e.call = false) (id : ι × Nat)
    (s : Shared ι) (lib : Openframe) : (workerMachine ι lib).Answers id tr s s := by
  refine Machine.answers_of_unchanged _ fun event member => ?_
  have call := apart event member
  obtain ⟨call', answer⟩ := event
  cases call' <;> first | rfl | cases call

theorem acknowledges_alone (reply : QueryReply) (table : Str → List ApnsRegister)
    (tells : ∀ rows drained, reply = .stored rows drained → rows = table (lit "N0CALL"))
    (delivery : Trace) (delivers : ∀ e ∈ delivery, isShared e.call = false) (w : Worker)
    (result : Bool × Worker)
    (runs : Prog.Runs (Worker.run .textual w) (frameTrace reply delivery) result) :
    ∃ c : Config (Fin 1) Call Answer (Shared (Fin 1)) Unit Worker Bool,
      (workerMachine (Fin 1) .textual).Reachable (Shared.initial table) (fun _ => w) c ∧
      c.log.map Entry.event = frameTrace reply delivery ∧
      own c.log (0, 0) = frameTrace reply delivery := by
  obtain ⟨s, asked⟩ := answers_ask reply table tells ((0, 0) : Fin 1 × Nat)
  have closing : ∀ e ∈ delivery ++ conclusion nocallFrame, isShared e.call = false := by
    intro e member
    rcases List.mem_append.mp member with member | member
    · exact delivers e member
    · exact (by decide : ∀ e ∈ conclusion nocallFrame, isShared e.call = false) e member
  obtain ⟨entries, events, named, steps⟩ := (workerMachine (Fin 1) .textual).run_alone 0 ()
    (frameTrace reply delivery) result.1 result.2 (.initial (Shared.initial table) fun _ => w) rfl runs s
    (Machine.answers_append _ (answers_private (by decide) _ _ _)
      (Machine.answers_append _ asked (answers_private closing _ _ _)))
  refine ⟨_, steps, by rw [← events]; rfl, ?_⟩
  have all : own entries (0, 0) = entries.map Entry.event :=
    own_of_all fun entry member => by simp [(named entry member).1, Config.initial]
  rw [← events, ← all]
  rfl

def frameScript (reply : QueryReply) : Script where
  clock := 1000
  get := (.ok .notFound, [])
  put := .ok ()
  query := reply
  execute := .executed 1 (.ok ())
  accepts token := token.length = 4
  frame := .frame nocallFrame

/-- A new worker. -/
def freshWorker : Worker := (Prog.play (frameScript (.raised .exception)).answers 0 Worker.create).2

def playFrame (reply : QueryReply) : Trace × Bool × Worker :=
  Prog.play (frameScript reply).answers 0 (Worker.run .textual freshWorker)

/-- One row of `oneRow`, recorded and notified. -/
def oneDelivery : Trace :=
  [⟨.execute (lit "7") (lit "N1ABC: hello"), .executed 1 (.ok ())⟩, ⟨.newApnsMessage (lit "aabb"), true⟩,
    ⟨.push ⟨lit "aabb", lit "N1ABC: hello", lit "View", 1, some .prod⟩, ()⟩, ⟨.deleteRegister 0, ()⟩,
    ⟨.queued 1, ()⟩]

theorem acknowledged_not_lost_oneRow :
    ∃ c : Config (Fin 1) Call Answer (Shared (Fin 1)) Unit Worker Bool,
      (workerMachine (Fin 1) .textual).Reachable (Shared.initial fun _ => oneRow)
        (fun _ => freshWorker) c ∧ NotLost .textual c.log (0, 0) nocallFrame := by
  have played : (playFrame (.stored oneRow (.ok ()))).1 =
      frameTrace (.stored oneRow (.ok ())) oneDelivery := by decide
  obtain ⟨c, reachable, events, owned⟩ := acknowledges_alone (.stored oneRow (.ok ()))
    (fun _ => oneRow) (by simp) oneDelivery (by decide) freshWorker _
    (played ▸ Prog.play_runs _ 0 _)
  refine ⟨c, reachable, acknowledged_not_lost .textual Openframe.textual_isAll
    Openframe.textual_blankIsEmpty Openframe.textual_roundTrips Openframe.textual_tokenizes
    Openframe.textual_upperIdempotent _ _ c reachable ?_ (0, 0) nocallFrame ?_ ?_ (lit "m-1") (lit "1")
    ?_⟩
  · intro entry member callsign reply event
    have logged : entry.event ∈ c.log.map Entry.event := List.mem_map_of_mem member
    rw [events, event] at logged
    simp [frameTrace, askTrace, reception, inspection, oneDelivery, conclusion, nocallFrame] at logged
    exact ⟨oneRow, logged.2⟩
  · rw [owned]
    simp [frameTrace, reception]
  · unfold Wanted
    decide
  · rw [owned]
    simp [frameTrace, conclusion, messageId, nocallFrame, messageIdHeader, lit]

/-- The query raises, and the frame is acknowledged. -/
theorem acknowledged_after_raise :
    ∃ c : Config (Fin 1) Call Answer (Shared (Fin 1)) Unit Worker Bool,
      (workerMachine (Fin 1) .textual).Reachable (Shared.initial fun _ => oneRow)
        (fun _ => freshWorker) c ∧
      ⟨.nextFrame, .frame nocallFrame⟩ ∈ own c.log (0, 0) ∧ Wanted .textual nocallFrame.body ∧
      ⟨.ack (lit "m-1") (lit "1"), ()⟩ ∈ own c.log (0, 0) ∧
      notifications (own c.log (0, 0)) = [] ∧ ¬ NotLost .textual c.log (0, 0) nocallFrame := by
  have played : (playFrame (.raised (.badQuery 2006))).1 =
      frameTrace (.raised (.badQuery 2006)) [] := by decide
  obtain ⟨c, reachable, events, owned⟩ := acknowledges_alone (.raised (.badQuery 2006))
    (fun _ => oneRow) (by simp) [] (by simp) freshWorker _ (played ▸ Prog.play_runs _ 0 _)
  refine ⟨c, reachable, ?_, ?_, ?_, ?_, ?_⟩
  · rw [owned]
    simp [frameTrace, reception]
  · unfold Wanted
    decide
  · rw [owned]
    simp [frameTrace, conclusion, messageId, nocallFrame, messageIdHeader, lit]
  · rw [owned]
    decide
  · intro kept
    have raised (callsign : Str) (rows : List ApnsRegister) (asked : _) (member : asked ∈ c.log)
        (event : asked.event = ⟨.query callsign, .stored rows (.ok ())⟩) : False := by
      have logged : asked.event ∈ c.log.map Entry.event := List.mem_map_of_mem member
      rw [events, event] at logged
      simp [frameTrace, askTrace, reception, inspection, conclusion, nocallFrame] at logged
    rcases kept.accounted with ⟨asked, member, event, _⟩ | ⟨rows, ⟨asked, member, stored, event, _⟩, _⟩
    · exact raised _ _ asked member event
    · exact raised _ _ asked member event

end ApnsPusher
