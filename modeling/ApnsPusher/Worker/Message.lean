import ApnsPusher.Worker.Traces
import Mathlib.Data.List.TakeWhile

/-!
# The meaning of one message

A body is either passed over without a call, or its target is looked up once and
every register that comes back gets one insert and, when its device token is
accepted, one notification, in the order of the rows.
-/
namespace ApnsPusher

open Effects Store

/-! ### What a trace did -/

def inserts (tr : Trace) : List (Str × Str × ExecReply) :=
  tr.filterMap fun
    | ⟨.execute id message, reply⟩ => some (id, message, reply)
    | _ => none

/-- The device tokens given to the `ApnsMessage` constructor, and whether it took them. -/
def constructions (tr : Trace) : List (Str × Bool) :=
  tr.filterMap fun
    | ⟨.newApnsMessage deviceToken, constructed⟩ => some (deviceToken, constructed)
    | _ => none

def notifications (tr : Trace) : List ApnsMessage :=
  tr.filterMap fun
    | ⟨.push message, _⟩ => some message
    | _ => none

def freed (tr : Trace) : List Nat :=
  tr.filterMap fun
    | ⟨.deleteRegister ptr, _⟩ => some ptr
    | _ => none

/-- The records in `apns_push` afterwards; the query stores them as sent. -/
def records (tr : Trace) : List (Str × Str) :=
  (inserts tr).filterMap fun (id, message, reply) =>
    if reply.recorded then some (id, message) else none

section Append

variable (tr tr' : Trace)

@[simp] theorem inserts_append : inserts (tr ++ tr') = inserts tr ++ inserts tr' :=
  List.filterMap_append

@[simp] theorem constructions_append :
    constructions (tr ++ tr') = constructions tr ++ constructions tr' :=
  List.filterMap_append

@[simp] theorem notifications_append :
    notifications (tr ++ tr') = notifications tr ++ notifications tr' :=
  List.filterMap_append

@[simp] theorem freed_append : freed (tr ++ tr') = freed tr ++ freed tr' :=
  List.filterMap_append

end Append

theorem mem_notifications {tr : Trace} {message : ApnsMessage} :
    message ∈ notifications tr ↔ (⟨.push message, ()⟩ : Event Call Answer) ∈ tr := by
  constructor
  · intro member
    obtain ⟨⟨call, answer⟩, logged, pushes⟩ := List.mem_filterMap.mp member
    cases call with
    | push message' =>
      obtain rfl := Option.some.inj pushes
      exact logged
    | _ => cases pushes
  · exact fun member => List.mem_filterMap.mpr ⟨_, member, rfl⟩

/-- A trace without deliveries does none of these. -/
theorem projections_of_quiet {tr : Trace} (quiet : ∀ e ∈ tr, Worker.isDelivery e.call = false) :
    inserts tr = [] ∧ constructions tr = [] ∧ notifications tr = [] ∧ freed tr = [] := by
  induction tr with
  | nil => exact ⟨rfl, rfl, rfl, rfl⟩
  | cons e rest ih =>
    have ih := ih fun e' member => quiet e' (List.mem_cons_of_mem _ member)
    have call := quiet e (List.mem_cons_self ..)
    obtain ⟨call', answer⟩ := e
    cases call' <;> first | exact ih | cases call

theorem projections_of_calls {kind : Call → Bool}
    (apart : ∀ call, kind call = true → Worker.isDelivery call = false) {tr : Trace}
    (calls : ∀ e ∈ tr, kind e.call = true) :
    inserts tr = [] ∧ constructions tr = [] ∧ notifications tr = [] ∧ freed tr = [] :=
  projections_of_quiet fun e member => apart e.call (calls e member)

theorem isDelivery_of_isLookup (call : Call) (lookup : isLookup call = true) :
    Worker.isDelivery call = false := by
  cases call <;> first | rfl | cases lookup

namespace Worker

/-! ### Projections of the loop -/

section Attempts

variable (pm : ProcessMessage) (attempts : List Attempt)

theorem inserts_attempts : inserts (attempts.flatMap (Attempt.trace pm)) =
    attempts.map fun a => (a.ar.id, pm.alert, a.reply) := by
  induction attempts with
  | nil => rfl
  | cons a rest ih =>
    rw [List.flatMap_cons, inserts_append, ih, Attempt.trace]
    cases a.constructed <;> rfl

theorem constructions_attempts : constructions (attempts.flatMap (Attempt.trace pm)) =
    attempts.map fun a => (a.ar.deviceToken, a.constructed) := by
  induction attempts with
  | nil => rfl
  | cons a rest ih =>
    rw [List.flatMap_cons, constructions_append, ih, Attempt.trace]
    cases constructed : a.constructed <;> simp [constructions, constructed]

theorem notifications_attempts : notifications (attempts.flatMap (Attempt.trace pm)) =
    (attempts.filter Attempt.constructed).map fun a => pm.notification a.ar := by
  induction attempts with
  | nil => rfl
  | cons a rest ih =>
    rw [List.flatMap_cons, notifications_append, ih, Attempt.trace]
    cases constructed : a.constructed <;> simp [notifications, constructed]

theorem freed_attempts : freed (attempts.flatMap (Attempt.trace pm)) =
    attempts.map Attempt.ptr := by
  induction attempts with
  | nil => rfl
  | cons a rest ih =>
    rw [List.flatMap_cons, freed_append, ih, Attempt.trace]
    cases a.constructed <;> rfl

end Attempts

/-! ### The environment -/

def sameIgnoringCase (a b : Str) : Bool := a.map toLowerByte = b.map toLowerByte

theorem toLowerByte_ne_zero (b : UInt8) (nonzero : b ≠ 0) : toLowerByte b ≠ 0 := by
  unfold toLowerByte
  split
  next upper =>
    intro zero
    have sum := congrArg UInt8.toNat zero
    have low := UInt8.le_iff_toNat_le.mp upper.1
    have high := UInt8.le_iff_toNat_le.mp upper.2
    rw [UInt8.toNat_add] at sum
    simp at sum low high
    omega
  · exact nonzero

theorem strcasecmp_eq_zero_iff (a b : Str) (first : 0 ∉ a) (second : 0 ∉ b) :
    strcasecmp a b = 0 ↔ sameIgnoringCase a b = true := by
  simp only [sameIgnoringCase, decide_eq_true_eq]
  have positive (c : UInt8) (nonzero : c ≠ 0) : (toLowerByte c).toNat ≠ 0 := by
    intro zero
    exact toLowerByte_ne_zero c nonzero (UInt8.toNat_inj.mp zero)
  induction a generalizing b with
  | nil =>
    cases b with
    | nil => simp [strcasecmp]
    | cons c b =>
      have nonzero := positive c (by simp_all [eq_comm])
      simp only [strcasecmp, List.map_nil, List.map_cons]
      simp
      omega
  | cons c a ih =>
    cases b with
    | nil =>
      have nonzero := positive c (by simp_all [eq_comm])
      simp only [strcasecmp, List.map_nil, List.map_cons]
      simp
      omega
    | cons d b =>
      simp only [strcasecmp, List.map_cons, List.cons.injEq]
      split
      next same =>
        simpa [same] using ih b (by simp_all) (by simp_all)
      next differ =>
        have bytes : (toLowerByte c).toNat ≠ (toLowerByte d).toNat :=
          fun same => differ (UInt8.toNat_inj.mp same)
        simp only [differ, false_and, iff_false]
        omega

theorem zero_not_mem_cStr (s : Str) : 0 ∉ cStr s := by
  intro member
  have kept := List.mem_takeWhile_imp member
  simp at kept

theorem cStr_eq_self (s : Str) (plain : 0 ∉ s) : cStr s = s := by
  refine List.takeWhile_eq_self_iff.mpr ?_
  intro b member
  simp only [decide_eq_true_eq]
  rintro rfl
  exact plain member

/-! ### What a message means -/

/-- All of `sr`, `to`, `ms` and `pa` are there, and `ao` is not. -/
def Wanted (lib : Openframe) (body : Str) : Prop :=
  lib.is (lib.parse body) (lit "sr") = true ∧ lib.is (lib.parse body) (lit "to") = true ∧
  lib.is (lib.parse body) (lit "ms") = true ∧ lib.is (lib.parse body) (lit "pa") = true ∧
  lib.is (lib.parse body) (lit "ao") = false

def targetOf (lib : Openframe) (body : Str) : Str := lib.toUpper (lib.get (lib.parse body) (lit "to"))

def textOf (lib : Openframe) (body : Str) : Str :=
  lib.toUpper (lib.get (lib.parse body) (lit "sr")) ++ lit ": " ++ lib.get (lib.parse body) (lit "ms")

/-- The notification a row should get; `production` tells which environments are. -/
def notificationFor (production : Str → Bool) (lib : Openframe) (body : Str) (ar : ApnsRegister) :
    ApnsMessage where
  deviceToken := ar.deviceToken
  text := textOf lib body
  actionKeyCaption := lit "View"
  badgeNumber := 1
  environment := if production ar.environment then some .prod else none

/-- The rows whose token was taken. -/
def accepted (rows : List ApnsRegister) (took : List Bool) : List ApnsRegister :=
  ((rows.zip took).filter Prod.snd).map Prod.fst

/-- What is done with the rows of the lookup. Neither the outcome of an insert
nor the token of another row has a say in a row's notification. -/
structure Delivers (production : Str → Bool) (lib : Openframe) (body : Str)
    (rows : List ApnsRegister) (tr : Trace) : Prop where
  inserts : (inserts tr).map (fun (id, message, _) => (id, message)) =
    rows.map fun ar => (ar.id, textOf lib body)
  notified : ∃ took : List Bool, took.length = rows.length ∧
    constructions tr = (rows.map ApnsRegister.deviceToken).zip took ∧
    notifications tr = (accepted rows took).map (notificationFor production lib body)
  freed : freed tr = List.range rows.length
  finished : rows ≠ [] → ∃ loop numSent, tr = loop ++ [⟨.queued numSent, ()⟩] ∧
    Prog.Runs (queueRegisters (messageOf lib (lib.parse body)) (allocate rows) 0) loop
      ([], numSent) ∧ numSent = (notifications tr).length
  nothing : rows = [] → tr = []

/-- The meaning of a body to `process_message`. -/
structure Meaning (production : Str → Bool) (lib : Openframe) (s : Store) (body : Str)
    (tr : Trace) : Prop where
  passedOver : ¬ Wanted lib body → tr = []
  delivered : Wanted lib body → ∃ front back count rows s', tr = front ++ back ∧
    Prog.Runs (s.getApnsRegisterByCallsign lib (targetOf lib body) []) front ((count, rows), s') ∧
    Delivers production lib body rows back

/-- The comparison the code makes: only up to the first NUL. -/
def productionByStrcasecmp (environment : Str) : Bool :=
  sameIgnoringCase (cStr environment) (lit "prod")

/-- Without a NUL that is the whole environment. -/
theorem productionByStrcasecmp_plain (environment : Str) (plain : 0 ∉ environment) :
    productionByStrcasecmp environment = sameIgnoringCase environment (lit "prod") := by
  rw [productionByStrcasecmp, cStr_eq_self environment plain]

theorem wanted_iff (lib : Openframe) (isAll : lib.IsAll) (body : Str) :
    Wanted lib body ↔ Complete lib body ∧ (messageOf lib (lib.parse body)).isAckonly = false := by
  have all := isAll (lib.parse body)
  simp only [Wanted, Complete, messageOf, all, Bool.and_eq_true, and_assoc]

theorem notification_eq (lib : Openframe) (body : Str) (ar : ApnsRegister) :
    (messageOf lib (lib.parse body)).notification ar =
      notificationFor productionByStrcasecmp lib body ar := by
  have prod : cStr (lit "prod") = lit "prod" := by decide
  have compared := strcasecmp_eq_zero_iff (cStr ar.environment) (lit "prod")
    (zero_not_mem_cStr _) (by decide)
  unfold ProcessMessage.notification notificationFor productionByStrcasecmp
  rw [prod]
  by_cases production : sameIgnoringCase (cStr ar.environment) (lit "prod") = true
  · rw [if_pos production, if_pos (compared.mpr production)]
    rfl
  · rw [if_neg production, if_neg fun zero => production (compared.mp zero)]
    rfl

theorem accepted_eq (attempts : List Attempt) :
    accepted (attempts.map Attempt.ar) (attempts.map Attempt.constructed) =
      (attempts.filter Attempt.constructed).map Attempt.ar := by
  induction attempts with
  | nil => rfl
  | cons a rest ih =>
    unfold accepted at ih ⊢
    cases constructed : a.constructed <;> simp [constructed, ih]

theorem ne_nil_of_lookup {lib : Openframe} {s s' : Store} {callsign : Str} {tr : Trace} {count : Nat}
    {rows : List ApnsRegister}
    (lookup : Prog.Runs (s.getApnsRegisterByCallsign lib callsign []) tr ((count, rows), s'))
    (nonzero : count ≠ 0) : rows ≠ [] := by
  rintro rfl
  exact nonzero (lookupTrace_of_runs lookup).count

theorem rows_of_attempts {attempts : List Attempt} {rows : List ApnsRegister}
    (walked : (attempts.map fun a => (a.ptr, a.ar)) = allocate rows) :
    attempts.map Attempt.ar = rows := by
  rw [← allocate_rows rows, ← walked, List.map_map]
  rfl

theorem delivers_of_walks (lib : Openframe) (body : Str) (rows : List ApnsRegister)
    (more : rows ≠ []) (loop : Trace) (left : List (Nat × ApnsRegister)) (numSent : Nat)
    (walks : Prog.Runs (queueRegisters (messageOf lib (lib.parse body)) (allocate rows) 0) loop
      (left, numSent)) :
    Delivers productionByStrcasecmp lib body rows (loop ++ [⟨.queued numSent, ()⟩]) := by
  obtain ⟨attempts, walked, same, rfl, count⟩ := attempts_of_runs walks
  have walkedRows := rows_of_attempts walked
  have ptrs : attempts.map Attempt.ptr = List.range rows.length := by
    rw [← allocate_ptrs rows, ← walked, List.map_map]
    rfl
  have queued : inserts [⟨.queued numSent, ()⟩] = [] ∧ constructions [⟨.queued numSent, ()⟩] = [] ∧
      notifications [⟨.queued numSent, ()⟩] = [] ∧ freed [⟨.queued numSent, ()⟩] = [] :=
    ⟨rfl, rfl, rfl, rfl⟩
  have sent : notifications (loop ++ [⟨.queued numSent, ()⟩]) =
      (attempts.filter Attempt.constructed).map fun a =>
        (messageOf lib (lib.parse body)).notification a.ar := by
    rw [notifications_append, queued.2.2.1, List.append_nil, same, notifications_attempts]
  refine ⟨?_, ⟨attempts.map Attempt.constructed, ?_, ?_, ?_⟩, ?_, ?_, fun none => absurd none more⟩
  · rw [inserts_append, queued.1, List.append_nil, same, inserts_attempts, ← walkedRows, List.map_map,
      List.map_map]
    rfl
  · rw [← walkedRows, List.length_map, List.length_map]
  · rw [constructions_append, queued.2.1, List.append_nil, same, constructions_attempts, ← walkedRows,
      List.map_map, List.zip_map', Function.comp_def]
  · rw [sent, ← walkedRows, accepted_eq, List.map_map]
    exact List.map_congr_left fun a _ => notification_eq lib body a.ar
  · rw [freed_append, queued.2.2.2, List.append_nil, same, freed_attempts, ptrs]
  · intro _
    refine ⟨loop, numSent, rfl, walks, ?_⟩
    rw [sent, List.length_map, count, List.countP_eq_length_filter]

theorem delivers_nothing (production : Str → Bool) (lib : Openframe) (body : Str) :
    Delivers production lib body [] [] :=
  ⟨rfl, ⟨[], rfl, rfl, rfl⟩, rfl, fun more => absurd rfl more, fun _ => rfl⟩

/-- The meaning of every body, whatever the lookup, the inserts and the
constructor answer. -/
theorem processMessage_meaning (lib : Openframe) (isAll : lib.IsAll) (s : Store) (body : Str)
    (tr : Trace) (result : Bool × Store)
    (runs : Prog.Runs (processMessage lib s body) tr result) :
    Meaning productionByStrcasecmp lib s body tr := by
  have wanted := wanted_iff lib isAll body
  cases runs.post (processMessage_post lib s body) with
  | incomplete lacks =>
    exact ⟨fun _ => rfl, fun want => absurd (wanted.mp want).1 lacks⟩
  | ackonly complete only =>
    exact ⟨fun _ => rfl, fun want => absurd ((wanted.mp want).2.symm.trans only) (by simp)⟩
  | unregistered complete want front rows s' lookup =>
    refine ⟨fun unwanted => absurd (wanted.mpr ⟨complete, want⟩) unwanted, fun _ => ?_⟩
    -- a count of zero means that the list is empty
    obtain rfl : rows = [] := List.eq_nil_of_length_eq_zero (lookupTrace_of_runs lookup).count.symm
    exact ⟨tr, [], 0, [], s', (List.append_nil tr).symm, lookup, delivers_nothing _ lib body⟩
  | queued complete want front count rows s' lookup nonzero loop left numSent walks =>
    refine ⟨fun unwanted => absurd (wanted.mpr ⟨complete, want⟩) unwanted, fun _ => ?_⟩
    exact ⟨front, _, count, rows, s', rfl, lookup,
      delivers_of_walks lib body rows (ne_nil_of_lookup lookup nonzero) loop left numSent walks⟩

/-- Memcached has nothing, SQL answers `rows`, and the constructor takes every
token of four bytes. -/
def messageScript (rows : List ApnsRegister) : Script where
  clock := 1000
  get := (.ok .notFound, [])
  put := .ok ()
  query := .stored rows (.ok ())
  execute := .raised .exception false
  accepts token := token.length = 4
  frame := .none

def messageBody : Str := lit "SR:n0call|TO:n1abc|MS:hello|PA:APU25N"

def playMessage (rows : List ApnsRegister) : Trace × Bool × Store :=
  Prog.play (messageScript rows).answers 0 (processMessage .textual .blank messageBody)

theorem processMessage_meaning_twoRows :
    Meaning productionByStrcasecmp .textual .blank messageBody
      (playMessage [⟨lit "1", lit "aabb", lit "Prod"⟩, ⟨lit "2", lit "cc", lit "dev"⟩]).1 :=
  processMessage_meaning .textual Openframe.textual_isAll .blank messageBody _ _
    (Prog.play_runs _ 0 _)

/-- An environment that equals `prod` only up to a NUL. -/
def nulRow : ApnsRegister := ⟨lit "1", lit "aabb", lit "prod" ++ [0, 120]⟩

theorem nulRow_production : ¬ ∀ (lib : Openframe) (s : Store) (body : Str) (tr : Trace)
    (result : Bool × Store), lib.IsAll → Prog.Runs (processMessage lib s body) tr result →
    Meaning (fun environment => sameIgnoringCase environment (lit "prod")) lib s body tr := by
  intro meaning
  obtain ⟨front, back, count, rows, s', split, lookup, delivers⟩ :=
    (meaning .textual .blank messageBody _ _ Openframe.textual_isAll
      (Prog.play_runs (messageScript [nulRow]).answers 0 _)).delivered (by
        unfold Wanted
        decide)
  have trace := lookupTrace_of_runs lookup
  have made : front ++ back = (playMessage [nulRow]).1 := split.symm
  have reads (e : Event Call Answer) (member : e ∈ front) : e ∈ (playMessage [nulRow]).1 :=
    made ▸ List.mem_append_left back member
  have explicit : (playMessage [nulRow]).1 = [⟨.time, (1000 : Int)⟩,
      ⟨.memcachedGet (lit "apnsregister") (lit "N1ABC") [], (.ok .notFound, [])⟩,
      ⟨.query (lit "N1ABC"), .stored [nulRow] (.ok ())⟩, ⟨.time, (1000 : Int)⟩,
      ⟨.memcachedPut (lit "apnsregister") (lit "N1ABC") (foundEntry .textual [nulRow]) 3600, .ok ()⟩,
      ⟨.execute (lit "1") (lit "N0CALL: hello"), .raised .exception false⟩,
      ⟨.newApnsMessage (lit "aabb"), true⟩,
      ⟨.push ⟨lit "aabb", lit "N0CALL: hello", lit "View", 1, some .prod⟩, ()⟩,
      ⟨.deleteRegister 0, ()⟩, ⟨.queued 1, ()⟩] := by decide
  have notCached (buf : Str) (s' : Store) : ¬ GetTrace onRegister (lit "apnsregister")
      (Openframe.textual.toUpper (targetOf .textual messageBody)) .blank [] front ((true, buf), s') := by
    intro get
    rcases get.source with member | ⟨ex, member, _⟩
    · have impossible := explicit ▸ reads _ member
      simp at impossible
    · have impossible := explicit ▸ reads _ member
      simp at impossible
  -- the rows of any lookup in this trace are those of its query
  have onlyRow : rows = [nulRow] := by
    cases trace with
    | cachedNotFound _ buf _ get _ => exact absurd get (notCached buf _)
    | cachedFound _ buf _ rows get _ => exact absurd get (notCached buf _)
    | asked got ok buf s' reply put wrote s'' get _ set =>
      have asked := explicit ▸ reads ⟨.query (targetOf .textual messageBody), reply⟩ (by simp)
      obtain ⟨_, rfl⟩ : _ ∧ reply = .stored [nulRow] (.ok ()) := by simpa using asked
      rfl
  subst onlyRow
  have sent : notifications back = notifications (playMessage [nulRow]).1 := by
    rw [← made, notifications_append,
      (projections_of_calls isDelivery_of_isLookup trace.calls).2.2.1, List.nil_append]
  obtain ⟨took, length, _, notified⟩ := delivers.notified
  rw [sent, explicit] at notified
  -- the notification asks for production, the row's environment is another string
  match took, length with
  | [true], _ => exact absurd notified (by decide)
  | [false], _ => exact absurd notified (by decide)

/-! ### The push log -/

/-- One body after another. -/
def processMessages (lib : Openframe) : List Str → Store → Program Store
  | [], s => return s
  | body :: rest, s => do
    let (_, s) ← processMessage lib s body
    processMessages lib rest s

/-- One row of one message: its text, what became of its insert, and whether the
constructor took its token. -/
structure Sent where
  ar : ApnsRegister
  text : Str
  reply : ExecReply
  constructed : Bool

/-- Row by row the trace attempts a record with the row's id and text, and queues
a notification with the row's token and the same text where the token was taken.
Among those rows the ones whose insert stored have their record, in the same order. -/
structure LogsPushes (tr : Trace) (sent : List Sent) : Prop where
  attempted : inserts tr = sent.map fun x => (x.ar.id, x.text, x.reply)
  constructed : constructions tr = sent.map fun x => (x.ar.deviceToken, x.constructed)
  notified : (notifications tr).map (fun m => (m.deviceToken, m.text)) =
    (sent.filter Sent.constructed).map fun x => (x.ar.deviceToken, x.text)
  recorded : (((sent.filter Sent.constructed).filter fun x => x.reply.recorded).map
    fun x => (x.ar.id, x.text)).Sublist (records tr)

theorem recorded_of_inserts (tr : Trace) (sent : List Sent)
    (attempted : inserts tr = sent.map fun x => (x.ar.id, x.text, x.reply)) :
    (((sent.filter Sent.constructed).filter fun x => x.reply.recorded).map
      fun x => (x.ar.id, x.text)).Sublist (records tr) := by
  have all : records tr = (sent.filter fun x => x.reply.recorded).map fun x => (x.ar.id, x.text) := by
    rw [records, attempted, List.filterMap_map]
    clear attempted
    induction sent with
    | nil => rfl
    | cons x rest ih => cases recorded : x.reply.recorded <;> simpa [recorded] using ih
  rw [all]
  exact (List.Sublist.filter _ List.filter_sublist).map _

theorem LogsPushes.append {tr tr' : Trace} {sent sent' : List Sent} (first : LogsPushes tr sent)
    (second : LogsPushes tr' sent') : LogsPushes (tr ++ tr') (sent ++ sent') where
  attempted := by rw [inserts_append, first.attempted, second.attempted, List.map_append]
  constructed := by
    rw [constructions_append, first.constructed, second.constructed, List.map_append]
  notified := by
    rw [notifications_append, List.map_append, first.notified, second.notified, List.filter_append,
      List.map_append]
  recorded := by
    refine recorded_of_inserts _ _ ?_
    rw [inserts_append, first.attempted, second.attempted, List.map_append]

theorem logsPushes_of_lookup {tr : Trace} (lookup : ∀ e ∈ tr, isLookup e.call = true) :
    LogsPushes tr [] := by
  obtain ⟨noInserts, noConstructions, noNotifications, _⟩ :=
    projections_of_calls isDelivery_of_isLookup lookup
  exact ⟨noInserts, noConstructions, by rw [noNotifications]; rfl, List.nil_sublist _⟩

theorem logsPushes_attempts (pm : ProcessMessage) (attempts : List Attempt) :
    LogsPushes (attempts.flatMap (Attempt.trace pm))
      (attempts.map fun a => ⟨a.ar, pm.alert, a.reply, a.constructed⟩) where
  attempted := by rw [inserts_attempts, List.map_map]; rfl
  constructed := by rw [constructions_attempts, List.map_map]; rfl
  notified := by
    rw [notifications_attempts, List.filter_map, List.map_map, List.map_map]
    rfl
  recorded := recorded_of_inserts _ _ (by rw [inserts_attempts, List.map_map]; rfl)

/-- `process_message` goes on to the lookup: nothing required is missing, and it is not
an ack only. -/
def LooksUp (lib : Openframe) (body : Str) : Prop :=
  Complete lib body ∧ (messageOf lib (lib.parse body)).isAckonly = false

/-- What was sent for the registers that one lookup returned: one entry each, in
order, with the text of the body. -/
structure SentFor (lib : Openframe) (body : Str) (rows : List ApnsRegister) (tr : Trace)
    (sent : List Sent) : Prop where
  rows : sent.map Sent.ar = rows
  text : ∀ x ∈ sent, x.text = textOf lib body
  logs : LogsPushes tr sent

/-- The bodies in turn, each with its lookup and what was sent for the registers that
this lookup returned. -/
inductive PushLog (lib : Openframe) : List Str → Store → Trace → List Sent → Store → Prop
  | done (s : Store) : PushLog lib [] s [] [] s
  | passedOver {body : Str} {rest : List Str} {s s' : Store} {tr : Trace} {sent : List Sent}
      (unasked : ¬ LooksUp lib body) (later : PushLog lib rest s tr sent s') :
      PushLog lib (body :: rest) s tr sent s'
  | lookedUp {body : Str} {rest : List Str} {s mid s' : Store} {front back tr : Trace} {count : Nat}
      {rows : List ApnsRegister} {sent sent' : List Sent} (asked : LooksUp lib body)
      (lookup : Prog.Runs (s.getApnsRegisterByCallsign lib (targetOf lib body) []) front
        ((count, rows), mid))
      (here : SentFor lib body rows back sent) (later : PushLog lib rest mid tr sent' s') :
      PushLog lib (body :: rest) s (front ++ back ++ tr) (sent ++ sent') s'

/-- What a run sent is the log of its whole trace. -/
theorem PushLog.logsPushes {lib : Openframe} {bodies : List Str} {s s' : Store} {tr : Trace}
    {sent : List Sent} (log : PushLog lib bodies s tr sent s') : LogsPushes tr sent := by
  induction log with
  | done => exact ⟨rfl, rfl, rfl, List.nil_sublist _⟩
  | passedOver _ _ ih => exact ih
  | lookedUp _ lookup here _ ih =>
    have quiet := logsPushes_of_lookup (lookupTrace_of_runs lookup).calls
    exact (quiet.append here.logs).append ih

theorem sentFor_of_walks {lib : Openframe} {body : Str} {rows : List ApnsRegister} {loop : Trace}
    {left : List (Nat × ApnsRegister)} {numSent : Nat}
    (walks : Prog.Runs (queueRegisters (messageOf lib (lib.parse body)) (allocate rows) 0) loop
      (left, numSent)) :
    ∃ sent, SentFor lib body rows (loop ++ [⟨.queued numSent, ()⟩]) sent := by
  obtain ⟨attempts, walked, rfl, _, _⟩ := attempts_of_runs walks
  have closing : LogsPushes [⟨.queued numSent, ()⟩] [] := ⟨rfl, rfl, rfl, List.nil_sublist _⟩
  have logs := (logsPushes_attempts (messageOf lib (lib.parse body)) attempts).append closing
  rw [List.append_nil] at logs
  refine ⟨_, ?_, ?_, logs⟩
  · rw [List.map_map, ← rows_of_attempts walked]
    rfl
  · intro x member
    obtain ⟨a, _, rfl⟩ := List.mem_map.mp member
    rfl

/-- One message before a run whose log is known. -/
theorem MessageTrace.pushLog {lib : Openframe} {s mid s' : Store} {body : Str} {tr tr' : Trace}
    {answer : Bool} (message : MessageTrace lib s body tr (answer, mid)) {rest : List Str}
    {sent : List Sent} (later : PushLog lib rest mid tr' sent s') :
    ∃ sent, PushLog lib (body :: rest) s (tr ++ tr') sent s' := by
  cases message with
  | incomplete lacks => exact ⟨sent, .passedOver (fun asked => lacks asked.1) later⟩
  | ackonly _ only => exact ⟨sent, .passedOver (fun asked => by simp [asked.2] at only) later⟩
  | unregistered complete wanted _ rows _ lookup =>
    -- a count of zero means that there is no row to send for
    obtain rfl : rows = [] := List.eq_nil_of_length_eq_zero (lookupTrace_of_runs lookup).count.symm
    have none : SentFor lib body [] [] [] := ⟨rfl, by simp, rfl, rfl, rfl, List.nil_sublist _⟩
    have log := PushLog.lookedUp ⟨complete, wanted⟩ lookup none later
    exact ⟨_, by simpa only [List.append_nil] using log⟩
  | queued complete wanted front count rows _ lookup _ loop left numSent walks =>
    obtain ⟨sent, here⟩ := sentFor_of_walks walks
    exact ⟨_, .lookedUp ⟨complete, wanted⟩ lookup here later⟩

/-- Over any run of messages every register that a lookup returned gets, in order, one
attempted record and, where its token was taken, one notification; of those registers
the ones whose insert stored have their record, with the same id and text. -/
theorem pushLog_agrees (lib : Openframe) (bodies : List Str) (s s' : Store) (tr : Trace)
    (runs : Prog.Runs (processMessages lib bodies s) tr s') :
    ∃ sent, PushLog lib bodies s tr sent s' ∧ LogsPushes tr sent := by
  suffices log : ∃ sent, PushLog lib bodies s tr sent s' from
    log.imp fun _ log => ⟨log, log.logsPushes⟩
  induction bodies generalizing s tr with
  | nil =>
    obtain ⟨rfl, rfl⟩ := runs
    exact ⟨[], .done _⟩
  | cons body rest ih =>
    -- on the bodies: the first message, then the rest
    obtain ⟨⟨answer, mid⟩, front, back, rfl, first, more⟩ := (Prog.runs_bind _ _ _ _).mp runs
    obtain ⟨sent, later⟩ := ih mid back more
    exact (first.post (processMessage_post lib s body)).pushLog later

def playMessages (script : Script) (bodies : List Str) : Trace × Store :=
  Prog.play script.answers 0 (processMessages .textual bodies .blank)

/-- Two devices whose tokens are taken, and between them one whose token is not. -/
def threeRows : List ApnsRegister :=
  [⟨lit "1", lit "aabb", lit "prod"⟩, ⟨lit "2", lit "cc", lit "dev"⟩,
    ⟨lit "3", lit "ddee", lit "dev"⟩]

/-- Every insert stores its record. -/
def recordingScript : Script := { messageScript threeRows with execute := .executed 1 (.ok ()) }

/-- Two messages, and between them an ack that nobody is notified of. -/
def threeBodies : List Str := [messageBody, messageBody ++ lit "|AO:1", messageBody]

theorem pushLog_agrees_threeRows : ∃ sent,
    PushLog .textual threeBodies .blank (playMessages recordingScript threeBodies).1 sent
      (playMessages recordingScript threeBodies).2 ∧
    LogsPushes (playMessages recordingScript threeBodies).1 sent :=
  pushLog_agrees .textual threeBodies .blank _ _ (Prog.play_runs _ 0 _)

/-- A failed insert is logged and the notification goes out without its record. -/
theorem pushLog_failedInsert : ¬ ∀ (lib : Openframe) (bodies : List Str) (s s' : Store) (tr : Trace),
    Prog.Runs (processMessages lib bodies s) tr s' → ∃ sent : List (ApnsRegister × Str),
      records tr = sent.map (fun x => (x.1.id, x.2)) ∧
      (notifications tr).map (fun m => (m.deviceToken, m.text)) =
        sent.map fun x => (x.1.deviceToken, x.2) := by
  intro agree
  obtain ⟨sent, recorded, notified⟩ := agree .textual [messageBody] .blank _ _
    (Prog.play_runs (messageScript [⟨lit "1", lit "aabb", lit "prod"⟩]).answers 0 _)
  have none : records (playMessages (messageScript [⟨lit "1", lit "aabb", lit "prod"⟩])
    [messageBody]).1 = [] := by decide
  have one : (notifications (playMessages (messageScript [⟨lit "1", lit "aabb", lit "prod"⟩])
    [messageBody]).1).length = 1 := by decide
  obtain rfl : sent = [] := List.map_eq_nil_iff.mp (recorded.symm.trans none)
  have count := congrArg List.length notified
  rw [List.length_map, List.map_nil, List.length_nil] at count
  exact absurd (one.symm.trans count) (by decide)

end Worker
end ApnsPusher
