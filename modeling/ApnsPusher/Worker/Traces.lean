import ApnsPusher.Worker
import ApnsPusher.Store.Traces

/-!
# What one call of `run` can do

As for the store: one inductive for each function of the worker, whose
constructors are all the ways it can run.
-/
namespace ApnsPusher.Worker

open Effects Store

/-! ### Statistics -/

/-- Clock readings, datapoints and report lines. -/
def isStatistics : Call → Bool
  | .time | .datapoint .. | .report _ => true
  | _ => false

def Statistics (tr : Trace) : Prop := ∀ e ∈ tr, isStatistics e.call = true

theorem Statistics.append {tr tr' : Trace} (first : Statistics tr) (second : Statistics tr') :
    Statistics (tr ++ tr') := by
  intro e member
  rcases List.mem_append.mp member with member | member
  · exact first e member
  · exact second e member

theorem datapoints_post (values : List (Str × UInt32)) :
    Prog.Post (datapoints values) fun tr _ => Statistics tr := by
  induction values with
  | nil => intro e member; cases member
  | cons value rest ih =>
    intro _
    apply Prog.post_mono _ ih
    intro tr _ statistics e member
    rcases List.mem_cons.mp member with rfl | member
    · rfl
    · exact statistics e member

theorem store_initStats_post (stats : Store.ObjStats) :
    Prog.Post (stats.initStats false) fun tr _ => Statistics tr := by
  simp only [Store.ObjStats.initStats, time, Prog.perform_bind, Prog.post_call, Bool.false_eq_true,
    if_false, Prog.pure_eq, Prog.post_ret]
  intro _ e member
  simp_all [isStatistics]

theorem store_tryStompstats_post (s : Store) :
    Prog.Post s.tryStompstats fun tr _ => Statistics tr := by
  simp only [Store.tryStompstats, time, Prog.perform_bind, Prog.post_call]
  intro now
  have read : Statistics [⟨.time, now⟩] := by simp [Statistics, isStatistics]
  split
  · exact read
  · rw [Prog.post_bind]
    apply Prog.post_mono _ (datapoints_post _)
    intro tr _ points
    rw [Prog.post_bind]
    apply Prog.post_mono _ (store_initStats_post _)
    intro tr' _ reset
    simpa using read.append (points.append reset)

theorem store_tryStats_post (s : Store) : Prog.Post s.tryStats fun tr _ => Statistics tr := by
  unfold Store.tryStats
  rw [Prog.post_bind]
  apply Prog.post_mono _ (store_tryStompstats_post s)
  intro tr s' statistics
  simp only [time, Prog.perform_bind, Prog.post_call]
  intro now
  have read : Statistics [⟨.time, now⟩] := by simp [Statistics, isStatistics]
  split
  · exact statistics.append read
  · intro _
    rw [Prog.post_bind]
    apply Prog.post_mono _ (store_initStats_post _)
    intro tr' _ reset
    have reported : Statistics [⟨.report s'.stats.logged, ()⟩] := by simp [Statistics, isStatistics]
    simpa using statistics.append (read.append (reported.append reset))

theorem tryStompstats_post (w : Worker) :
    Prog.Post w.tryStompstats fun tr w' => Statistics tr ∧ w'.connected = w.connected := by
  simp only [tryStompstats, ObjStompstats.initStompstats, time, Prog.perform_bind, Prog.post_call]
  intro now
  split
  · simp [Statistics, isStatistics]
  · simp [Statistics, isStatistics]

theorem tryStats_post (w : Worker) :
    Prog.Post w.tryStats fun tr w' => Statistics tr ∧ w'.connected = w.connected := by
  unfold tryStats
  rw [Prog.post_bind]
  apply Prog.post_mono _ (tryStompstats_post w)
  rintro tr w' ⟨statistics, same⟩
  simp only [ObjStats.initStats, time, Prog.perform_bind, Prog.call_bind, Prog.post_call]
  intro now
  split
  · refine ⟨statistics.append ?_, same⟩
    simp [Statistics, isStatistics]
  · intro _ _ _ _
    refine ⟨statistics.append ?_, same⟩
    simp [Statistics, isStatistics]

/-! ### One message -/

/-- One turn of the loop: the register and its address, what became of its
insert, and whether the constructor took its device token. -/
structure Attempt where
  ptr : Nat
  ar : ApnsRegister
  reply : ExecReply
  constructed : Bool

def Attempt.trace (pm : ProcessMessage) (a : Attempt) : Trace :=
  [⟨.execute a.ar.id pm.alert, a.reply⟩, ⟨.newApnsMessage a.ar.deviceToken, a.constructed⟩] ++
    (if a.constructed then [⟨.push (pm.notification a.ar), ()⟩] else []) ++
    [⟨.deleteRegister a.ptr, ()⟩]

theorem setApnsPush_post (id message : Str) :
    Prog.Post (Store.setApnsPush id message) fun tr rows =>
      ∃ reply, tr = [⟨.execute id message, reply⟩] ∧ rows = match reply with
        | .raised _ _ => 0
        | .executed rows _ => DbiApns.numRows rows := by
  simp only [Store.setApnsPush, DbiApns.setApnsPush, Prog.perform_bind, Prog.post_call]
  intro reply
  cases reply <;> exact ⟨_, rfl, rfl⟩

theorem queueRegisters_post (pm : ProcessMessage) (res : List (Nat × ApnsRegister)) (numSent : Nat) :
    Prog.Post (queueRegisters pm res numSent) fun tr result => ∃ attempts : List Attempt,
      (attempts.map fun a => (a.ptr, a.ar)) = res ∧ tr = attempts.flatMap (Attempt.trace pm) ∧
        result = ([], numSent + attempts.countP Attempt.constructed) := by
  induction res generalizing numSent with
  | nil => exact ⟨[], rfl, rfl, rfl⟩
  | cons row rest ih =>
    obtain ⟨ptr, ar⟩ := row
    unfold queueRegisters
    rw [Prog.post_bind]
    apply Prog.post_mono _ (setApnsPush_post ar.id pm.alert)
    rintro _ _ ⟨reply, rfl, _⟩
    simp only [Prog.perform_bind, Prog.post_call]
    intro constructed
    -- a rejected token frees its register and goes on, an accepted one is queued first
    cases constructed with
    | false =>
      simp only [Bool.not_false, if_true, Prog.post_call]
      intro _
      apply Prog.post_mono _ (ih numSent)
      rintro _ _ ⟨attempts, rfl, rfl, rfl⟩
      refine ⟨⟨ptr, ar, reply, false⟩ :: attempts, rfl, rfl, ?_⟩
      rw [List.countP_cons_of_neg (by simp)]
    | true =>
      simp only [Bool.not_true, Bool.false_eq_true, if_false, Prog.post_call]
      intro _ _
      apply Prog.post_mono _ (ih (numSent + 1))
      rintro _ _ ⟨attempts, rfl, rfl, rfl⟩
      refine ⟨⟨ptr, ar, reply, true⟩ :: attempts, rfl, rfl, ?_⟩
      rw [List.countP_cons_of_pos (by simp)]
      congr 1
      omega

/-- A whole walk over the registers of a lookup. -/
theorem attempts_of_runs {pm : ProcessMessage} {rows : List ApnsRegister} {loop : Trace}
    {left : List (Nat × ApnsRegister)} {numSent : Nat}
    (walks : Prog.Runs (queueRegisters pm (allocate rows) 0) loop (left, numSent)) :
    ∃ attempts : List Attempt, (attempts.map fun a => (a.ptr, a.ar)) = allocate rows ∧
      loop = attempts.flatMap (Attempt.trace pm) ∧ left = [] ∧
        numSent = attempts.countP Attempt.constructed := by
  obtain ⟨attempts, walked, same, result⟩ := walks.post (queueRegisters_post pm (allocate rows) 0)
  obtain ⟨rfl, rfl⟩ : left = [] ∧ numSent = attempts.countP Attempt.constructed := by
    simpa using result
  exact ⟨attempts, walked, same, rfl, rfl⟩

theorem allocate_ptrs (rows : List ApnsRegister) :
    (allocate rows).map Prod.fst = List.range rows.length := by
  rw [allocate, List.map_fst_zip (by simp)]

theorem allocate_rows (rows : List ApnsRegister) : (allocate rows).map Prod.snd = rows := by
  rw [allocate, List.map_snd_zip (by simp)]

/-- The parsed body has all of `sr`, `to`, `ms` and `pa`. -/
def Complete (lib : Openframe) (body : Str) : Prop :=
  lib.is (lib.parse body) (lit "sr,to,ms,pa") = true

inductive MessageTrace (lib : Openframe) (s : Store) (body : Str) : Trace → Bool × Store → Prop
  | incomplete (lacks : ¬ Complete lib body) : MessageTrace lib s body [] (false, s)
  | ackonly (complete : Complete lib body)
      (only : (messageOf lib (lib.parse body)).isAckonly = true) :
      MessageTrace lib s body [] (true, s)
  | unregistered (complete : Complete lib body)
      (wanted : (messageOf lib (lib.parse body)).isAckonly = false) (tr : Trace)
      (rows : List ApnsRegister) (s' : Store)
      (lookup : Prog.Runs (s.getApnsRegisterByCallsign lib (messageOf lib (lib.parse body)).target [])
        tr ((0, rows), s')) :
      MessageTrace lib s body tr (true, s')
  | queued (complete : Complete lib body)
      (wanted : (messageOf lib (lib.parse body)).isAckonly = false) (tr : Trace) (count : Nat)
      (rows : List ApnsRegister) (s' : Store)
      (lookup : Prog.Runs (s.getApnsRegisterByCallsign lib (messageOf lib (lib.parse body)).target [])
        tr ((count, rows), s'))
      (nonzero : count ≠ 0) (loop : Trace) (left : List (Nat × ApnsRegister)) (numSent : Nat)
      (walks : Prog.Runs (queueRegisters (messageOf lib (lib.parse body)) (allocate rows) 0) loop
        (left, numSent)) :
      MessageTrace lib s body (tr ++ (loop ++ [⟨.queued numSent, ()⟩])) (true, s')

theorem processMessage_post (lib : Openframe) (s : Store) (body : Str) :
    Prog.Post (processMessage lib s body) (MessageTrace lib s body) := by
  unfold processMessage
  dsimp only
  by_cases complete : Complete lib body
  · rw [if_neg (by simpa [Complete] using complete)]
    unfold eventMessageToApns
    by_cases only : (messageOf lib (lib.parse body)).isAckonly = true
    · rw [if_pos only]
      exact .ackonly complete only
    · have wanted : (messageOf lib (lib.parse body)).isAckonly = false := by simpa using only
      rw [if_neg only, Prog.post_bind, Prog.post_bind]
      apply Prog.post_mono _ (Prog.post_runs _)
      rintro tr ⟨⟨count, rows⟩, s'⟩ lookup
      by_cases none : count = 0
      · subst none
        simpa using MessageTrace.unregistered complete wanted tr rows s' lookup
      · simp only [if_neg none]
        rw [Prog.post_bind]
        apply Prog.post_mono _ (Prog.post_runs _)
        rintro loop ⟨left, numSent⟩ walks
        simp only [Prog.perform_bind, Prog.post_call]
        intro _
        simpa using MessageTrace.queued complete wanted tr count rows s' lookup none loop left numSent
          walks
  · rw [if_pos (by simpa [Complete] using complete)]
    exact .incomplete complete

/-- What is done with the registers of a lookup. -/
def isDelivery : Call → Bool
  | .execute .. | .newApnsMessage _ | .push _ | .deleteRegister _ | .queued _ => true
  | _ => false

theorem isDelivery_attempts (pm : ProcessMessage) (attempts : List Attempt) :
    ∀ e ∈ attempts.flatMap (Attempt.trace pm), isDelivery e.call = true := by
  intro e member
  obtain ⟨a, _, member⟩ := List.mem_flatMap.mp member
  unfold Attempt.trace at member
  cases constructed : a.constructed
  · simp only [constructed, Bool.false_eq_true, if_false, List.append_nil, List.cons_append,
      List.nil_append, List.mem_cons, List.not_mem_nil, or_false] at member
    rcases member with rfl | rfl | rfl <;> rfl
  · simp only [constructed, if_true, List.cons_append, List.nil_append, List.mem_cons,
      List.not_mem_nil, or_false] at member
    rcases member with rfl | rfl | rfl | rfl <;> rfl

theorem isDelivery_loop {pm : ProcessMessage} {rows : List ApnsRegister} {loop : Trace}
    {left : List (Nat × ApnsRegister)} {numSent : Nat}
    (walks : Prog.Runs (queueRegisters pm (allocate rows) 0) loop (left, numSent)) :
    ∀ e ∈ loop ++ [⟨.queued numSent, ()⟩], isDelivery e.call = true := by
  obtain ⟨attempts, _, rfl, _, _⟩ := attempts_of_runs walks
  intro e member
  rcases List.mem_append.mp member with member | member
  · exact isDelivery_attempts pm attempts e member
  · obtain rfl := List.mem_singleton.mp member
    rfl

/-- A message looks up and delivers, and does nothing else. -/
theorem MessageTrace.calls {lib : Openframe} {s : Store} {body : Str} {tr : Trace}
    {result : Bool × Store} (message : MessageTrace lib s body tr result) :
    ∀ e ∈ tr, isLookup e.call = true ∨ isDelivery e.call = true := by
  cases message with
  | incomplete | ackonly => simp
  | unregistered _ _ _ rows s' lookup =>
    exact fun e member => Or.inl ((lookupTrace_of_runs lookup).calls e member)
  | queued _ _ front count rows s' lookup _ loop left numSent walks =>
    intro e member
    rcases List.mem_append.mp member with member | member
    · exact Or.inl ((lookupTrace_of_runs lookup).calls e member)
    · exact Or.inr (isDelivery_loop walks e member)

/-! ### One frame -/

/-- A MESSAGE with a message-id header. -/
def Usable (frame : StompFrame) : Prop :=
  frame.command = .commandMessage ∧ (frame.headers.lookup messageIdHeader).isSome = true

instance (frame : StompFrame) : Decidable (Usable frame) := inferInstanceAs (Decidable (_ ∧ _))

/-- The message-id a usable frame is acknowledged with. -/
def messageId (frame : StompFrame) : Str := (frame.headers.lookup messageIdHeader).getD []

/-- The calls by which `run` finds out whether the frame is usable. -/
def inspection (frame : StompFrame) : Trace :=
  ⟨.frameUse frame .isCommand, ()⟩ ::
    if frame.command = .commandMessage then [⟨.frameUse frame .isHeader, ()⟩] else []

/-- The calls by which `run` acknowledges and releases a usable frame. -/
def conclusion (frame : StompFrame) : Trace :=
  [⟨.frameUse frame .getHeader, ()⟩, ⟨.ack (messageId frame) (lit "1"), ()⟩, ⟨.release frame, ()⟩]

inductive FrameTrace (lib : Openframe) (frame : StompFrame) : Trace → Prop
  | unusable (other : ¬ Usable frame) :
      FrameTrace lib frame (inspection frame ++ [⟨.release frame, ()⟩])
  | usable (message : Usable frame) (s : Store) (tr : Trace) (result : Bool × Store)
      (processed : MessageTrace lib s frame.body tr result) :
      FrameTrace lib frame (inspection frame ++ ([⟨.frameUse frame .body, ()⟩,
        ⟨.frameUse frame .body, ()⟩] ++ (tr ++ conclusion frame)))

theorem isUsable_post (frame : StompFrame) :
    Prog.Post (isUsable frame) fun tr usable =>
      tr = inspection frame ∧ usable = decide (Usable frame) := by
  simp only [isUsable, isCommand, isHeader, Prog.perform_bind, Prog.call_bind, Prog.post_call,
    Prog.pure_eq, Prog.ret_bind]
  intro _
  by_cases message : frame.command = .commandMessage
  · cases header : frame.headers.lookup messageIdHeader <;> simp [message, header, inspection, Usable]
  · simp [message, inspection, Usable]

theorem processFrame_post (lib : Openframe) (w : Worker) (frame : StompFrame) :
    Prog.Post (processFrame lib w frame) fun tr result =>
      FrameTrace lib frame tr ∧ result.1 = true ∧ result.2.connected = w.connected := by
  unfold processFrame
  dsimp only
  rw [Prog.post_bind]
  apply Prog.post_mono _ (isUsable_post frame)
  rintro _ _ ⟨rfl, rfl⟩
  by_cases usable : Usable frame
  · simp only [usable, decide_true, Bool.not_true, Bool.false_eq_true, if_false, frameBody,
      Prog.perform_bind, Prog.call_bind, Prog.post_call, Prog.pure_eq, Prog.ret_bind]
    intro _ _
    rw [Prog.post_bind]
    apply Prog.post_mono _ (processMessage_post lib w.countFrameIn.countFrameIn.store frame.body)
    intro tr result processed
    simp only [getHeader, Prog.perform_bind, Prog.call_bind, Prog.pure_eq, Prog.ret_bind,
      Prog.post_call]
    intro _ _ _
    exact ⟨.usable usable _ tr result processed, rfl, rfl⟩
  · simp only [usable, decide_false, Bool.not_false, if_true, Prog.perform_bind, Prog.post_call]
    intro _
    exact ⟨.unusable usable, rfl, rfl⟩

/-! ### One call of `run` -/

/-- The connection check passed: the worker was connected, or subscribes now. -/
inductive Connects (w : Worker) : Trace → Prop
  | already (tr : Trace) (statistics : Statistics tr) (up : w.connected = true) : Connects w tr
  | subscribes (tr : Trace) (statistics : Statistics tr) (down : w.connected = false) :
      Connects w (tr ++ [⟨.subscribe kDefaultStompDestNotifyMessages (lit "1"), true⟩])

inductive RunTrace (lib : Openframe) (w : Worker) : Trace → Bool × Worker → Prop
  | refused (tr : Trace) (statistics : Statistics tr) (down : w.connected = false) (w' : Worker)
      (stays : w'.connected = false) : RunTrace lib w
        (tr ++ [⟨.subscribe kDefaultStompDestNotifyMessages (lit "1"), false⟩]) (false, w')
  | raised (tr : Trace) (connects : Connects w tr) (message : Str) (w' : Worker)
      (lost : w'.connected = false) :
      RunTrace lib w (tr ++ [⟨.nextFrame, .raised message⟩]) (false, w')
  | idle (tr : Trace) (connects : Connects w tr) (w' : Worker) (up : w'.connected = true) :
      RunTrace lib w (tr ++ [⟨.nextFrame, .none⟩]) (false, w')
  | received (tr : Trace) (connects : Connects w tr) (frame : StompFrame) (tr' : Trace)
      (processed : FrameTrace lib frame tr') (w' : Worker) (up : w'.connected = true) :
      RunTrace lib w (tr ++ ⟨.nextFrame, .frame frame⟩ :: tr') (true, w')

theorem receive_post (lib : Openframe) (w w₀ : Worker) (tr : Trace) (connects : Connects w₀ tr)
    (up : w.connected = true) :
    Prog.Post (receive lib w) fun tr' result => RunTrace lib w₀ (tr ++ tr') result := by
  simp only [receive, Prog.perform_bind, Prog.post_call]
  intro reply
  cases reply with
  | raised message => exact .raised tr connects message _ rfl
  | none => exact .idle tr connects w up
  | frame frame =>
    apply Prog.post_mono _ (processFrame_post lib w frame)
    rintro tr' ⟨_, w'⟩ ⟨processed, rfl, same⟩
    exact .received tr connects frame tr' processed w' (same.trans up)

theorem run_post (lib : Openframe) (w : Worker) : Prog.Post (run lib w) (RunTrace lib w) := by
  unfold run
  rw [Prog.post_bind]
  apply Prog.post_mono _ (tryStats_post w)
  rintro tr w' ⟨statistics, same⟩
  rw [Prog.post_bind]
  apply Prog.post_mono _ (store_tryStats_post w'.store)
  intro tr' store statistics'
  dsimp only
  have quiet := statistics.append statistics'
  by_cases up : w'.connected = true
  · simp only [up, Bool.not_true, Bool.false_eq_true, if_false]
    have connects : Connects w (tr ++ tr') := .already _ quiet (same ▸ up)
    simpa only [List.append_assoc] using receive_post lib _ w _ connects rfl
  · have down : w.connected = false := by simpa [← same] using up
    simp only [up, Bool.not_false, if_true, Prog.perform_bind, Prog.post_call]
    intro ok
    cases ok with
    | false =>
      simp only [Bool.not_false, if_true, Prog.pure_eq, Prog.post_ret, ← List.append_assoc]
      exact .refused _ quiet down _ rfl
    | true =>
      simp only [Bool.not_true, Bool.false_eq_true, if_false]
      have connects : Connects w _ := .subscribes _ quiet down
      simpa using receive_post lib _ w _ connects rfl

/-! ### The message inside a call of `run` -/

/-- What `run` does up to a message. -/
def isOpening : Call → Bool
  | .subscribe .. | .nextFrame | .frameUse .. => true
  | call => isStatistics call

/-- The calls that the STOMP connection answers. -/
def isConnection : Call → Bool
  | .subscribe .. | .nextFrame => true
  | _ => false

/-- What `run` does after a message. -/
def isClosing : Call → Bool
  | .frameUse .. | .ack .. | .release _ => true
  | _ => false

theorem isOpening_of_isStatistics (call : Call) (statistics : isStatistics call = true) :
    isOpening call = true := by
  cases call <;> first | rfl | cases statistics

theorem isConnection_of_isStatistics (call : Call) (statistics : isStatistics call = true) :
    isConnection call = false := by
  cases call <;> first | rfl | cases statistics

theorem Connects.calls {w : Worker} {tr : Trace} (connects : Connects w tr) :
    ∀ e ∈ tr, isOpening e.call = true ∧ e.call ≠ .nextFrame := by
  have quiet {tr : Trace} (statistics : Statistics tr) (e : Event Call Answer) (member : e ∈ tr) :
      isOpening e.call = true ∧ e.call ≠ .nextFrame := by
    refine ⟨isOpening_of_isStatistics _ (statistics e member), fun next => ?_⟩
    have call := statistics e member
    rw [next] at call
    cases call
  cases connects with
  | already _ statistics _ => exact quiet statistics
  | subscribes _ statistics _ =>
    intro e member
    rcases List.mem_append.mp member with member | member
    · exact quiet statistics e member
    · obtain rfl := List.mem_singleton.mp member
      exact ⟨rfl, by simp⟩

theorem isOpening_inspection (frame : StompFrame) :
    ∀ e ∈ inspection frame, isOpening e.call = true ∧ isConnection e.call = false := by
  intro e member
  unfold inspection at member
  split at member
  · simp only [List.mem_cons, List.not_mem_nil, or_false] at member
    rcases member with rfl | rfl <;> exact ⟨rfl, rfl⟩
  · obtain rfl := List.mem_singleton.mp member
    exact ⟨rfl, rfl⟩

/-- A delivered frame, read up to its message. -/
def reception (frame : StompFrame) : Trace :=
  ⟨.nextFrame, .frame frame⟩ :: (inspection frame ++
    [⟨.frameUse frame .body, ()⟩, ⟨.frameUse frame .body, ()⟩])

theorem isOpening_reception {w : Worker} {tr : Trace} (connects : Connects w tr)
    (frame : StompFrame) : ∀ e ∈ tr ++ reception frame, isOpening e.call = true := by
  intro e member
  rcases List.mem_append.mp member with member | member
  · exact (connects.calls e member).1
  · rcases List.mem_cons.mp member with rfl | member
    · rfl
    · rcases List.mem_append.mp member with member | member
      · exact (isOpening_inspection frame e member).1
      · simp only [List.mem_cons, List.not_mem_nil, or_false] at member
        rcases member with rfl | rfl <;> rfl

theorem isOpening_connects {w : Worker} {tr : Trace} (connects : Connects w tr)
    {reply : FrameReply} : ∀ e ∈ tr ++ [⟨.nextFrame, reply⟩], isOpening e.call = true := by
  intro e member
  rcases List.mem_append.mp member with member | member
  · exact (connects.calls e member).1
  · obtain rfl := List.mem_singleton.mp member
    rfl

/-- A call of `run` that was delivered a frame works on its message, or only
inspects the frame. -/
theorem FrameTrace.parts {lib : Openframe} {frame : StompFrame} {tr' : Trace}
    (processed : FrameTrace lib frame tr') {w : Worker} {tr : Trace} (connects : Connects w tr) :
    (Usable frame ∧ ∃ front s message result',
      tr ++ ⟨.nextFrame, .frame frame⟩ :: tr' = front ++ (message ++ conclusion frame) ∧
      (∀ e ∈ front, isOpening e.call = true) ∧ MessageTrace lib s frame.body message result') ∨
    (¬ Usable frame ∧ ∃ front,
      tr ++ ⟨.nextFrame, .frame frame⟩ :: tr' = front ++ [⟨.release frame, ()⟩] ∧
      ∀ e ∈ front, isOpening e.call = true) := by
  cases processed with
  | unusable other =>
    refine Or.inr ⟨other, tr ++ [⟨.nextFrame, .frame frame⟩] ++ inspection frame, by simp, ?_⟩
    intro e member
    rcases List.mem_append.mp member with member | member
    · exact isOpening_connects connects e member
    · exact (isOpening_inspection frame e member).1
  | usable message s message' result' processed =>
    exact Or.inl ⟨message, tr ++ reception frame, s, message', result',
      by simp only [reception, List.append_assoc, List.cons_append],
      isOpening_reception connects frame, processed⟩

/-- A call of `run` is an opening, at most one message, and a closing. -/
theorem RunTrace.message {lib : Openframe} {w : Worker} {tr : Trace} {result : Bool × Worker}
    (ran : RunTrace lib w tr result) : ∃ front message back, tr = front ++ (message ++ back) ∧
      (∀ e ∈ front, isOpening e.call = true) ∧ (∀ e ∈ back, isClosing e.call = true) ∧
      (message = [] ∨ ∃ s body result', MessageTrace lib s body message result') := by
  cases ran with
  | refused tr statistics down w' stays =>
    refine ⟨_, [], [], (List.append_nil _).symm, ?_, by simp, Or.inl rfl⟩
    intro e member
    rcases List.mem_append.mp member with member | member
    · exact isOpening_of_isStatistics _ (statistics e member)
    · obtain rfl := List.mem_singleton.mp member
      rfl
  | raised tr connects | idle tr connects =>
    exact ⟨_, [], [], (List.append_nil _).symm, isOpening_connects connects, by simp, Or.inl rfl⟩
  | received tr connects frame tr' processed w' up =>
    rcases processed.parts connects with
      ⟨_, front, s, message, result', whole, opening, worked⟩ | ⟨_, front, whole, opening⟩
    · exact ⟨front, message, conclusion frame, whole, opening, by simp [conclusion, isClosing],
        Or.inr ⟨s, frame.body, result', worked⟩⟩
    · exact ⟨front, [], [⟨.release frame, ()⟩], whole, opening, by simp [isClosing], Or.inl rfl⟩

theorem FrameTrace.calls {lib : Openframe} {frame : StompFrame} {tr : Trace}
    (processed : FrameTrace lib frame tr) : ∀ e ∈ tr, isConnection e.call = false := by
  have apart (call : Call) (message : isLookup call = true ∨ isDelivery call = true) :
      isConnection call = false := by
    rcases message with kind | kind <;> cases call <;> first | rfl | cases kind
  intro e member
  cases processed with
  | unusable other =>
    rcases List.mem_append.mp member with member | member
    · exact (isOpening_inspection frame e member).2
    · obtain rfl := List.mem_singleton.mp member
      rfl
  | usable message s tr result processed =>
    rcases List.mem_append.mp member with member | member
    · exact (isOpening_inspection frame e member).2
    · simp only [conclusion, List.mem_append, List.mem_cons, List.not_mem_nil, or_false] at member
      rcases member with (rfl | rfl) | member | rfl | rfl | rfl
      · rfl
      · rfl
      · exact apart e.call (processed.calls e member)
      · rfl
      · rfl
      · rfl

/-- The parts of a call of `run` that was delivered `frame`. -/
theorem RunTrace.delivered {lib : Openframe} {w : Worker} {tr : Trace} {result : Bool × Worker}
    (ran : RunTrace lib w tr result) {frame : StompFrame}
    (delivered : (⟨.nextFrame, .frame frame⟩ : Event Call Answer) ∈ tr) :
    (Usable frame ∧ ∃ front s message result', tr = front ++ (message ++ conclusion frame) ∧
      (∀ e ∈ front, isOpening e.call = true) ∧ MessageTrace lib s frame.body message result') ∨
    (¬ Usable frame ∧ ∃ front, tr = front ++ [⟨.release frame, ()⟩] ∧
      ∀ e ∈ front, isOpening e.call = true) := by
  cases ran with
  | refused tr statistics down w' stays =>
    rcases List.mem_append.mp delivered with member | member
    · exact absurd (statistics _ member) (by simp [isStatistics])
    · simp at member
  | raised tr connects | idle tr connects =>
    rcases List.mem_append.mp delivered with member | member
    · exact absurd rfl (connects.calls _ member).2
    · simp at member
  | received tr connects frame' tr' processed w' up =>
    -- one call of `run` asks for one frame
    have same : frame' = frame := by
      rcases List.mem_append.mp delivered with member | member
      · exact absurd rfl (connects.calls _ member).2
      · rcases List.mem_cons.mp member with equal | member
        · cases equal
          rfl
        · cases processed.calls _ member
    subst same
    exact processed.parts connects

/-- A call of `run` that acknowledges has processed the message of the frame it
was delivered. -/
theorem RunTrace.acknowledged {lib : Openframe} {w : Worker} {tr : Trace}
    {result : Bool × Worker} (ran : RunTrace lib w tr result) {messageId' id : Str}
    (acked : (⟨.ack messageId' id, ()⟩ : Event Call Answer) ∈ tr) {frame : StompFrame}
    (delivered : (⟨.nextFrame, .frame frame⟩ : Event Call Answer) ∈ tr) :
    ∃ front s message result', tr = front ++ (message ++ conclusion frame) ∧
      (∀ e ∈ front, isOpening e.call = true) ∧ MessageTrace lib s frame.body message result' := by
  rcases ran.delivered delivered with ⟨_, processed⟩ | ⟨_, front, rfl, opening⟩
  · exact processed
  -- an unusable frame is inspected and released
  · rcases List.mem_append.mp acked with member | member
    · exact absurd (opening _ member) (by simp [isOpening, isStatistics])
    · simp at member

end ApnsPusher.Worker
