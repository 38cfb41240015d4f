import ApnsPusher.Effects.Monitor
import ApnsPusher.Worker.Traces

/-!
# The STOMP session

A monitor for what a worker may do with its subscription and its frames, and the
proof that every sequence of calls of `run` follows it.
-/
namespace ApnsPusher.Worker

open Effects Store

/-- Where a session stands: no subscription, a subscription and no frame, or a
frame delivered and not yet released. -/
inductive Session where
  | down
  | up
  | holding (frame : StompFrame) (acked : Bool)

/-- What a message makes the worker do: look up, insert, queue and clean up. -/
def isMessageWork (call : Call) : Bool := isLookup call || isDelivery call

/-- What may happen next; anything else breaks the discipline. -/
inductive Session.Step : Session → Event Call Answer → Session → Prop
  | statistics (s : Session) (e : Event Call Answer) (call : isStatistics e.call = true) : Step s e s
  | subscribed (destination id : Str) : Step .down ⟨.subscribe destination id, true⟩ .up
  | refused (destination id : Str) : Step .down ⟨.subscribe destination id, false⟩ .down
  | noFrame : Step .up ⟨.nextFrame, .none⟩ .up
  | lost (message : Str) : Step .up ⟨.nextFrame, .raised message⟩ .down
  | delivered (frame : StompFrame) : Step .up ⟨.nextFrame, .frame frame⟩ (.holding frame false)
  | used (frame : StompFrame) (acked : Bool) (use : FrameUse) :
      Step (.holding frame acked) ⟨.frameUse frame use, ()⟩ (.holding frame acked)
  | worked (frame : StompFrame) (usable : Usable frame) (e : Event Call Answer)
      (call : isMessageWork e.call = true) : Step (.holding frame false) e (.holding frame false)
  | acked (frame : StompFrame) (usable : Usable frame) :
      Step (.holding frame false) ⟨.ack (messageId frame) (lit "1"), ()⟩ (.holding frame true)
  | released (frame : StompFrame) (acked : Bool) (settled : acked = true ↔ Usable frame) :
      Step (.holding frame acked) ⟨.release frame, ()⟩ .up

/-- Calls of `run`, one after another. -/
def calls (lib : Openframe) : Nat → Worker → Program Worker
  | 0, w => return w
  | n + 1, w => do
    let (_, w) ← run lib w
    calls lib n w

def sessionOf (w : Worker) : Session := if w.connected then .up else .down

theorem follows_statistics (s : Session) {tr : Trace} (statistics : Statistics tr) :
    Follows Session.Step s tr s :=
  .stays fun e member => .statistics s e (statistics e member)

theorem MessageTrace.isMessageWork {lib : Openframe} {s : Store} {body : Str} {tr : Trace}
    {result : Bool × Store} (message : MessageTrace lib s body tr result) :
    ∀ e ∈ tr, isMessageWork e.call = true := by
  intro e member
  unfold Worker.isMessageWork
  rcases message.calls e member with lookup | delivery
  · rw [lookup, Bool.true_or]
  · rw [delivery, Bool.or_true]

theorem follows_inspection (frame : StompFrame) :
    Follows Session.Step (.holding frame false) (inspection frame) (.holding frame false) := by
  apply Follows.stays
  intro e member
  unfold inspection at member
  split at member
  · simp only [List.mem_cons, List.not_mem_nil, or_false] at member
    rcases member with rfl | rfl <;> exact .used frame false _
  · obtain rfl := List.mem_singleton.mp member
    exact .used frame false _

/-- A delivered frame is used, worked on, acknowledged if it is usable, and released. -/
theorem FrameTrace.follows {lib : Openframe} {frame : StompFrame} {tr : Trace}
    (processed : FrameTrace lib frame tr) : Follows Session.Step (.holding frame false) tr .up := by
  cases processed with
  | unusable other =>
    refine (follows_inspection frame).append (.single (.released frame false ?_))
    simp [other]
  | usable message s tr result processed =>
    refine (follows_inspection frame).append ?_
    refine .cons (.used frame false _) (.cons (.used frame false _) ?_)
    -- the message is worked on while the frame is held and not yet acknowledged
    have work : Follows Session.Step (.holding frame false) tr (.holding frame false) :=
      .stays fun e member => .worked frame message e (processed.isMessageWork e member)
    refine work.append (.cons (.used frame false _) (.cons (.acked frame message) (.single ?_)))
    exact .released frame true (by simp [message])

theorem Connects.follows {w : Worker} {tr : Trace} (connects : Connects w tr) :
    Follows Session.Step (sessionOf w) tr .up := by
  cases connects with
  | already _ statistics up =>
    simpa [sessionOf, up] using follows_statistics .up statistics
  | subscribes _ statistics down =>
    have start : sessionOf w = .down := by simp [sessionOf, down]
    rw [start]
    exact (follows_statistics .down statistics).append (.single (.subscribed _ _))

/-- One call of `run`: each way through it follows the monitor. -/
theorem RunTrace.follows {lib : Openframe} {w : Worker} {tr : Trace} {result : Bool × Worker}
    (ran : RunTrace lib w tr result) :
    Follows Session.Step (sessionOf w) tr (sessionOf result.2) := by
  cases ran with
  | refused tr statistics down w' stays =>
    simp only [sessionOf, down, stays]
    exact (follows_statistics .down statistics).append (.single (.refused _ _))
  | raised tr connects message w' lost =>
    simp only [sessionOf, lost]
    exact connects.follows.append (.single (.lost message))
  | idle tr connects w' up =>
    simp only [sessionOf, up]
    exact connects.follows.append (.single .noFrame)
  | received tr connects frame tr' processed w' up =>
    simp only [sessionOf, up]
    exact connects.follows.append (.cons (.delivered frame) processed.follows)

theorem follows_of_calls {lib : Openframe} {n : Nat} {w w' : Worker} {tr : Trace}
    (runs : Prog.Runs (calls lib n w) tr w') :
    Follows Session.Step (sessionOf w) tr (sessionOf w') := by
  induction n generalizing w tr with
  | zero =>
    obtain ⟨rfl, rfl⟩ := runs
    exact .nil _
  | succ n ih =>
    obtain ⟨⟨worked, mid⟩, front, back, rfl, first, more⟩ := (Prog.runs_bind _ _ _ _).mp runs
    exact (first.post (run_post lib w)).follows.append (ih more)

theorem create_post : Prog.Post create fun tr w => Statistics tr ∧ w.connected = false := by
  simp only [create, Store.create, ObjStats.initStats, ObjStompstats.initStompstats,
    Store.ObjStats.initStats, time, Prog.perform_bind, Prog.call_bind, if_true, Prog.post_call,
    Prog.pure_eq, Prog.ret_bind, Prog.post_ret]
  intro _ _ _ _ _ _ _ _
  simp [Statistics, isStatistics]

/-- Every sequence of calls of `run` by a new worker keeps the discipline, whatever
the broker, memcached, SQL and the constructor answer, and holds no frame at its end. -/
theorem session_discipline (lib : Openframe) (n : Nat) (tr : Trace) (w : Worker)
    (runs : Prog.Runs (create >>= calls lib n) tr w) :
    Follows Session.Step .down tr (if w.connected then .up else .down) := by
  obtain ⟨fresh, front, back, rfl, created, more⟩ := (Prog.runs_bind _ _ _ _).mp runs
  obtain ⟨statistics, down⟩ := created.post create_post
  have start : sessionOf fresh = .down := by simp [sessionOf, down]
  have follows := follows_of_calls more
  rw [start] at follows
  exact (follows_statistics .down statistics).append follows

/-- A broker that delivers one message again and again. -/
def brokerScript : Script where
  clock := 1000
  get := (.ok .notFound, [])
  put := .ok ()
  query := .stored [⟨lit "1", lit "aabb", lit "prod"⟩] (.ok ())
  execute := .executed 1 (.ok ())
  accepts _ := true
  frame := .frame ⟨0, .commandMessage, [(lit "message-id", lit "m-1")],
    lit "SR:n0call|TO:n1abc|MS:hello|PA:APU25N"⟩

def playCalls (n : Nat) : Trace × Worker :=
  Prog.play brokerScript.answers 0 (create >>= calls .textual n)

theorem session_discipline_twoCalls :
    Follows Session.Step .down (playCalls 2).1 (if (playCalls 2).2.connected then .up else .down) :=
  session_discipline .textual 2 _ _ (Prog.play_runs _ 0 _)

end ApnsPusher.Worker
