import ApnsPusher.MemcachedController

/-!
# Data and calls

The records the program passes around, and every call by which a worker and its
store reach beyond their own memory.
-/
namespace ApnsPusher

open Effects

structure ApnsRegister where
  id : Str
  deviceToken : Str
  environment : Str
  deriving DecidableEq, Repr

inductive MysqlppException where
  | badQuery (errnum : Nat)
  | exception
  deriving DecidableEq, Repr

/-- What became of the `try` block around the register query: `query->store`
raised, or it stored rows and the loop over further results ended or raised. -/
inductive QueryReply where
  | raised (ex : MysqlppException)
  | stored (rows : List ApnsRegister) (drained : Except MysqlppException Unit)
  deriving DecidableEq

/-- The same for the insert. A connection can break after the server has taken
the record, so a raised insert may have stored it. -/
inductive ExecReply where
  | raised (ex : MysqlppException) (recorded : Bool)
  | executed (rows : Nat) (drained : Except MysqlppException Unit)
  deriving DecidableEq

/-- Whether the record is in the table afterwards. -/
def ExecReply.recorded : ExecReply → Bool
  | .raised _ recorded => recorded
  | .executed rows _ => rows ≠ 0

inductive StompCommand where
  | commandMessage
  | other (name : Str)
  deriving DecidableEq, Repr

/-- A delivered frame; `ptr` is its address. -/
structure StompFrame where
  ptr : Nat
  command : StompCommand
  headers : List (Str × Str)
  body : Str
  deriving DecidableEq, Repr

inductive FrameReply where
  | none
  | frame (f : StompFrame)
  | raised (message : Str)
  deriving DecidableEq, Repr

inductive FrameUse where
  | isCommand
  | isHeader
  | getHeader
  | body
  deriving DecidableEq, Repr

inductive ApnsEnvironment where
  | prod
  deriving DecidableEq, Repr

/-- An `apns::ApnsMessage`; a field that was never set keeps the library's default. -/
structure ApnsMessage where
  deviceToken : Str
  text : Str
  actionKeyCaption : Str
  badgeNumber : Int
  environment : Option ApnsEnvironment
  deriving DecidableEq, Repr

inductive Call where
  | time
  /-- The value a local holds that was never assigned. -/
  | indeterminate
  | memcachedGet (ns key buf : Str)
  | memcachedPut (ns key value : Str) (expires : Int)
  | query (callsign : Str)
  | execute (id message : Str)
  | datapoint (name : Str) (value : UInt32)
  | report (values : List (Str × UInt32))
  | subscribe (destination id : Str)
  | nextFrame
  | frameUse (frame : StompFrame) (use : FrameUse)
  | ack (messageId id : Str)
  | release (frame : StompFrame)
  | newApnsMessage (deviceToken : Str)
  | push (message : ApnsMessage)
  | deleteRegister (ptr : Nat)
  /-- The closing log line of `event_message_to_apns`. -/
  | queued (numSent : Nat)
  deriving DecidableEq

abbrev Answer : Call → Type
  | .time => Int
  | .indeterminate => MemcachedReturnEnum
  | .memcachedGet .. => Except MemcachedControllerException MemcachedReturnEnum × Str
  | .memcachedPut .. => Except MemcachedControllerException Unit
  | .query _ => QueryReply
  | .execute .. => ExecReply
  | .subscribe .. => Bool
  | .nextFrame => FrameReply
  | .newApnsMessage _ => Bool
  | .datapoint .. | .report _ | .frameUse .. | .ack .. | .release _ | .push _
  | .deleteRegister _ | .queued _ => Unit

instance : ∀ c : Call, DecidableEq (Answer c)
  | .time => inferInstanceAs (DecidableEq Int)
  | .indeterminate => inferInstanceAs (DecidableEq MemcachedReturnEnum)
  | .memcachedGet .. =>
    inferInstanceAs (DecidableEq (Except MemcachedControllerException MemcachedReturnEnum × Str))
  | .memcachedPut .. => inferInstanceAs (DecidableEq (Except MemcachedControllerException Unit))
  | .query _ => inferInstanceAs (DecidableEq QueryReply)
  | .execute .. => inferInstanceAs (DecidableEq ExecReply)
  | .subscribe .. | .newApnsMessage _ => inferInstanceAs (DecidableEq Bool)
  | .nextFrame => inferInstanceAs (DecidableEq FrameReply)
  | .datapoint .. | .report _ | .frameUse .. | .ack .. | .release _ | .push _
  | .deleteRegister _ | .queued _ => inferInstanceAs (DecidableEq Unit)

instance : ∀ c : Call, Nonempty (Answer c)
  | .time => ⟨(0 : Int)⟩
  | .indeterminate => ⟨MemcachedReturnEnum.notFound⟩
  | .memcachedGet .. => ⟨(.ok .notFound, [])⟩
  | .memcachedPut .. => ⟨.ok ()⟩
  | .query _ => ⟨.stored [] (.ok ())⟩
  | .execute .. => ⟨.executed 0 (.ok ())⟩
  | .subscribe .. | .newApnsMessage _ => ⟨false⟩
  | .nextFrame => ⟨.none⟩
  | .datapoint .. | .report _ | .frameUse .. | .ack .. | .release _ | .push _
  | .deleteRegister _ | .queued _ => ⟨()⟩

abbrev Program (α : Type) : Type := Prog Call Answer α

abbrev Trace : Type := List (Event Call Answer)

def time : Program Int := .perform Call.time

def indeterminate : Program MemcachedReturnEnum := .perform Call.indeterminate

/-- Surroundings that answer each kind of call the same way throughout. -/
structure Script where
  clock : Int
  get : Except MemcachedControllerException MemcachedReturnEnum × Str
  put : Except MemcachedControllerException Unit
  query : QueryReply
  execute : ExecReply
  accepts : Str → Bool
  frame : FrameReply

def Script.answers (script : Script) : (c : Call) → Nat → Answer c
  | .time, _ => script.clock
  | .indeterminate, _ => .notFound
  | .memcachedGet .., _ => script.get
  | .memcachedPut .., _ => script.put
  | .query _, _ => script.query
  | .execute .., _ => script.execute
  | .subscribe .., _ => true
  | .nextFrame, _ => script.frame
  | .newApnsMessage token, _ => script.accepts token
  | .datapoint .., _ | .report _, _ | .frameUse .., _ | .ack .., _ | .release _, _ | .push _, _
  | .deleteRegister _, _ | .queued _, _ => ()

end ApnsPusher
