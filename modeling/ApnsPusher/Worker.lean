import ApnsPusher.Store

/-!
# The worker

One call of `run` keeps the subscription, takes a frame, and turns the message in
it into a notification for every device registered for its target.
-/
namespace ApnsPusher

open Effects

structure Worker.ObjStats where
  connects : UInt32
  disconnects : UInt32
  packets : UInt32
  framesIn : UInt32
  framesOut : UInt32
  lastReportAt : Int
  reportInterval : Int
  createdAt : Int
  deriving DecidableEq, Repr

/-- The times of `obj_stompstats_t`; its `aprs_stats` are never counted. -/
structure Worker.ObjStompstats where
  lastReportAt : Int
  reportInterval : Int
  createdAt : Int
  deriving DecidableEq, Repr

structure Worker where
  connected : Bool
  stats : Worker.ObjStats
  stompstats : Worker.ObjStompstats
  store : Store
  deriving DecidableEq, Repr

/-- `process_message_t`, without the `Vars` it was read from. -/
structure ProcessMessage where
  source : Str
  target : Str
  id : Str
  ack : Str
  replyId : Str
  path : Str
  body : Str
  isAckonly : Bool
  deriving DecidableEq, Repr

/-! ### The C string comparison -/

/-- The bytes of a string up to its first NUL, which is all a C function sees. -/
def cStr (s : Str) : Str := s.takeWhile (· ≠ 0)

def toLowerByte (b : UInt8) : UInt8 := if 65 ≤ b ∧ b ≤ 90 then b + 32 else b

/-- The difference of the first two bytes that differ, ignoring case. -/
def strcasecmp : Str → Str → Int
  | [], [] => 0
  | [], b :: _ => -((toLowerByte b).toNat : Int)
  | a :: _, [] => (toLowerByte a).toNat
  | a :: as, b :: bs =>
    if toLowerByte a = toLowerByte b then strcasecmp as bs
    else ((toLowerByte a).toNat : Int) - (toLowerByte b).toNat

/-- The text of a notification and of its push record. -/
def ProcessMessage.alert (pm : ProcessMessage) : Str := pm.source ++ lit ": " ++ pm.body

/-- The notification queued for one register. -/
def ProcessMessage.notification (pm : ProcessMessage) (ar : ApnsRegister) : ApnsMessage where
  deviceToken := ar.deviceToken
  text := pm.alert
  actionKeyCaption := lit "View"
  badgeNumber := 1
  environment := if strcasecmp (cStr ar.environment) (cStr (lit "prod")) = 0 then some .prod else none

namespace Worker

def kDefaultStompDestNotifyMessages : Str := lit "/topic/notify.aprs.messages"

namespace ObjStats

def blank : ObjStats := ⟨0, 0, 0, 0, 0, 0, 0, 0⟩

/-- `init_stats`; the report interval is not touched. -/
def initStats (stats : ObjStats) (startup : Bool) : Program ObjStats := do
  let now ← time
  let stats := { stats with
    connects := 0
    disconnects := 0
    packets := 0
    framesIn := 0
    framesOut := 0
    lastReportAt := now }
  if startup then
    let now ← time
    return { stats with createdAt := now }
  return stats

/-- The counters in the line `try_stats` logs. -/
def logged (stats : ObjStats) : List (Str × UInt32) :=
  [(lit "packets", stats.packets),
   (lit "frames in", stats.framesIn),
   (lit "frames out", stats.framesOut),
   (lit "connect attempts", stats.connects)]

end ObjStats

namespace ObjStompstats

def blank : ObjStompstats := ⟨0, 0, 0⟩

def initStompstats (stats : ObjStompstats) (startup : Bool) : Program ObjStompstats := do
  let now ← time
  let stats := { stats with lastReportAt := now }
  if startup then
    let now ← time
    return { stats with createdAt := now }
  return stats

end ObjStompstats

/-- The constructor, followed by the store that `init` creates. -/
def create : Program Worker := do
  let stats ← ObjStats.blank.initStats true
  let stompstats ← ObjStompstats.blank.initStompstats true
  let store ← Store.create 3600
  return {
    connected := false
    stats := { stats with reportInterval := 60 }
    stompstats := { stompstats with reportInterval := 5 }
    store := store }

def tryStompstats (w : Worker) : Program Worker := do
  let now ← time
  if w.stompstats.lastReportAt > now - w.stompstats.reportInterval then return w
  let stompstats ← w.stompstats.initStompstats false
  return { w with stompstats := stompstats }

def tryStats (w : Worker) : Program Worker := do
  let w ← w.tryStompstats
  let now ← time
  if w.stats.lastReportAt > now - w.stats.reportInterval then return w
  -- read for the rates per second of the log line
  let _ ← time
  Prog.perform (Call.report w.stats.logged)
  let stats ← w.stats.initStats false
  let now ← time
  return { w with stats := { stats with lastReportAt := now } }

/-- The loop `while( !res.empty() )`. The registers are listed with their
addresses; the list left over and `num_sent` come back. -/
def queueRegisters (pm : ProcessMessage) :
    List (Nat × ApnsRegister) → Nat → Program (List (Nat × ApnsRegister) × Nat)
  | [], numSent => return ([], numSent)
  | (ptr, ar) :: rest, numSent => do
    -- a failed insert is only logged
    let _ ← Store.setApnsPush ar.id pm.alert
    let constructed : Bool ← .perform (Call.newApnsMessage ar.deviceToken)
    if !constructed then
      Prog.perform (Call.deleteRegister ptr)
      queueRegisters pm rest numSent
    else
      Prog.perform (Call.push (pm.notification ar))
      Prog.perform (Call.deleteRegister ptr)
      queueRegisters pm rest (numSent + 1)

section Message

variable (lib : Openframe)

/-- `new` gives the registers of a lookup distinct addresses. -/
def allocate (rows : List ApnsRegister) : List (Nat × ApnsRegister) :=
  (List.range rows.length).zip rows

/-- What `process_message` copies out of the parsed body. -/
def messageOf (v : lib.Vars) : ProcessMessage where
  source := lib.toUpper (lib.get v (lit "sr"))
  target := lib.toUpper (lib.get v (lit "to"))
  body := lib.get v (lit "ms")
  path := lib.get v (lit "pa")
  id := lib.get v (lit "id")
  ack := lib.get v (lit "ack")
  replyId := lib.get v (lit "rpl")
  isAckonly := lib.is v (lit "ao")

def eventMessageToApns (s : Store) (pm : ProcessMessage) : Program (Bool × Store) := do
  if pm.isAckonly then return (false, s)
  let ((count, rows), s) ← s.getApnsRegisterByCallsign lib pm.target []
  -- no registration, or a query that raised
  if count = 0 then return (false, s)
  let (_, numSent) ← queueRegisters pm (allocate rows) 0
  Prog.perform (Call.queued numSent)
  return (true, s)

def processMessage (s : Store) (body : Str) : Program (Bool × Store) := do
  let v := lib.parse body
  if !lib.is v (lit "sr,to,ms,pa") then return (false, s)
  -- the result is not looked at
  let (_, s) ← eventMessageToApns lib s (messageOf lib v)
  return (true, s)

end Message

section Frame

/-- The header a frame is acknowledged by. -/
def messageIdHeader : Str := lit "message-id"

def isCommand (frame : StompFrame) (command : StompCommand) : Program Bool := do
  Prog.perform (Call.frameUse frame .isCommand)
  return frame.command = command

def isHeader (frame : StompFrame) (name : Str) : Program Bool := do
  Prog.perform (Call.frameUse frame .isHeader)
  return (frame.headers.lookup name).isSome

def getHeader (frame : StompFrame) (name : Str) : Program Str := do
  Prog.perform (Call.frameUse frame .getHeader)
  return (frame.headers.lookup name).getD []

def frameBody (frame : StompFrame) : Program Str := do
  Prog.perform (Call.frameUse frame .body)
  return frame.body

/-- `is_command(...) && is_header(...)`: the header is asked for only after the command. -/
def isUsable (frame : StompFrame) : Program Bool := do
  if ← isCommand frame .commandMessage then isHeader frame messageIdHeader else return false

end Frame

def countFrameIn (w : Worker) : Worker :=
  { w with stats := { w.stats with framesIn := w.stats.framesIn + 1 } }

/-- The part of `run` after a frame was delivered. -/
def processFrame (lib : Openframe) (w : Worker) (frame : StompFrame) : Program (Bool × Worker) := do
  let w := w.countFrameIn
  if !(← isUsable frame) then
    Prog.perform (Call.release frame)
    return (true, w)
  -- a usable frame is counted a second time
  let w := w.countFrameIn
  -- the body is read once for the log line and once for the message
  let _ ← frameBody frame
  let body ← frameBody frame
  -- acknowledged whatever came of the message
  let (_, store) ← processMessage lib w.store body
  let messageId ← getHeader frame messageIdHeader
  Prog.perform (Call.ack messageId (lit "1"))
  Prog.perform (Call.release frame)
  return (true, { w with store := store })

/-- The part of `run` after the connection check. -/
def receive (lib : Openframe) (w : Worker) : Program (Bool × Worker) := do
  let reply : FrameReply ← .perform Call.nextFrame
  match reply with
  | .raised _ =>
    return (false, { w with
      connected := false
      stats := { w.stats with disconnects := w.stats.disconnects + 1 } })
  | .none => return (false, w)
  | .frame frame => processFrame lib w frame

def run (lib : Openframe) (w : Worker) : Program (Bool × Worker) := do
  let w ← w.tryStats
  let store ← w.store.tryStats
  let w := { w with store := store }
  if !w.connected then
    let w := { w with stats := { w.stats with connects := w.stats.connects + 1 } }
    let ok : Bool ← .perform (Call.subscribe kDefaultStompDestNotifyMessages (lit "1"))
    if !ok then return (false, w)
    receive lib { w with connected := true }
  else receive lib w

end Worker
end ApnsPusher
