import ApnsPusher.Calls
import Mathlib.Data.Fintype.Basic
import Mathlib.Data.Finset.Insert
import Mathlib.Logic.Function.Basic
import Mathlib.Logic.Relation

/-!
# The APNS threads

`APNS` keeps one queue of messages that any number of SSL threads empty, each into
a `PushController` of its own. Every access of a thread to what is shared is one
step; the steps of all threads, of the callers of `push`, and of `start` and
`stop` may come in any order.
-/
namespace ApnsPusher

/-- An object given to `push`; `serial` tells apart objects with the same content. -/
structure Message where
  serial : Nat
  message : ApnsMessage
  deriving DecidableEq

namespace APNS

/-- Where an SSL thread stands. -/
inductive Pc where
  | notCreated
  /-- At the head of the outer loop, about to call `is_done`. -/
  | isDone
  /-- About to test the first condition of the fill loop. -/
  | sendQueueSize
  /-- About to test the second. -/
  | dequeue
  | add (msg : Message)
  | run
  | usleep
  | exited
  deriving DecidableEq

/-- An SSL thread and its `PushController`. -/
structure SslThread where
  pc : Pc
  sendQueueSize : Nat
  /-- The messages given to `PushController::add`, oldest first. -/
  added : List Message
  deriving DecidableEq

def SslThread.blank : SslThread := ⟨.notCreated, 0, []⟩

/-- What an `int` is when it is compared with a `size_t`. -/
def toSizeT (value : Int) : Nat := (BitVec.ofInt 64 value).toNat

theorem toSizeT_le {value : Int} (positive : 0 ≤ value) : (toSizeT value : Int) ≤ value := by
  rw [toSizeT, BitVec.toNat_ofInt]
  omega

/-- One step of `SslThread`, from the queue and the thread to both afterwards.
`sent` is how far `PushController::run` lets the send queue fall in it. -/
def SslThread.step (maxQueue : Int) (done : Bool) (sent : Nat) (q : List Message) (t : SslThread) :
    Option (List Message × SslThread) :=
  match t.pc with
  | .notCreated | .exited => none
  | .isDone =>
    if done then some (q, { t with pc := .exited })
    else some (q, { t with pc := .sendQueueSize })
  | .sendQueueSize =>
    -- a negative `maxQueue` is a very large number here
    if t.sendQueueSize < toSizeT maxQueue then some (q, { t with pc := .dequeue })
    else some (q, { t with pc := .run })
  | .dequeue =>
    match q with
    | [] => some ([], { t with pc := .run })
    | msg :: rest => some (rest, { t with pc := .add msg })
  | .add msg =>
    some (q, { t with
      pc := .sendQueueSize
      sendQueueSize := t.sendQueueSize + 1
      added := t.added ++ [msg] })
  | .run => some (q, { t with pc := .usleep, sendQueueSize := t.sendQueueSize - sent })
  | .usleep => some (q, { t with pc := .isDone })

/-- How far the call of `stop` has come. -/
inductive Stop where
  | notCalled
  | setDone
  | joining
  | returned
  deriving DecidableEq

end APNS

/-- An `APNS` with `n` SSL threads. The feedback thread has a queue of its own. -/
structure APNS (n : Nat) where
  done : Bool
  messageQ : List Message
  threads : Fin n → APNS.SslThread
  sslThreads : Finset (Fin n)
  /-- The threads that `start` has created. -/
  created : Nat
  stop : APNS.Stop
  /-- Every message ever queued, oldest first. -/
  pushed : List Message
  /-- The messages whose `push` has returned. -/
  returned : List Message
  /-- The messages whose `push` had returned when `stop` was called. -/
  beforeStop : List Message

namespace APNS

def initial (n : Nat) : APNS n where
  done := false
  messageQ := []
  threads _ := .blank
  sslThreads := ∅
  created := 0
  stop := .notCalled
  pushed := []
  returned := []
  beforeStop := []

inductive Action (n : Nat) where
  | start
  | push (message : ApnsMessage)
  | pushReturns (msg : Message)
  | thread (i : Fin n) (sent : Nat)
  | stop
  | setDone
  | join (i : Fin n)
  | stopReturns

variable {n : Nat}

def setThread (s : APNS n) (i : Fin n) (t : SslThread) : APNS n :=
  { s with threads := Function.update s.threads i t }

/-- One turn of the loop in `start`. -/
def start (s : APNS n) : Option (APNS n) :=
  if more : s.created < n then
    some { s.setThread ⟨s.created, more⟩ { s.threads ⟨s.created, more⟩ with pc := .isDone } with
      sslThreads := insert ⟨s.created, more⟩ s.sslThreads
      created := s.created + 1 }
  else none

/-- `push` queues its message and returns, in two steps. -/
def push (s : APNS n) (message : ApnsMessage) : APNS n :=
  { s with
    messageQ := s.messageQ ++ [⟨s.pushed.length, message⟩]
    pushed := s.pushed ++ [⟨s.pushed.length, message⟩] }

def pushReturns (s : APNS n) (msg : Message) : Option (APNS n) :=
  if msg ∈ s.pushed ∧ msg ∉ s.returned then some { s with returned := s.returned ++ [msg] } else none

/-- `stop` is called once, after `start` has returned. -/
def callStop (s : APNS n) : Option (APNS n) :=
  if s.stop = .notCalled ∧ s.created = n then
    some { s with stop := .setDone, beforeStop := s.returned }
  else none

def setDone (s : APNS n) : Option (APNS n) :=
  if s.stop = .setDone then some { s with stop := .joining, done := true } else none

/-- `pthread_join` returns for a thread that has exited. -/
def join (s : APNS n) (i : Fin n) : Option (APNS n) :=
  if s.stop = .joining ∧ i ∈ s.sslThreads ∧ (s.threads i).pc = .exited then
    some { s with sslThreads := s.sslThreads.erase i }
  else none

def stopReturns (s : APNS n) : Option (APNS n) :=
  if s.stop = .joining ∧ s.sslThreads = ∅ then some { s with stop := .returned } else none

def step (maxQueue : Int) (s : APNS n) : Action n → Option (APNS n)
  | .start => s.start
  | .push message => some (s.push message)
  | .pushReturns msg => s.pushReturns msg
  | .thread i sent => (SslThread.step maxQueue s.done sent s.messageQ (s.threads i)).map
      fun (q, t) => { s.setThread i t with messageQ := q }
  | .stop => s.callStop
  | .setDone => s.setDone
  | .join i => s.join i
  | .stopReturns => s.stopReturns

def Step (maxQueue : Int) (s s' : APNS n) : Prop := ∃ action, step maxQueue s action = some s'

def Reachable (maxQueue : Int) (s : APNS n) : Prop :=
  Relation.ReflTransGen (Step maxQueue) (initial n) s

/-- The actions one after another. -/
def play (maxQueue : Int) : List (Action n) → APNS n → Option (APNS n)
  | [], s => some s
  | action :: rest, s => (step maxQueue s action).bind (play maxQueue rest)

theorem steps_of_play {maxQueue : Int} {actions : List (Action n)} {s s' : APNS n}
    (played : play maxQueue actions s = some s') :
    Relation.ReflTransGen (Step maxQueue) s s' := by
  induction actions generalizing s with
  | nil =>
    obtain rfl := Option.some.inj played
    exact .refl
  | cons action rest ih =>
    obtain ⟨mid, first, more⟩ := Option.bind_eq_some_iff.mp played
    exact .head ⟨action, first⟩ (ih more)

theorem reachable_of_play {maxQueue : Int} {actions : List (Action n)} {s s' : APNS n}
    (reachable : Reachable maxQueue s) (played : play maxQueue actions s = some s') :
    Reachable maxQueue s' :=
  reachable.trans (steps_of_play played)

end APNS
end ApnsPusher
