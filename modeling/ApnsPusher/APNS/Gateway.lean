import ApnsPusher.APNS.Steps
import ApnsPusher.Worker.Traces

/-!
# The gateway a message goes to

`start` gives every SSL thread a copy of the configured push host, and the thread
makes its controller with it before it looks at the queue. What a message says about
its environment plays no part in which thread takes it.
-/
namespace ApnsPusher.APNS

open Effects Dispatch

inductive Environment where
  | production
  | sandbox
  deriving DecidableEq

/-- The environment a notification is marked for. -/
def environmentOf (message : ApnsMessage) : Environment :=
  if message.environment = some .prod then .production else .sandbox

/-- The environment a device is registered in. -/
def registeredFor (ar : ApnsRegister) : Environment :=
  if strcasecmp (cStr ar.environment) (cStr (lit "prod")) = 0 then .production else .sandbox

theorem environmentOf_notification (pm : ProcessMessage) (ar : ApnsRegister) :
    environmentOf (pm.notification ar) = registeredFor ar := by
  unfold environmentOf registeredFor ProcessMessage.notification
  by_cases prod : strcasecmp (cStr ar.environment) (cStr (lit "prod")) = 0
  · simp [prod]
  · simp [prod]

/-! ### Configuration -/

/-- What `_cfg` holds for the SSL threads. -/
structure Configuration where
  pushHost : Str
  pushPort : Int
  pushTimeout : Int
  cert : Str
  key : Str
  deriving DecidableEq

namespace Configuration

def setCert (cfg : Configuration) (cert key : Str) : Configuration :=
  { cfg with cert := cert, key := key }

def setPush (cfg : Configuration) (host : Str) (port timeout : Int) : Configuration :=
  { cfg with pushHost := host, pushPort := port, pushTimeout := timeout }

/-- The constructor's defaults. -/
def initial : Configuration :=
  ((⟨[], 0, 0, [], []⟩ : Configuration).setCert (lit "Certs/apn-prod-cert.pem")
    (lit "Certs/apn-prod-key.pem")).setPush (lit "gateway.push.apple.com") 2195 3600

end Configuration

/-- A `PushController`, by what it was constructed with. -/
structure PushController where
  host : Str
  port : Int
  cert : Str
  key : Str
  path : Str
  timeout : Int
  deriving DecidableEq

/-- The variables that `start` passes to a thread, as the thread's constructor call uses them. -/
def Configuration.pushController (cfg : Configuration) : PushController where
  host := cfg.pushHost
  port := cfg.pushPort
  cert := cfg.cert
  key := cfg.key
  path := lit "Certs"
  timeout := cfg.pushTimeout

/-- The threads with their controllers. -/
structure Sending (n : Nat) where
  apns : APNS n
  cfg : Configuration
  controllers : Fin n → Option PushController

namespace Sending

variable {n : Nat}

def initial (n : Nat) (cfg : Configuration) : Sending n := ⟨APNS.initial n, cfg, fun _ => none⟩

def step (maxQueue : Int) (s : Sending n) (action : Action n) : Option (Sending n) :=
  (APNS.step maxQueue s.apns action).map fun apns =>
    { s with
      apns := apns
      controllers := match action with
        | .start => fun i =>
          if i.val = s.apns.created then some s.cfg.pushController else s.controllers i
        | _ => s.controllers }

end Sending

/-! ### Notifications for a mix of registrations -/

/-- A call of `event_message_to_apns` whose lookup returned registrations of the mix
queued the message. -/
inductive QueuedFor (mix : List ApnsRegister) (message : ApnsMessage) : Prop
  | intro (lib : Openframe) (s s' : Store) (pm : ProcessMessage) (lookup : Trace) (count : Nat)
      (rows : List ApnsRegister)
      (looks : Prog.Runs (s.getApnsRegisterByCallsign lib pm.target []) lookup ((count, rows), s'))
      (registered : ∀ ar ∈ rows, ar ∈ mix) (loop : Trace) (result : List (Nat × ApnsRegister) × Nat)
      (walks : Prog.Runs (Worker.queueRegisters pm (Worker.allocate rows) 0) loop result)
      (queued : (⟨.push message, ()⟩ : Event Call Answer) ∈ loop)

theorem QueuedFor.registered {mix : List ApnsRegister} {message : ApnsMessage}
    (queued : QueuedFor mix message) : ∃ ar ∈ mix, environmentOf message = registeredFor ar := by
  obtain ⟨lib, s, s', pm, lookup, count, rows, _, registered, loop, ⟨left, numSent⟩, walks, member⟩ :=
    queued
  obtain ⟨attempts, walked, rfl, _⟩ := Worker.attempts_of_runs walks
  obtain ⟨a, attempted, member⟩ := List.mem_flatMap.mp member
  have row : a.ar ∈ rows := by
    rw [← Worker.allocate_rows rows, ← walked, List.map_map]
    exact List.mem_map_of_mem attempted
  -- what is pushed for a row is the notification made from it
  have same : message = pm.notification a.ar := by
    unfold Worker.Attempt.trace at member
    split at member
    · simpa using member
    · simp at member
  exact ⟨a.ar, registered _ row, by rw [same, environmentOf_notification]⟩

/-- What `process_message` pushes was queued for the registrations its lookup returned. -/
theorem queuedFor_of_processMessage {lib : Openframe} {s : Store} {body : Str} {tr : Trace}
    {result : Bool × Store} (runs : Prog.Runs (Worker.processMessage lib s body) tr result)
    {message : ApnsMessage} (pushed : (⟨.push message, ()⟩ : Event Call Answer) ∈ tr) :
    ∃ rows, QueuedFor rows message := by
  have unpushed {lookup : Trace} {target : Str} {out : (Nat × List ApnsRegister) × Store}
      (looks : Prog.Runs (s.getApnsRegisterByCallsign lib target []) lookup out)
      (member : (⟨.push message, ()⟩ : Event Call Answer) ∈ lookup) : False := by
    have call := (Store.lookupTrace_of_runs looks).calls _ member
    cases call
  cases runs.post (Worker.processMessage_post lib s body) with
  | incomplete | ackonly => simp at pushed
  | unregistered _ _ _ rows s' looks => exact (unpushed looks pushed).elim
  | queued _ _ lookup count rows s' looks _ loop left numSent walks =>
    rcases List.mem_append.mp pushed with member | member
    · exact (unpushed looks member).elim
    · have member : (⟨.push message, ()⟩ : Event Call Answer) ∈ loop := by simpa using member
      exact ⟨rows, lib, s, s', _, lookup, count, rows, looks, fun _ => id, loop, _, walks, member⟩

/-! ### Runs -/

variable {n : Nat} {maxQueue : Int}

namespace Sending

/-- A step of the threads, of `start` and `stop`, or a push for the mix. -/
def Step (maxQueue : Int) (mix : List ApnsRegister) (s s' : Sending n) : Prop :=
  ∃ action, (∀ message, action = .push message → QueuedFor mix message) ∧
    s.step maxQueue action = some s'

def Reachable (maxQueue : Int) (cfg : Configuration) (mix : List ApnsRegister) (s : Sending n) : Prop :=
  Relation.ReflTransGen (Step maxQueue mix) (initial n cfg) s

end Sending

/-- What a step does to the number of threads and to the messages pushed. -/
theorem frame_of_step {action : Action n} {s s' : APNS n}
    (stepped : step maxQueue s action = some s') :
    (action = .start ∧ s'.created = s.created + 1 ∧ s'.pushed = s.pushed) ∨
    (∃ message, action = .push message ∧ s'.created = s.created ∧
      s'.pushed = s.pushed ++ [⟨s.pushed.length, message⟩]) ∨
    (action ≠ .start ∧ (∀ message, action ≠ .push message) ∧ s'.created = s.created ∧
      s'.pushed = s.pushed) := by
  cases action with
  | start =>
    simp only [APNS.step, start] at stepped
    split at stepped
    next more =>
      cases stepped
      exact Or.inl ⟨rfl, rfl, rfl⟩
    next => cases stepped
  | push message =>
    cases stepped
    exact Or.inr (Or.inl ⟨message, rfl, rfl, rfl⟩)
  | thread i sent =>
    obtain ⟨⟨q, t⟩, _, rfl⟩ := Option.map_eq_some_iff.mp stepped
    exact Or.inr (Or.inr ⟨by simp, by simp, rfl, rfl⟩)
  | pushReturns msg | stop | setDone | join i | stopReturns =>
    obtain ⟨_, same⟩ := Option.ite_none_right_eq_some.mp stepped
    obtain rfl := Option.some.inj same
    exact Or.inr (Or.inr ⟨by simp, by simp, rfl, rfl⟩)

theorem added_of_uncreated {s : APNS n} (reachable : Reachable maxQueue s) :
    ∀ i : Fin n, s.created ≤ i → (s.threads i).added = [] := by
  refine reachable.invariant (fun s => ∀ i : Fin n, s.created ≤ i → (s.threads i).added = [])
    (fun _ _ => rfl) ?_
  intro s s' before change none i later
  cases change with
  | starts more =>
    have other : i ≠ ⟨s.created, more⟩ := by
      rintro rfl
      exact absurd later (by simp)
    simpa [other] using none i (Nat.le_of_succ_le later)
  | pushes | pushReturns | stops | tells | joins | returns => exact none i later
  | thread j q t moves =>
    have idle := uncreated_of_reachable before i later
    -- the thread that moves is not idle
    have other : i ≠ j := by
      rintro rfl
      cases moves <;> simp_all
    simpa [other] using none i later

namespace Sending

/-- Every thread that was started sends to the configured host, and everything
pushed was queued for the mix. -/
structure Uniform (maxQueue : Int) (cfg : Configuration) (mix : List ApnsRegister) (s : Sending n) :
    Prop where
  apns : APNS.Reachable maxQueue s.apns
  configured : s.cfg = cfg
  connected : ∀ i : Fin n, i < s.apns.created → s.controllers i = some cfg.pushController
  queued : ∀ msg ∈ s.apns.pushed, QueuedFor mix msg.message

theorem uniform_of_reachable {cfg : Configuration} {mix : List ApnsRegister} {s : Sending n}
    (reachable : Reachable maxQueue cfg mix s) : Uniform maxQueue cfg mix s := by
  induction reachable with
  | refl => exact ⟨.refl, rfl, fun i early => absurd early (Nat.not_lt_zero _), by
      intro msg member; cases member⟩
  | @tail s s' _ step uniform =>
    obtain ⟨action, allowed, stepped⟩ := step
    obtain ⟨apns, moved, rfl⟩ := Option.map_eq_some_iff.mp stepped
    have reached : APNS.Reachable maxQueue apns := uniform.apns.tail ⟨action, moved⟩
    rcases frame_of_step moved with
      ⟨rfl, more, same⟩ | ⟨message, rfl, same, more⟩ | ⟨notStart, _, same, same'⟩
    · refine ⟨reached, uniform.configured, fun i early => ?_, fun msg member => ?_⟩
      -- the new thread gets a controller of its own for the same host
      · dsimp only at early ⊢
        split
        · rw [uniform.configured]
        next other => exact uniform.connected i (by omega)
      · exact uniform.queued msg (same ▸ member)
    · refine ⟨reached, uniform.configured, fun i early => ?_, fun msg member => ?_⟩
      · exact uniform.connected i (same ▸ early)
      · dsimp only at member
        rw [more] at member
        rcases List.mem_append.mp member with old | new
        · exact uniform.queued msg old
        · obtain rfl := List.mem_singleton.mp new
          exact allowed message rfl
    · refine ⟨reached, uniform.configured, fun i early => ?_, fun msg member => ?_⟩
      · have kept := uniform.connected i (same ▸ early)
        cases action with
        | start => exact absurd rfl notStart
        | push | pushReturns | thread | stop | setDone | join | stopReturns => exact kept
      · exact uniform.queued msg (same' ▸ member)

end Sending

/-- A message is added only to a controller whose host serves its environment. -/
def Routes (serves : Str → Environment → Prop) (cfg : Configuration) (mix : List ApnsRegister) :
    Prop :=
  ∀ (n : Nat) (maxQueue : Int) (s : Sending n), Sending.Reachable maxQueue cfg mix s →
    ∀ i, ∀ msg ∈ (s.apns.threads i).added,
      ∃ push, s.controllers i = some push ∧ serves push.host (environmentOf msg.message)

theorem routes_of_served {serves : Str → Environment → Prop} {cfg : Configuration}
    {mix : List ApnsRegister} (served : ∀ ar ∈ mix, serves cfg.pushHost (registeredFor ar)) :
    Routes serves cfg mix := by
  intro n maxQueue s reachable i msg added
  have uniform := Sending.uniform_of_reachable reachable
  have started : i < s.apns.created := by
    by_contra later
    rw [added_of_uncreated uniform.apns i (by omega)] at added
    cases added
  have pushed : msg ∈ s.apns.pushed :=
    (Fifo.ordered_of_run (fifo_of_reachable uniform.apns) i).subset
      (List.mem_append_left _ (List.mem_append_left _ added))
  obtain ⟨ar, member, same⟩ := (uniform.queued msg pushed).registered
  exact ⟨_, uniform.connected i started, same ▸ served ar member⟩

/-! ### One registration on its way -/

/-- A query that finds one registration, while memcached is left alone. -/
def oneRegistration (ar : ApnsRegister) : Script where
  clock := 0
  get := (.ok .notFound, [])
  put := .ok ()
  query := .stored [ar] (.ok ())
  execute := .executed 1 (.ok ())
  accepts _ := true
  frame := .none

theorem queuedFor_of_mem {mix : List ApnsRegister} {ar : ApnsRegister} (member : ar ∈ mix)
    (pm : ProcessMessage) : QueuedFor mix (pm.notification ar) := by
  refine ⟨.textual, .blank, Store.blank.onSql fun q => q.attempt.hit, pm, _, 1, [ar],
    Prog.play_runs (oneRegistration ar).answers 0 _, ?_, _, _,
    Prog.play_runs (oneRegistration ar).answers 0 _, ?_⟩
  · intro ar' listed
    obtain rfl := List.mem_singleton.mp listed
    exact member
  · exact List.mem_cons_of_mem _ (List.mem_cons_of_mem _ (List.mem_cons_self ..))

namespace Sending

/-- The actions one after another. -/
def play (maxQueue : Int) : List (Action n) → Sending n → Option (Sending n)
  | [], s => some s
  | action :: rest, s => (s.step maxQueue action).bind (play maxQueue rest)

theorem reachable_of_play {cfg : Configuration} {mix : List ApnsRegister} {actions : List (Action n)}
    {s s' : Sending n} (reachable : Reachable maxQueue cfg mix s)
    (allowed : ∀ message, .push message ∈ actions → QueuedFor mix message)
    (played : play maxQueue actions s = some s') : Reachable maxQueue cfg mix s' := by
  induction actions generalizing s with
  | nil =>
    obtain rfl := Option.some.inj played
    exact reachable
  | cons action rest ih =>
    obtain ⟨mid, first, more⟩ := Option.bind_eq_some_iff.mp played
    have step : Step maxQueue mix s mid := by
      refine ⟨action, fun message same => ?_, first⟩
      exact allowed message (same ▸ List.mem_cons_self ..)
    exact ih (reachable.tail step) (fun message later => allowed message (List.mem_cons_of_mem _ later))
      more

end Sending

/-- The only thread takes one message. -/
def delivery (message : ApnsMessage) : List (Action 1) :=
  [.start, .push message] ++ List.replicate 4 (.thread (Fin.last 0) 0)

theorem added_of_delivery (cfg : Configuration) (message : ApnsMessage) :
    ∃ s, Sending.play 1 (delivery message) (.initial 1 cfg) = some s ∧
      ⟨0, message⟩ ∈ (s.apns.threads 0).added ∧ s.controllers 0 = some cfg.pushController :=
  ⟨_, rfl, List.mem_singleton.mpr rfl, rfl⟩

theorem served_of_routes {serves : Str → Environment → Prop} {cfg : Configuration}
    {mix : List ApnsRegister} (routes : Routes serves cfg mix) :
    ∀ ar ∈ mix, serves cfg.pushHost (registeredFor ar) := by
  intro ar member
  obtain ⟨pm⟩ : Nonempty ProcessMessage := ⟨⟨[], [], [], [], [], [], [], false⟩⟩
  obtain ⟨s, played, added, connected⟩ := added_of_delivery cfg (pm.notification ar)
  have reachable : Sending.Reachable 1 cfg mix s := by
    refine Sending.reachable_of_play .refl (fun message listed => ?_) played
    obtain rfl : message = pm.notification ar := by simpa [delivery] using listed
    exact queuedFor_of_mem member pm
  obtain ⟨push, made, served⟩ := routes 1 1 s reachable 0 _ added
  obtain rfl := Option.some.inj (made.symm.trans connected)
  rwa [environmentOf_notification] at served

/-- Whatever the threads do, messages go to a host that serves them exactly when the
configured host serves every registration of the mix. -/
theorem routes_iff (serves : Str → Environment → Prop) (cfg : Configuration)
    (mix : List ApnsRegister) :
    Routes serves cfg mix ↔ ∀ ar ∈ mix, serves cfg.pushHost (registeredFor ar) :=
  ⟨served_of_routes, routes_of_served⟩

/-- The hosts that `App.h` names for the two environments. -/
def appleHost : Environment → Str
  | .production => lit "gateway.push.apple.com"
  | .sandbox => lit "gateway.sandbox.push.apple.com"

/-- With the constructor's configuration a sandbox registration is sent to production. -/
theorem sandbox_misrouted : ¬ ∀ (cfg : Configuration) (mix : List ApnsRegister),
    Routes (fun host environment => host = appleHost environment) cfg mix := by
  intro routes
  have served := served_of_routes (routes .initial [⟨lit "1", lit "aabb", lit "sandbox"⟩]) _
    (List.mem_singleton_self _)
  exact absurd served (by decide)

end ApnsPusher.APNS
