import ApnsPusher.Effects.Periodic
import ApnsPusher.Worker.Counters

/-!
# When a worker reports

A worker has a line of its own to log every minute, its store has lines to log every
hour and counters to publish every five seconds. The clock is looked at in each call of
`run`, before the frame is taken.
-/
namespace ApnsPusher

open Effects

namespace Worker

/-- What is reported from time to time: the worker's line, the lines of its store, and
each of the datapoints. -/
inductive Reporter where
  | line
  | storeLines
  | datapoint (c : Counter)
  deriving DecidableEq

namespace Reporter

def reports : Reporter → Event Call Answer → Bool
  | line, e => isWorkerReport e
  | storeLines, e => Counter.isReport e && !isWorkerReport e
  | datapoint c, e => (Counter.pointNamed c.name e).isSome

/-- The intervals that the constructors of `Worker` and `Store` set. -/
def interval : Reporter → Int
  | line => 60
  | storeLines => 3600
  | datapoint _ => 5

def reading : Event Call Answer → Option Int
  | ⟨.time, now⟩ => some now
  | _ => none

def periodic (r : Reporter) : Periodic (Event Call Answer) := ⟨reading, r.reports, r.interval⟩

end Reporter

/-- The calls that report. -/
def isReporting : Call → Bool
  | .datapoint .. | .report _ => true
  | _ => false

theorem Reporter.silent_of_unreported (r : Reporter) {tr : Trace}
    (unreported : ∀ e ∈ tr, isReporting e.call = false) : r.periodic.Silent tr := by
  intro e member
  have other := unreported e member
  obtain ⟨call, answer⟩ := e
  cases call <;> first | (cases other; done) | (cases r <;> rfl)

theorem Reporter.silent_of_times (r : Reporter) {tr : Trace} (times : ∀ e ∈ tr, e.call = .time) :
    r.periodic.Silent tr := by
  refine r.silent_of_unreported fun e member => ?_
  rw [times e member]
  rfl

end Worker

/-! ### The times that the tests look at -/

/-- `last_report_at` and `report_interval` of the two ledgers. -/
def Store.schedule (s : Store) : (Int × Int) × (Int × Int) :=
  ((s.stats.lastReportAt, s.stats.reportInterval),
    (s.stompstats.lastReportAt, s.stompstats.reportInterval))

namespace Store

variable {s : Store} {tr : Trace}

theorem GetTrace.schedule {key ret : Str} {result : (Bool × Str) × Store}
    (get : GetTrace onRegister (lit "apnsregister") key s ret tr result) :
    result.2.schedule = s.schedule := by
  cases get with
  | skipped => rfl
  | answered now mcr buf ready | failed now ex buf resetAt mcr ready =>
    unfold concludeGet
    split <;> rfl

theorem PutTrace.schedule {key buf : Str} {expire : Int} {result : Bool × Store}
    (set : PutTrace onRegister (lit "apnsregister") key s buf expire tr result) :
    result.2.schedule = s.schedule := by
  cases set <;> rfl

theorem LookupTrace.schedule {lib : Openframe} {callsign : Str} {ret : List ApnsRegister}
    {result : (Nat × List ApnsRegister) × Store}
    (lookup : LookupTrace lib s callsign ret tr result) : result.2.schedule = s.schedule := by
  cases lookup with
  | cachedNotFound _ _ _ get _ => exact get.schedule
  | cachedFound _ _ _ _ get _ => exact get.schedule
  | asked _ _ _ s' reply _ _ _ get _ set =>
    have counted : (s'.sqlCounted reply.rows).schedule = s'.schedule := rfl
    exact set.schedule.trans (counted.trans get.schedule)

end Store

namespace Worker

variable {lib : Openframe} {tr : Trace}

/-- `last_report_at` and `report_interval` behind a reporter. -/
def schedule (w : Worker) : Reporter → Int × Int
  | .line => (w.stats.lastReportAt, w.stats.reportInterval)
  | .storeLines => w.store.schedule.1
  | .datapoint _ => w.store.schedule.2

theorem schedule_congr {w w' : Worker} (stats : w'.stats = w.stats)
    (store : w'.store.schedule = w.store.schedule) : w'.schedule = w.schedule := by
  funext r
  cases r <;> simp only [schedule, stats, store]

theorem MessageTrace.schedule {s : Store} {body : Str} {result : Bool × Store}
    (message : MessageTrace lib s body tr result) : result.2.schedule = s.schedule := by
  cases message with
  | incomplete | ackonly => rfl
  | unregistered _ _ _ _ _ lookup => exact (Store.lookupTrace_of_runs lookup).schedule
  | queued _ _ _ _ _ _ lookup => exact (Store.lookupTrace_of_runs lookup).schedule

/-! ### `try_stats` -/

/-- A worker's `try_stats` takes a turn of its line, and does nothing else. -/
theorem tryStats_turn (w : Worker) (interval : w.stats.reportInterval = Reporter.line.interval) :
    Prog.Post w.tryStats fun tr w' =>
      Reporter.line.periodic.Turn w.stats.lastReportAt tr w'.stats.lastReportAt ∧
      w'.stats.reportInterval = Reporter.line.interval ∧ w'.store = w.store ∧
      ∀ r, r ≠ Reporter.line → r.periodic.Silent tr := by
  -- `try_stompstats` only reads the clock
  have stomp : Prog.Post w.tryStompstats fun tr w' => (∀ e ∈ tr, e.call = .time) ∧
      w'.stats = w.stats ∧ w'.store = w.store := by
    simp only [tryStompstats, ObjStompstats.initStompstats, time, Prog.perform_bind, Prog.post_call]
    intro now
    split <;> simp
  unfold tryStats
  rw [Prog.post_bind]
  apply Prog.post_mono _ stomp
  rintro tr w' ⟨times, stats, store⟩
  simp only [ObjStats.initStats, time, Prog.perform_bind, Prog.call_bind, Prog.post_call]
  intro now
  rw [stats, interval]
  have clock : ∀ e ∈ ([⟨.time, now⟩] : Trace), e.call = .time := by simp
  split
  next wait =>
    have early : Reporter.line.periodic.Turn w.stats.lastReportAt [⟨.time, now⟩] w.stats.lastReportAt :=
      .early now (Reporter.line.silent_of_times clock) (List.mem_singleton_self now)
        (Int.lt_add_of_sub_right_lt wait)
    refine ⟨?_, stats ▸ interval, store, fun r _ =>
      (r.silent_of_times times).append (r.silent_of_times clock)⟩
    simpa [stats] using early.after (Reporter.line.silent_of_times times)
  next due =>
    intro diff sent resetAt resetAt'
    have before : ∀ e ∈ ([⟨.time, now⟩, ⟨.time, diff⟩] : Trace), e.call = .time := by simp
    have after : ∀ e ∈ ([⟨.time, resetAt⟩, ⟨.time, resetAt'⟩] : Trace), e.call = .time := by simp
    refine ⟨?_, rfl, store, fun r other => ?_⟩
    · have turn : Reporter.line.periodic.Turn w.stats.lastReportAt
          ([⟨.time, now⟩, ⟨.time, diff⟩] ++ ⟨.report w.stats.logged, sent⟩ ::
            [⟨.time, resetAt⟩, ⟨.time, resetAt'⟩]) resetAt' :=
        .due now resetAt' (Reporter.line.silent_of_times before)
          (Reporter.line.silent_of_times after) rfl (List.mem_cons_self ..)
          (by have due := Int.not_lt.mp due; exact Int.add_le_of_le_sub_right due)
          (List.mem_cons_of_mem _ (List.mem_cons_self ..))
      simpa using turn.after (Reporter.line.silent_of_times times)
    -- its line is not one of the store's, nor a datapoint
    · have line : r.periodic.Silent [⟨.report w.stats.logged, sent⟩] := by
        intro e member
        obtain rfl := List.mem_singleton.mp member
        cases r with
        | line => exact absurd rfl other
        | storeLines | datapoint c => rfl
      simpa using (r.silent_of_times times).append
        ((r.silent_of_times before).append (line.append (r.silent_of_times after)))

/-- Datapoints of other names. -/
theorem silent_points (stats : Store.ObjStats) {c : Counter} {others : List Counter}
    (absent : c ∉ others) : (Reporter.datapoint c).periodic.Silent
      (others.map fun c' => ⟨.datapoint c'.name (c'.value stats), ()⟩) := by
  intro e member
  obtain ⟨c', there, rfl⟩ := List.mem_map.mp member
  have different : c'.name ≠ c.name := fun same =>
    absent (Counter.name_injective same ▸ there)
  simp [Reporter.periodic, Reporter.reports, Counter.pointNamed, different]

/-- Publishing is a turn of every datapoint: each name occurs once. -/
theorem publishing_turn {stats stats' : Store.ObjStats} (publishing : Store.Publishing stats tr stats')
    (c : Counter) (interval : stats.reportInterval = (Reporter.datapoint c).interval) :
    (Reporter.datapoint c).periodic.Turn stats.lastReportAt tr stats'.lastReportAt ∧
      stats'.reportInterval = stats.reportInterval := by
  cases publishing with
  | early now wait =>
    rw [interval] at wait
    exact ⟨.early now (Reporter.silent_of_times _ (by simp)) (List.mem_singleton_self now)
      (Int.lt_add_of_sub_right_lt wait), rfl⟩
  | due now resetAt due =>
    rw [interval] at due
    refine ⟨?_, rfl⟩
    have clock : (Reporter.datapoint c).periodic.Silent [⟨.time, now⟩] :=
      Reporter.silent_of_times _ (by simp)
    have distinct : Counter.all.Nodup := by decide
    -- the other datapoints stand before and behind it
    obtain ⟨earlier, later, whole⟩ := List.append_of_mem (Counter.mem_all c)
    rw [whole, List.nodup_append, List.nodup_cons] at distinct
    obtain ⟨_, ⟨absent', _⟩, apart⟩ := distinct
    have absent : c ∉ earlier := fun there => apart c there c (List.mem_cons_self ..) rfl
    have turn : (Reporter.datapoint c).periodic.Turn stats.lastReportAt
        ((⟨.time, now⟩ :: earlier.map fun c' => ⟨.datapoint c'.name (c'.value stats), ()⟩) ++
          ⟨.datapoint c.name (c.value stats), ()⟩ ::
            ((later.map fun c' => ⟨.datapoint c'.name (c'.value stats), ()⟩) ++ [⟨.time, resetAt⟩])) resetAt := by
      refine .due now resetAt ?_ ?_ (by simp [Reporter.periodic, Reporter.reports, Counter.pointNamed])
        (List.mem_cons_self ..) (Int.add_le_of_le_sub_right (Int.not_lt.mp due))
        (by simp [Periodic.readings, Reporter.periodic, Reporter.reading])
      · exact clock.append (silent_points stats absent)
      · exact (silent_points stats absent').append (Reporter.silent_of_times _ (by simp))
    rw [Counter.published_eq, whole]
    simpa [Function.comp_def, Store.ObjStats.emptied] using turn

theorem logging_turn {stats stats' : Store.ObjStats} (logging : Store.Logging stats tr stats')
    (interval : stats.reportInterval = Reporter.storeLines.interval) :
    Reporter.storeLines.periodic.Turn stats.lastReportAt tr stats'.lastReportAt ∧
      stats'.reportInterval = stats.reportInterval := by
  cases logging with
  | early now wait =>
    rw [interval] at wait
    exact ⟨.early now (Reporter.silent_of_times _ (by simp)) (List.mem_singleton_self now)
      (Int.lt_add_of_sub_right_lt wait), rfl⟩
  | due now resetAt due =>
    rw [interval] at due
    -- `try_stats` reads the clock before the lines and `init_stats` after them
    have clock (resetAt : Int) : Reporter.storeLines.periodic.Silent [⟨.time, resetAt⟩] :=
      Reporter.silent_of_times _ (by simp)
    exact ⟨.due now resetAt (clock now) (clock resetAt) rfl (List.mem_singleton_self now)
      (Int.add_le_of_le_sub_right (Int.not_lt.mp due)) (List.mem_singleton_self resetAt), rfl⟩

/-- Nothing else is reported with the datapoints, -/
theorem publishing_silent {stats stats' : Store.ObjStats}
    (publishing : Store.Publishing stats tr stats') (r : Reporter)
    (other : ∀ c, r ≠ .datapoint c) : r.periodic.Silent tr := by
  have point (name : Str) (value : UInt32) : r.reports ⟨.datapoint name value, ()⟩ = false := by
    cases r with
    | line | storeLines => rfl
    | datapoint c => exact absurd rfl (other c)
  cases publishing with
  | early => exact r.silent_of_times (by simp)
  | due now resetAt due =>
    have clock (resetAt : Int) : r.periodic.Silent [⟨.time, resetAt⟩] := r.silent_of_times (by simp)
    have points : r.periodic.Silent
        (stats.published.map fun point => ⟨.datapoint point.1 point.2, ()⟩) := by
      intro e member
      obtain ⟨_, _, rfl⟩ := List.mem_map.mp member
      exact point _ _
    exact (clock now).append (points.append (clock resetAt))

/-- nor with the lines of the store. -/
theorem logging_silent {stats stats' : Store.ObjStats} (logging : Store.Logging stats tr stats')
    (r : Reporter) (other : r ≠ .storeLines) : r.periodic.Silent tr := by
  cases logging with
  | early => exact r.silent_of_times (by simp)
  | due now resetAt due =>
    have clock (resetAt : Int) : r.periodic.Silent [⟨.time, resetAt⟩] := r.silent_of_times (by simp)
    have lines : r.periodic.Silent [⟨.report stats.logged, ()⟩] := by
      intro e member
      obtain rfl := List.mem_singleton.mp member
      cases r with
      | storeLines => exact absurd rfl other
      | line | datapoint c => rfl
    exact (clock now).append (lines.append (clock resetAt))

/-! ### The rest of a call of `run` -/

theorem FrameTrace.unreported {frame : StompFrame} (processed : FrameTrace lib frame tr) :
    ∀ e ∈ tr, isReporting e.call = false := by
  have inspected : ∀ e ∈ inspection frame, isReporting e.call = false := by
    intro e member
    unfold inspection at member
    split at member
    · simp only [List.mem_cons, List.not_mem_nil, or_false] at member
      rcases member with rfl | rfl <;> rfl
    · obtain rfl := List.mem_singleton.mp member
      rfl
  intro e member
  cases processed with
  | unusable other =>
    rcases List.mem_append.mp member with member | member
    · exact inspected e member
    · obtain rfl := List.mem_singleton.mp member
      rfl
  | usable message s tr result processed =>
    rcases List.mem_append.mp member with member | member
    · exact inspected e member
    · simp only [conclusion, List.mem_append, List.mem_cons, List.not_mem_nil, or_false] at member
      rcases member with (rfl | rfl) | member | rfl | rfl | rfl
      · rfl
      · rfl
      -- what the message asked for, lookups and deliveries
      · obtain ⟨call, answer⟩ := e
        rcases processed.calls _ member with work | work <;> cases call <;> first | rfl | cases work
      · rfl
      · rfl
      · rfl

/-- A frame leaves the times alone. -/
theorem processFrame_schedule (lib : Openframe) (w : Worker) (frame : StompFrame) :
    Prog.Post (processFrame lib w frame) fun _ result => result.2.schedule = w.schedule := by
  have counted (w : Worker) : w.countFrameIn.schedule = w.schedule := by
    funext r
    cases r <;> rfl
  unfold processFrame
  dsimp only
  rw [Prog.post_bind]
  apply Prog.post_mono _ (isUsable_post frame)
  rintro _ _ ⟨rfl, rfl⟩
  by_cases usable : Usable frame
  · simp only [usable, decide_true, Bool.not_true, Bool.false_eq_true, if_false, frameBody,
      Prog.perform_bind, Prog.call_bind, Prog.post_call, Prog.pure_eq, Prog.ret_bind]
    intro _ _
    rw [Prog.post_bind]
    apply Prog.post_mono _ (processMessage_post lib w.countFrameIn.countFrameIn.store frame.body)
    intro tr result processed
    simp only [getHeader, Prog.perform_bind, Prog.call_bind, Prog.pure_eq, Prog.ret_bind,
      Prog.post_call]
    intro _ _ _
    -- a usable frame is counted twice and its message may count in the store; no time is set
    have same : ({ w.countFrameIn.countFrameIn with store := result.2 } : Worker).schedule =
        w.countFrameIn.countFrameIn.schedule := schedule_congr rfl processed.schedule
    exact same.trans ((counted _).trans (counted w))
  · simp only [usable, decide_false, Bool.not_false, if_true, Prog.perform_bind, Prog.post_call]
    intro _
    exact counted w

theorem receive_schedule {w : Worker} {result : Bool × Worker}
    (runs : Prog.Runs (receive lib w) tr result) :
    (∀ e ∈ tr, isReporting e.call = false) ∧ result.2.schedule = w.schedule := by
  obtain ⟨reply, rest, rfl, more⟩ := runs
  cases reply with
  | raised message =>
    obtain ⟨rfl, rfl⟩ := more
    refine ⟨by simp [isReporting], ?_⟩
    funext r
    cases r <;> rfl
  | none =>
    obtain ⟨rfl, rfl⟩ := more
    exact ⟨by simp [isReporting], rfl⟩
  | frame frame =>
    have unreported := (more.post (processFrame_post lib w frame)).1.unreported
    exact ⟨List.forall_mem_cons.mpr ⟨rfl, unreported⟩, more.post (processFrame_schedule lib w frame)⟩

/-! ### Any number of calls -/

/-- A call of `run` takes a turn of every reporter. -/
theorem run_turn {w : Worker} {result : Bool × Worker}
    (intervals : ∀ r, (w.schedule r).2 = r.interval) (runs : Prog.Runs (run lib w) tr result)
    (r : Reporter) : r.periodic.Turn (w.schedule r).1 tr (result.2.schedule r).1 ∧
      (result.2.schedule r).2 = r.interval := by
  obtain ⟨w₁, front, more, rfl, tried, checked⟩ := (Prog.runs_bind _ _ _ _).mp runs
  obtain ⟨store, middle, back, rfl, tried', connects⟩ := (Prog.runs_bind _ _ _ _).mp checked
  obtain ⟨line, interval, sameStore, silent⟩ := tried.post (tryStats_turn w (intervals .line))
  -- a subscription, if there is none yet, and a frame
  obtain ⟨unreported, same⟩ : (∀ e ∈ back, isReporting e.call = false) ∧
      result.2.schedule = { w₁ with store := store }.schedule := by
    dsimp only at connects
    by_cases up : w₁.connected = true
    · rw [if_neg (by simp [up])] at connects
      exact receive_schedule connects
    · rw [if_pos (by simp [up])] at connects
      obtain ⟨ok, rest, rfl, receives⟩ := connects
      cases ok with
      | false =>
        obtain ⟨rfl, rfl⟩ := receives
        refine ⟨by simp [isReporting], ?_⟩
        funext r
        cases r <;> rfl
      | true =>
        obtain ⟨quiet, kept⟩ := receive_schedule receives
        refine ⟨List.forall_mem_cons.mpr ⟨rfl, quiet⟩, kept.trans ?_⟩
        funext r
        cases r <;> rfl
  have closing := r.silent_of_unreported unreported
  rw [same]
  cases tried'.post (Store.statsTrace_post w₁.store) with
  | intro points lines stompstats stats publishing logging =>
    cases r with
    | line =>
      have quiet := (publishing_silent publishing .line (by simp)).append
        (logging_silent logging .line (by simp))
      exact ⟨line.before (quiet.append closing), interval⟩
    | storeLines =>
      have set : w₁.store.stats.reportInterval = Reporter.storeLines.interval :=
        sameStore ▸ intervals .storeLines
      obtain ⟨turn, kept⟩ := logging_turn logging set
      rw [sameStore] at turn
      have turn := (turn.after (publishing_silent publishing .storeLines (by simp))).before closing
      exact ⟨turn.after (silent .storeLines (by simp)), kept.trans set⟩
    | datapoint c =>
      have set : w₁.store.stompstats.reportInterval = (Reporter.datapoint c).interval :=
        sameStore ▸ intervals (.datapoint c)
      obtain ⟨turn, kept⟩ := publishing_turn publishing c set
      rw [sameStore] at turn
      have turn := (turn.before (logging_silent logging (.datapoint c) (by simp))).before closing
      exact ⟨turn.after (silent (.datapoint c) (by simp)), kept.trans set⟩

/-- A number of calls takes as many turns of every reporter. -/
theorem turns_of_calls {n : Nat} {w w' : Worker} (intervals : ∀ r, (w.schedule r).2 = r.interval)
    (runs : Prog.Runs (calls lib n w) tr w') :
    (∀ r, (w'.schedule r).2 = r.interval) ∧ ∃ turns : List Trace, turns.flatten = tr ∧
      ∀ r : Reporter, Follows r.periodic.Turn (w.schedule r).1 turns (w'.schedule r).1 := by
  induction n generalizing w tr with
  | zero =>
    obtain ⟨rfl, rfl⟩ := runs
    exact ⟨intervals, [], rfl, fun r => .nil _⟩
  | succ n ih =>
    obtain ⟨⟨worked, mid⟩, first, rest, rfl, ran, more⟩ := (Prog.runs_bind _ _ _ _).mp runs
    have turn := run_turn intervals ran
    obtain ⟨intervals', turns, rfl, follows⟩ := ih (fun r => (turn r).2) more
    exact ⟨intervals', first :: turns, rfl, fun r => .cons (turn r).1 (follows r)⟩

theorem create_schedule {w : Worker} (made : Prog.Runs create tr w) (r : Reporter) :
    (w.schedule r).2 = r.interval ∧ r.periodic.Kept tr (w.schedule r).1 := by
  have created : Prog.Post create fun tr w => (∀ e ∈ tr, e.call = .time) ∧
      (w.schedule r).2 = r.interval ∧ (w.schedule r).1 ∈ r.periodic.readings tr := by
    simp only [create, Store.create, ObjStats.initStats, ObjStompstats.initStompstats,
      Store.ObjStats.initStats, time, Prog.perform_bind, Prog.call_bind, if_true, Prog.post_call,
      Prog.pure_eq, Prog.ret_bind, Prog.post_ret]
    intro _ _ _ _ _ _ _ _
    refine ⟨by simp, ?_⟩
    cases r <;> exact ⟨rfl, by simp [schedule, Store.schedule, Periodic.readings, Reporter.periodic,
      Reporter.reading]⟩
  obtain ⟨times, interval, read⟩ := made.post created
  exact ⟨interval, Periodic.kept_of_silent (r.silent_of_times times) read⟩

/-- Where the reports of a worker stand after any number of calls. -/
theorem kept_of_calls {n : Nat} {w : Worker} (runs : Prog.Runs (create >>= calls lib n) tr w) :
    (∀ r, (w.schedule r).2 = r.interval) ∧ ∀ r : Reporter, r.periodic.Kept tr (w.schedule r).1 := by
  obtain ⟨fresh, front, back, rfl, made, more⟩ := (Prog.runs_bind _ _ _ _).mp runs
  have start := create_schedule made
  obtain ⟨intervals, turns, rfl, follows⟩ := turns_of_calls (fun r => (start r).1) more
  exact ⟨intervals, fun r => (start r).2.turns (follows r)⟩

/-- The reports of a worker keep time, by the clock readings among its calls. -/
structure ReportsOnTime (lib : Openframe) (trace : Trace) : Prop where
  /-- An interval passes between any two reports of one kind. -/
  spaced : ∀ r : Reporter, r.periodic.Spaced trace
  /-- Of some calls of `run`, the last of which is an interval after those before them,
  one reports. -/
  prompt : ∀ before since call, before ++ since ++ call <+: trace → ∀ n k w w' result,
    Prog.Runs (create >>= calls lib n) before w → Prog.Runs (calls lib k w) since w' →
      Prog.Runs (run lib w') call result → ∀ r : Reporter,
        (∀ old ∈ r.periodic.readings before, ∀ now ∈ r.periodic.readings call,
          old + r.interval ≤ now) → ∃ e ∈ since ++ call, r.reports e = true

theorem reportsOnTime_of_calls {n : Nat} {w : Worker} {more : Trace}
    (runs : Prog.Runs (create >>= calls lib n) (tr ++ more) w) : ReportsOnTime lib tr where
  spaced r := ((kept_of_calls runs).2 r).spaced.of_append
  prompt := by
    intro before since call _ n k w w' result made later last r due
    obtain ⟨intervals, kept⟩ := kept_of_calls made
    obtain ⟨intervals', turns, rfl, follows⟩ := turns_of_calls intervals later
    exact (kept r).acts_within (follows r) (run_turn intervals' last r).1 due

end Worker
end ApnsPusher
