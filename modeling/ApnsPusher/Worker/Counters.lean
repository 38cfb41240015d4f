import ApnsPusher.Store.Ledgers
import ApnsPusher.Worker.Session

/-!
# The worker's counters

What a worker counts, what its report line gives away before the counters are
emptied, and what happened.
-/
namespace ApnsPusher.Worker

open Effects

/-- The counters of `obj_stats_t` that `run` uses. -/
inductive ObjStats.Part where
  | connects
  | disconnects
  | framesIn
  deriving DecidableEq

namespace ObjStats

def part (stats : ObjStats) : Part → UInt32
  | .connects => stats.connects
  | .disconnects => stats.disconnects
  | .framesIn => stats.framesIn

end ObjStats

namespace ObjStats.Part

/-- What the report line calls the counter; it has no item for the disconnects. -/
def label : Part → Str
  | .connects => lit "connect attempts"
  | .disconnects => lit "disconnects"
  | .framesIn => lit "frames in"

/-- The events the counter is meant to count. -/
def counts : Part → Event Call Answer → Bool
  | .connects, ⟨.subscribe _ _, _⟩ => true
  | .disconnects, ⟨.nextFrame, .raised _⟩ => true
  | .framesIn, ⟨.nextFrame, .frame _⟩ => true
  | _, _ => false

end ObjStats.Part

/-- A usable frame is delivered. -/
def deliversUsable : Event Call Answer → Bool
  | ⟨.nextFrame, .frame frame⟩ => decide (Usable frame)
  | _ => false

/-- The value a report line gives under a label. -/
def reportedAs (label : Str) : Event Call Answer → Option UInt32
  | ⟨.report values, _⟩ => values.lookup label
  | _ => none

/-- A report line of a worker; the lines of its store carry other labels. -/
def isWorkerReport (e : Event Call Answer) : Bool :=
  (reportedAs (lit "connect attempts") e).isSome

/-- The sum of the values reported for a counter. -/
def ObjStats.Part.reported (part : ObjStats.Part) (tr : Trace) : UInt32 :=
  (tr.filterMap (reportedAs part.label)).sum

/-- What was reported and what is left is what happened. -/
def CountsExactly (tr : Trace) (w : Worker) (part : ObjStats.Part) : Prop :=
  part.reported tr + w.stats.part part = .ofNat (tr.countP part.counts)

/-- The run up to its last report line. -/
def untilReport (tr : Trace) : Trace := (tr.reverse.dropWhile fun e => !isWorkerReport e).reverse

/-- The run after its last report line. -/
def sinceReport (tr : Trace) : Trace := (tr.reverse.takeWhile fun e => !isWorkerReport e).reverse

theorem untilReport_append_sinceReport (tr : Trace) : untilReport tr ++ sinceReport tr = tr := by
  rw [untilReport, sinceReport, ← List.reverse_append, List.takeWhile_append_dropWhile,
    List.reverse_reverse]

theorem sinceReport_append {tr more : Trace} (silent : ∀ e ∈ more, isWorkerReport e = false) :
    sinceReport (tr ++ more) = sinceReport tr ++ more := by
  rw [sinceReport, List.reverse_append, List.takeWhile_append_of_pos, List.reverse_append,
    List.reverse_reverse, ← sinceReport]
  intro e member
  simp [silent e (List.mem_reverse.mp member)]

theorem sinceReport_report {tr : Trace} {e : Event Call Answer} (report : isWorkerReport e = true) :
    sinceReport (tr ++ [e]) = [] := by
  simp [sinceReport, report]

/-! ### One call of `run` -/

/-- Calls that no counter of a worker and no report line of one is concerned with. -/
def isUncounted : Call → Bool
  | .subscribe .. | .nextFrame => false
  | .report values => (values.lookup (lit "connect attempts")).isNone &&
      (values.lookup (lit "disconnects")).isNone && (values.lookup (lit "frames in")).isNone
  | _ => true

/-- What the code adds to a counter; a usable frame is counted twice. -/
def gained (part : ObjStats.Part) (tr : Trace) : Nat :=
  tr.countP part.counts + if part = .framesIn then tr.countP deliversUsable else 0

@[simp] theorem gained_append (part : ObjStats.Part) (tr tr' : Trace) :
    gained part (tr ++ tr') = gained part tr + gained part tr' := by
  simp only [gained, List.countP_append]
  split
  · omega
  · omega

theorem reportedAs_of_isUncounted {e : Event Call Answer} (uncounted : isUncounted e.call = true)
    (part : ObjStats.Part) : reportedAs part.label e = none := by
  obtain ⟨call, answer⟩ := e
  cases call with
  | report values =>
    simp only [isUncounted, Bool.and_eq_true, Option.isNone_iff_eq_none] at uncounted
    obtain ⟨⟨connects, disconnects⟩, framesIn⟩ := uncounted
    cases part with
    | connects => exact connects
    | disconnects => exact disconnects
    | framesIn => exact framesIn
  | time | indeterminate | memcachedGet | memcachedPut | query | execute | datapoint | subscribe
  | nextFrame | frameUse | ack | release | newApnsMessage | push | deleteRegister | queued => rfl

theorem gained_of_isUncounted {tr : Trace} (uncounted : ∀ e ∈ tr, isUncounted e.call = true)
    (part : ObjStats.Part) : gained part tr = 0 := by
  have none (e : Event Call Answer) (member : e ∈ tr) :
      part.counts e = false ∧ deliversUsable e = false := by
    have quiet := uncounted e member
    obtain ⟨call, answer⟩ := e
    cases call with
    | subscribe | nextFrame => cases quiet
    | time | indeterminate | memcachedGet | memcachedPut | query | execute | datapoint | report
    | frameUse | ack | release | newApnsMessage | push | deleteRegister | queued =>
      cases part <;> exact ⟨rfl, rfl⟩
  have counted : tr.countP part.counts = 0 :=
    List.countP_eq_zero.mpr fun e member => by simp [(none e member).1]
  have usable : tr.countP deliversUsable = 0 :=
    List.countP_eq_zero.mpr fun e member => by simp [(none e member).2]
  rw [gained, counted, usable, ite_self]

/-- A stretch without a report line in which the counters grow. -/
structure Gains (stats : ObjStats) (tr : Trace) (stats' : ObjStats) : Prop where
  unreported : ∀ e ∈ tr, ∀ part : ObjStats.Part, reportedAs part.label e = none
  grown : ∀ part, stats'.part part = stats.part part + .ofNat (gained part tr)

namespace Gains

theorem trans {stats mid stats' : ObjStats} {tr tr' : Trace} (first : Gains stats tr mid)
    (second : Gains mid tr' stats') : Gains stats (tr ++ tr') stats' where
  unreported e member :=
    (List.mem_append.mp member).elim (first.unreported e) (second.unreported e)
  grown part := by
    rw [second.grown, first.grown, gained_append, UInt32.ofNat_add, UInt32.add_assoc]

theorem of_uncounted {tr : Trace} (uncounted : ∀ e ∈ tr, isUncounted e.call = true)
    (stats : ObjStats) : Gains stats tr stats where
  unreported e member := reportedAs_of_isUncounted (uncounted e member)
  grown part := by
    rw [gained_of_isUncounted uncounted]
    exact (UInt32.add_zero _).symm

end Gains

/-- `try_stats`: no report line, or one with the counters, which are emptied. -/
inductive Reporting (stats : ObjStats) : Trace → ObjStats → Prop
  | early (tr : Trace) (uncounted : ∀ e ∈ tr, isUncounted e.call = true) : Reporting stats tr stats
  | due (front back : Trace) (uncounted : ∀ e ∈ front, isUncounted e.call = true)
      (uncounted' : ∀ e ∈ back, isUncounted e.call = true) (emptied : ObjStats)
      (empty : ∀ part, emptied.part part = 0) :
      Reporting stats (front ++ ⟨.report stats.logged, ()⟩ :: back) emptied

theorem tryStats_reporting (w : Worker) : Prog.Post w.tryStats fun tr w' =>
    Reporting w.stats tr w'.stats ∧ w'.connected = w.connected ∧ w'.store = w.store := by
  -- `try_stompstats` only reads the clock and keeps its own times
  have stomp : Prog.Post w.tryStompstats fun tr w' => (∀ e ∈ tr, e.call = .time) ∧
      w'.stats = w.stats ∧ w'.connected = w.connected ∧ w'.store = w.store := by
    simp only [tryStompstats, ObjStompstats.initStompstats, time, Prog.perform_bind, Prog.post_call]
    intro now
    split <;> simp
  unfold tryStats
  rw [Prog.post_bind]
  apply Prog.post_mono _ stomp
  rintro tr w' ⟨times, stats, connected, store⟩
  have quiet (more : Trace) (times' : ∀ e ∈ more, e.call = .time) :
      ∀ e ∈ tr ++ more, isUncounted e.call = true := by
    intro e member
    rcases List.mem_append.mp member with member | member
    · rw [times e member]
      rfl
    · rw [times' e member]
      rfl
  simp only [ObjStats.initStats, time, Prog.perform_bind, Prog.call_bind, Prog.post_call]
  intro now
  split
  · refine ⟨?_, connected, store⟩
    rw [stats]
    exact .early _ (quiet _ (by simp))
  · intro diff _ resetAt resetAt'
    refine ⟨?_, connected, store⟩
    have before := quiet [⟨.time, now⟩, ⟨.time, diff⟩] (by simp)
    have after : ∀ e ∈ ([⟨.time, resetAt⟩, ⟨.time, resetAt'⟩] : Trace), isUncounted e.call = true := by
      simp [isUncounted]
    -- the line goes out between two pairs of clock readings, and all counters are emptied after it
    have due : Reporting w'.stats _ _ :=
      .due (tr ++ [⟨.time, now⟩, ⟨.time, diff⟩]) _ before after
        { w'.stats with
          connects := 0, disconnects := 0, packets := 0, framesIn := 0, framesOut := 0
          lastReportAt := resetAt' }
        (fun part => by cases part <;> rfl)
    rw [← stats]
    simpa only [List.append_assoc, List.cons_append, List.nil_append] using due

/-- The store's own report line is none of the worker's. -/
theorem storeStats_uncounted {s s' : Store} {tr : Trace} (ran : Store.StatsTrace s tr s') :
    ∀ e ∈ tr, isUncounted e.call = true := by
  obtain ⟨points, lines, stompstats, stats, publishing, logging⟩ := ran
  intro e member
  rcases List.mem_append.mp member with member | member
  · cases publishing with
    | early now =>
      obtain rfl := List.mem_singleton.mp member
      rfl
    | due now resetAt =>
      simp only [List.mem_cons, List.mem_append, List.mem_map, List.not_mem_nil, or_false] at member
      rcases member with rfl | ⟨point, _, rfl⟩ | rfl <;> rfl
  · cases logging with
    | early now =>
      obtain rfl := List.mem_singleton.mp member
      rfl
    | due now resetAt =>
      simp only [List.mem_cons, List.not_mem_nil, or_false] at member
      rcases member with rfl | rfl | rfl <;> rfl

theorem FrameTrace.uncounted {lib : Openframe} {frame : StompFrame} {tr : Trace}
    (processed : FrameTrace lib frame tr) : ∀ e ∈ tr, isUncounted e.call = true := by
  have inspected : ∀ e ∈ inspection frame, isUncounted e.call = true := by
    intro e member
    unfold inspection at member
    split at member
    · simp only [List.mem_cons, List.not_mem_nil, or_false] at member
      rcases member with rfl | rfl <;> rfl
    · obtain rfl := List.mem_singleton.mp member
      rfl
  intro e member
  cases processed with
  | unusable other =>
    rcases List.mem_append.mp member with member | member
    · exact inspected e member
    · obtain rfl := List.mem_singleton.mp member
      rfl
  | usable message s tr result processed =>
    rcases List.mem_append.mp member with member | member
    · exact inspected e member
    · simp only [conclusion, List.mem_append, List.mem_cons, List.not_mem_nil, or_false] at member
      rcases member with (rfl | rfl) | member | rfl | rfl | rfl
      · rfl
      · rfl
      -- a message looks up and delivers
      · obtain ⟨call, answer⟩ := e
        rcases processed.calls _ member with work | work <;> cases call <;> first | rfl | cases work
      · rfl
      · rfl
      · rfl

/-- A delivered frame is counted once, and once more if it is usable. -/
theorem processFrame_counts (lib : Openframe) (w : Worker) (frame : StompFrame) :
    Prog.Post (processFrame lib w frame) fun _ result => result.2.stats =
      if Usable frame then w.countFrameIn.countFrameIn.stats else w.countFrameIn.stats := by
  unfold processFrame
  dsimp only
  rw [Prog.post_bind]
  apply Prog.post_mono _ (isUsable_post frame)
  rintro _ _ ⟨rfl, rfl⟩
  by_cases usable : Usable frame
  · simp only [usable, decide_true, Bool.not_true, Bool.false_eq_true, if_false, frameBody,
      Prog.perform_bind, Prog.call_bind, Prog.post_call, Prog.pure_eq, Prog.ret_bind]
    intro _ _
    rw [Prog.post_bind]
    apply Prog.post_mono _ (Prog.post_runs _)
    intro tr result processed
    simp only [getHeader, Prog.perform_bind, Prog.call_bind, Prog.pure_eq, Prog.ret_bind,
      Prog.post_call]
    intro _ _ _
    simp [countFrameIn]
  · simp only [usable, decide_false, Bool.not_false, if_true, Prog.perform_bind, Prog.post_call]
    intro _
    simp

theorem receive_gains {lib : Openframe} {w : Worker} {tr : Trace} {result : Bool × Worker}
    (runs : Prog.Runs (receive lib w) tr result) : Gains w.stats tr result.2.stats := by
  obtain ⟨reply, rest, rfl, more⟩ := runs
  -- what `next_frame` answers is all that is counted here
  have first (stats' : ObjStats) (grown : ∀ part, stats'.part part =
      w.stats.part part + .ofNat (gained part [⟨.nextFrame, reply⟩])) :
      Gains w.stats [⟨.nextFrame, reply⟩] stats' := by
    refine ⟨fun e member part => ?_, grown⟩
    obtain rfl := List.mem_singleton.mp member
    rfl
  cases reply with
  | raised message =>
    obtain ⟨rfl, rfl⟩ := more
    refine first _ fun part => ?_
    cases part <;> simp [ObjStats.part, gained, ObjStats.Part.counts, deliversUsable]
  | none =>
    obtain ⟨rfl, rfl⟩ := more
    refine first _ fun part => ?_
    cases part <;> simp [ObjStats.part, gained, ObjStats.Part.counts, deliversUsable]
  | frame frame =>
    have counted := more.post (processFrame_counts lib w frame)
    have uncounted := (more.post (processFrame_post lib w frame)).1.uncounted
    have delivered : Gains w.stats [⟨.nextFrame, .frame frame⟩] result.2.stats := by
      refine first _ fun part => ?_
      rw [counted]
      by_cases usable : Usable frame
      · cases part <;>
          simp [ObjStats.part, gained, ObjStats.Part.counts, deliversUsable, usable, countFrameIn,
            UInt32.add_assoc]
      · cases part <;>
          simp [ObjStats.part, gained, ObjStats.Part.counts, deliversUsable, usable, countFrameIn]
    exact delivered.trans (.of_uncounted uncounted _)

/-- A call of `run` may report, and then it counts. -/
inductive RunCounts (stats stats' : ObjStats) : Trace → Prop
  | intro (front back : Trace) (mid : ObjStats) (reporting : Reporting stats front mid)
      (gains : Gains mid back stats') : RunCounts stats stats' (front ++ back)

theorem runCounts_of_runs {lib : Openframe} {w : Worker} {tr : Trace} {result : Bool × Worker}
    (runs : Prog.Runs (run lib w) tr result) : RunCounts w.stats result.2.stats tr := by
  obtain ⟨w₁, front, more, rfl, tried, checked⟩ := (Prog.runs_bind _ _ _ _).mp runs
  obtain ⟨store, middle, back, rfl, tried', connects⟩ := (Prog.runs_bind _ _ _ _).mp checked
  obtain ⟨reporting, _, _⟩ := tried.post (tryStats_reporting w)
  have quiet : Gains w₁.stats middle w₁.stats :=
    .of_uncounted (storeStats_uncounted (tried'.post (Store.statsTrace_post w₁.store))) _
  refine .intro front (middle ++ back) w₁.stats reporting (quiet.trans ?_)
  -- then a frame, after a subscription if there is none yet
  dsimp only at connects
  by_cases up : w₁.connected = true
  · rw [if_neg (by simp [up])] at connects
    have gains := receive_gains connects
    exact gains
  · rw [if_pos (by simp [up])] at connects
    obtain ⟨ok, rest, rfl, receives⟩ := connects
    have subscribed : Gains w₁.stats [⟨.subscribe kDefaultStompDestNotifyMessages (lit "1"), ok⟩]
        { w₁.stats with connects := w₁.stats.connects + 1 } := by
      refine ⟨fun e member part => ?_, fun part => ?_⟩
      · obtain rfl := List.mem_singleton.mp member
        rfl
      · cases part <;> simp [ObjStats.part, gained, ObjStats.Part.counts, deliversUsable]
    cases ok with
    | false =>
      obtain ⟨rfl, rfl⟩ := receives
      exact subscribed
    | true => exact subscribed.trans (receive_gains receives)

/-! ### Any number of calls -/

/-- Where the accounts of a run stand: a counter that the report line gives away
balances; the disconnects are those since the last report line. -/
structure Accounted (tr : Trace) (stats : ObjStats) : Prop where
  shown : ∀ part, part ≠ .disconnects →
    Balances (part.reported tr) 0 (.ofNat (gained part tr)) (stats.part part)
  withheld : ObjStats.Part.disconnects.reported tr = 0
  lost : stats.disconnects = .ofNat ((sinceReport tr).countP ObjStats.Part.disconnects.counts)

theorem Gains.reported {stats stats' : ObjStats} {tr : Trace} (gains : Gains stats tr stats')
    (part : ObjStats.Part) : part.reported tr = 0 := by
  have none : tr.filterMap (reportedAs part.label) = [] :=
    List.filterMap_eq_nil_iff.mpr fun e member => gains.unreported e member part
  rw [ObjStats.Part.reported, none, List.sum_nil]

theorem Gains.isWorkerReport {stats stats' : ObjStats} {tr : Trace}
    (gains : Gains stats tr stats') : ∀ e ∈ tr, Worker.isWorkerReport e = false := by
  intro e member
  have none : reportedAs (lit "connect attempts") e = none := gains.unreported e member .connects
  rw [Worker.isWorkerReport, none]
  rfl

theorem reported_append (part : ObjStats.Part) (tr tr' : Trace) :
    part.reported (tr ++ tr') = part.reported tr + part.reported tr' := by
  rw [ObjStats.Part.reported, List.filterMap_append, List.sum_append]
  rfl

/-- More counting without a report line. -/
theorem Accounted.gains {tr more : Trace} {stats stats' : ObjStats} (accounted : Accounted tr stats)
    (gains : Gains stats more stats') : Accounted (tr ++ more) stats' where
  shown part reportable := by
    have grown : Balances (part.reported more) (stats.part part) (.ofNat (gained part more))
        (stats'.part part) := by
      rw [gains.reported, gains.grown]
      exact Balances.earns _ _
    rw [reported_append, gained_append, UInt32.ofNat_add]
    exact (accounted.shown part reportable).trans grown
  withheld := by rw [reported_append, accounted.withheld, gains.reported, UInt32.add_zero]
  lost := by
    have grown : stats'.disconnects = stats.disconnects + .ofNat (gained .disconnects more) :=
      gains.grown .disconnects
    -- only frames are counted twice
    have exactly : gained .disconnects more = more.countP ObjStats.Part.disconnects.counts := by
      simp [gained]
    rw [sinceReport_append gains.isWorkerReport, List.countP_append, UInt32.ofNat_add,
      ← accounted.lost, grown, exactly]

/-- A report line gives away the counters it names; all are emptied. -/
theorem Accounted.report {tr : Trace} {stats emptied : ObjStats} (accounted : Accounted tr stats)
    (empty : ∀ part, emptied.part part = 0) :
    Accounted (tr ++ [⟨.report stats.logged, ()⟩]) emptied where
  shown part reportable := by
    have paid : Balances (part.reported [⟨.report stats.logged, ()⟩]) (stats.part part)
        (.ofNat (gained part [⟨.report stats.logged, ()⟩])) (emptied.part part) := by
      -- the line has an item for every counter but the disconnects
      have line : part.reported [⟨.report stats.logged, ()⟩] = stats.part part := by
        cases part with
        | disconnects => exact absurd rfl reportable
        | connects | framesIn => exact List.sum_singleton
      have none : gained part [⟨.report stats.logged, ()⟩] = 0 := by cases part <;> rfl
      rw [empty, line, none]
      exact Balances.pays _
    rw [reported_append, gained_append, UInt32.ofNat_add]
    exact (accounted.shown part reportable).trans paid
  withheld := by
    rw [reported_append, accounted.withheld]
    rfl
  lost := by
    have none : emptied.disconnects = 0 := empty .disconnects
    rw [sinceReport_report rfl, none]
    rfl

theorem Accounted.reporting {tr more : Trace} {stats stats' : ObjStats}
    (accounted : Accounted tr stats) (reporting : Reporting stats more stats') :
    Accounted (tr ++ more) stats' := by
  cases reporting with
  | early _ uncounted => exact accounted.gains (.of_uncounted uncounted _)
  | due front back uncounted uncounted' _ empty =>
    have before := accounted.gains (.of_uncounted uncounted stats)
    have after := (before.report empty).gains (.of_uncounted uncounted' stats')
    simpa only [List.append_assoc, List.cons_append, List.nil_append] using after

theorem accounted_of_calls {lib : Openframe} {n : Nat} {w w' : Worker} {tr tr' : Trace}
    (runs : Prog.Runs (calls lib n w) tr' w') (accounted : Accounted tr w.stats) :
    Accounted (tr ++ tr') w'.stats := by
  induction n generalizing w tr tr' with
  | zero =>
    obtain ⟨rfl, rfl⟩ := runs
    rwa [List.append_nil]
  | succ n ih =>
    obtain ⟨⟨worked, mid⟩, first, rest, rfl, ran, more⟩ := (Prog.runs_bind _ _ _ _).mp runs
    obtain ⟨front, back, stats, reporting, gains⟩ := runCounts_of_runs ran
    -- a call reports what the calls before it counted, and counts then
    rw [← List.append_assoc]
    refine ih more ?_
    rw [← List.append_assoc]
    exact (accounted.reporting reporting).gains gains

theorem accounted_of_create {tr : Trace} {w : Worker} (runs : Prog.Runs create tr w) :
    Accounted tr w.stats := by
  have created : Prog.Post create fun tr w =>
      (∀ e ∈ tr, e.call = .time) ∧ ∀ part, w.stats.part part = 0 := by
    simp only [create, Store.create, ObjStats.initStats, ObjStompstats.initStompstats,
      Store.ObjStats.initStats, time, Prog.perform_bind, Prog.call_bind, if_true, Prog.post_call,
      Prog.pure_eq, Prog.ret_bind, Prog.post_ret]
    intro _ _ _ _ _ _ _ _
    refine ⟨by simp, fun part => ?_⟩
    cases part <;> rfl
  obtain ⟨times, empty⟩ := runs.post created
  have start : Accounted [] w.stats := by
    refine ⟨fun part _ => ?_, rfl, empty .disconnects⟩
    have none : gained part [] = 0 := by cases part <;> rfl
    rw [empty, none]
    exact Balances.refl _
  exact start.gains (.of_uncounted (fun e member => by rw [times e member]; rfl) _)

theorem ofNat_add_eq_iff (a b : Nat) : UInt32.ofNat (a + b) = .ofNat a ↔ b % 2 ^ 32 = 0 := by
  rw [← UInt32.toNat_inj, UInt32.toNat_ofNat', UInt32.toNat_ofNat']
  omega

/-- The counters of a worker count exactly what happened if and only if no usable
frame was delivered and no exception came before a report line, up to overflow. -/
theorem countsExactly_iff (lib : Openframe) (n : Nat) (tr : Trace) (w : Worker)
    (runs : Prog.Runs (create >>= calls lib n) tr w) :
    (∀ part, CountsExactly tr w part) ↔
      tr.countP deliversUsable % 2 ^ 32 = 0 ∧
        (untilReport tr).countP ObjStats.Part.disconnects.counts % 2 ^ 32 = 0 := by
  obtain ⟨fresh, front, back, rfl, created, more⟩ := (Prog.runs_bind _ _ _ _).mp runs
  have accounted := accounted_of_calls more (accounted_of_create created)
  generalize front ++ back = tr at accounted
  have connects : CountsExactly tr w .connects := by
    have balances := accounted.shown .connects (by decide)
    rw [Balances, zero_add] at balances
    exact balances
  have framesIn : CountsExactly tr w .framesIn ↔ tr.countP deliversUsable % 2 ^ 32 = 0 := by
    have balances := accounted.shown .framesIn (by decide)
    rw [Balances, zero_add, gained, if_pos rfl] at balances
    rw [CountsExactly, balances, ofNat_add_eq_iff]
  -- nothing is reported of them, and what is left came after the last report line
  have disconnects : CountsExactly tr w .disconnects ↔
      (untilReport tr).countP ObjStats.Part.disconnects.counts % 2 ^ 32 = 0 := by
    have whole := congrArg (List.countP ObjStats.Part.disconnects.counts)
      (untilReport_append_sinceReport tr)
    rw [List.countP_append, Nat.add_comm] at whole
    rw [CountsExactly, accounted.withheld, zero_add, ObjStats.part, accounted.lost, ← whole,
      eq_comm, ofNat_add_eq_iff]
  rw [← framesIn, ← disconnects]
  constructor
  · exact fun all => ⟨all .framesIn, all .disconnects⟩
  · rintro ⟨frames, lost⟩ part
    cases part with
    | connects => exact connects
    | disconnects => exact lost
    | framesIn => exact frames

theorem countsExactly_iff_twoCalls :
    (∀ part, CountsExactly (playCalls 2).1 (playCalls 2).2 part) ↔
      (playCalls 2).1.countP deliversUsable % 2 ^ 32 = 0 ∧
        (untilReport (playCalls 2).1).countP ObjStats.Part.disconnects.counts % 2 ^ 32 = 0 :=
  countsExactly_iff .textual 2 _ _ (Prog.play_runs _ 0 _)

/-- One usable frame, counted as two. -/
theorem oneFrame_countedTwice : ¬ ∀ (lib : Openframe) (n : Nat) (tr : Trace) (w : Worker),
    Prog.Runs (create >>= calls lib n) tr w → ∀ part, CountsExactly tr w part := by
  intro exactly
  have counted := exactly .textual 1 _ _ (Prog.play_runs brokerScript.answers 0 _) .framesIn
  revert counted
  unfold CountsExactly
  decide

end ApnsPusher.Worker
