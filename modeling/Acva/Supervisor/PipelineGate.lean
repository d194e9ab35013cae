import Acva.Lib.Runs
import Acva.Supervisor.Supervisor
import Mathlib.Data.Int.Order.Basic
import Mathlib.Data.List.Nodup

/-!
# The gate of the pipeline

Monitors and evaluations run on threads of their own. An evaluation reads the clock, waits for the supervisor's mutex
and then takes the snapshots of the monitors one after the other, so a service can change between any two of these.
`Failed` stands for an outage that lasted the whole grace window unless a service goes down behind the back of the
stamps.
-/

namespace Acva

/-! ### Histories of services -/

/-- The state of a service from `time` on, until its next moment. -/
structure ServiceMoment where
  service : Text
  time : Int
  state : ServiceState
  deriving DecidableEq, Repr

/-- The moments of one service. -/
def historyOf (name : Text) (history : List ServiceMoment) : List ServiceMoment :=
  history.filter fun x => x.service = name

/-- From time `since` until the newest moment, which is the first of the list, the state is `Unhealthy` without
interruption. -/
def UnhealthyThroughout (since : Int) : List ServiceMoment → Prop
  | [] => False
  | x :: before => x.state = .unhealthy ∧ (x.time ≤ since ∨ UnhealthyThroughout since before)

instance UnhealthyThroughout.decidable (since : Int) : (history : List ServiceMoment) →
    Decidable (UnhealthyThroughout since history)
  | [] => isFalse id
  | _ :: before => @instDecidableAnd _ _ _ (@instDecidableOr _ _ _ (UnhealthyThroughout.decidable since before))

@[simp] lemma historyOf_append (name : Text) (a b : List ServiceMoment) :
    historyOf name (a ++ b) = historyOf name a ++ historyOf name b :=
  List.filter_append ..

@[simp] lemma historyOf_cons_self (x : ServiceMoment) (history : List ServiceMoment) :
    historyOf x.service (x :: history) = x :: historyOf x.service history := by
  simp [historyOf]

lemma historyOf_cons_of_ne {name : Text} {x : ServiceMoment} (h : x.service ≠ name) (history : List ServiceMoment) :
    historyOf name (x :: history) = historyOf name history := by
  simp [historyOf, h]

lemma mem_of_mem_historyOf {name : Text} {x : ServiceMoment} {history : List ServiceMoment}
    (h : x ∈ historyOf name history) : x ∈ history :=
  List.mem_of_mem_filter h

namespace UnhealthyThroughout

variable {since : Int} {history newer : List ServiceMoment}

lemma mono (h : UnhealthyThroughout since history) {later : Int} (hle : since ≤ later) :
    UnhealthyThroughout later history := by
  induction history with
  | nil => exact h
  | cons x before ih =>
    refine ⟨h.1, ?_⟩
    rcases h.2 with hx | hbefore
    · exact .inl (hx.trans hle)
    · exact .inr (ih hbefore)

lemma append (h : UnhealthyThroughout since history) (hnewer : ∀ x ∈ newer, x.state = .unhealthy) :
    UnhealthyThroughout since (newer ++ history) := by
  induction newer with
  | nil => exact h
  | cons x newer ih =>
    refine ⟨hnewer x (by simp), .inr (ih fun y hy => hnewer y (by simp [hy]))⟩

/-- The outage was there already at time `now`, if the moments since then have left it at that. -/
lemma before {now : Int} (h : UnhealthyThroughout since (newer ++ history))
    (hnewer : ∀ x ∈ newer, now ≤ x.time) (hhistory : ∀ x ∈ history, x.time ≤ now)
    (hdown : ∃ x older, history = x :: older ∧ x.state = .unhealthy) : UnhealthyThroughout since history := by
  induction newer with
  | nil => exact h
  | cons y newer ih =>
    rcases h.2 with hy | hrest
    · obtain ⟨x, older, rfl, hx⟩ := hdown
      have hlater := hnewer y (by simp)
      have hearlier := hhistory x (by simp)
      exact ⟨hx, .inl (by omega)⟩
    · exact ih hrest fun x hx => hnewer x (by simp [hx])

end UnhealthyThroughout

/-! ### Timed runs -/

/-- An evaluation with what had happened when it read the clock. -/
structure TimedEvaluation where
  eval : Evaluation
  seen : List ServiceMoment
  deriving DecidableEq, Repr

/-- A state that an evaluation has set, with the services registered at that time. -/
structure Outcome where
  now : Int
  seen : List ServiceMoment
  services : List ServiceConfig
  state : PipelineState
  deriving DecidableEq, Repr

/-- The supervisor on a clock. The evaluations in `waiting` have read it and wait for the mutex, which `holder` has.
The newest moment is the first of `history`. -/
structure SupervisedServices where
  clock : Int := 0
  supervisor : Supervisor := {}
  waiting : List TimedEvaluation := []
  holder : Option TimedEvaluation := none
  bus : List Event := []
  history : List ServiceMoment := []
  outcomes : List Outcome := []
  deriving DecidableEq, Repr

inductive SupervisorOp
  | register (svc : ServiceConfig)
  | probe (name : Text) (r : ProbeResult)
  | readClock
  | lock (i : Nat)
  | sample
  | finish
  deriving DecidableEq, Repr

/-- An operation, `delay` nanoseconds after the one before it. -/
structure SupervisorAction where
  delay : Nat
  op : SupervisorOp
  deriving DecidableEq, Repr

/-- `pipeline_fail_grace_seconds` in the unit of the clock. -/
def graceOf (pipelineFailGraceSeconds : UInt32) : Int := pipelineFailGraceSeconds.toNat * 1000000000

/-- The monitor `x`, or `m` if it has the same name. -/
def ServiceMonitor.inPlaceOf (m x : ServiceMonitor) : ServiceMonitor := if x.cfg.name = m.cfg.name then m else x

namespace SupervisedServices

/-- The monitor whose probes can be reported under that name: one without a `health_url` has no thread. -/
def probed (s : SupervisedServices) (name : Text) : Option ServiceMonitor :=
  s.supervisor.monitors.find? fun m => m.cfg.name = name && m.cfg.healthUrl ≠ []

/-- A service has changed. -/
def record (s : SupervisedServices) (x : ServiceMoment) (monitors : List ServiceMonitor) (events : List Event) :
    SupervisedServices :=
  { s with
    supervisor := { s.supervisor with monitors := monitors }
    bus := s.bus ++ events
    history := x :: s.history }

/-- `register_service`, which waits for the mutex. -/
def register (s : SupervisedServices) (svc : ServiceConfig) : SupervisedServices :=
  if s.holder.isSome then s
  else s.record ⟨svc.name, s.clock, (ServiceMonitor.new svc).state⟩ (s.supervisor.registerService svc).monitors []

/-- A probe of the service has a result. -/
def probe (s : SupervisedServices) (name : Text) (r : ProbeResult) : SupervisedServices :=
  match s.probed name with
  | none => s
  | some m =>
    let m' := m.applyResult s.clock r
    s.record ⟨name, s.clock, m'.state⟩ (s.supervisor.monitors.map m'.inPlaceOf) (m'.publishIfChanged m.state)

/-- `evaluate_pipeline` up to the mutex. -/
def readClock (s : SupervisedServices) : SupervisedServices :=
  { s with waiting := s.waiting ++ [⟨{ now := s.clock }, s.history⟩] }

def lock (s : SupervisedServices) (i : Nat) : SupervisedServices :=
  match s.holder, s.waiting[i]? with
  | none, some e => { s with waiting := s.waiting.eraseIdx i, holder := some e }
  | _, _ => s

/-- The next pass of the loop of `evaluate_pipeline`. -/
def sample (grace : Int) (s : SupervisedServices) : SupervisedServices :=
  match s.holder with
  | none => s
  | some e =>
    match s.supervisor.monitors[e.eval.next]? with
    | none => s
    | some m =>
      let r := s.supervisor.sample grace e.eval m
      { s with supervisor := r.1, holder := some { e with eval := r.2 } }

/-- The rest of `evaluate_pipeline`. -/
def finish (s : SupervisedServices) : SupervisedServices :=
  match s.holder with
  | none => s
  | some e =>
    if e.eval.next < s.supervisor.monitors.length then s
    else
      { s with
        supervisor := { s.supervisor with pipelineState := e.eval.result }
        holder := none
        bus := s.bus ++ s.supervisor.pipelineState.announce e.eval.result
        outcomes := s.outcomes ++ [⟨e.eval.now, e.seen, s.supervisor.monitors.map (·.cfg), e.eval.result⟩] }

/-- An operation at the time of the clock. -/
def perform (grace : Int) (s : SupervisedServices) : SupervisorOp → SupervisedServices
  | .register svc => s.register svc
  | .probe name r => s.probe name r
  | .readClock => s.readClock
  | .lock i => s.lock i
  | .sample => s.sample grace
  | .finish => s.finish

def tick (s : SupervisedServices) (delay : Nat) : SupervisedServices := { s with clock := s.clock + delay }

def step (grace : Int) (s : SupervisedServices) (a : SupervisorAction) : SupervisedServices :=
  (s.tick a.delay).perform grace a.op

end SupervisedServices

/-- `Failed` is set for a critical service that was `Unhealthy` during the whole grace window before the time of the
evaluation; otherwise the state says only whether there is a critical service. -/
structure Outcome.Genuine (grace : Int) (o : Outcome) : Prop where
  failed : o.state = .failed → ∃ svc ∈ o.services, svc.critical ∧
    UnhealthyThroughout (o.now - grace) (historyOf svc.name o.seen)
  otherwise : o.state ≠ .failed →
    o.state = if o.services.any ServiceConfig.critical then .ok else .noConfiguredCriticalServices

namespace SupervisedServices

/-- A critical service goes down only when no stamp of its name is left and no evaluation has read the clock and is
yet to take its snapshot. -/
def NoticedOp (s : SupervisedServices) : SupervisorOp → Prop
  | .probe name r =>
    ∀ m ∈ s.supervisor.monitors, m.cfg.name = name → m.cfg.critical → m.turnsUnhealthy s.clock r →
      (∀ u ∈ s.supervisor.unhealthySince, u.name ≠ name) ∧ s.waiting = [] ∧
        ∀ e ∈ s.holder, m ∉ s.supervisor.monitors.drop e.eval.next
  | _ => True

instance (s : SupervisedServices) (op : SupervisorOp) : Decidable (s.NoticedOp op) :=
  match op with
  | .probe _ _ => inferInstanceAs (Decidable (∀ _ ∈ _, _ → _ → _ → _ ∧ _ ∧ _))
  | .register _ | .readClock | .lock _ | .sample | .finish => isTrue trivial

def Noticed (s : SupervisedServices) (a : SupervisorAction) : Prop := (s.tick a.delay).NoticedOp a.op

instance (s : SupervisedServices) (a : SupervisorAction) : Decidable (s.Noticed a) :=
  inferInstanceAs (Decidable (NoticedOp _ _))

/-! ### What an evaluation knows -/

/-- Of the monitors `ms`, whose snapshots are still to be taken, the critical ones that are down now were down when
the evaluation read the clock, and have been since. -/
structure InFlight (clock : Int) (history : List ServiceMoment) (e : TimedEvaluation) (ms : List ServiceMonitor) :
    Prop where
  clock : e.eval.now ≤ clock
  past : ∀ x ∈ e.seen, x.time ≤ e.eval.now
  down : ∃ newer, history = newer ++ e.seen ∧ (∀ x ∈ newer, e.eval.now ≤ x.time) ∧
    ∀ m ∈ ms, m.cfg.critical → m.state = .unhealthy →
      (∀ x ∈ historyOf m.cfg.name newer, x.state = .unhealthy) ∧
        ∃ x older, historyOf m.cfg.name e.seen = x :: older ∧ x.state = .unhealthy

/-- The two flags after the monitors gone through. -/
structure Tallied (grace : Int) (monitors : List ServiceMonitor) (e : TimedEvaluation) : Prop where
  failed : e.eval.anyFailed → ∃ m ∈ monitors, m.cfg.critical ∧
    UnhealthyThroughout (e.eval.now - grace) (historyOf m.cfg.name e.seen)
  critical : e.eval.anyCritical = (monitors.take e.eval.next).any fun m => m.cfg.critical

structure Sound (grace : Int) (s : SupervisedServices) : Prop where
  names : (s.supervisor.monitors.map (·.cfg.name)).Nodup
  configured : ∀ m ∈ s.supervisor.monitors, m.state = .notConfigured ↔ m.cfg.healthUrl = []
  latest : ∀ m ∈ s.supervisor.monitors, ∃ x older, historyOf m.cfg.name s.history = x :: older ∧ x.state = m.state
  past : ∀ x ∈ s.history, x.time ≤ s.clock
  stamps : ∀ u ∈ s.supervisor.unhealthySince, ∀ m ∈ s.supervisor.monitors, m.cfg.name = u.name → m.cfg.critical →
    m.state = .unhealthy → UnhealthyThroughout u.since (historyOf u.name s.history)
  waiting : ∀ e ∈ s.waiting, e.eval = { now := e.eval.now } ∧ InFlight s.clock s.history e s.supervisor.monitors
  holder : ∀ e, s.holder = some e → InFlight s.clock s.history e (s.supervisor.monitors.drop e.eval.next) ∧
    Tallied grace s.supervisor.monitors e
  outcomes : ∀ o ∈ s.outcomes, o.Genuine grace

section InFlight

variable {clock : Int} {history : List ServiceMoment} {e : TimedEvaluation} {ms ms' : List ServiceMonitor}

lemma InFlight.later (h : InFlight clock history e ms) {clock' : Int} (hle : clock ≤ clock') :
    InFlight clock' history e ms :=
  { h with clock := h.clock.trans hle }

/-- A moment `x` is added to the history. A monitor of another service is one of those before, and one of this
service is down only if it was down before. -/
lemma InFlight.push {x : ServiceMoment} (h : InFlight clock history e ms) (htime : x.time = clock)
    (hms : ∀ m ∈ ms', m.cfg.critical → m.state = .unhealthy →
      ∃ m₀ ∈ ms, m₀.cfg = m.cfg ∧ m₀.state = .unhealthy ∧ (x.service = m.cfg.name → x.state = .unhealthy)) :
    InFlight clock (x :: history) e ms' := by
  obtain ⟨newer, rfl, htimes, hdown⟩ := h.down
  refine ⟨h.clock, h.past, x :: newer, rfl, ?_, ?_⟩
  · intro y hy
    rcases List.mem_cons.1 hy with rfl | hy
    · rw [htime]
      exact h.clock
    · exact htimes y hy
  · intro m hm hcritical hstate
    obtain ⟨m₀, hm₀, hcfg, hstate₀, hx⟩ := hms m hm hcritical hstate
    obtain ⟨hsince, hseen⟩ := hdown m₀ hm₀ (hcfg ▸ hcritical) hstate₀
    rw [hcfg] at hsince hseen
    refine ⟨fun y hy => ?_, hseen⟩
    by_cases hservice : x.service = m.cfg.name
    · rw [← hservice, historyOf_cons_self] at hy
      rcases List.mem_cons.1 hy with rfl | hy
      · exact hx hservice
      · exact hsince y (hservice ▸ hy)
    · rw [historyOf_cons_of_ne hservice] at hy
      exact hsince y hy

/-- A service that is down and not yet looked at has been down since the evaluation read the clock. -/
lemma InFlight.throughout (h : InFlight clock history e ms) {m : ServiceMonitor} (hm : m ∈ ms)
    (hcritical : m.cfg.critical)
    (hstate : m.state = .unhealthy) : UnhealthyThroughout e.eval.now (historyOf m.cfg.name history) := by
  obtain ⟨newer, hnewer, -, hdown⟩ := h.down
  obtain ⟨hsince, x, older, hseen, hx⟩ := hdown m hm hcritical hstate
  rw [hnewer, historyOf_append]
  refine UnhealthyThroughout.append ?_ hsince
  have hmem : x ∈ historyOf m.cfg.name e.seen := by simp [hseen]
  rw [hseen]
  exact ⟨hx, .inl (h.past x (mem_of_mem_historyOf hmem))⟩

/-- An outage that has lasted until now had lasted when the evaluation read the clock. -/
lemma InFlight.seen (h : InFlight clock history e ms) {m : ServiceMonitor} (hm : m ∈ ms) (hcritical : m.cfg.critical)
    (hstate : m.state = .unhealthy) {since : Int}
    (hthrough : UnhealthyThroughout since (historyOf m.cfg.name history)) :
    UnhealthyThroughout since (historyOf m.cfg.name e.seen) := by
  obtain ⟨newer, hnewer, htimes, hdown⟩ := h.down
  rw [hnewer, historyOf_append] at hthrough
  refine hthrough.before (fun x hx => htimes x (mem_of_mem_historyOf hx))
    (fun x hx => h.past x (mem_of_mem_historyOf hx)) ?_
  exact (hdown m hm hcritical hstate).2

end InFlight

variable {grace : Int} {s : SupervisedServices} {e : TimedEvaluation} {ms ms' : List ServiceMonitor}

lemma Sound.tick (h : s.Sound grace) (delay : Nat) : (s.tick delay).Sound grace := by
  have hle : s.clock ≤ s.clock + delay := by omega
  refine { h with past := ?_, waiting := ?_, holder := ?_ }
  · exact fun x hx => (h.past x hx).trans hle
  · exact fun e he => ⟨(h.waiting e he).1, (h.waiting e he).2.later hle⟩
  · exact fun e he => ⟨(h.holder e he).1.later hle, (h.holder e he).2⟩

/-- A service has changed to the state of `x`, which is that of its monitor now. -/
lemma Sound.record {x : ServiceMoment} {events : List Event} (h : s.Sound grace) (htime : x.time = s.clock)
    (hnames : (ms'.map (·.cfg.name)).Nodup) (hconfigured : ∀ m ∈ ms', m.state = .notConfigured ↔ m.cfg.healthUrl = [])
    (hms : ∀ m ∈ ms', m ∈ s.supervisor.monitors ∧ m.cfg.name ≠ x.service ∨ m.cfg.name = x.service ∧ m.state = x.state)
    (hstamps : x.state = .unhealthy → ∀ m ∈ ms', m.cfg.name = x.service → m.cfg.critical →
      ∀ u ∈ s.supervisor.unhealthySince, u.name = x.service →
        UnhealthyThroughout u.since (historyOf x.service s.history))
    (hwaiting : ∀ e ∈ s.waiting, InFlight s.clock (x :: s.history) e ms')
    (hholder : ∀ e, s.holder = some e → InFlight s.clock (x :: s.history) e (ms'.drop e.eval.next) ∧
      Tallied grace ms' e) :
    (s.record x ms' events).Sound grace := by
  refine ⟨hnames, hconfigured, ?_, ?_, ?_, ?_, hholder, h.outcomes⟩
  · intro m hm
    rcases hms m hm with ⟨hold, hne⟩ | ⟨hname, hstate⟩
    · obtain ⟨y, older, hy, hstate⟩ := h.latest m hold
      refine ⟨y, older, ?_, hstate⟩
      exact (historyOf_cons_of_ne hne.symm s.history).trans hy
    · refine ⟨x, historyOf x.service s.history, ?_, hstate.symm⟩
      rw [hname]
      exact historyOf_cons_self x s.history
  · intro y hy
    rcases List.mem_cons.1 hy with rfl | hy
    · exact htime.le
    · exact h.past y hy
  · intro u hu m hm hname hcritical hstate
    rcases hms m hm with ⟨hold, hne⟩ | ⟨hservice, hx⟩
    · have hkept : historyOf u.name (x :: s.history) = historyOf u.name s.history :=
        historyOf_cons_of_ne (hname ▸ hne.symm) s.history
      exact hkept.symm ▸ h.stamps u hu m hold hname hcritical hstate
    · have hdown : x.state = .unhealthy := hx.symm.trans hstate
      have hu' : u.name = x.service := hname.symm.trans hservice
      have hpushed : historyOf u.name (x :: s.history) = x :: historyOf x.service s.history := by
        rw [hu', historyOf_cons_self]
      rw [SupervisedServices.record, hpushed]
      exact ⟨hdown, .inr (hstamps hdown m hm hservice hcritical u hu hu')⟩
  · intro e he
    exact ⟨(h.waiting e he).1, hwaiting e he⟩

lemma Sound.register (h : s.Sound grace) (svc : ServiceConfig) : (s.register svc).Sound grace := by
  unfold SupervisedServices.register
  by_cases hholder : s.holder.isSome
  · rw [if_pos hholder]
    exact h
  · rw [if_neg hholder]
    have hnew : (ServiceMonitor.new svc).state ≠ .unhealthy := by
      unfold ServiceMonitor.new
      dsimp only
      split <;> simp
    -- a new monitor is not down
    have hold : ∀ m ∈ (s.supervisor.registerService svc).monitors, m.state = .unhealthy →
        m ∈ s.supervisor.monitors ∧ m.cfg.name ≠ svc.name := by
      intro m hm hstate
      rcases Supervisor.mem_registerService h.names hm with rfl | hm
      · exact absurd hstate hnew
      · exact hm
    refine h.record rfl (Supervisor.names_registerService h.names) ?_ ?_ ?_ ?_ ?_
    · intro m hm
      rcases Supervisor.mem_registerService h.names hm with rfl | ⟨hm, -⟩
      · unfold ServiceMonitor.new
        dsimp only
        split <;> simp_all
      · exact h.configured m hm
    · intro m hm
      rcases Supervisor.mem_registerService h.names hm with rfl | hm
      · exact .inr ⟨rfl, rfl⟩
      · exact .inl hm
    · exact fun hdown => absurd hdown hnew
    · intro e he
      refine (h.waiting e he).2.push rfl fun m hm _ hstate => ?_
      obtain ⟨hm, hne⟩ := hold m hm hstate
      exact ⟨m, hm, rfl, hstate, fun hsame => absurd hsame.symm hne⟩
    · intro e he
      simp [he] at hholder

lemma Sound.unique (h : s.Sound grace) {m m₀ : ServiceMonitor} (hm : m ∈ s.supervisor.monitors)
    (hm₀ : m₀ ∈ s.supervisor.monitors) (hname : m.cfg.name = m₀.cfg.name) : m = m₀ :=
  List.inj_on_of_nodup_map h.names hm hm₀ hname

section Replaced

variable {m m' : ServiceMonitor}

/-- A monitor in whose place `m'` was put is `m`. -/
lemma Sound.inPlaceOf_cases (h : s.Sound grace) (hm : m ∈ s.supervisor.monitors) (hcfg : m'.cfg = m.cfg)
    {x : ServiceMonitor} (hx : x ∈ s.supervisor.monitors) :
    x = m ∧ m'.inPlaceOf x = m' ∨ x.cfg.name ≠ m.cfg.name ∧ m'.inPlaceOf x = x := by
  unfold ServiceMonitor.inPlaceOf
  rw [hcfg]
  by_cases hname : x.cfg.name = m.cfg.name
  · exact .inl ⟨h.unique hx hm hname, if_pos hname⟩
  · exact .inr ⟨hname, if_neg hname⟩

lemma Sound.inPlaceOf_cfg (h : s.Sound grace) (hm : m ∈ s.supervisor.monitors) (hcfg : m'.cfg = m.cfg)
    {x : ServiceMonitor} (hx : x ∈ s.supervisor.monitors) : (m'.inPlaceOf x).cfg = x.cfg := by
  rcases h.inPlaceOf_cases hm hcfg hx with ⟨rfl, hf⟩ | ⟨-, hf⟩
  · rw [hf, hcfg]
  · rw [hf]

lemma InFlight.replace (hflight : InFlight s.clock s.history e ms) (h : s.Sound grace) (hm : m ∈ s.supervisor.monitors)
    (hcfg : m'.cfg = m.cfg) (hms : ∀ x ∈ ms, x ∈ s.supervisor.monitors)
    (hbehind : m.cfg.critical → m'.state = .unhealthy → m.state ≠ .unhealthy → m ∉ ms) :
    InFlight s.clock (⟨m.cfg.name, s.clock, m'.state⟩ :: s.history) e (ms.map m'.inPlaceOf) := by
  refine hflight.push rfl fun m₂ hm₂ hcritical hstate => ?_
  obtain ⟨x, hx, rfl⟩ := List.mem_map.1 hm₂
  rcases h.inPlaceOf_cases hm hcfg (hms x hx) with ⟨rfl, hf⟩ | ⟨hne, hf⟩
  · rw [hf] at hcritical hstate ⊢
    have hdown : x.state = .unhealthy := by
      by_contra hup
      exact hbehind (hcfg ▸ hcritical) hstate hup hx
    exact ⟨x, hx, hcfg.symm, hdown, fun _ => hstate⟩
  · rw [hf] at hstate ⊢
    exact ⟨x, hx, rfl, hstate, fun hsame => absurd hsame.symm hne⟩

lemma Tallied.replace (htallied : Tallied grace s.supervisor.monitors e) (h : s.Sound grace)
    (hm : m ∈ s.supervisor.monitors) (hcfg : m'.cfg = m.cfg) :
    Tallied grace (s.supervisor.monitors.map m'.inPlaceOf) e := by
  refine ⟨fun hfailed => ?_, ?_⟩
  · obtain ⟨y, hy, hcritical⟩ := htallied.failed hfailed
    refine ⟨m'.inPlaceOf y, List.mem_map_of_mem hy, ?_⟩
    rw [h.inPlaceOf_cfg hm hcfg hy]
    exact hcritical
  · have hkept : (s.supervisor.monitors.map m'.inPlaceOf).map (·.cfg) = s.supervisor.monitors.map (·.cfg) := by
      rw [List.map_map]
      exact List.map_congr_left fun y hy => h.inPlaceOf_cfg hm hcfg hy
    have hany : ∀ l : List ServiceMonitor, ((l.take e.eval.next).any fun m => m.cfg.critical) =
        ((l.map (·.cfg)).take e.eval.next).any ServiceConfig.critical := by
      intro l
      rw [← List.map_take, List.any_map]
      rfl
    rw [htallied.critical, hany, ← hkept, ← hany]

end Replaced

lemma Sound.probe (h : s.Sound grace) {name : Text} {r : ProbeResult} (hnoticed : s.NoticedOp (.probe name r)) :
    (s.probe name r).Sound grace := by
  unfold SupervisedServices.probe
  cases hprobed : s.probed name with
  | none => exact h
  | some m =>
    have hm : m ∈ s.supervisor.monitors := List.mem_of_find?_eq_some hprobed
    obtain ⟨rfl, hurl⟩ : m.cfg.name = name ∧ m.cfg.healthUrl ≠ [] := by simpa using List.find?_some hprobed
    have hcfg := m.applyResult_cfg s.clock r
    have hconfigured := m.applyResult_configured s.clock r
    -- the condition, for a service that goes down
    have hturns : m.cfg.critical → (m.applyResult s.clock r).state = .unhealthy → m.state ≠ .unhealthy →
        (∀ u ∈ s.supervisor.unhealthySince, u.name ≠ m.cfg.name) ∧ s.waiting = [] ∧
          ∀ e, s.holder = some e → m ∉ s.supervisor.monitors.drop e.eval.next := by
      intro hcritical hdown hup
      exact hnoticed m hm rfl hcritical (by simp [ServiceMonitor.turnsUnhealthy, hdown, hup])
    dsimp only
    generalize m.applyResult s.clock r = m' at *
    refine h.record rfl ?_ ?_ ?_ ?_ ?_ ?_
    · have hkept : (s.supervisor.monitors.map m'.inPlaceOf).map (·.cfg.name) =
        s.supervisor.monitors.map (·.cfg.name) := by
        rw [List.map_map]
        apply List.map_congr_left
        intro x hx
        rw [Function.comp_apply, h.inPlaceOf_cfg hm hcfg hx]
      rw [hkept]
      exact h.names
    · intro m₂ hm₂
      obtain ⟨x, hx, rfl⟩ := List.mem_map.1 hm₂
      rcases h.inPlaceOf_cases hm hcfg hx with ⟨rfl, hf⟩ | ⟨-, hf⟩
      · rw [hf, hcfg]
        exact ⟨fun hnot => absurd hnot hconfigured, fun hnil => absurd hnil hurl⟩
      · rw [hf]
        exact h.configured x hx
    · intro m₂ hm₂
      obtain ⟨x, hx, rfl⟩ := List.mem_map.1 hm₂
      rcases h.inPlaceOf_cases hm hcfg hx with ⟨rfl, hf⟩ | ⟨hne, hf⟩
      · rw [hf]
        exact .inr ⟨by rw [hcfg], rfl⟩
      · rw [hf]
        exact .inl ⟨hx, hne⟩
    · intro hstate m₂ hm₂ hsame hcritical u hu hu'
      obtain ⟨x, hx, rfl⟩ := List.mem_map.1 hm₂
      rcases h.inPlaceOf_cases hm hcfg hx with ⟨rfl, hf⟩ | ⟨hne, hf⟩
      · rw [hf, hcfg] at hcritical
        have hdown : x.state = .unhealthy := by
          by_contra hup
          exact (hturns hcritical hstate hup).1 u hu hu'
        have hstamp := h.stamps u hu x hx hu'.symm hcritical hdown
        rwa [hu'] at hstamp
      · rw [hf] at hsame
        exact absurd hsame hne
    · intro e he
      refine (h.waiting e he).2.replace h hm hcfg (fun _ hx => hx) fun hcritical hdown hup _ => ?_
      rw [(hturns hcritical hdown hup).2.1] at he
      simp at he
    · intro e he
      obtain ⟨hflight, htallied⟩ := h.holder e he
      refine ⟨?_, htallied.replace h hm hcfg⟩
      rw [← List.map_drop]
      refine hflight.replace h hm hcfg (fun _ hx => List.mem_of_mem_drop hx) fun hcritical hdown hup => ?_
      exact (hturns hcritical hdown hup).2.2 e he

/-! ### The steps of an evaluation -/

lemma Sound.readClock (h : s.Sound grace) : s.readClock.Sound grace := by
  refine { h with waiting := ?_ }
  intro e he
  rcases List.mem_append.1 he with he | he
  · exact h.waiting e he
  · rw [List.mem_singleton.1 he]
    refine ⟨rfl, le_rfl, h.past, [], rfl, by simp, fun m hm _ hstate => ⟨by simp [historyOf], ?_⟩⟩
    obtain ⟨x, older, hx, hsame⟩ := h.latest m hm
    exact ⟨x, older, hx, hsame.trans hstate⟩

lemma Sound.lock (h : s.Sound grace) (i : Nat) : (s.lock i).Sound grace := by
  unfold SupervisedServices.lock
  split
  · rename_i e hnone he
    obtain ⟨hfresh, hflight⟩ := h.waiting e (List.mem_of_getElem? he)
    refine { h with waiting := ?_, holder := ?_ }
    · exact fun e' he' => h.waiting e' (List.mem_of_mem_eraseIdx he')
    · intro e' he'
      obtain rfl : e = e' := by simpa using he'
      constructor
      · rw [hfresh]
        exact hflight
      · constructor
        · rw [hfresh]
          simp
        · rw [hfresh]
          rfl
  · exact h

/-- The evaluation goes on to the next monitor with the stamps `stamps`. -/
lemma Sound.advance (h : s.Sound grace) (he : s.holder = some e) {m : ServiceMonitor}
    (hm : s.supervisor.monitors[e.eval.next]? = some m) {stamps : List UnhealthyAt} {critical failed : Bool}
    (hstamps : ∀ u ∈ stamps, u ∈ s.supervisor.unhealthySince ∨
      m.cfg.critical ∧ m.state = .unhealthy ∧ u = ⟨m.cfg.name, e.eval.now⟩)
    (hcritical : critical = (e.eval.anyCritical || m.cfg.critical))
    (hfailed : failed → e.eval.anyFailed ∨
      m.cfg.critical ∧ UnhealthyThroughout (e.eval.now - grace) (historyOf m.cfg.name e.seen)) :
    Sound grace { s with
      supervisor := { s.supervisor with unhealthySince := stamps },
      holder := some { e with
        eval := { e.eval with next := e.eval.next + 1, anyCritical := critical, anyFailed := failed } } } := by
  obtain ⟨hflight, htallied⟩ := h.holder e he
  obtain ⟨hlt, hget⟩ := List.getElem?_eq_some_iff.1 hm
  have hmem : m ∈ s.supervisor.monitors := List.mem_of_getElem? hm
  have hleft : m ∈ s.supervisor.monitors.drop e.eval.next := by
    rw [List.drop_eq_getElem_cons hlt, hget]
    exact List.mem_cons_self
  refine { h with stamps := ?_, holder := ?_ }
  · intro u hu m₂ hm₂ hname hcritical hstate
    rcases hstamps u hu with hold | ⟨hc, hdown, rfl⟩
    · exact h.stamps u hold m₂ hm₂ hname hcritical hstate
    · exact hflight.throughout hleft hc hdown
  · intro e' he'
    obtain rfl := (Option.some.inj he').symm
    constructor
    · obtain ⟨newer, hnewer, htimes, hdown⟩ := hflight.down
      refine ⟨hflight.clock, hflight.past, newer, hnewer, htimes, fun m₂ hm₂ => hdown m₂ ?_⟩
      rw [List.drop_eq_getElem_cons hlt]
      exact List.mem_cons_of_mem _ hm₂
    · constructor
      · intro hf
        rcases hfailed hf with hf | hthrough
        · exact htallied.failed hf
        · exact ⟨m, hmem, hthrough⟩
      · dsimp only
        rw [hcritical, htallied.critical, List.take_add_one, hm]
        simp

lemma Sound.sample (h : s.Sound grace) : (s.sample grace).Sound grace := by
  unfold SupervisedServices.sample
  cases he : s.holder with
  | none => exact h
  | some e =>
    dsimp only
    cases hm : s.supervisor.monitors[e.eval.next]? with
    | none => exact h
    | some m =>
      obtain ⟨hflight, -⟩ := h.holder e he
      have hmem : m ∈ s.supervisor.monitors := List.mem_of_getElem? hm
      have hleft : m ∈ s.supervisor.monitors.drop e.eval.next := by
        obtain ⟨hlt, hget⟩ := List.getElem?_eq_some_iff.1 hm
        rw [List.drop_eq_getElem_cons hlt, hget]
        exact List.mem_cons_self
      dsimp only
      rcases Supervisor.sample_cases (h.configured m hmem) with ⟨hc, hr⟩ | ⟨hc, hdown, hr⟩ | ⟨hc, -, hr⟩
      · rw [hr]
        exact h.advance he hm (fun u hu => .inl hu) (by simp [hc]) .inl
      · rw [hr]
        obtain ⟨hstamp, hstamps⟩ := s.supervisor.stamp_mem m.cfg.name e.eval.now
        have hnew : ∀ u ∈ (s.supervisor.stamp m.cfg.name e.eval.now).2, u ∈ s.supervisor.unhealthySince ∨
            m.cfg.critical ∧ m.state = .unhealthy ∧ u = ⟨m.cfg.name, e.eval.now⟩ := by
          intro u hu
          rcases hstamps u hu with hold | hnew
          · exact .inl hold
          · exact .inr ⟨hc, hdown, hnew⟩
        refine h.advance he hm hnew (by simp [hc]) fun hfailed => ?_
        rcases Bool.or_eq_true_iff.1 hfailed with hf | hlate
        · exact .inl hf
        · have hsince : UnhealthyThroughout (s.supervisor.stamp m.cfg.name e.eval.now).1
              (historyOf m.cfg.name s.history) := by
            rcases hnew _ hstamp with hold | ⟨-, -, hsame⟩
            · exact h.stamps _ hold m hmem rfl hc hdown
            · rw [UnhealthyAt.mk.injEq] at hsame
              rw [hsame.2]
              exact hflight.throughout hleft hc hdown
          have hge : (s.supervisor.stamp m.cfg.name e.eval.now).1 ≤ e.eval.now - grace := by
            have hdiff : e.eval.now - (s.supervisor.stamp m.cfg.name e.eval.now).1 ≥ grace := by simpa using hlate
            omega
          exact .inr ⟨hc, (hflight.seen hleft hc hdown hsince).mono hge⟩
      · rw [hr]
        exact h.advance he hm (fun u hu => .inl (List.mem_of_mem_eraseP hu)) (by simp [hc]) .inl

lemma Sound.finish (h : s.Sound grace) : s.finish.Sound grace := by
  unfold SupervisedServices.finish
  cases he : s.holder with
  | none => exact h
  | some e =>
    dsimp only
    by_cases hlt : e.eval.next < s.supervisor.monitors.length
    · rw [if_pos hlt]
      exact h
    · rw [if_neg hlt]
      obtain ⟨-, htallied⟩ := h.holder e he
      refine { h with holder := by simp, outcomes := fun o ho => ?_ }
      rcases List.mem_append.1 ho with ho | ho
      · exact h.outcomes o ho
      · rw [List.mem_singleton.1 ho]
        have hall : e.eval.anyCritical = (s.supervisor.monitors.map (·.cfg)).any ServiceConfig.critical := by
          rw [htallied.critical, List.take_of_length_le (by omega), List.any_map]
          rfl
        refine ⟨fun hfailed => ?_, fun hne => ?_⟩
        · obtain ⟨m, hm, hthrough⟩ := htallied.failed (e.eval.failed_of_result hfailed)
          exact ⟨m.cfg, List.mem_map_of_mem hm, hthrough⟩
        · rw [← hall]
          exact e.eval.result_of_ne_failed hne

lemma Sound.step (h : s.Sound grace) {a : SupervisorAction} (hnoticed : s.Noticed a) :
    (s.step grace a).Sound grace := by
  have hticked := h.tick a.delay
  unfold SupervisedServices.step
  unfold Noticed at hnoticed
  cases hop : a.op with
  | register svc => exact hticked.register svc
  | probe name r => exact hticked.probe (hop ▸ hnoticed)
  | readClock => exact hticked.readClock
  | lock i => exact hticked.lock i
  | sample => exact hticked.sample
  | finish => exact hticked.finish

/-- The supervisor shows the state that the last evaluation has set. -/
def Shown (s : SupervisedServices) : Prop :=
  s.supervisor.pipelineState = (s.outcomes.getLast?.map (·.state)).getD .noConfiguredCriticalServices

lemma Shown.step (h : s.Shown) (a : SupervisorAction) : (s.step grace a).Shown := by
  unfold SupervisedServices.step
  cases a.op with
  | register svc =>
    simp only [perform, SupervisedServices.register]
    split <;> exact h
  | probe name r =>
    simp only [perform, SupervisedServices.probe]
    split <;> exact h
  | readClock => exact h
  | lock i =>
    simp only [perform, SupervisedServices.lock]
    split <;> exact h
  | sample =>
    simp only [perform, SupervisedServices.sample]
    split
    · exact h
    · split
      · exact h
      · rename_i m _
        have hkept : ∀ sup e, (Supervisor.sample grace sup e m).1.pipelineState = sup.pipelineState := by
          intro sup e
          unfold Supervisor.sample
          dsimp only
          repeat' split
          all_goals rfl
        exact (hkept _ _).trans h
  | finish =>
    simp only [perform, SupervisedServices.finish]
    split
    · exact h
    · split
      · exact h
      · simp [Shown]

/-- Whenever critical services go down only where the stamps and the evaluations can notice it, each evaluation that
sets `Failed` at time `now` does so for a critical service that was `Unhealthy` during the whole of the grace window
before `now`, and `Ok` or `NoConfiguredCriticalServices` is set otherwise. -/
theorem failed_is_sustained (pipelineFailGraceSeconds : UInt32) (start : Int) {actions : List SupervisorAction}
    (h : Runs.Along (step (graceOf pipelineFailGraceSeconds)) Noticed { clock := start } actions) :
    let s := Runs.exec (step (graceOf pipelineFailGraceSeconds)) { clock := start } actions
    s.Shown ∧ ∀ o ∈ s.outcomes, o.Genuine (graceOf pipelineFailGraceSeconds) := by
  constructor
  · have hstart : Shown { clock := start } := rfl
    exact Runs.exec_invariant Shown (fun s a hs => hs.step a) hstart actions
  · have hsound : Sound (graceOf pipelineFailGraceSeconds)
        (Runs.exec (step (graceOf pipelineFailGraceSeconds)) { clock := start } actions) := by
      refine h.invariant (Sound _) (fun s a hs ha => hs.step ha) ?_
      exact ⟨by simp, by simp, by simp, by simp, by simp, by simp, by simp, by simp⟩
    exact hsound.outcomes

/-- A service that is down for the whole of thirty seconds fails the pipeline. -/
theorem outage_fails_pipeline :
    let actions : List SupervisorAction :=
      [⟨0, .register { name := ascii "llm", healthUrl := ascii "/health", degradedMaxFailures := 1 }⟩,
       ⟨0, .probe (ascii "llm") { ok := false }⟩, ⟨0, .readClock⟩, ⟨0, .lock 0⟩, ⟨0, .sample⟩, ⟨0, .finish⟩,
       ⟨30000000000, .readClock⟩, ⟨0, .lock 0⟩, ⟨0, .sample⟩, ⟨0, .finish⟩]
    let s := Runs.exec (step (graceOf 30)) { clock := 0 } actions
    (∀ o ∈ s.outcomes, o.Genuine (graceOf 30)) ∧ s.outcomes.map (·.state) = [.ok, .failed] :=
  ⟨(failed_is_sustained 30 0 (by decide)).2, by decide⟩

/-- A service fails, recovers after 29 seconds and fails again half a second later. No evaluation falls between, so
the first stamp stands and half a second of outage fails the pipeline. -/
theorem recovery_unnoticed :
    let actions : List SupervisorAction :=
      [⟨0, .register { name := ascii "llm", healthUrl := ascii "/health", degradedMaxFailures := 1 }⟩,
       ⟨0, .probe (ascii "llm") { ok := false }⟩, ⟨0, .readClock⟩, ⟨0, .lock 0⟩, ⟨0, .sample⟩, ⟨0, .finish⟩,
       ⟨29000000000, .probe (ascii "llm") { ok := true }⟩, ⟨500000000, .probe (ascii "llm") { ok := false }⟩,
       ⟨500000000, .readClock⟩, ⟨0, .lock 0⟩, ⟨0, .sample⟩, ⟨0, .finish⟩]
    let s := Runs.exec (step (graceOf 30)) { clock := 0 } actions
    ∃ o ∈ s.outcomes, o.now = 30000000000 ∧ o.state = .failed ∧ ¬o.Genuine (graceOf 30) := by
  refine ⟨⟨30000000000, [⟨ascii "llm", 29500000000, .unhealthy⟩, ⟨ascii "llm", 29000000000, .healthy⟩,
    ⟨ascii "llm", 0, .unhealthy⟩, ⟨ascii "llm", 0, .probing⟩],
    [{ name := ascii "llm", healthUrl := ascii "/health", degradedMaxFailures := 1 }], .failed⟩, ?_, rfl, rfl, ?_⟩
  · decide
  · intro hgenuine
    exact absurd (hgenuine.failed rfl) (by decide)

end SupervisedServices

end Acva
