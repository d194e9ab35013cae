import Acva.Event.Event
import Mathlib.Data.List.Nodup

/-!
# The supervisor

`ServiceMonitor` turns the results of its probes into a state of the service, and `Supervisor` turns the states of
the services that gate the dialogue into one state of the pipeline. The evaluation keeps the time at which it first saw
a service down. Times are nanoseconds of the `steady_clock`.
-/

namespace Acva

inductive ServiceState
  | notConfigured
  | probing
  | healthy
  | degraded
  | unhealthy
  deriving DecidableEq, Repr

/-- `to_health_state`. -/
def ServiceState.toHealthState : ServiceState → HealthState
  | .notConfigured | .probing => .unknown
  | .healthy => .healthy
  | .degraded => .degraded
  | .unhealthy => .unhealthy

structure ServiceConfig where
  name : Text
  healthUrl : Text
  failPipelineIfDown : Bool := true
  degradedMaxFailures : UInt32 := 3
  deriving DecidableEq, Repr

/-- The service gates the pipeline: it has a `health_url` and may fail it. -/
def ServiceConfig.critical (cfg : ServiceConfig) : Bool := cfg.failPipelineIfDown && cfg.healthUrl ≠ []

structure ProbeResult where
  ok : Bool
  httpStatus : Int := 0
  latency : Int := 0
  bodyExcerpt : Text := []
  deriving DecidableEq, Repr

structure ServiceMonitor where
  cfg : ServiceConfig
  state : ServiceState
  lastProbeAt : Int := 0
  lastOkAt : Int := 0
  consecutiveFailures : UInt32 := 0
  totalProbes : Nat := 0
  totalFailures : Nat := 0
  lastHttpStatus : Int := 0
  lastError : Text := []
  lastLatency : Int := 0
  probeSeq : Nat := 0
  deriving DecidableEq, Repr

namespace ServiceMonitor

/-- The constructor. -/
def new (cfg : ServiceConfig) : ServiceMonitor :=
  { cfg := cfg, state := if cfg.healthUrl = [] then .notConfigured else .probing }

def applyResult (m : ServiceMonitor) (now : Int) (r : ProbeResult) : ServiceMonitor :=
  let m :=
    { m with
      totalProbes := m.totalProbes + 1
      lastProbeAt := now
      lastHttpStatus := r.httpStatus
      lastLatency := r.latency
      lastError := r.bodyExcerpt
      probeSeq := m.probeSeq + 1 }
  if r.ok then { m with consecutiveFailures := 0, lastOkAt := now, state := .healthy }
  else
    { m with
      consecutiveFailures := m.consecutiveFailures + 1
      totalFailures := m.totalFailures + 1
      state := if m.consecutiveFailures + 1 ≥ m.cfg.degradedMaxFailures then .unhealthy else .degraded }

/-- What `apply_result` publishes when the state was `prev`. -/
def publishIfChanged (m : ServiceMonitor) (prev : ServiceState) : List Event :=
  if prev = m.state then []
  else if prev.toHealthState = m.state.toHealthState then []
  else [.healthChanged m.cfg.name m.state.toHealthState m.lastError]

/-- The result makes the service `Unhealthy`, which it was not. -/
def turnsUnhealthy (m : ServiceMonitor) (now : Int) (r : ProbeResult) : Bool :=
  m.state ≠ .unhealthy && (m.applyResult now r).state = .unhealthy

@[simp] lemma applyResult_cfg (m : ServiceMonitor) (now : Int) (r : ProbeResult) :
    (m.applyResult now r).cfg = m.cfg := by
  unfold applyResult
  dsimp only
  split <;> rfl

lemma applyResult_configured (m : ServiceMonitor) (now : Int) (r : ProbeResult) :
    (m.applyResult now r).state ≠ .notConfigured := by
  unfold applyResult
  dsimp only
  split
  · simp
  · dsimp only
    split <;> simp

end ServiceMonitor

inductive PipelineState
  | ok
  | failed
  | noConfiguredCriticalServices
  deriving DecidableEq, Repr

structure UnhealthyAt where
  name : Text
  since : Int
  deriving DecidableEq, Repr

structure Supervisor where
  monitors : List ServiceMonitor := []
  unhealthySince : List UnhealthyAt := []
  pipelineState : PipelineState := .noConfiguredCriticalServices
  deriving DecidableEq, Repr

/-- The locals of `evaluate_pipeline`; `next` counts the monitors that its loop has gone through. -/
structure Evaluation where
  now : Int
  next : Nat := 0
  anyCritical : Bool := false
  anyFailed : Bool := false
  deriving DecidableEq, Repr

namespace Supervisor

/-- A monitor of the same name is replaced. -/
def registerService (s : Supervisor) (svc : ServiceConfig) : Supervisor :=
  match s.monitors.findIdx? fun m => m.cfg.name = svc.name with
  | none => { s with monitors := s.monitors ++ [.new svc] }
  | some i => { s with monitors := s.monitors.set i (.new svc) }

/-- The stamp for a service seen down: the one it has, or one with the time of this evaluation. -/
def stamp (s : Supervisor) (name : Text) (now : Int) : Int × List UnhealthyAt :=
  match s.unhealthySince.find? fun u => u.name = name with
  | some u => (u.since, s.unhealthySince)
  | none => (now, s.unhealthySince ++ [⟨name, now⟩])

/-- The loop body of `evaluate_pipeline`. -/
def sample (grace : Int) (s : Supervisor) (e : Evaluation) (snap : ServiceMonitor) : Supervisor × Evaluation :=
  let e := { e with next := e.next + 1 }
  if snap.cfg.failPipelineIfDown = false then (s, e)
  else if snap.state = .notConfigured then (s, e)
  else if snap.state = .unhealthy then
    let stamped := s.stamp snap.cfg.name e.now
    ({ s with unhealthySince := stamped.2 },
      { e with anyCritical := true, anyFailed := e.anyFailed || e.now - stamped.1 ≥ grace })
  else
    ({ s with unhealthySince := s.unhealthySince.eraseP fun u => u.name = snap.cfg.name },
      { e with anyCritical := true })

end Supervisor

/-- The state that an evaluation sets once its loop is over. -/
def Evaluation.result (e : Evaluation) : PipelineState :=
  if e.anyCritical = false then .noConfiguredCriticalServices else if e.anyFailed then .failed else .ok

/-- The event for a change to `next`. -/
def PipelineState.announce (prev next : PipelineState) : List Event :=
  if prev ≠ next ∧ next = .failed then
    [.errorEvent (ascii "supervisor") (ascii "pipeline failed: critical service unhealthy past grace")]
  else []

namespace Supervisor

variable {s : Supervisor} {svc : ServiceConfig} {grace : Int} {e : Evaluation} {snap : ServiceMonitor}

/-- There is one monitor of each name, so no other is replaced. -/
lemma mem_registerService {m : ServiceMonitor}
    (hnames : (s.monitors.map (·.cfg.name)).Nodup) (h : m ∈ (s.registerService svc).monitors) :
    m = .new svc ∨ m ∈ s.monitors ∧ m.cfg.name ≠ svc.name := by
  unfold registerService at h
  split at h
  · rename_i hnone
    rcases List.mem_append.1 h with h | h
    · right
      refine ⟨h, ?_⟩
      simpa using List.findIdx?_eq_none_iff.1 hnone m h
    · exact .inl (List.mem_singleton.1 h)
  · rename_i i hi
    obtain ⟨hlt, hname, -⟩ := List.findIdx?_eq_some_iff_getElem.1 hi
    obtain ⟨k, hk, rfl⟩ := List.getElem_of_mem h
    have hk' : k < s.monitors.length := by simpa using hk
    by_cases hki : i = k
    · subst hki
      exact .inl (by simp)
    · right
      dsimp only
      rw [List.getElem_set_ne hki]
      refine ⟨List.getElem_mem hk', fun hsame => hki ?_⟩
      have heq : (s.monitors.map (·.cfg.name))[i]? = (s.monitors.map (·.cfg.name))[k]? := by
        have hname' : s.monitors[i].cfg.name = svc.name := by simpa using hname
        simp [hlt, hk', hname', hsame]
      exact (List.getElem?_inj (by simpa using hlt) hnames).1 heq

lemma names_registerService (hnames : (s.monitors.map (·.cfg.name)).Nodup) :
    ((s.registerService svc).monitors.map (·.cfg.name)).Nodup := by
  unfold registerService
  split
  · rename_i hnone
    rw [List.map_append, List.map_singleton, List.nodup_append]
    refine ⟨hnames, by simp, fun a ha b hb => ?_⟩
    obtain ⟨m, hm, rfl⟩ := List.mem_map.1 ha
    have hne : m.cfg.name ≠ svc.name := by simpa using List.findIdx?_eq_none_iff.1 hnone m hm
    rw [List.mem_singleton.1 hb]
    exact hne
  · rename_i i hi
    obtain ⟨hlt, hname, -⟩ := List.findIdx?_eq_some_iff_getElem.1 hi
    have hkept : (s.monitors.set i (.new svc)).map (·.cfg.name) = s.monitors.map (·.cfg.name) := by
      have hlt' : i < (s.monitors.map (·.cfg.name)).length := by simpa using hlt
      have hsame : (ServiceMonitor.new svc).cfg.name = (s.monitors.map (·.cfg.name))[i] := by
        simpa [ServiceMonitor.new, eq_comm] using hname
      rw [List.map_set, hsame, List.set_getElem_self]
    rw [hkept]
    exact hnames

lemma sample_cases (hconfigured : snap.state = .notConfigured ↔ snap.cfg.healthUrl = []) :
    snap.cfg.critical = false ∧ s.sample grace e snap = (s, { e with next := e.next + 1 }) ∨
    snap.cfg.critical ∧ snap.state = .unhealthy ∧ s.sample grace e snap =
      ({ s with unhealthySince := (s.stamp snap.cfg.name e.now).2 },
        { e with next := e.next + 1, anyCritical := true,
                 anyFailed := e.anyFailed || e.now - (s.stamp snap.cfg.name e.now).1 ≥ grace }) ∨
    snap.cfg.critical ∧ snap.state ≠ .unhealthy ∧ s.sample grace e snap =
      ({ s with unhealthySince := s.unhealthySince.eraseP fun u => u.name = snap.cfg.name },
        { e with next := e.next + 1, anyCritical := true }) := by
  unfold sample
  dsimp only
  by_cases hgates : snap.cfg.failPipelineIfDown = false
  · rw [if_pos hgates]
    exact .inl ⟨by simp [ServiceConfig.critical, hgates], rfl⟩
  rw [if_neg hgates]
  by_cases hnone : snap.state = .notConfigured
  · rw [if_pos hnone]
    exact .inl ⟨by simp [ServiceConfig.critical, hconfigured.1 hnone], rfl⟩
  rw [if_neg hnone]
  have hcritical : snap.cfg.critical := by
    have hurl : snap.cfg.healthUrl ≠ [] := fun hnil => hnone (hconfigured.2 hnil)
    simpa [ServiceConfig.critical, hurl] using hgates
  by_cases hdown : snap.state = .unhealthy
  · rw [if_pos hdown]
    exact .inr (.inl ⟨hcritical, hdown, rfl⟩)
  · rw [if_neg hdown]
    exact .inr (.inr ⟨hcritical, hdown, rfl⟩)

lemma stamp_mem (s : Supervisor) (name : Text) (now : Int) :
    ⟨name, (s.stamp name now).1⟩ ∈ (s.stamp name now).2 ∧
      ∀ u ∈ (s.stamp name now).2, u ∈ s.unhealthySince ∨ u = ⟨name, now⟩ := by
  unfold stamp
  split
  · rename_i u hu
    have hname : u.name = name := by simpa using List.find?_some hu
    subst hname
    exact ⟨List.mem_of_find?_eq_some hu, fun u' hu' => .inl hu'⟩
  · exact ⟨by simp, fun u hu => by simpa using hu⟩

end Supervisor

lemma Evaluation.failed_of_result (e : Evaluation) (h : e.result = .failed) : e.anyFailed := by
  unfold result at h
  split at h
  · simp at h
  · split at h
    · assumption
    · simp at h

lemma Evaluation.result_of_ne_failed (e : Evaluation) (h : e.result ≠ .failed) :
    e.result = if e.anyCritical then .ok else .noConfiguredCriticalServices := by
  unfold result at h ⊢
  cases hc : e.anyCritical with
  | false => simp
  | true =>
    cases hf : e.anyFailed with
    | false => simp
    | true => simp [hc, hf] at h

end Acva
