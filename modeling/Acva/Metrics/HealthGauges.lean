import Acva.Event.BoundedQueue
import Acva.Lib.Runs
import Acva.Supervisor.Supervisor

/-!
# The health gauges

The registry has four gauges for a service, one of which is 1. `build_supervisor` keeps them in step with the monitors
through the bus: the thread of a monitor publishes `HealthChanged` after it has let go of the monitor's lock, a queue
that drops its oldest event takes it, and a worker sets the gauges.
-/

namespace Acva

/-- The state as the subscription `metrics.health` spells it. -/
def HealthState.label : HealthState → Text
  | .unknown => ascii "unknown"
  | .healthy => ascii "healthy"
  | .degraded => ascii "degraded"
  | .unhealthy => ascii "unhealthy"

def kAllHealthStates : List Text := [ascii "unknown", ascii "healthy", ascii "degraded", ascii "unhealthy"]

/-- The family of gauges by service and state, and the services that have been registered. -/
structure HealthGauges where
  healthServices : List Text := []
  value : Text → Text → Option Nat := fun _ _ => none

namespace HealthGauges

/-- `Add` with the two labels, and `Set`. -/
def set (g : HealthGauges) (service state : Text) (v : Nat) : HealthGauges :=
  { g with value := Function.update g.value service (Function.update (g.value service) state (some v)) }

def setAll (g : HealthGauges) (service : Text) (v : Text → Nat) : HealthGauges :=
  kAllHealthStates.foldl (fun g state => g.set service state (v state)) g

def registerServiceForHealth (g : HealthGauges) (service : Text) : HealthGauges :=
  if service ∈ g.healthServices then g
  else
    let g := { g with healthServices := g.healthServices ++ [service] }
    (g.setAll service fun _ => 0).set service (ascii "unknown") 1

def setHealthState (g : HealthGauges) (service stateName : Text) : HealthGauges :=
  let g :=
    if service ∈ g.healthServices then g
    else { g with healthServices := g.healthServices ++ [service] }.setAll service fun _ => 0
  g.setAll service fun state => if state = stateName then 1 else 0

/-- The handler of `metrics.health`. -/
def onEvent (g : HealthGauges) : Event → HealthGauges
  | .healthChanged service state _ => g.setHealthState service state.label
  | _ => g

end HealthGauges

/-- The monitor of a service, and what its thread has still to publish. -/
structure ProbeThread where
  monitor : ServiceMonitor
  unpublished : List Event := []
  deriving DecidableEq, Repr

/-- The monitors by their names, the queue of the subscription, the event that its worker handles, and the gauges. -/
structure HealthBoard where
  thread : Text → Option ProbeThread := fun _ => none
  queue : BoundedQueue Event := { capacity := 64, policy := .dropOldest }
  inHand : Option Event := none
  gauges : HealthGauges := {}

/-- A probe has a result, the thread publishes the change, and the worker takes an event and handles it. -/
inductive HealthAction
  | apply (service : Text) (now : Int) (r : ProbeResult)
  | publish (service : Text)
  | take
  | handle
  deriving DecidableEq, Repr

namespace HealthBoard

/-- `register_service`, and the gauges of a service with a `health_url`. -/
def register (b : HealthBoard) (svc : ServiceConfig) : HealthBoard :=
  { b with
    thread := Function.update b.thread svc.name (some { monitor := .new svc })
    gauges := if svc.healthUrl = [] then b.gauges else b.gauges.registerServiceForHealth svc.name }

/-- `build_supervisor`, before the threads start. -/
def build (services : List ServiceConfig) : HealthBoard := services.foldl register {}

def apply (b : HealthBoard) (service : Text) (now : Int) (r : ProbeResult) : HealthBoard :=
  match b.thread service with
  | some { monitor := m, unpublished := [] } =>
    -- a monitor without a `health_url` is dormant
    if m.cfg.healthUrl = [] then b
    else
      let m' := m.applyResult now r
      { b with thread := Function.update b.thread service (some ⟨m', m'.publishIfChanged m.state⟩) }
  | _ => b

def publish (b : HealthBoard) (service : Text) : HealthBoard :=
  match b.thread service with
  | some { monitor := m, unpublished := e :: rest } =>
    match b.queue.push e with
    | some (queue, _) => { b with queue := queue, thread := Function.update b.thread service (some ⟨m, rest⟩) }
    | none => b
  | _ => b

def take (b : HealthBoard) : HealthBoard :=
  match b.inHand, b.queue.tryPop with
  | none, some (e, queue) => { b with queue := queue, inHand := some e }
  | _, _ => b

def handle (b : HealthBoard) : HealthBoard :=
  match b.inHand with
  | some e => { b with inHand := none, gauges := b.gauges.onEvent e }
  | none => b

def step (b : HealthBoard) : HealthAction → HealthBoard
  | .apply service now r => b.apply service now r
  | .publish service => b.publish service
  | .take => b.take
  | .handle => b.handle

end HealthBoard

/-- The state that the event reports for the service. -/
def Event.healthOf (service : Text) : Event → Option HealthState
  | .healthChanged name state _ => if name = service then some state else none
  | _ => none

def Event.healthService : Event → Option Text
  | .healthChanged name _ _ => some name
  | _ => none

namespace HealthBoard

/-- The states of the service that are under way to the gauges, in their order. -/
def underWay (b : HealthBoard) (service : Text) (t : ProbeThread) : List HealthState :=
  (b.inHand.toList ++ b.queue.q ++ t.unpublished).filterMap (Event.healthOf service)

/-- A full queue drops an event only if there is a later one of the same service. -/
def Spared (b : HealthBoard) : HealthAction → Prop
  | .publish service =>
    ∀ t ∈ b.thread service, ∀ e ∈ t.unpublished.head?, b.queue.capacity ≤ b.queue.q.length →
      ∀ dropped ∈ b.queue.q.head?,
      ∀ name ∈ dropped.healthService, (b.queue.q.tail ++ [e]).filterMap (Event.healthOf name) ≠ []
  | _ => True

instance (b : HealthBoard) (a : HealthAction) : Decidable (b.Spared a) :=
  match a with
  | .publish service => inferInstanceAs (Decidable (∀ t ∈ b.thread service, ∀ e ∈ t.unpublished.head?,
      b.queue.capacity ≤ b.queue.q.length → ∀ dropped ∈ b.queue.q.head?,
        ∀ name ∈ dropped.healthService, (b.queue.q.tail ++ [e]).filterMap (Event.healthOf name) ≠ []))
  | .apply _ _ _ | .take | .handle => isTrue trivial

end HealthBoard

/-! ### Setting the gauges -/

namespace HealthGauges

variable {g : HealthGauges} {service : Text}

/-- The one gauge of the service that is 1. -/
def Shows (g : HealthGauges) (service : Text) (state : HealthState) : Prop :=
  ∀ label ∈ kAllHealthStates, g.value service label = some (if label = state.label then 1 else 0)

lemma foldl_set (labels : List Text) (g : HealthGauges) (service : Text) (v : Text → Nat) :
    labels.foldl (fun g state => g.set service state (v state)) g =
      { g with value := Function.update g.value service (fun label =>
          if label ∈ labels then some (v label) else g.value service label) } := by
  induction labels generalizing g with
  | nil => simp
  | cons label labels ih =>
    rw [List.foldl_cons, ih]
    simp only [set, Function.update_idem, Function.update_self]
    congr 2
    funext l
    by_cases hl : l = label
    · subst hl
      simp
    · simp [hl]

@[simp] lemma setAll_services (g : HealthGauges) (service : Text) (v : Text → Nat) :
    (g.setAll service v).healthServices = g.healthServices := by rw [setAll, foldl_set]

lemma setAll_self (g : HealthGauges) (service : Text) (v : Text → Nat) {label : Text} (h : label ∈ kAllHealthStates) :
    (g.setAll service v).value service label = some (v label) := by simp [setAll, foldl_set, h]

lemma setAll_of_ne (g : HealthGauges) (v : Text → Nat) {other : Text} (h : other ≠ service) :
    (g.setAll service v).value other = g.value other := by simp [setAll, foldl_set, h]

lemma shows_setHealthState (g : HealthGauges) (service : Text) (state : HealthState) :
    (g.setHealthState service state.label).Shows service state := by
  intro label hlabel
  exact setAll_self _ service _ hlabel

lemma setHealthState_of_ne (g : HealthGauges) (stateName : Text) {other : Text} (h : other ≠ service) :
    (g.setHealthState service stateName).value other = g.value other := by
  unfold setHealthState
  dsimp only
  rw [setAll_of_ne _ _ h]
  split
  · rfl
  · exact setAll_of_ne _ _ h

lemma Shows.of_value_eq {g' : HealthGauges} {state : HealthState} (h : g.Shows service state)
    (hvalue : g'.value service = g.value service) : g'.Shows service state := by
  intro label hlabel
  rw [hvalue]
  exact h label hlabel

lemma shows_register (hnew : service ∉ g.healthServices) :
    (g.registerServiceForHealth service).Shows service .unknown := by
  intro label hlabel
  rw [registerServiceForHealth, if_neg hnew]
  by_cases hunknown : label = ascii "unknown"
  · subst hunknown
    simp [set, HealthState.label]
  · have hzero := setAll_self { g with healthServices := g.healthServices ++ [service] } service (fun _ => 0) hlabel
    simpa [set, hunknown, HealthState.label] using hzero

lemma mem_register {other : Text} :
    other ∈ (g.registerServiceForHealth service).healthServices ↔ other ∈ g.healthServices ∨ other = service := by
  unfold registerServiceForHealth
  split
  · rename_i hmem
    constructor
    · exact .inl
    · rintro (hother | rfl)
      · exact hother
      · exact hmem
  · simp [set]

lemma register_of_ne {other : Text} (h : other ≠ service) :
    (g.registerServiceForHealth service).value other = g.value other := by
  unfold registerServiceForHealth
  split
  · rfl
  · simp [set, h, setAll_of_ne]

end HealthGauges

/-! ### From the monitors to the gauges -/

lemma Event.healthOf_of_ne {service other : Text} {e : Event} (h : e.healthService = some service)
    (hne : other ≠ service) :
    e.healthOf other = none := by
  cases e with
  | healthChanged name state detail =>
    obtain rfl : name = service := by simpa [Event.healthService] using h
    simp [Event.healthOf, hne.symm]
  | _ => rfl

lemma Event.healthService_of_healthOf {service : Text} {e : Event} {state : HealthState}
    (h : e.healthOf service = some state) : e.healthService = some service := by
  cases e with
  | healthChanged name state' detail =>
    obtain ⟨rfl, -⟩ := Option.ite_none_right_eq_some.1 h
    rfl
  | _ => cases h

namespace HealthGauges

lemma onEvent_of_none {g : HealthGauges} {service : Text} {e : Event} (h : e.healthOf service = none) :
    (g.onEvent e).value service = g.value service := by
  cases e with
  | healthChanged name state detail =>
    refine setHealthState_of_ne _ _ ?_
    rintro rfl
    simp [Event.healthOf] at h
  | _ => rfl

lemma shows_onEvent {g : HealthGauges} {service : Text} {e : Event} {state : HealthState}
    (h : e.healthOf service = some state) : (g.onEvent e).Shows service state := by
  cases e with
  | healthChanged name state' detail =>
    obtain ⟨rfl, hstate⟩ := Option.ite_none_right_eq_some.1 h
    rw [← Option.some.inj hstate]
    exact shows_setHealthState g name state'
  | _ => cases h

end HealthGauges

namespace HealthBoard

/-- The last state under way, or else the one on the gauges, is that of the monitor. -/
structure Follows (b : HealthBoard) (service : Text) (t : ProbeThread) : Prop where
  name : t.monitor.cfg.name = service
  own : ∀ e ∈ t.unpublished, e.healthService = some service
  shown : t.monitor.cfg.healthUrl ≠ [] →
    ∃ shown, b.gauges.Shows service shown ∧ (b.underWay service t).getLastD shown = t.monitor.state.toHealthState

structure Sound (b : HealthBoard) : Prop where
  isOpen : b.queue.closed = false
  policy : b.queue.policy = .dropOldest
  follows : ∀ service t, b.thread service = some t → b.Follows service t

variable {b : HealthBoard} {service : Text}

lemma getLastD_drop {α : Type} (l : List α) (x : α) {r : List α} (hr : r ≠ []) (d : α) :
    (l ++ x :: r).getLastD d = (l ++ r).getLastD d := by
  obtain ⟨y, r, rfl⟩ := List.exists_cons_of_ne_nil hr
  simp [List.getLastD_eq_getLast?, List.getLast?_append]

lemma getLastD_publishIfChanged {m m' : ServiceMonitor} (hname : m'.cfg.name = service) {states : List HealthState}
    {shown : HealthState} (h : states.getLastD shown = m.state.toHealthState) :
    (states ++ (m'.publishIfChanged m.state).filterMap (Event.healthOf service)).getLastD shown =
      m'.state.toHealthState := by
  unfold ServiceMonitor.publishIfChanged
  split
  · rename_i hsame
    rw [List.filterMap_nil, List.append_nil, h, hsame]
  · split
    · rename_i hsame
      rw [List.filterMap_nil, List.append_nil, h, hsame]
    · simp [Event.healthOf, hname]

lemma own_publishIfChanged {m : ServiceMonitor} (hname : m.cfg.name = service) (prev : ServiceState) :
    ∀ e ∈ m.publishIfChanged prev, e.healthService = some service := by
  unfold ServiceMonitor.publishIfChanged
  split
  · simp
  · split
    · simp
    · simp [Event.healthService, hname]

lemma Sound.apply (h : b.Sound) (service : Text) (now : Int) (r : ProbeResult) : (b.apply service now r).Sound := by
  unfold HealthBoard.apply
  split
  · rename_i m hthread
    split
    · exact h
    · rename_i hurl
      refine ⟨h.isOpen, h.policy, fun other t ht => ?_⟩
      by_cases hother : other = service
      · subst hother
        obtain ⟨hname, -, hshown⟩ := h.follows other _ hthread
        obtain ⟨shown, hshows, hlast⟩ := hshown hurl
        have hname' : (m.applyResult now r).cfg.name = other := by simpa using hname
        obtain rfl : _ = t := by simpa using ht
        refine ⟨hname', own_publishIfChanged hname' _, fun _ => ⟨shown, hshows, ?_⟩⟩
        rw [underWay, List.filterMap_append]
        apply getLastD_publishIfChanged hname'
        simpa [underWay] using hlast
      · dsimp only at ht
        rw [Function.update_of_ne hother] at ht
        exact ⟨(h.follows other t ht).name, (h.follows other t ht).own, (h.follows other t ht).shown⟩
  · exact h

lemma push_dropOldest {q : BoundedQueue Event} {r : BoundedQueue Event × Bool} {e : Event} (hopen : q.closed = false)
    (hpolicy : q.policy = .dropOldest) (h : q.push e = some r) :
    r.1.closed = false ∧ r.1.policy = .dropOldest ∧
      r.1.q = (if q.capacity ≤ q.q.length then q.q.tail else q.q) ++ [e] := by
  unfold BoundedQueue.push at h
  rw [if_neg (by simp [hopen]), hpolicy] at h
  split at h
  · rename_i hfull
    obtain rfl := Option.some.inj h
    exact ⟨hopen, rfl, by simp [BoundedQueue.accept, hfull]⟩
  · rename_i hroom
    obtain rfl := Option.some.inj h
    exact ⟨hopen, hpolicy, by simp [BoundedQueue.accept, hroom]⟩

/-- The states of a service are under way as before, but for one that a later one replaces. -/
lemma getLastD_publish {hand queue rest : List Event} {e : Event} {capacity : Nat} (service : Text)
    (shown : HealthState)
    (hspared : capacity ≤ queue.length → ∀ dropped ∈ queue.head?, ∀ name ∈ dropped.healthService,
      (queue.tail ++ [e]).filterMap (Event.healthOf name) ≠ []) :
    ((hand ++ ((if capacity ≤ queue.length then queue.tail else queue) ++ [e]) ++ rest).filterMap
        (Event.healthOf service)).getLastD shown =
      ((hand ++ queue ++ e :: rest).filterMap (Event.healthOf service)).getLastD shown := by
  split
  · rename_i hfull
    cases queue with
    | nil => simp
    | cons dropped queue =>
      have hbefore : hand ++ dropped :: queue ++ e :: rest = hand ++ dropped :: (queue ++ [e] ++ rest) := by simp
      have hafter : hand ++ (queue ++ [e]) ++ rest = hand ++ (queue ++ [e] ++ rest) := by simp
      have hsplit : ∀ l : List Event, (hand ++ l).filterMap (Event.healthOf service) =
          hand.filterMap (Event.healthOf service) ++ l.filterMap (Event.healthOf service) :=
        fun l => List.filterMap_append
      rw [List.tail_cons, hbefore, hafter, hsplit, hsplit, List.filterMap_cons]
      cases hd : dropped.healthOf service with
      | none => rfl
      | some state =>
        have hlater := hspared hfull dropped rfl service (Event.healthService_of_healthOf hd)
        refine (getLastD_drop _ state ?_ shown).symm
        rw [List.filterMap_append]
        exact List.append_ne_nil_of_left_ne_nil hlater _
  · simp

lemma Sound.publish (h : b.Sound) (service : Text) (hspared : b.Spared (.publish service)) :
    (b.publish service).Sound := by
  unfold HealthBoard.publish
  split
  · rename_i m e rest hthread
    split
    · rename_i queue accepted hpush
      obtain ⟨hopen, hpolicy, hq⟩ := push_dropOldest h.isOpen h.policy hpush
      have hlater := hspared _ hthread e rfl
      refine ⟨hopen, hpolicy, fun other t ht => ?_⟩
      dsimp only at ht hq
      by_cases hother : other = service
      · subst hother
        have hfollows := h.follows other _ hthread
        obtain rfl : _ = t := by simpa using ht
        refine ⟨hfollows.name, fun e' he' => hfollows.own e' (by simp [he']), fun hurl => ?_⟩
        obtain ⟨shown, hshows, hlast⟩ := hfollows.shown hurl
        refine ⟨shown, hshows, Eq.trans ?_ hlast⟩
        simp only [underWay, hq]
        exact getLastD_publish other shown hlater
      · rw [Function.update_of_ne hother] at ht
        have hfollows := h.follows other t ht
        have hown := (h.follows service _ hthread).own e (by simp)
        refine ⟨hfollows.name, hfollows.own, fun hurl => ?_⟩
        obtain ⟨shown, hshows, hlast⟩ := hfollows.shown hurl
        refine ⟨shown, hshows, Eq.trans ?_ hlast⟩
        simp only [underWay, hq]
        rw [getLastD_publish other shown hlater]
        simp [Event.healthOf_of_ne hown hother]
    · exact h
  · exact h

lemma Sound.take (h : b.Sound) : b.take.Sound := by
  unfold HealthBoard.take
  split
  · rename_i e queue hhand hpop
    obtain ⟨hq, hqueue⟩ := BoundedQueue.tryPop_eq_some hpop
    refine ⟨by rw [hqueue]; exact h.isOpen, by rw [hqueue]; exact h.policy, fun service t ht => ?_⟩
    obtain ⟨hname, hown, hshown⟩ := h.follows service t ht
    refine ⟨hname, hown, fun hurl => ?_⟩
    obtain ⟨shown, hshows, hlast⟩ := hshown hurl
    refine ⟨shown, hshows, Eq.trans ?_ hlast⟩
    simp [underWay, hhand, hq]
  · exact h

lemma Sound.handle (h : b.Sound) : b.handle.Sound := by
  unfold HealthBoard.handle
  split
  · rename_i e hhand
    refine ⟨h.isOpen, h.policy, fun service t ht => ?_⟩
    obtain ⟨hname, hown, hshown⟩ := h.follows service t ht
    refine ⟨hname, hown, fun hurl => ?_⟩
    obtain ⟨shown, hshows, hlast⟩ := hshown hurl
    have hrest : b.underWay service t =
        (e.healthOf service).toList ++ (b.queue.q ++ t.unpublished).filterMap (Event.healthOf service) := by
      cases hstate : e.healthOf service <;> simp [underWay, hhand, hstate]
    rw [hrest] at hlast
    cases hstate : e.healthOf service with
    | none =>
      rw [hstate] at hlast
      exact ⟨shown, hshows.of_value_eq (HealthGauges.onEvent_of_none hstate), hlast⟩
    | some state =>
      rw [hstate, Option.toList_some, List.singleton_append, List.getLastD_cons] at hlast
      exact ⟨state, HealthGauges.shows_onEvent hstate, hlast⟩
  · exact h

lemma Sound.step (h : b.Sound) {a : HealthAction} (hspared : b.Spared a) : (b.step a).Sound := by
  cases a with
  | apply service now r => exact h.apply service now r
  | publish service => exact h.publish service hspared
  | take => exact h.take
  | handle => exact h.handle

/-- Nothing has run yet. -/
structure Fresh (b : HealthBoard) : Prop where
  queue : b.queue = { capacity := 64, policy := .dropOldest }
  inHand : b.inHand = none
  thread : ∀ service t, b.thread service = some t →
    t.monitor.cfg.name = service ∧ t.unpublished = [] ∧ t.monitor.state.toHealthState = .unknown ∧
      (t.monitor.cfg.healthUrl ≠ [] → service ∈ b.gauges.healthServices)
  gauges : ∀ service ∈ b.gauges.healthServices, b.gauges.Shows service .unknown

lemma Fresh.register (h : b.Fresh) (svc : ServiceConfig) : (b.register svc).Fresh := by
  have hmem : ∀ service, service ∈ (b.register svc).gauges.healthServices ↔
      service ∈ b.gauges.healthServices ∨ svc.healthUrl ≠ [] ∧ service = svc.name := by
    intro service
    by_cases hurl : svc.healthUrl = []
    · simp [HealthBoard.register, hurl]
    · simp [HealthBoard.register, hurl, HealthGauges.mem_register]
  refine ⟨h.queue, h.inHand, fun service t ht => ?_, fun service hservice => ?_⟩
  · rw [hmem]
    by_cases hname : service = svc.name
    · subst hname
      obtain rfl : { monitor := .new svc } = t := by simpa [HealthBoard.register] using ht
      refine ⟨rfl, rfl, ?_, fun hurl => .inr ⟨hurl, rfl⟩⟩
      unfold ServiceMonitor.new
      dsimp only
      split <;> rfl
    · obtain ⟨hcfg, hnothing, hunknown, hregistered⟩ :=
        h.thread service t (by simpa [HealthBoard.register, hname] using ht)
      exact ⟨hcfg, hnothing, hunknown, fun hurl => .inl (hregistered hurl)⟩
  · rw [hmem] at hservice
    by_cases hurl : svc.healthUrl = []
    · have hold : service ∈ b.gauges.healthServices := by simpa [hurl] using hservice
      simpa [HealthBoard.register, hurl] using h.gauges service hold
    · simp only [HealthBoard.register, if_neg hurl]
      by_cases hold : svc.name ∈ b.gauges.healthServices
      · rw [HealthGauges.registerServiceForHealth, if_pos hold]
        rcases hservice with hservice | ⟨-, rfl⟩
        · exact h.gauges service hservice
        · exact h.gauges _ hold
      · by_cases hname : service = svc.name
        · rw [hname]
          exact HealthGauges.shows_register hold
        · have hservice : service ∈ b.gauges.healthServices := by simpa [hname] using hservice
          exact (h.gauges service hservice).of_value_eq (HealthGauges.register_of_ne hname)

lemma Fresh.sound (h : b.Fresh) : b.Sound := by
  refine ⟨by rw [h.queue], by rw [h.queue], fun service t ht => ?_⟩
  obtain ⟨hname, hnothing, hunknown, hregistered⟩ := h.thread service t ht
  refine ⟨hname, by simp [hnothing], fun hurl => ⟨.unknown, h.gauges service (hregistered hurl), ?_⟩⟩
  simp [underWay, h.queue, h.inHand, hnothing, hunknown]

lemma fresh_build (services : List ServiceConfig) : (build services).Fresh := by
  have hempty : Fresh {} := ⟨rfl, rfl, nofun, nofun⟩
  exact Runs.exec_invariant Fresh (fun _ svc h => h.register svc) hempty services

/-- Once no state of a service is under way, its gauges show the state of its monitor. -/
theorem gauges_follow_monitors {services : List ServiceConfig} {actions : List HealthAction}
    (h : Runs.Along step Spared (build services) actions) {service : Text} {t : ProbeThread}
    (ht : (Runs.exec step (build services) actions).thread service = some t) (hurl : t.monitor.cfg.healthUrl ≠ [])
    (hquiet : (Runs.exec step (build services) actions).underWay service t = []) :
    (Runs.exec step (build services) actions).gauges.Shows service t.monitor.state.toHealthState := by
  have hsound := h.invariant Sound (fun _ _ hs ha => hs.step ha) (fresh_build services).sound
  obtain ⟨shown, hshows, hlast⟩ := (hsound.follows service t ht).shown hurl
  rw [hquiet] at hlast
  rwa [← hlast]

/-- A service that fails twice, of two that are probed. -/
theorem gauges_of_second_failure :
    let stt : ServiceConfig := ⟨ascii "stt", ascii "http://stt/health", true, 2⟩
    let services : List ServiceConfig := [⟨ascii "llm", ascii "http://llm/health", true, 3⟩, stt]
    let actions : List HealthAction :=
      [.apply stt.name 1 { ok := false }, .apply (ascii "llm") 2 { ok := true }, .publish (ascii "llm"),
       .publish stt.name, .take, .apply stt.name 3 { ok := false }, .handle, .take, .publish stt.name, .handle, .take,
       .handle]
    (Runs.exec step (build services) actions).gauges.Shows stt.name .unhealthy := by
  intro stt services actions
  let t : ProbeThread :=
    { monitor :=
        { cfg := stt, state := .unhealthy, lastProbeAt := 3, consecutiveFailures := 2, totalProbes := 2,
          totalFailures := 2, probeSeq := 2 } }
  exact gauges_follow_monitors (t := t) (by decide +kernel)
    (by decide +kernel) (by decide) (by decide +kernel)

end HealthBoard

end Acva
