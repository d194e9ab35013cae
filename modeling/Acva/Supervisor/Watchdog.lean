import Acva.Config.Config
import Acva.Dialogue.Fsm
import Mathlib.Data.Int.Order.Basic

/-!
# The watchdog

`Watchdog` remembers when it last saw activity on the bus, in nanoseconds of the `steady_clock`. A periodic check
compares that with the clock, in the states of the dialogue that expect activity. The machine's state is only sampled
by the checks: neither the time of its transitions nor the reports of playback reach the watchdog.
-/

namespace Acva

open Config (SupervisorConfig)

/-- The threshold in the unit of the clock. -/
def Config.SupervisorConfig.threshold (cfg : SupervisorConfig) : Int :=
  cfg.stuckThresholdSeconds.toNat * 1000000000

/-- `firedState` is the latch, `restarts` the states passed to the restart closure. -/
structure Watchdog where
  lastActivity : Int
  firesTotal : Nat := 0
  firedState : Option State := none
  restarts : List State := []
  deriving DecidableEq, Repr

/-- `state_expects_activity`. -/
def State.expectsActivity : State → Bool
  | .idle | .listening | .userSpeaking | .completed => false
  | .transcribing | .thinking | .speaking | .interrupted => true

/-- The events that the watchdog takes for activity. -/
def Event.isActivity : Event → Bool
  | .llmToken _ _ | .ttsAudioChunk _ _ | .speechStarted _ | .finalTranscript _ => true
  | _ => false

namespace Watchdog

def noteActivity (d : Watchdog) (now : Int) : Watchdog := { d with lastActivity := now, firedState := none }

/-- The subscription `watchdog.activity`. -/
def onEvent (d : Watchdog) (now : Int) (e : Event) : Watchdog := if e.isActivity then d.noteActivity now else d

def runCheck (cfg : SupervisorConfig) (d : Watchdog) (state : State) (now : Int) : Watchdog :=
  if cfg.stuckThresholdSeconds = 0 then d
  else if state.expectsActivity = false then { d with firedState := none }
  else if now - d.lastActivity < cfg.threshold then d
  else if d.firedState = some state then d
  else
    { d with
      firedState := some state
      firesTotal := d.firesTotal + 1
      restarts := if cfg.autoRestartOnStuck then d.restarts ++ [state] else d.restarts }

/-- The check counts the dialogue as stuck. -/
structure Fires (cfg : SupervisorConfig) (d : Watchdog) (state : State) (now : Int) : Prop where
  enabled : cfg.stuckThresholdSeconds ≠ 0
  expects : state.expectsActivity = true
  inactive : d.lastActivity + cfg.threshold ≤ now
  unlatched : d.firedState ≠ some state

lemma fires_iff {cfg : SupervisorConfig} {d : Watchdog} {state : State} {now : Int} : d.Fires cfg state now ↔
    cfg.stuckThresholdSeconds ≠ 0 ∧ state.expectsActivity = true ∧ d.lastActivity + cfg.threshold ≤ now ∧
      d.firedState ≠ some state :=
  ⟨fun h => ⟨h.enabled, h.expects, h.inactive, h.unlatched⟩, fun h => ⟨h.1, h.2.1, h.2.2.1, h.2.2.2⟩⟩

instance (cfg : SupervisorConfig) (d : Watchdog) (state : State) (now : Int) : Decidable (d.Fires cfg state now) :=
  decidable_of_iff' _ fires_iff

variable {cfg : SupervisorConfig} {d : Watchdog} {state : State} {now : Int}

lemma runCheck_of_fires (h : d.Fires cfg state now) : (d.runCheck cfg state now).firesTotal = d.firesTotal + 1 ∧
    (d.runCheck cfg state now).firedState = some state ∧
      (d.runCheck cfg state now).lastActivity = d.lastActivity := by
  have hinactive := h.inactive
  have hlate : ¬now - d.lastActivity < cfg.threshold := by omega
  have hexpects : ¬state.expectsActivity = false := by simp [h.expects]
  unfold runCheck
  rw [if_neg h.enabled, if_neg hexpects, if_neg hlate, if_neg h.unlatched]
  exact ⟨rfl, rfl, rfl⟩

/-- A check that does not fire can only open the latch, and does so in the quiet states only. -/
lemma runCheck_of_not_fires (h : ¬d.Fires cfg state now) : (d.runCheck cfg state now).firesTotal = d.firesTotal ∧
    (state.expectsActivity = true → (d.runCheck cfg state now).firedState = d.firedState) ∧
      (d.runCheck cfg state now).lastActivity = d.lastActivity := by
  unfold runCheck
  by_cases henabled : cfg.stuckThresholdSeconds = 0
  · rw [if_pos henabled]
    exact ⟨rfl, fun _ => rfl, rfl⟩
  rw [if_neg henabled]
  by_cases hexpects : state.expectsActivity = false
  · rw [if_pos hexpects]
    exact ⟨rfl, fun hquiet => by simp [hexpects] at hquiet, rfl⟩
  rw [if_neg hexpects]
  by_cases hlate : now - d.lastActivity < cfg.threshold
  · rw [if_pos hlate]
    exact ⟨rfl, fun _ => rfl, rfl⟩
  rw [if_neg hlate]
  have hlatch : d.firedState = some state := by
    by_contra hopen
    exact h ⟨henabled, by simpa using hexpects, by omega, hopen⟩
  rw [if_pos hlatch]
  exact ⟨rfl, fun _ => rfl, rfl⟩

end Watchdog

/-! ### Timed runs -/

/-- What happened at a moment: the watchdog noted activity, the machine changed its state, the machine handled a
progress event without that, a check fired, or none of these. -/
inductive Cause
  | activity
  | transition
  | progress
  | fired
  | other
  deriving DecidableEq, Repr

def Cause.isProgress : Cause → Bool
  | .activity | .transition | .progress => true
  | .fired | .other => false

/-- A moment of a run with the machine's state after it. -/
structure Moment where
  time : Int
  cause : Cause
  state : State
  deriving DecidableEq, Repr

inductive WatchOp
  | bus (e : Event)
  | fsm (e : Event)
  | check
  deriving DecidableEq, Repr

/-- An operation, `delay` nanoseconds after the one before it. -/
structure WatchAction where
  delay : Nat
  op : WatchOp
  deriving DecidableEq, Repr

/-- The machine and the watchdog on one clock, each with its own subscription to the bus. The newest moment is the
first of `history`; `progressAt` is the time at which the machine last changed its state or handled a progress
event, which the code does not record. -/
structure WatchedDialogue where
  fsm : FsmWorld
  watchdog : Watchdog
  clock : Int
  progressAt : Int
  history : List Moment
  deriving DecidableEq, Repr

namespace WatchedDialogue

/-- The machine is started and the watchdog built. -/
def start (now : Int) : WatchedDialogue where
  fsm := FsmWorld.start {} now
  watchdog := { lastActivity := now }
  clock := now
  progressAt := now
  history := [⟨now, .transition, .listening⟩]

/-- How the machine's answer to an event counts. -/
def causeOf (fsm fsm' : FsmWorld) (e : Event) : Cause :=
  if fsm'.fsm.state ≠ fsm.fsm.state then .transition
  else if e.isActivity ∨ e.isPlaybackOf fsm.fsm.active.id then .progress
  else .other

def step (cfg : SupervisorConfig) (w : WatchedDialogue) (a : WatchAction) : WatchedDialogue :=
  let now := w.clock + a.delay
  match a.op with
  | .bus e =>
    { w with
      watchdog := w.watchdog.onEvent now e
      clock := now
      history := ⟨now, if e.isActivity then .activity else .other, w.fsm.fsm.state⟩ :: w.history }
  | .fsm e =>
    let fsm := w.fsm.onEvent now e
    let cause := causeOf w.fsm fsm e
    { w with
      fsm := fsm
      clock := now
      progressAt := if cause.isProgress then now else w.progressAt
      history := ⟨now, cause, fsm.fsm.state⟩ :: w.history }
  | .check =>
    let watchdog := w.watchdog.runCheck cfg w.fsm.fsm.state now
    let cause := if w.watchdog.firesTotal < watchdog.firesTotal then .fired else .other
    { w with
      watchdog := watchdog
      clock := now
      history := ⟨now, cause, w.fsm.fsm.state⟩ :: w.history }

end WatchedDialogue

/-- From time `since` on, the machine was in states that expect activity and nothing made progress. -/
def StuckSince (since : Int) (history : List Moment) : Prop :=
  (∃ m, history.find? (fun m => decide (m.time ≤ since)) = some m ∧ m.state.expectsActivity = true) ∧
    ∀ m ∈ history, since ≤ m.time → m.state.expectsActivity = true ∧ m.cause.isProgress = false

/-- Every check that fired found the dialogue stuck for the whole of the threshold before it. -/
def Genuine (threshold : Int) (history : List Moment) : Prop :=
  ∀ m before, m :: before <:+ history → m.cause = .fired → StuckSince (m.time - threshold) before

/-- Between two checks that fired there was new activity or a change of state. -/
def Separated (history : List Moment) : Prop :=
  ∀ later between earlier before, later :: (between ++ earlier :: before) <:+ history → later.cause = .fired →
    earlier.cause = .fired → ∃ m ∈ between, m.cause = .activity ∨ m.cause = .transition

/-- A check that is about to fire finds the threshold exceeded since the last activity noted and since the machine's
last progress. -/
def WatchedDialogue.Overdue (cfg : SupervisorConfig) (w : WatchedDialogue) (a : WatchAction) : Prop :=
  a.op = .check → w.watchdog.Fires cfg w.fsm.fsm.state (w.clock + a.delay) →
    w.watchdog.lastActivity + cfg.threshold < w.clock + a.delay ∧ w.progressAt + cfg.threshold < w.clock + a.delay

instance (cfg : SupervisorConfig) (w : WatchedDialogue) (a : WatchAction) : Decidable (w.Overdue cfg a) :=
  inferInstanceAs (Decidable (_ → _ → _ ∧ _))

/-! ### The history -/

/-- Since the last transition the machine has been in state `s`. -/
def SteadyIn (s : State) : List Moment → Prop
  | [] => True
  | m :: before => m.state = s ∧ (m.cause ≠ .transition → SteadyIn s before)

/-- A check fired and neither activity nor a transition followed. -/
def Pending : List Moment → Prop
  | [] => False
  | m :: before => m.cause = .fired ∨ m.cause ≠ .activity ∧ m.cause ≠ .transition ∧ Pending before

lemma SteadyIn.state_eq {s : State} {m : Moment} {after before : List Moment}
    (h : SteadyIn s (after ++ m :: before)) (hafter : ∀ x ∈ after, x.cause ≠ .transition) : m.state = s := by
  induction after with
  | nil => exact h.1
  | cons x after ih =>
    apply ih (h.2 (hafter x (by simp)))
    intro y hy
    exact hafter y (by simp [hy])

lemma exists_of_not_pending {m : Moment} {after before : List Moment} (h : ¬Pending (after ++ m :: before))
    (hm : m.cause = .fired) : ∃ x ∈ after, x.cause = .activity ∨ x.cause = .transition := by
  induction after with
  | nil => exact absurd (Or.inl hm) h
  | cons x after ih =>
    by_cases hx : x.cause = .activity ∨ x.cause = .transition
    · exact ⟨x, by simp, hx⟩
    · rw [not_or] at hx
      have hlater : ¬Pending (after ++ m :: before) := fun hp => h (Or.inr ⟨hx.1, hx.2, hp⟩)
      obtain ⟨y, hy, hcause⟩ := ih hlater
      exact ⟨y, by simp [hy], hcause⟩

lemma genuine_cons (threshold : Int) (m : Moment) (before : List Moment) : Genuine threshold (m :: before) ↔
    Genuine threshold before ∧ (m.cause = .fired → StuckSince (m.time - threshold) before) := by
  constructor
  · intro h
    exact ⟨fun x older hx => h x older (hx.trans (List.suffix_cons m before)), h m before List.suffix_rfl⟩
  · rintro ⟨hbefore, hm⟩ x older hx
    rcases List.suffix_cons_iff.mp hx with heq | hsuffix
    · rw [List.cons.injEq] at heq
      rw [heq.1, heq.2]
      exact hm
    · exact hbefore x older hsuffix

lemma Separated.cons {m : Moment} {before : List Moment} (h : Separated before)
    (hm : m.cause = .fired → ¬Pending before) : Separated (m :: before) := by
  intro later between earlier older hsuffix hlater hearlier
  rcases List.suffix_cons_iff.mp hsuffix with heq | htail
  · rw [List.cons.injEq] at heq
    have hpending := hm (heq.1 ▸ hlater)
    rw [← heq.2] at hpending
    exact exists_of_not_pending hpending hearlier
  · exact h later between earlier older htail hlater hearlier

/-! ### What the history says of the clocks -/

namespace WatchedDialogue

/-- The history is in the order of time, the two clocks lie at its last progress, and the latch is closed while a
check that fired is the latest sign of life. -/
structure Recorded (w : WatchedDialogue) : Prop where
  sorted : w.history.Pairwise fun later earlier => earlier.time ≤ later.time
  past : ∀ m ∈ w.history, m.time ≤ w.clock
  steady : SteadyIn w.fsm.fsm.state w.history
  noted : ∀ m ∈ w.history, m.cause = .activity → m.time ≤ w.watchdog.lastActivity
  activity : ∃ m ∈ w.history, m.cause.isProgress = true ∧ m.time = w.watchdog.lastActivity
  moved : ∀ m ∈ w.history, m.cause = .transition ∨ m.cause = .progress → m.time ≤ w.progressAt
  progress : ∃ m ∈ w.history, m.cause.isProgress = true ∧ m.time = w.progressAt
  latched : Pending w.history →
    w.fsm.fsm.state.expectsActivity = true ∧ w.watchdog.firedState = some w.fsm.fsm.state
  separated : Separated w.history

lemma recorded_start (now : Int) : (start now).Recorded := by
  have honly : ∀ m ∈ (start now).history, m = ⟨now, .transition, .listening⟩ := by simp [start]
  refine ⟨by simp [start], ?_, ⟨rfl, fun hne => absurd rfl hne⟩, ?_, ?_, ?_, ?_, ?_, ?_⟩
  · intro m hm
    rw [honly m hm]
    exact le_rfl
  · intro m hm hcause
    rw [honly m hm] at hcause
    cases hcause
  · exact ⟨_, List.mem_cons_self, rfl, rfl⟩
  · intro m hm _
    rw [honly m hm]
    exact le_rfl
  · exact ⟨_, List.mem_cons_self, rfl, rfl⟩
  · intro hpending
    simp [start, Pending] at hpending
  · apply Separated.cons
    · intro later between earlier older hsuffix
      simp at hsuffix
    · intro hfired
      cases hfired

/-- The new moment of a step, whatever it is: it comes last, and each clock is set to it if it is a progress of the
kind that the clock follows. -/
lemma Recorded.extend {w w' : WatchedDialogue} {m : Moment} (h : w.Recorded) (hhistory : w'.history = m :: w.history)
    (htime : m.time = w'.clock) (hclock : w.clock ≤ w'.clock) (hstate : m.state = w'.fsm.fsm.state)
    (hsteady : m.cause ≠ .transition → w'.fsm.fsm.state = w.fsm.fsm.state)
    (hactivity : w'.watchdog.lastActivity = if m.cause = .activity then m.time else w.watchdog.lastActivity)
    (hprogress : w'.progressAt = if m.cause = .transition ∨ m.cause = .progress then m.time else w.progressAt)
    (hlatched : Pending (m :: w.history) →
      w'.fsm.fsm.state.expectsActivity = true ∧ w'.watchdog.firedState = some w'.fsm.fsm.state)
    (hseparated : m.cause = .fired → ¬Pending w.history) : w'.Recorded := by
  have hpast : ∀ x ∈ w.history, x.time ≤ m.time := by
    intro x hx
    have hxclock := h.past x hx
    omega
  have hlast : ∃ x ∈ w'.history, x.cause.isProgress = true ∧ x.time = w'.watchdog.lastActivity := by
    rw [hactivity, hhistory]
    by_cases hm : m.cause = .activity
    · exact ⟨m, by simp, by simp [hm, Cause.isProgress], by rw [if_pos hm]⟩
    · obtain ⟨x, hx, hcause, hxtime⟩ := h.activity
      exact ⟨x, by simp [hx], hcause, by rw [if_neg hm, hxtime]⟩
  have hmoved : ∃ x ∈ w'.history, x.cause.isProgress = true ∧ x.time = w'.progressAt := by
    rw [hprogress, hhistory]
    by_cases hm : m.cause = .transition ∨ m.cause = .progress
    · refine ⟨m, by simp, ?_, by rw [if_pos hm]⟩
      rcases hm with hm | hm <;> simp [hm, Cause.isProgress]
    · obtain ⟨x, hx, hcause, hxtime⟩ := h.progress
      exact ⟨x, by simp [hx], hcause, by rw [if_neg hm, hxtime]⟩
  refine ⟨?_, ?_, ?_, ?_, hlast, ?_, hmoved, ?_, ?_⟩
  · rw [hhistory]
    exact List.Pairwise.cons hpast h.sorted
  · rw [hhistory]
    intro x hx
    rcases List.mem_cons.mp hx with rfl | hx
    · exact htime.le
    · exact (h.past x hx).trans hclock
  · rw [hhistory]
    refine ⟨hstate, fun hne => ?_⟩
    rw [hsteady hne]
    exact h.steady
  · rw [hhistory, hactivity]
    intro x hx hcause
    rcases List.mem_cons.mp hx with rfl | hx
    · rw [if_pos hcause]
    · split
      · exact hpast x hx
      · exact h.noted x hx hcause
  · rw [hhistory, hprogress]
    intro x hx hcause
    rcases List.mem_cons.mp hx with rfl | hx
    · rw [if_pos hcause]
    · split
      · exact hpast x hx
      · exact h.moved x hx hcause
  · rw [hhistory]
    exact hlatched
  · rw [hhistory]
    exact h.separated.cons hseparated

lemma Recorded.bus {w : WatchedDialogue} (h : w.Recorded) (cfg : SupervisorConfig) (delay : Nat) (e : Event) :
    (w.step cfg ⟨delay, .bus e⟩).Recorded := by
  unfold step
  by_cases he : e.isActivity = true
  · simp only [he, if_true]
    refine h.extend rfl rfl ?_ rfl (fun _ => rfl) ?_ ?_ ?_ ?_
    · change w.clock ≤ w.clock + delay
      omega
    · simp [Watchdog.onEvent, Watchdog.noteActivity, he]
    · simp
    · simp [Pending]
    · simp
  · simp only [he]
    refine h.extend rfl rfl ?_ rfl (fun _ => rfl) ?_ ?_ ?_ ?_
    · change w.clock ≤ w.clock + delay
      omega
    · simp [Watchdog.onEvent, he]
    · simp
    · simpa [Pending, Watchdog.onEvent, he] using h.latched
    · simp

lemma causeOf_eq_transition {fsm fsm' : FsmWorld} {e : Event} :
    causeOf fsm fsm' e = .transition ↔ fsm'.fsm.state ≠ fsm.fsm.state := by
  unfold causeOf
  by_cases hstate : fsm'.fsm.state = fsm.fsm.state
  · rw [if_neg (by simp [hstate])]
    split <;> simp [hstate]
  · simp [hstate]

/-- What the machine does is never activity to the watchdog, and no check. -/
lemma causeOf_ne (fsm fsm' : FsmWorld) (e : Event) :
    causeOf fsm fsm' e ≠ .activity ∧ causeOf fsm fsm' e ≠ .fired := by
  unfold causeOf
  split
  · simp
  · split <;> simp

lemma causeOf_isProgress (fsm fsm' : FsmWorld) (e : Event) : (causeOf fsm fsm' e).isProgress = true ↔
    causeOf fsm fsm' e = .transition ∨ causeOf fsm fsm' e = .progress := by
  have hne := causeOf_ne fsm fsm' e
  cases hcause : causeOf fsm fsm' e with
  | activity => exact absurd hcause hne.1
  | fired => exact absurd hcause hne.2
  | transition => simp [Cause.isProgress]
  | progress => simp [Cause.isProgress]
  | other => simp [Cause.isProgress]

lemma Recorded.fsm {w : WatchedDialogue} (h : w.Recorded) (cfg : SupervisorConfig) (delay : Nat) (e : Event) :
    (w.step cfg ⟨delay, .fsm e⟩).Recorded := by
  have hne := causeOf_ne w.fsm (w.fsm.onEvent (w.clock + delay) e) e
  have hsame : causeOf w.fsm (w.fsm.onEvent (w.clock + delay) e) e ≠ .transition →
      (w.fsm.onEvent (w.clock + delay) e).fsm.state = w.fsm.fsm.state := by
    intro hcause
    by_contra hstate
    exact hcause (causeOf_eq_transition.mpr hstate)
  unfold step
  refine h.extend rfl rfl ?_ rfl hsame ?_ ?_ ?_ ?_
  · change w.clock ≤ w.clock + delay
    omega
  · rw [if_neg hne.1]
  · simp only [causeOf_isProgress]
  · rintro (hfired | ⟨-, hcause, hpending⟩)
    · exact absurd hfired hne.2
    · rw [hsame hcause]
      exact h.latched hpending
  · intro hfired
    exact absurd hfired hne.2

lemma Recorded.check {w : WatchedDialogue} (h : w.Recorded) (cfg : SupervisorConfig) (delay : Nat) :
    (w.step cfg ⟨delay, .check⟩).Recorded := by
  have hclock : w.clock ≤ w.clock + delay := by omega
  unfold step
  by_cases hfires : w.watchdog.Fires cfg w.fsm.fsm.state (w.clock + delay)
  · obtain ⟨htotal, hlatch, hactivity⟩ := Watchdog.runCheck_of_fires hfires
    simp only [htotal, Nat.lt_succ_self, if_true]
    refine h.extend rfl rfl hclock rfl (fun _ => rfl) ?_ ?_ ?_ ?_
    · simpa using hactivity
    · simp
    · intro _
      exact ⟨hfires.expects, hlatch⟩
    · intro _ hpending
      exact hfires.unlatched (h.latched hpending).2
  · obtain ⟨htotal, hlatch, hactivity⟩ := Watchdog.runCheck_of_not_fires hfires
    simp only [htotal, Nat.lt_irrefl, if_false]
    refine h.extend rfl rfl hclock rfl (fun _ => rfl) ?_ ?_ ?_ ?_
    · simpa using hactivity
    · simp
    · rintro (hfired | ⟨-, -, hpending⟩)
      · cases hfired
      · obtain ⟨hexpects, hclosed⟩ := h.latched hpending
        exact ⟨hexpects, (hlatch hexpects).trans hclosed⟩
    · simp

lemma Recorded.step (cfg : SupervisorConfig) (w : WatchedDialogue) (a : WatchAction) (h : w.Recorded) :
    (w.step cfg a).Recorded := by
  obtain ⟨delay, op⟩ := a
  cases op with
  | bus e => exact h.bus cfg delay e
  | fsm e => exact h.fsm cfg delay e
  | check => exact h.check cfg delay

/-! ### Checks that fire -/

lemma Recorded.state_eq {w : WatchedDialogue} (h : w.Recorded) {m : Moment} {after before : List Moment}
    (hsplit : w.history = after ++ m :: before) (hafter : ∀ x ∈ after, w.progressAt < x.time) :
    m.state = w.fsm.fsm.state := by
  have hsteady := h.steady
  rw [hsplit] at hsteady
  apply hsteady.state_eq
  intro x hx hcause
  have hle := h.moved x (by simp [hsplit, hx]) (.inl hcause)
  have hlt := hafter x hx
  omega

lemma Recorded.quiet {w : WatchedDialogue} (h : w.Recorded) {since : Int}
    (hactivity : w.watchdog.lastActivity < since) (hprogress : w.progressAt < since) {m : Moment}
    (hm : m ∈ w.history) (hlate : since ≤ m.time) : m.cause.isProgress = false := by
  cases hcause : m.cause with
  | activity =>
    have hle := h.noted m hm hcause
    omega
  | transition =>
    have hle := h.moved m hm (.inl hcause)
    omega
  | progress =>
    have hle := h.moved m hm (.inr hcause)
    omega
  | fired => rfl
  | other => rfl

lemma Recorded.state_at {w : WatchedDialogue} (h : w.Recorded) {since : Int}
    (hactivity : w.watchdog.lastActivity < since) (hprogress : w.progressAt < since) :
    ∃ m, w.history.find? (fun m => decide (m.time ≤ since)) = some m ∧ m.state = w.fsm.fsm.state := by
  obtain ⟨x, hx, -, hxtime⟩ := h.activity
  have hsome : (w.history.find? fun m => decide (m.time ≤ since)).isSome := by
    rw [List.find?_isSome]
    exact ⟨x, hx, by simp; omega⟩
  obtain ⟨m, hm⟩ := Option.isSome_iff_exists.mp hsome
  obtain ⟨-, after, before, hsplit, hafter⟩ := List.find?_eq_some_iff_append.mp hm
  refine ⟨m, hm, ?_⟩
  apply h.state_eq hsplit
  intro y hy
  have hlate := hafter y hy
  simp at hlate
  omega

lemma Recorded.state_since {w : WatchedDialogue} (h : w.Recorded) {since : Int} (hprogress : w.progressAt < since)
    {m : Moment} (hm : m ∈ w.history) (hlate : since ≤ m.time) : m.state = w.fsm.fsm.state := by
  obtain ⟨after, before, hsplit⟩ := List.append_of_mem hm
  have hsorted := h.sorted
  rw [hsplit, List.pairwise_append] at hsorted
  apply h.state_eq hsplit
  intro y hy
  have hle := hsorted.2.2 y hy m (by simp)
  omega

/-- In a state that expects activity, the dialogue has been stuck since a time that both clocks lie before, and since
no other. -/
lemma Recorded.stuckSince_iff {w : WatchedDialogue} (h : w.Recorded) (since : Int)
    (hexpects : w.fsm.fsm.state.expectsActivity = true) :
    StuckSince since w.history ↔ w.watchdog.lastActivity < since ∧ w.progressAt < since := by
  constructor
  · rintro ⟨-, hquiet⟩
    obtain ⟨m, hm, hmcause, hmtime⟩ := h.activity
    obtain ⟨x, hx, hxcause, hxtime⟩ := h.progress
    constructor
    · by_contra hlate
      have hnone := (hquiet m hm (by omega)).2
      simp [hmcause] at hnone
    · by_contra hlate
      have hnone := (hquiet x hx (by omega)).2
      simp [hxcause] at hnone
  · rintro ⟨hactivity, hprogress⟩
    constructor
    · obtain ⟨m, hm, hstate⟩ := h.state_at hactivity hprogress
      exact ⟨m, hm, by rw [hstate, hexpects]⟩
    · intro m hm hlate
      have hstate := h.state_since hprogress hm hlate
      exact ⟨by rw [hstate, hexpects], h.quiet hactivity hprogress hm hlate⟩

lemma Recorded.genuine_step_iff (cfg : SupervisorConfig) (w : WatchedDialogue) (a : WatchAction) (h : w.Recorded) :
    Genuine cfg.threshold (w.step cfg a).history ↔ Genuine cfg.threshold w.history ∧ w.Overdue cfg a := by
  obtain ⟨delay, op⟩ := a
  cases op with
  | bus e =>
    unfold WatchedDialogue.step Overdue
    rw [genuine_cons]
    by_cases he : e.isActivity = true <;> simp [he]
  | fsm e =>
    unfold WatchedDialogue.step Overdue
    rw [genuine_cons]
    simp [(causeOf_ne w.fsm (w.fsm.onEvent (w.clock + delay) e) e).2]
  | check =>
    unfold WatchedDialogue.step Overdue
    rw [genuine_cons]
    by_cases hfires : w.watchdog.Fires cfg w.fsm.fsm.state (w.clock + delay)
    · obtain ⟨htotal, -, -⟩ := Watchdog.runCheck_of_fires hfires
      simp only [htotal, Nat.lt_succ_self, if_true, forall_const, hfires]
      rw [h.stuckSince_iff _ hfires.expects]
      apply and_congr_right
      intro _
      omega
    · obtain ⟨htotal, -, -⟩ := Watchdog.runCheck_of_not_fires hfires
      simp [htotal, hfires]

/-- In a timed run, the checks that fire find a dialogue that has been stuck for the whole of the threshold exactly
if each of them comes more than the threshold after the last activity that the watchdog noted and after the last
progress of the machine. Between two of them there is always new activity or a change of state. -/
theorem fires_genuine_iff (cfg : SupervisorConfig) (now : Int) (run : List WatchAction) :
    (Genuine cfg.threshold (Runs.exec (step cfg) (start now) run).history ∧
        Separated (Runs.exec (step cfg) (start now) run).history) ↔
      Runs.Along (step cfg) (Overdue cfg) (start now) run := by
  have hrecorded : (Runs.exec (step cfg) (start now) run).Recorded :=
    Runs.exec_invariant Recorded (fun w a h => h.step cfg w a) (recorded_start now) run
  have hgenuine := Runs.exec_iff_along (I := Recorded) (Q := fun w => Genuine cfg.threshold w.history)
    (fun w a h => h.step cfg w a) (fun w a h => h.genuine_step_iff cfg w a) (recorded_start now) run
  have hstart : Genuine cfg.threshold (start now).history := by
    unfold start
    rw [genuine_cons]
    refine ⟨?_, fun hfired => by cases hfired⟩
    intro m before hsuffix
    simp at hsuffix
  constructor
  · intro h
    exact (hgenuine.mp h.1).2
  · intro h
    exact ⟨hgenuine.mpr ⟨hstart, h⟩, hrecorded.separated⟩

/-- The user speaks for longer than the threshold; the check right after the end of the speech fires. -/
def monologue : List WatchAction :=
  [⟨0, .bus (.speechStarted {})⟩, ⟨0, .fsm (.speechStarted {})⟩, ⟨91000000000, .fsm (.speechEnded {})⟩,
    ⟨1000000, .check⟩]

theorem monologue_fires_early :
    ¬(Genuine (SupervisorConfig.threshold {}) (Runs.exec (step {}) (start 0) monologue).history ∧
      Separated (Runs.exec (step {}) (start 0) monologue).history) := by
  rintro ⟨hgenuine, -⟩
  have hfired := hgenuine ⟨91001000000, .fired, .transcribing⟩ _ ⟨[], rfl⟩ rfl
  have hquiet := hfired.2 ⟨91000000000, .transition, .transcribing⟩ (by decide) (by decide)
  exact absurd hquiet.2 (by decide)

end WatchedDialogue

end Acva
