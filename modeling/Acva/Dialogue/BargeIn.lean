import Acva.Dialogue.Fsm

/-!
# Barge-in detection

`BargeInDetector::on_speech_started`: a `SpeechStarted` while the machine is speaking becomes a
`UserInterrupted`, at most once a turn, unless it comes too early or echo cancellation has not
converged. What the audio processing module measures is an input.
-/

namespace Acva

structure BargeInConfig where
  enabled : Bool := true
  requireAecConverged : Bool := true
  coolDownAfterTurnMs : UInt32 := 300
  deriving DecidableEq, Repr

/-- What the detector learns about echo cancellation: `erleMeets` compares the reported ERLE, a
float that may be NaN, with `min_aec_erle_db`. -/
structure AecReading where
  systemAecActive : Bool := true
  aecActive : Bool := false
  erleMeets : Bool := false
  deriving DecidableEq, Repr

structure BargeInDetector where
  firesTotal : Nat := 0
  suppressedTotal : Nat := 0
  suppressedCooldown : Nat := 0
  suppressedAec : Nat := 0
  lastFiredAt : Time := 0
  lastFiredTurn : TurnId := kNoTurn
  deriving DecidableEq, Repr

namespace BargeInDetector

def aecOk (cfg : BargeInConfig) (aec : AecReading) : Bool :=
  !cfg.requireAecConverged || aec.systemAecActive || (aec.aecActive && aec.erleMeets)

/-- Whole milliseconds from `since` to `now`. -/
def millisecondsSince (since now : Time) : Int := (now - since).tdiv 1000000

def onSpeechStarted (cfg : BargeInConfig) (d : BargeInDetector) (fsm : Fsm) (now : Time) (aec : AecReading) :
    BargeInDetector × List Event :=
  if ¬cfg.enabled then (d, [])
  else if fsm.state ≠ .speaking then (d, [])
  else if fsm.active.id = kNoTurn then (d, [])
  else if d.lastFiredTurn = fsm.active.id then (d, [])
  else if millisecondsSince fsm.enteredSpeakingAt now < cfg.coolDownAfterTurnMs.toNat then
    ({ d with suppressedCooldown := d.suppressedCooldown + 1, suppressedTotal := d.suppressedTotal + 1 }, [])
  else if ¬aecOk cfg aec then
    ({ d with suppressedAec := d.suppressedAec + 1, suppressedTotal := d.suppressedTotal + 1 }, [])
  else
    ({ d with lastFiredTurn := fsm.active.id, lastFiredAt := now, firesTotal := d.firesTotal + 1 },
      [.userInterrupted { turn := fsm.active.id, ts := now }])

end BargeInDetector

/-- A `SpeechStarted` as the detector handles it: the snapshot of the machine, then the clock, and what is asked of
the audio processing module. The machine cannot have entered `Speaking` after the clock was read. -/
structure BargeInCheck where
  fsm : Fsm
  now : Time
  aec : AecReading
  ordered : fsm.enteredSpeakingAt ≤ now

namespace BargeInCheck

def turn (x : BargeInCheck) : TurnId := x.fsm.active.id

/-- A turn is being spoken, for the cool-down at least, and echo cancellation is trusted. -/
structure MayFire (cfg : BargeInConfig) (x : BargeInCheck) : Prop where
  speaking : x.fsm.state = .speaking
  turn : x.turn ≠ kNoTurn
  cooled : (cfg.coolDownAfterTurnMs.toNat : Int) * 1000000 ≤ x.now - x.fsm.enteredSpeakingAt
  aec : cfg.requireAecConverged = true →
    x.aec.systemAecActive = true ∨ (x.aec.aecActive = true ∧ x.aec.erleMeets = true)

lemma le_of_millisecondsSince {x : BargeInCheck} {ms : Nat}
    (h : ¬ BargeInDetector.millisecondsSince x.fsm.enteredSpeakingAt x.now < ms) :
    (ms : Int) * 1000000 ≤ x.now - x.fsm.enteredSpeakingAt := by
  have hpast : 0 ≤ x.now - x.fsm.enteredSpeakingAt := Int.sub_nonneg.mpr x.ordered
  unfold BargeInDetector.millisecondsSince at h
  rw [Int.tdiv_eq_ediv_of_nonneg hpast] at h
  omega

end BargeInCheck

namespace BargeInDetector

/-- Either nothing is published, the latch stays and a suppression is counted for its cause, or everything allows the
barge-in, the latch was at another turn and is set to this one. -/
lemma onSpeechStarted_cases (cfg : BargeInConfig) (d : BargeInDetector) (x : BargeInCheck) :
    ((d.onSpeechStarted cfg x.fsm x.now x.aec).2 = [] ∧
      (d.onSpeechStarted cfg x.fsm x.now x.aec).1.lastFiredTurn = d.lastFiredTurn ∧
      ∃ cooldown aec, (d.onSpeechStarted cfg x.fsm x.now x.aec).1.suppressedCooldown = d.suppressedCooldown + cooldown ∧
        (d.onSpeechStarted cfg x.fsm x.now x.aec).1.suppressedAec = d.suppressedAec + aec ∧
        (d.onSpeechStarted cfg x.fsm x.now x.aec).1.suppressedTotal = d.suppressedTotal + cooldown + aec) ∨
    (x.MayFire cfg ∧ d.lastFiredTurn ≠ x.turn ∧
      d.onSpeechStarted cfg x.fsm x.now x.aec =
        ({ d with lastFiredTurn := x.turn, lastFiredAt := x.now, firesTotal := d.firesTotal + 1 },
          [.userInterrupted { turn := x.turn, ts := x.now }])) := by
  unfold onSpeechStarted
  split
  · exact .inl ⟨rfl, rfl, 0, 0, rfl, rfl, rfl⟩
  split
  · exact .inl ⟨rfl, rfl, 0, 0, rfl, rfl, rfl⟩
  rename_i hstate
  split
  · exact .inl ⟨rfl, rfl, 0, 0, rfl, rfl, rfl⟩
  rename_i hturn
  split
  · exact .inl ⟨rfl, rfl, 0, 0, rfl, rfl, rfl⟩
  rename_i hlatch
  split
  · exact .inl ⟨rfl, rfl, 1, 0, rfl, rfl, rfl⟩
  rename_i hcooled
  split
  · exact .inl ⟨rfl, rfl, 0, 1, rfl, rfl, rfl⟩
  rename_i haec
  right
  refine ⟨⟨not_not.mp hstate, hturn, BargeInCheck.le_of_millisecondsSince hcooled, ?_⟩, hlatch, rfl⟩
  intro hrequired
  simp only [aecOk, hrequired, Bool.not_true, Bool.false_or, Bool.or_eq_true, Bool.and_eq_true, not_not] at haec
  exact haec

end BargeInDetector

/-- The detector over a sequence of events, with what it has published so far and in which check. -/
structure BargeInRun where
  detector : BargeInDetector := {}
  fired : List (BargeInCheck × Event) := []

namespace BargeInRun

def step (cfg : BargeInConfig) (w : BargeInRun) (x : BargeInCheck) : BargeInRun :=
  let r := w.detector.onSpeechStarted cfg x.fsm x.now x.aec
  { detector := r.1, fired := w.fired ++ r.2.map fun e => (x, e) }

/-- The turns named by the barge-ins, in the order of their publication. -/
def turns (w : BargeInRun) : List TurnId :=
  w.fired.filterMap fun f =>
    match f.2 with
    | .userInterrupted e => some e.turn
    | _ => none

/-- The latch holds the last turn that was cut off, which is the latest of them. -/
structure Inv (cfg : BargeInConfig) (w : BargeInRun) : Prop where
  increasing : w.turns.Pairwise (· < ·)
  latched : ∀ t ∈ w.turns, t ≤ w.detector.lastFiredTurn
  allowed : ∀ f ∈ w.fired, f.2 = .userInterrupted { turn := f.1.turn, ts := f.1.now } ∧ f.1.MayFire cfg
  counted : w.detector.suppressedTotal = w.detector.suppressedCooldown + w.detector.suppressedAec

lemma Inv.step {cfg : BargeInConfig} {w : BargeInRun} {x : BargeInCheck} (h : w.Inv cfg)
    (hturn : w.detector.lastFiredTurn ≤ x.turn) :
    (w.step cfg x).Inv cfg ∧ (w.step cfg x).detector.lastFiredTurn ≤ x.turn := by
  have hcounted := h.counted
  rcases w.detector.onSpeechStarted_cases cfg x with ⟨hnone, hlatch, c, a, hc, ha, ht⟩ | ⟨hmay, hlatch, hfires⟩
  · have hfired : (w.step cfg x).fired = w.fired := by simp [BargeInRun.step, hnone]
    have hturns : (w.step cfg x).turns = w.turns := by rw [turns, turns, hfired]
    have hlast : (w.step cfg x).detector.lastFiredTurn = w.detector.lastFiredTurn := hlatch
    refine ⟨⟨?_, ?_, ?_, ?_⟩, ?_⟩
    · rw [hturns]
      exact h.increasing
    · rw [hturns, hlast]
      exact h.latched
    · rw [hfired]
      exact h.allowed
    · show (w.detector.onSpeechStarted cfg x.fsm x.now x.aec).1.suppressedTotal = _ + _
      rw [ht]
      unfold BargeInRun.step
      rw [hc, ha]
      omega
    · rw [hlast]
      exact hturn
  · have hfired : (w.step cfg x).fired = w.fired ++ [(x, .userInterrupted { turn := x.turn, ts := x.now })] := by
      simp [BargeInRun.step, hfires]
    have hturns : (w.step cfg x).turns = w.turns ++ [x.turn] := by simp [turns, hfired]
    have hlast : (w.step cfg x).detector.lastFiredTurn = x.turn := by simp [BargeInRun.step, hfires]
    have hlt : ∀ t ∈ w.turns, t < x.turn := fun t ht => (h.latched t ht).trans_lt (lt_of_le_of_ne hturn hlatch)
    refine ⟨⟨?_, ?_, ?_, ?_⟩, ?_⟩
    · rw [hturns, List.pairwise_append]
      exact ⟨h.increasing, List.pairwise_singleton _ _, fun t ht u hu => by
        rw [List.mem_singleton.mp hu]
        exact hlt t ht⟩
    · rw [hturns, hlast]
      intro t ht
      cases List.mem_append.mp ht with
      | inl hold => exact (hlt t hold).le
      | inr hnew => exact (List.mem_singleton.mp hnew).le
    · rw [hfired]
      intro f hf
      cases List.mem_append.mp hf with
      | inl hold => exact h.allowed f hold
      | inr hnew =>
        rw [List.mem_singleton.mp hnew]
        exact ⟨rfl, hmay⟩
    · simpa [BargeInRun.step, hfires] using hcounted
    · exact hlast.le

/-- The invariant survives every run in which the active turn never goes back. -/
lemma Inv.exec {cfg : BargeInConfig} {checks : List BargeInCheck} {w : BargeInRun} (h : w.Inv cfg)
    (hturns : (checks.map BargeInCheck.turn).Pairwise (· ≤ ·))
    (hlatch : ∀ x ∈ checks, w.detector.lastFiredTurn ≤ x.turn) :
    (Runs.exec (BargeInRun.step cfg) w checks).Inv cfg := by
  induction checks generalizing w with
  | nil => exact h
  | cons x checks ih =>
    rw [List.map_cons, List.pairwise_cons] at hturns
    obtain ⟨hnext, hlast⟩ := h.step (hlatch x (List.mem_cons_self ..))
    apply ih hnext hturns.2
    intro y hy
    exact hlast.trans (hturns.1 _ (List.mem_map_of_mem hy))

end BargeInRun

/-- As long as the active turn never goes back, a turn is cut off at most once, in a check that found it spoken for
the cool-down at least and echo cancellation in order, and after every event the suppressions add up. -/
theorem bargeIn_once_per_turn (cfg : BargeInConfig) (checks : List BargeInCheck)
    (hturns : (checks.map BargeInCheck.turn).Pairwise (· ≤ ·)) :
    let w := Runs.exec (BargeInRun.step cfg) {} checks
    w.turns.Nodup ∧
      (∀ f ∈ w.fired, f.2 = .userInterrupted { turn := f.1.turn, ts := f.1.now } ∧ f.1.MayFire cfg) ∧
      w.detector.suppressedTotal = w.detector.suppressedCooldown + w.detector.suppressedAec := by
  intro w
  have hinit : ({} : BargeInRun).Inv cfg := ⟨List.Pairwise.nil, by simp [BargeInRun.turns], by simp, rfl⟩
  have h : w.Inv cfg := hinit.exec hturns fun x _ => Nat.zero_le _
  exact ⟨h.increasing.imp fun hlt => hlt.ne, h.allowed, h.counted⟩

/-- Two checks while turn 1 is spoken, the first of them too early. -/
theorem bargeIn_once_per_turn_early_then_late :
    let speaking : Fsm := { state := .speaking, active := { id := 1 } }
    let early : BargeInCheck := ⟨speaking, 299999999, {}, by decide⟩
    let late : BargeInCheck := ⟨speaking, 300000000, {}, by decide⟩
    let w := Runs.exec (BargeInRun.step {}) {} [early, late, late]
    w.turns = [1] ∧ w.detector.suppressedTotal = 1 ∧ w.turns.Nodup := by
  intro speaking early late w
  exact ⟨by decide, by decide, (bargeIn_once_per_turn {} [early, late, late] (by decide)).1⟩

end Acva
