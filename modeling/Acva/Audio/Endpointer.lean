import Acva.Event.Event
import Mathlib.Data.Rat.Defs

/-!
# The endpointer

`Endpointer`: onset, hangover and hysteresis over the probabilities of the voice activity detector. A
probability and the thresholds are the numbers that the source keeps as floats; only comparisons are
made with them.
-/

namespace Acva

abbrev Milliseconds := Int

structure EndpointerConfig where
  onsetThreshold : Rat := 1 / 2
  offsetThreshold : Rat := 7 / 20
  minSpeechMs : Milliseconds := 200
  hangoverMs : Milliseconds := 600
  deriving DecidableEq, Repr

inductive EndpointerState
  | quiet
  | onset
  | speaking
  | endpoint
  deriving DecidableEq, Repr

inductive FrameOutcome
  | none
  | speechStarted
  | falseStart
  | speechEnded
  deriving DecidableEq, Repr

/-- A time that was never set is the epoch of the clock. -/
structure Endpointer where
  cfg : EndpointerConfig := {}
  state : EndpointerState := .quiet
  speechDur : Milliseconds := 0
  quietDur : Milliseconds := 0
  startedAt : Time := 0
  endedAt : Time := 0
  deriving DecidableEq, Repr

namespace Endpointer

def reset (p : Endpointer) : Endpointer :=
  { p with state := .quiet, speechDur := 0, quietDur := 0, startedAt := 0, endedAt := 0 }

/-- A frame of the hangover, below the offset or in the hysteresis band: once the quiet is long enough the
utterance is over. -/
def hangOver (p : Endpointer) (frameDuration : Milliseconds) : Endpointer × FrameOutcome :=
  let q := { p with quietDur := p.quietDur + frameDuration }
  if q.quietDur ≥ p.cfg.hangoverMs then ({ q with state := .quiet }, .speechEnded) else (q, .none)

def onFrame (p : Endpointer) (vadProbability : Rat) (frameDuration : Milliseconds) (frameTime : Time) :
    Endpointer × FrameOutcome :=
  let aboveOnset := decide (vadProbability ≥ p.cfg.onsetThreshold)
  let belowOffset := decide (vadProbability < p.cfg.offsetThreshold)
  match p.state with
  | .quiet =>
    if aboveOnset then
      ({ p with state := .onset, speechDur := frameDuration, quietDur := 0, startedAt := frameTime }, .none)
    else (p, .none)
  | .onset =>
    if aboveOnset then
      let q := { p with speechDur := p.speechDur + frameDuration }
      if q.speechDur ≥ p.cfg.minSpeechMs then ({ q with state := .speaking, quietDur := 0 }, .speechStarted)
      else (q, .none)
    else if belowOffset then
      ({ p with state := .quiet, speechDur := 0, quietDur := 0, startedAt := 0 }, .falseStart)
    else (p, .none)
  | .speaking =>
    if aboveOnset then ({ p with speechDur := p.speechDur + frameDuration, quietDur := 0 }, .none)
    else if belowOffset then
      ({ p with state := .endpoint, quietDur := frameDuration, endedAt := frameTime }, .none)
    else ({ p with speechDur := p.speechDur + frameDuration }, .none)
  | .endpoint =>
    if aboveOnset then
      ({ p with state := .speaking, speechDur := p.speechDur + frameDuration, quietDur := 0, endedAt := 0 }, .none)
    else p.hangOver frameDuration

def updateThresholds (p : Endpointer) (cfg : EndpointerConfig) : Endpointer :=
  { p with cfg := { p.cfg with
      onsetThreshold := cfg.onsetThreshold
      offsetThreshold := cfg.offsetThreshold
      hangoverMs := cfg.hangoverMs } }

def forceEndpoint (p : Endpointer) (now : Time) : Endpointer × FrameOutcome :=
  match p.state with
  | .speaking | .endpoint => ({ p with endedAt := now, state := .quiet }, .speechEnded)
  | .onset => ({ p with state := .quiet }, .falseStart)
  | .quiet => (p, .none)

/-- An utterance is under way. -/
def inUtterance (p : Endpointer) : Bool := p.state = .speaking || p.state = .endpoint

/-- Outcomes bracket utterances: `SpeechStarted` opens one, `SpeechEnded` closes it. -/
structure Brackets (before : Bool) (r : Endpointer × FrameOutcome) : Prop where
  started : r.2 = .speechStarted → before = false ∧ r.1.inUtterance = true
  ended : r.2 = .speechEnded → before = true ∧ r.1.inUtterance = false
  other : r.2 ≠ .speechStarted → r.2 ≠ .speechEnded → r.1.inUtterance = before

lemma Brackets.of_none {before : Bool} {p : Endpointer} (h : p.inUtterance = before) : Brackets before (p, .none) :=
  ⟨by simp, by simp, fun _ _ => h⟩

lemma hangOver_brackets (p : Endpointer) (frameDuration : Milliseconds) (hs : p.state = .endpoint) :
    Brackets true (p.hangOver frameDuration) := by
  simp only [hangOver]
  split
  · exact ⟨by simp, fun _ => ⟨rfl, rfl⟩, by simp⟩
  · exact .of_none (by simp [inUtterance, hs])

lemma onFrame_brackets (p : Endpointer) (vadProbability : Rat) (frameDuration : Milliseconds) (frameTime : Time) :
    Brackets p.inUtterance (p.onFrame vadProbability frameDuration frameTime) := by
  unfold onFrame
  cases hs : p.state with
  | quiet =>
    simp only
    split
    · exact .of_none (by simp [inUtterance, hs])
    · exact .of_none rfl
  | onset =>
    have hbefore : p.inUtterance = false := by simp [inUtterance, hs]
    simp only
    split
    · split
      · exact ⟨fun _ => ⟨hbefore, rfl⟩, by simp, by simp⟩
      · exact .of_none (by simp [inUtterance, hs])
    · split
      · exact ⟨by simp, by simp, fun _ _ => by simp [inUtterance, hs]⟩
      · exact .of_none rfl
  | speaking =>
    simp only
    split
    · exact .of_none (by simp [inUtterance, hs])
    · split <;> exact .of_none (by simp [inUtterance, hs])
  | endpoint =>
    have hbefore : p.inUtterance = true := by simp [inUtterance, hs]
    simp only
    split
    · exact .of_none (by simp [inUtterance, hs])
    · exact hbefore ▸ p.hangOver_brackets frameDuration hs

lemma forceEndpoint_spec (p : Endpointer) (now : Time) :
    (p.forceEndpoint now).1.inUtterance = false ∧
      ((p.forceEndpoint now).2 = .speechEnded ↔ p.inUtterance = true) := by
  unfold forceEndpoint
  cases hs : p.state <;> simp [inUtterance, hs]

end Endpointer

end Acva
