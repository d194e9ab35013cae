import Acva.Audio.Utterance

/-!
# The audio pipeline

`AudioPipeline::process_frame`, with what it publishes, what it passes to the live sink and the blocks it
has the echo canceller process. The resampler's output, the canceller's, the wake-word detector's
verdict and the probability that the voice activity detector gives are inputs.
-/

namespace Acva

structure PipelineConfig where
  outputSampleRate : UInt32 := 16000
  endpointer : EndpointerConfig := {}
  prePaddingMs : Milliseconds := 300
  postPaddingMs : Milliseconds := 100
  maxInFlight : Nat := 3
  maxDurationMs : Milliseconds := 60000
  minUtteranceRms : UInt32 := 0
  wakeWordEnabled : Bool := false
  followupWindowMs : Milliseconds := 0
  deriving DecidableEq, Repr

/-- A frame with what the other stages make of it. `probability` is absent without a detector. -/
structure Frame where
  capturedAt : Time := 0
  muted : Bool := false
  resampled : List Int16 := []
  aecActive : Bool := false
  apmOutputs : List (List Int16) := []
  wakeDetected : Bool := false
  probability : Option Rat := none
  released : List Nat := []
  deriving DecidableEq, Repr

structure AudioPipeline where
  endpointer : Endpointer := {}
  utteranceBuffer : UtteranceBuffer := {}
  liveSink : Bool := false
  prevMuted : Bool := false
  inSpeech : Bool := false
  gateOpenStamp : Time := 0
  gateWasOpen : Bool := false
  apmCarry : List Int16 := []
  lastVadP : Rat := 0
  framesProcessed : Nat := 0
  utterancesTotal : Nat := 0
  falseStartsTotal : Nat := 0
  lowRmsDropsTotal : Nat := 0
  deriving DecidableEq, Repr

/-- What a frame causes: events on the bus, blocks for the live sink, blocks for the canceller. -/
structure PipelineOutput where
  events : List Event := []
  live : List (List Int16) := []
  apmBlocks : List (List Int16) := []
  deriving DecidableEq, Repr

/-- `min_utterance_rms` against the root mean square, both squared and times the number of samples. -/
def tooQuiet (minRms : UInt32) (samples : List Int16) : Bool :=
  minRms > 0 && samples ≠ [] &&
    (samples.map fun s => s.toInt.natAbs ^ 2).sum < minRms.toNat ^ 2 * samples.length

/-- Whole blocks of `n` samples and the rest; `fuel` bounds their number. -/
def splitBlocks (n : Nat) : Nat → List Int16 → List (List Int16) × List Int16
  | 0, l => ([], l)
  | fuel + 1, l =>
    if 0 < n ∧ n ≤ l.length then
      let r := splitBlocks n fuel (l.drop n)
      (l.take n :: r.1, r.2)
    else ([], l)

namespace AudioPipeline

/-- A pipeline as it is constructed. -/
def create (cfg : PipelineConfig) (liveSink : Bool) : AudioPipeline :=
  { endpointer := { cfg := cfg.endpointer }
    utteranceBuffer := {
      sampleRate := cfg.outputSampleRate
      prePaddingMs := cfg.prePaddingMs
      postPaddingMs := cfg.postPaddingMs
      maxInFlight := cfg.maxInFlight
      maxDurationMs := cfg.maxDurationMs }
    liveSink := liveSink }

/-- A muted frame; the first one ends the utterance under way. -/
def processMuted (p : AudioPipeline) (f : Frame) : AudioPipeline × List Event :=
  if p.prevMuted then (p, [])
  else
    let r := p.endpointer.forceEndpoint f.capturedAt
    if r.2 = .speechEnded then
      ({ p with endpointer := r.1, inSpeech := false, prevMuted := true }, [.speechEnded { ts := f.capturedAt }])
    else ({ p with endpointer := r.1, prevMuted := true }, [])

/-- The echo canceller takes blocks of 10 ms; nothing comes out until there is one. -/
def cancelEcho (cfg : PipelineConfig) (p : AudioPipeline) (f : Frame) :
    AudioPipeline × List (List Int16) × List Int16 :=
  if ¬f.aecActive then (p, [], f.resampled)
  else
    let carry := p.apmCarry ++ f.resampled
    let r := splitBlocks (cfg.outputSampleRate.toNat / 100) carry.length carry
    ({ p with apmCarry := r.2 }, r.1, (f.apmOutputs.take r.1.length).flatten)

/-- The time of the last positive detection. -/
def gateStamp (p : AudioPipeline) (f : Frame) : Time := if f.wakeDetected then f.capturedAt else p.gateOpenStamp

def gateIsOpen (cfg : PipelineConfig) (p : AudioPipeline) (f : Frame) : Bool :=
  p.gateStamp f ≠ 0 && decide (f.capturedAt - p.gateStamp f ≤ cfg.followupWindowMs.toTime)

/-- The wake-word gate; when its window expires the utterance under way is dropped. -/
def wakeGate (cfg : PipelineConfig) (p : AudioPipeline) (f : Frame) : AudioPipeline × Bool :=
  if ¬cfg.wakeWordEnabled then (p, true)
  else if p.gateWasOpen ∧ ¬p.gateIsOpen cfg f then
    ({ p with
        gateOpenStamp := p.gateStamp f
        gateWasOpen := p.gateIsOpen cfg f
        endpointer := (p.endpointer.forceEndpoint f.capturedAt).1
        inSpeech := false }, p.gateIsOpen cfg f)
  else ({ p with gateOpenStamp := p.gateStamp f, gateWasOpen := p.gateIsOpen cfg f }, p.gateIsOpen cfg f)

def onSpeechStarted (cfg : PipelineConfig) (p : AudioPipeline) (f : Frame) (block : List Int16) :
    AudioPipeline × PipelineOutput :=
  let prePad := p.utteranceBuffer.preBuffer
  ({ p with
      utteranceBuffer := p.utteranceBuffer.onSpeechStarted (f.capturedAt - cfg.prePaddingMs.toTime) f.capturedAt
      inSpeech := true },
    { events := [.speechStarted { ts := f.capturedAt }]
      live := if p.liveSink then (if prePad = [] then [] else [prePad]) ++ [block] else [] })

/-- The utterance is over; its slice is published unless it is too quiet. -/
def onSpeechEnded (cfg : PipelineConfig) (p : AudioPipeline) (f : Frame) : AudioPipeline × PipelineOutput :=
  let r := p.utteranceBuffer.onSpeechEnded f.capturedAt f.released
  let q := { p with utteranceBuffer := r.1, inSpeech := false }
  let ended : Event := .speechEnded { ts := f.capturedAt }
  match r.2 with
  | none => (q, { events := [ended] })
  | some slice =>
    if tooQuiet cfg.minUtteranceRms slice.samples then
      ({ q with lowRmsDropsTotal := q.lowRmsDropsTotal + 1 }, { events := [ended] })
    else
      ({ q with utterancesTotal := q.utterancesTotal + 1 },
        { events := [ended, .utteranceReady { slice := some slice }] })

/-- The block past the gate: the endpointer decides. -/
def endpoint (cfg : PipelineConfig) (p : AudioPipeline) (f : Frame) (block : List Int16) :
    AudioPipeline × PipelineOutput :=
  let lastVadP := f.probability.getD p.lastVadP
  let duration : Milliseconds := (block.length : Int) * 1000 / cfg.outputSampleRate.toNat
  let r := p.endpointer.onFrame lastVadP duration f.capturedAt
  let q := { p with endpointer := r.1, lastVadP := lastVadP }
  match r.2 with
  | .none => (q, {})
  | .speechStarted => q.onSpeechStarted cfg f block
  | .falseStart => ({ q with falseStartsTotal := q.falseStartsTotal + 1 }, {})
  | .speechEnded => q.onSpeechEnded cfg f

/-- A block that came through the echo canceller. -/
def processBlock (cfg : PipelineConfig) (p : AudioPipeline) (f : Frame) (block : List Int16) :
    AudioPipeline × PipelineOutput :=
  let r := ({ p with utteranceBuffer := p.utteranceBuffer.append block }).wakeGate cfg f
  if ¬r.2 then (r.1, {})
  else
    let o := r.1.endpoint cfg f block
    (o.1, { o.2 with live := (if r.1.inSpeech && r.1.liveSink then [block] else []) ++ o.2.live })

def processFrame (cfg : PipelineConfig) (p : AudioPipeline) (f : Frame) : AudioPipeline × PipelineOutput :=
  let p := { p with framesProcessed := p.framesProcessed + 1 }
  if f.muted then
    let r := p.processMuted f
    (r.1, { events := r.2 })
  else
    let p := { p with prevMuted := false }
    if f.resampled = [] then (p, {})
    else
      let a := p.cancelEcho cfg f
      if f.aecActive ∧ a.2.2 = [] then (a.1, { apmBlocks := a.2.1 })
      else
        let r := a.1.processBlock cfg f a.2.2
        (r.1, { r.2 with apmBlocks := a.2.1 })

/-! ### The boundaries of speech -/

/-- What a frame can say about an utterance: nothing, that one has started, or that the one under way has
ended, perhaps with its slice. -/
inductive Boundary (before after : Bool) : List Event → Prop
  | none (h : after = true → before = true) : Boundary before after []
  | started (e : SpeechStarted) : Boundary before after [.speechStarted e]
  | ended (e : SpeechEnded) (hbefore : before = true) (hafter : after = false) :
      Boundary before after [.speechEnded e]
  | ready (e : SpeechEnded) (u : UtteranceReady) (hbefore : before = true) (hafter : after = false) :
      Boundary before after [.speechEnded e, .utteranceReady u]

lemma onSpeechEnded_boundary (cfg : PipelineConfig) (p : AudioPipeline) (f : Frame)
    (h : p.endpointer.inUtterance = false) :
    Boundary true (p.onSpeechEnded cfg f).1.endpointer.inUtterance (p.onSpeechEnded cfg f).2.events := by
  simp only [onSpeechEnded]
  split
  · exact .ended _ rfl h
  · split
    · exact .ended _ rfl h
    · exact .ready _ _ rfl h

lemma endpoint_boundary (cfg : PipelineConfig) (p : AudioPipeline) (f : Frame) (block : List Int16) :
    Boundary p.endpointer.inUtterance (p.endpoint cfg f block).1.endpointer.inUtterance
      (p.endpoint cfg f block).2.events := by
  have hbrackets := p.endpointer.onFrame_brackets (f.probability.getD p.lastVadP)
    ((block.length : Int) * 1000 / cfg.outputSampleRate.toNat) f.capturedAt
  simp only [endpoint]
  split
  · rename_i heq
    exact .none fun h => hbrackets.other (by simp [heq]) (by simp [heq]) ▸ h
  · exact .started _
  · rename_i heq
    exact .none fun h => hbrackets.other (by simp [heq]) (by simp [heq]) ▸ h
  · rename_i heq
    obtain ⟨hbefore, hafter⟩ := hbrackets.ended heq
    rw [hbefore]
    exact onSpeechEnded_boundary cfg _ f hafter

lemma wakeGate_inUtterance (cfg : PipelineConfig) (p : AudioPipeline) (f : Frame) :
    (p.wakeGate cfg f).1.endpointer.inUtterance = true → p.endpointer.inUtterance = true := by
  simp only [wakeGate]
  split
  · exact id
  · split
    · intro h
      rw [(p.endpointer.forceEndpoint_spec f.capturedAt).1] at h
      cases h
    · exact id

lemma Boundary.weaken {before before' after : Bool} {es : List Event} (h : Boundary before after es)
    (hmono : before = true → before' = true) : Boundary before' after es := by
  cases h with
  | none h => exact .none fun ha => hmono (h ha)
  | started e => exact .started e
  | ended e hbefore hafter => exact .ended e (hmono hbefore) hafter
  | ready e u hbefore hafter => exact .ready e u (hmono hbefore) hafter

lemma processBlock_boundary (cfg : PipelineConfig) (p : AudioPipeline) (f : Frame) (block : List Int16) :
    Boundary p.endpointer.inUtterance (p.processBlock cfg f block).1.endpointer.inUtterance
      (p.processBlock cfg f block).2.events := by
  have hgate := wakeGate_inUtterance cfg { p with utteranceBuffer := p.utteranceBuffer.append block } f
  simp only [processBlock]
  split
  · exact .none hgate
  · exact (endpoint_boundary cfg _ f block).weaken hgate

theorem processFrame_boundary (cfg : PipelineConfig) (p : AudioPipeline) (f : Frame) :
    Boundary p.endpointer.inUtterance (p.processFrame cfg f).1.endpointer.inUtterance
      (p.processFrame cfg f).2.events := by
  simp only [processFrame]
  split
  · simp only [processMuted]
    split
    · exact .none id
    · obtain ⟨hafter, hbefore⟩ := p.endpointer.forceEndpoint_spec f.capturedAt
      split
      · rename_i hended
        exact .ended _ (hbefore.mp hended) hafter
      · exact .none fun h => absurd (hafter.symm.trans h) (by simp)
  · split
    · exact .none id
    · have hecho : ∀ q : AudioPipeline, (q.cancelEcho cfg f).1.endpointer = q.endpointer := by
        intro q
        simp only [cancelEcho]
        split <;> rfl
      split
      · rw [hecho]
        exact .none id
      · refine (processBlock_boundary cfg _ f _).weaken fun h => ?_
        rw [hecho] at h
        exact h

end AudioPipeline

end Acva
