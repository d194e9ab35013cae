import Acva.Audio.Pipeline
import Acva.Lib.Runs

/-!
# The boundaries of an utterance over a run

Three objects know that somebody is speaking: the endpointer, the `in_speech` flag and the utterance
buffer. A frame that ends the utterance by muting or by the expiry of the wake-word window goes past some
of them: the buffer goes on recording after both, and the bus is not told of an expiry.
-/

namespace Acva

namespace AudioPipeline

/-- A block of the frame comes to the wake-word gate. -/
def reachesGate (cfg : PipelineConfig) (p : AudioPipeline) (f : Frame) : Bool :=
  !f.muted && f.resampled ≠ [] && !(f.aecActive && (p.cancelEcho cfg f).2.2 = [])

def gateExpires (cfg : PipelineConfig) (p : AudioPipeline) (f : Frame) : Bool :=
  cfg.wakeWordEnabled && p.gateWasOpen && !p.gateIsOpen cfg f

/-- The frame finds that the wake-word window has run out. -/
def expires (cfg : PipelineConfig) (p : AudioPipeline) (f : Frame) : Bool :=
  p.reachesGate cfg f && p.gateExpires cfg f

/-- The first muted frame after others. -/
def mutes (p : AudioPipeline) (f : Frame) : Bool := f.muted && !p.prevMuted

/-- `true` for a `SpeechStarted`, `false` for a `SpeechEnded`. -/
def boundaries (es : List Event) : List Bool :=
  es.filterMap fun e => match e with
    | .speechStarted _ => some true
    | .speechEnded _ => some false
    | _ => none

/-- What the endpointer's verdict on a block does: nothing, or a boundary that all three objects follow. -/
inductive BlockEffect (p p' : AudioPipeline) : List Bool → Prop
  | keep (hutterance : p'.endpointer.inUtterance = p.endpointer.inUtterance)
      (hrecording : p'.utteranceBuffer.recording = p.utteranceBuffer.recording)
      (hspeech : p'.inSpeech = p.inSpeech) : BlockEffect p p' []
  | start (hbefore : p.endpointer.inUtterance = false) (hutterance : p'.endpointer.inUtterance = true)
      (hrecording : p'.utteranceBuffer.recording = true) (hspeech : p'.inSpeech = true) : BlockEffect p p' [true]
  | stop (hbefore : p.endpointer.inUtterance = true) (hutterance : p'.endpointer.inUtterance = false)
      (hrecording : p'.utteranceBuffer.recording = false) (hspeech : p'.inSpeech = false) : BlockEffect p p' [false]

/-- Everything a frame does about the utterance. -/
inductive FrameEffect (cfg : PipelineConfig) (p : AudioPipeline) (f : Frame) (p' : AudioPipeline) :
    List Bool → Prop
  | block {bs : List Bool} (hmutes : p.endpointer.inUtterance = true → p.mutes f = false)
      (hexpires : p.endpointer.inUtterance = true → p.expires cfg f = false) (h : BlockEffect p p' bs) :
      FrameEffect cfg p f p' bs
  | mute (hmutes : p.mutes f = true) (hexpires : p.expires cfg f = false)
      (hbefore : p.endpointer.inUtterance = true) (hutterance : p'.endpointer.inUtterance = false)
      (hrecording : p'.utteranceBuffer.recording = p.utteranceBuffer.recording) (hspeech : p'.inSpeech = false) :
      FrameEffect cfg p f p' [false]
  | expire (hexpires : p.expires cfg f = true)
      (hbefore : p.endpointer.inUtterance = true) (hutterance : p'.endpointer.inUtterance = false)
      (hrecording : p'.utteranceBuffer.recording = p.utteranceBuffer.recording) (hspeech : p'.inSpeech = false) :
      FrameEffect cfg p f p' []

end AudioPipeline

lemma UtteranceBuffer.append_recording (u : UtteranceBuffer) (samples : List Int16) :
    (u.append samples).recording = u.recording := by
  unfold append
  by_cases hsamples : samples = []
  · rw [if_pos hsamples]
  · rw [if_neg hsamples]
    simp only
    split
    · split <;> rfl
    · rfl

lemma UtteranceBuffer.track_recording (u : UtteranceBuffer) (released : List Nat) :
    (u.track released).recording = u.recording := by
  unfold track
  simp only
  split <;> rfl

lemma UtteranceBuffer.onSpeechEnded_recording (u : UtteranceBuffer) (now : Time) (released : List Nat) :
    (u.onSpeechEnded now released).1.recording = false := by
  unfold onSpeechEnded
  by_cases hrecording : u.recording = true
  · rw [if_neg (by simp [hrecording])]
    exact track_recording _ released
  · rw [if_pos (by simp [hrecording])]
    simpa using hrecording

namespace AudioPipeline

/-! ### One frame -/

lemma onSpeechEnded_effect (cfg : PipelineConfig) (p : AudioPipeline) (f : Frame) :
    (p.onSpeechEnded cfg f).1.endpointer = p.endpointer ∧
      (p.onSpeechEnded cfg f).1.utteranceBuffer.recording = false ∧
      (p.onSpeechEnded cfg f).1.inSpeech = false ∧ boundaries (p.onSpeechEnded cfg f).2.events = [false] := by
  have hrecording := p.utteranceBuffer.onSpeechEnded_recording f.capturedAt f.released
  unfold onSpeechEnded
  simp only
  split
  · exact ⟨rfl, hrecording, rfl, rfl⟩
  · split <;> exact ⟨rfl, hrecording, rfl, rfl⟩

/-- The endpointer's verdict on the block. -/
def verdict (cfg : PipelineConfig) (p : AudioPipeline) (f : Frame) (block : List Int16) : Endpointer × FrameOutcome :=
  p.endpointer.onFrame (f.probability.getD p.lastVadP) ((block.length : Int) * 1000 / cfg.outputSampleRate.toNat)
    f.capturedAt

def judged (cfg : PipelineConfig) (p : AudioPipeline) (f : Frame) (block : List Int16) : AudioPipeline :=
  { p with endpointer := (p.verdict cfg f block).1, lastVadP := f.probability.getD p.lastVadP }

lemma endpoint_eq (cfg : PipelineConfig) (p : AudioPipeline) (f : Frame) (block : List Int16) :
    p.endpoint cfg f block = match (p.verdict cfg f block).2 with
      | .none => (p.judged cfg f block, {})
      | .speechStarted => (p.judged cfg f block).onSpeechStarted cfg f block
      | .falseStart =>
        ({ p.judged cfg f block with falseStartsTotal := (p.judged cfg f block).falseStartsTotal + 1 }, {})
      | .speechEnded => (p.judged cfg f block).onSpeechEnded cfg f := rfl

lemma endpoint_effect (cfg : PipelineConfig) (p : AudioPipeline) (f : Frame) (block : List Int16) :
    BlockEffect p (p.endpoint cfg f block).1 (boundaries (p.endpoint cfg f block).2.events) := by
  have hbrackets : Endpointer.Brackets p.endpointer.inUtterance (p.verdict cfg f block) :=
    p.endpointer.onFrame_brackets _ _ _
  rw [endpoint_eq]
  cases hverdict : (p.verdict cfg f block).2 with
  | none => exact .keep (hbrackets.other (by simp [hverdict]) (by simp [hverdict])) rfl rfl
  | speechStarted =>
    obtain ⟨hbefore, hafter⟩ := hbrackets.started hverdict
    exact .start hbefore hafter rfl rfl
  | falseStart => exact .keep (hbrackets.other (by simp [hverdict]) (by simp [hverdict])) rfl rfl
  | speechEnded =>
    obtain ⟨hbefore, hafter⟩ := hbrackets.ended hverdict
    obtain ⟨hendpointer, hrecording, hspeech, hevents⟩ := onSpeechEnded_effect cfg (p.judged cfg f block) f
    simp only [hevents]
    refine .stop hbefore ?_ hrecording hspeech
    rw [hendpointer]
    exact hafter

lemma wakeGate_expired {cfg : PipelineConfig} {p : AudioPipeline} {f : Frame} (h : p.gateExpires cfg f = true) :
    (p.wakeGate cfg f).2 = false ∧ (p.wakeGate cfg f).1.endpointer.inUtterance = false ∧
      (p.wakeGate cfg f).1.inSpeech = false ∧ (p.wakeGate cfg f).1.utteranceBuffer = p.utteranceBuffer := by
  unfold gateExpires at h
  simp only [Bool.and_eq_true, Bool.not_eq_true'] at h
  obtain ⟨⟨henabled, hopen⟩, hclosed⟩ := h
  unfold wakeGate
  rw [if_neg (by simp [henabled]), if_pos ⟨hopen, by simp [hclosed]⟩]
  exact ⟨hclosed, (p.endpointer.forceEndpoint_spec f.capturedAt).1, rfl, rfl⟩

lemma wakeGate_passed {cfg : PipelineConfig} {p : AudioPipeline} {f : Frame} (h : p.gateExpires cfg f = false) :
    (p.wakeGate cfg f).1.endpointer = p.endpointer ∧ (p.wakeGate cfg f).1.inSpeech = p.inSpeech ∧
      (p.wakeGate cfg f).1.utteranceBuffer = p.utteranceBuffer := by
  unfold wakeGate
  split
  · exact ⟨rfl, rfl, rfl⟩
  · split
    · rename_i hnabled hexpired
      simp_all [gateExpires]
    · exact ⟨rfl, rfl, rfl⟩

lemma BlockEffect.congr {p q p' : AudioPipeline} {bs : List Bool} (h : BlockEffect q p' bs)
    (hendpointer : q.endpointer = p.endpointer) (hspeech : q.inSpeech = p.inSpeech)
    (hrecording : q.utteranceBuffer.recording = p.utteranceBuffer.recording) : BlockEffect p p' bs := by
  cases h with
  | keep h1 h2 h3 => exact .keep (hendpointer ▸ h1) (hrecording ▸ h2) (hspeech ▸ h3)
  | start h1 h2 h3 h4 => exact .start (hendpointer ▸ h1) h2 h3 h4
  | stop h1 h2 h3 h4 => exact .stop (hendpointer ▸ h1) h2 h3 h4

lemma processBlock_effect {cfg : PipelineConfig} {p : AudioPipeline} {f : Frame} (block : List Int16)
    (h : p.gateExpires cfg f = false) :
    BlockEffect p (p.processBlock cfg f block).1 (boundaries (p.processBlock cfg f block).2.events) := by
  have happend := p.utteranceBuffer.append_recording block
  obtain ⟨hendpointer, hspeech, hbuffer⟩ :=
    wakeGate_passed (p := { p with utteranceBuffer := p.utteranceBuffer.append block }) h
  unfold processBlock
  simp only
  split
  · refine .keep (by rw [hendpointer]) ?_ hspeech
    rw [hbuffer]
    exact happend
  · refine (endpoint_effect cfg _ f block).congr hendpointer hspeech ?_
    rw [hbuffer]
    exact happend

lemma processBlock_expired {cfg : PipelineConfig} {p : AudioPipeline} {f : Frame} (block : List Int16)
    (h : p.gateExpires cfg f = true) :
    (p.processBlock cfg f block).2.events = [] ∧
      (p.processBlock cfg f block).1.endpointer.inUtterance = false ∧
      (p.processBlock cfg f block).1.inSpeech = false ∧
      (p.processBlock cfg f block).1.utteranceBuffer.recording = p.utteranceBuffer.recording := by
  have happend := p.utteranceBuffer.append_recording block
  obtain ⟨hclosed, hutterance, hspeech, hbuffer⟩ :=
    wakeGate_expired (p := { p with utteranceBuffer := p.utteranceBuffer.append block }) h
  unfold processBlock
  simp only
  rw [if_pos (by simp [hclosed])]
  refine ⟨rfl, hutterance, hspeech, ?_⟩
  rw [hbuffer]
  exact happend

lemma cancelEcho_eq (cfg : PipelineConfig) (p : AudioPipeline) (f : Frame) :
    ∃ carry, (p.cancelEcho cfg f).1 = { p with apmCarry := carry } := by
  unfold cancelEcho
  split
  · exact ⟨p.apmCarry, rfl⟩
  · exact ⟨_, rfl⟩

lemma cancelEcho_output {p q : AudioPipeline} (cfg : PipelineConfig) (f : Frame) (h : q.apmCarry = p.apmCarry) :
    (q.cancelEcho cfg f).2 = (p.cancelEcho cfg f).2 := by
  unfold cancelEcho
  rw [h]
  split <;> rfl

/-- The bookkeeping of a frame that is not muted. -/
def counted (p : AudioPipeline) (carry : List Int16) : AudioPipeline :=
  { p with framesProcessed := p.framesProcessed + 1, prevMuted := false, apmCarry := carry }

lemma processFrame_passed {cfg : PipelineConfig} {p : AudioPipeline} {f : Frame} (h : p.reachesGate cfg f = true) :
    ∃ carry, (p.processFrame cfg f).1 = ((p.counted carry).processBlock cfg f (p.cancelEcho cfg f).2.2).1 ∧
      (p.processFrame cfg f).2.events = ((p.counted carry).processBlock cfg f (p.cancelEcho cfg f).2.2).2.events ∧
      (p.processFrame cfg f).2.live = ((p.counted carry).processBlock cfg f (p.cancelEcho cfg f).2.2).2.live := by
  unfold reachesGate at h
  simp only [Bool.and_eq_true, Bool.not_eq_true', decide_eq_true_eq, Bool.and_eq_false_iff,
    decide_eq_false_iff_not] at h
  obtain ⟨⟨hmuted, hresampled⟩, houtput⟩ := h
  let q : AudioPipeline := { p with framesProcessed := p.framesProcessed + 1, prevMuted := false }
  obtain ⟨carry, hecho⟩ := cancelEcho_eq cfg q f
  have hsame : (q.cancelEcho cfg f).2 = (p.cancelEcho cfg f).2 := cancelEcho_output cfg f rfl
  have hframe : p.processFrame cfg f = (((p.counted carry).processBlock cfg f (p.cancelEcho cfg f).2.2).1,
      { ((p.counted carry).processBlock cfg f (p.cancelEcho cfg f).2.2).2 with
        apmBlocks := (p.cancelEcho cfg f).2.1 }) := by
    unfold processFrame
    rw [if_neg (by simp [hmuted]), if_neg hresampled]
    change (if f.aecActive = true ∧ (q.cancelEcho cfg f).2.2 = [] then _ else _) = _
    rw [hsame, if_neg (by rintro ⟨h1, h2⟩; simp [h1, h2] at houtput)]
    exact congrArg (fun x : AudioPipeline => ((x.processBlock cfg f (p.cancelEcho cfg f).2.2).1,
      { (x.processBlock cfg f (p.cancelEcho cfg f).2.2).2 with apmBlocks := (p.cancelEcho cfg f).2.1 })) hecho
  rw [hframe]
  exact ⟨carry, rfl, rfl, rfl⟩

lemma processFrame_idle {cfg : PipelineConfig} {p : AudioPipeline} {f : Frame} (hmuted : f.muted = false)
    (h : p.reachesGate cfg f = false) : ∃ carry, (p.processFrame cfg f).1 = p.counted carry ∧
      (p.processFrame cfg f).2.events = [] ∧ (p.processFrame cfg f).2.live = [] := by
  let q : AudioPipeline := { p with framesProcessed := p.framesProcessed + 1, prevMuted := false }
  obtain ⟨carry, hecho⟩ := cancelEcho_eq cfg q f
  have hsame : (q.cancelEcho cfg f).2 = (p.cancelEcho cfg f).2 := cancelEcho_output cfg f rfl
  unfold processFrame
  rw [if_neg (by simp [hmuted])]
  by_cases hresampled : f.resampled = []
  · rw [if_pos hresampled]
    exact ⟨p.apmCarry, rfl, rfl, rfl⟩
  · rw [if_neg hresampled]
    have hempty : f.aecActive = true ∧ (q.cancelEcho cfg f).2.2 = [] := by
      rw [hsame]
      simpa [reachesGate, hmuted, hresampled] using h
    simp only [q] at hempty
    simp only [if_pos hempty]
    exact ⟨carry, hecho, trivial, trivial⟩

lemma processMuted_effect (cfg : PipelineConfig) (p : AudioPipeline) {f : Frame} (hmuted : f.muted = true) (n : Nat) :
    FrameEffect cfg p f { (p.processMuted f).1 with framesProcessed := n } (boundaries (p.processMuted f).2) := by
  have hexpires : p.expires cfg f = false := by simp [expires, reachesGate, hmuted]
  obtain ⟨hafter, hended⟩ := p.endpointer.forceEndpoint_spec f.capturedAt
  unfold processMuted
  by_cases hprev : p.prevMuted = true
  · rw [if_pos hprev]
    exact .block (fun _ => by simp [mutes, hprev]) (fun _ => hexpires) (.keep rfl rfl rfl)
  · rw [if_neg hprev]
    simp only
    by_cases hutterance : p.endpointer.inUtterance = true
    · rw [if_pos (hended.mpr hutterance)]
      exact .mute (by simp [mutes, hmuted, hprev]) hexpires hutterance hafter rfl rfl
    · rw [if_neg (fun h => hutterance (hended.mp h))]
      refine .block (fun h => absurd h hutterance) (fun _ => hexpires) (.keep ?_ rfl rfl)
      rw [hafter]
      simpa using hutterance

lemma processFrame_muted (cfg : PipelineConfig) (p : AudioPipeline) {f : Frame} (hmuted : f.muted = true) :
    (p.processFrame cfg f).1 = { (p.processMuted f).1 with framesProcessed := p.framesProcessed + 1 } ∧
      (p.processFrame cfg f).2.events = (p.processMuted f).2 ∧ (p.processFrame cfg f).2.live = [] := by
  unfold processFrame
  rw [if_pos hmuted]
  unfold processMuted
  simp only
  split
  · exact ⟨rfl, rfl, trivial⟩
  · split <;> exact ⟨rfl, rfl, trivial⟩

/-- What a frame does to the endpointer, the buffer and the flag, and what it tells the bus. -/
theorem processFrame_effect (cfg : PipelineConfig) (p : AudioPipeline) (f : Frame)
    (h : p.inSpeech = p.endpointer.inUtterance) :
    FrameEffect cfg p f (p.processFrame cfg f).1 (boundaries (p.processFrame cfg f).2.events) := by
  by_cases hmuted : f.muted = true
  · obtain ⟨hframe, hevents, _⟩ := processFrame_muted cfg p hmuted
    rw [hevents, hframe]
    exact processMuted_effect cfg p hmuted _
  · have hmutes : p.mutes f = false := by simp [mutes, hmuted]
    cases hreaches : p.reachesGate cfg f with
    | false =>
      have hexpires : p.expires cfg f = false := by simp [expires, hreaches]
      obtain ⟨carry, hframe, hevents, _⟩ := processFrame_idle (by simpa using hmuted) hreaches
      rw [hframe, hevents]
      exact .block (fun _ => hmutes) (fun _ => hexpires) (.keep rfl rfl rfl)
    | true =>
      have hexpires : p.expires cfg f = p.gateExpires cfg f := by simp [expires, hreaches]
      obtain ⟨carry, hframe, hevents, _⟩ := processFrame_passed hreaches
      rw [hframe, hevents]
      cases hgate : p.gateExpires cfg f with
      | false =>
        have heffect := processBlock_effect (p := p.counted carry) (p.cancelEcho cfg f).2.2 hgate
        exact .block (fun _ => hmutes) (fun _ => hexpires.trans hgate) (heffect.congr rfl rfl rfl)
      | true =>
        obtain ⟨hnone, hafter, hspeech, hrecording⟩ :=
          processBlock_expired (p := p.counted carry) (p.cancelEcho cfg f).2.2 hgate
        rw [hnone]
        by_cases hutterance : p.endpointer.inUtterance = true
        · exact .expire (hexpires.trans hgate) hutterance hafter hrecording hspeech
        · rw [Bool.not_eq_true] at hutterance
          have hnot : ¬p.endpointer.inUtterance = true := by simp [hutterance]
          refine .block (fun hu => absurd hu hnot) (fun hu => absurd hu hnot) (.keep ?_ hrecording ?_)
          · rw [hafter, hutterance]
          · rw [hspeech, h, hutterance]

lemma FrameEffect.inSpeech {cfg : PipelineConfig} {p p' : AudioPipeline} {f : Frame} {bs : List Bool}
    (h : FrameEffect cfg p f p' bs) (hbefore : p.inSpeech = p.endpointer.inUtterance) :
    p'.inSpeech = p'.endpointer.inUtterance := by
  cases h with
  | block _ _ h =>
    cases h with
    | keep hutterance _ hspeech => rw [hspeech, hutterance, hbefore]
    | start _ hutterance _ hspeech => rw [hspeech, hutterance]
    | stop _ hutterance _ hspeech => rw [hspeech, hutterance]
  | mute _ _ _ hutterance _ hspeech => rw [hspeech, hutterance]
  | expire _ _ hutterance _ hspeech => rw [hspeech, hutterance]

lemma FrameEffect.started {cfg : PipelineConfig} {p p' : AudioPipeline} {f : Frame}
    (h : FrameEffect cfg p f p' [true]) : p.endpointer.inUtterance = false := by
  cases h with
  | block _ _ hblock =>
    cases hblock with
    | start hbefore _ _ _ => exact hbefore

lemma FrameEffect.ended {cfg : PipelineConfig} {p p' : AudioPipeline} {f : Frame}
    (h : FrameEffect cfg p f p' [false]) :
    p.endpointer.inUtterance = true ∧ p'.endpointer.inUtterance = false := by
  cases h with
  | block _ _ hblock =>
    cases hblock with
    | stop hbefore hutterance _ _ => exact ⟨hbefore, hutterance⟩
  | mute _ _ hbefore hutterance _ _ => exact ⟨hbefore, hutterance⟩

lemma FrameEffect.silent {cfg : PipelineConfig} {p p' : AudioPipeline} {f : Frame}
    (h : FrameEffect cfg p f p' []) (hafter : p'.endpointer.inUtterance = true) :
    p.endpointer.inUtterance = true := by
  cases h with
  | block _ _ hblock =>
    cases hblock with
    | keep hutterance _ _ => rwa [hutterance] at hafter
  | expire _ hbefore _ _ _ => exact hbefore

/-! ### Recording -/

/-- The flag, the buffer and the endpointer agree that somebody is speaking. -/
structure InStep (p : AudioPipeline) : Prop where
  speech : p.inSpeech = true ↔ p.utteranceBuffer.recording = true
  recording : p.utteranceBuffer.recording = true ↔ p.endpointer.inUtterance = true

lemma InStep.of_eq {p : AudioPipeline} (hspeech : p.inSpeech = p.endpointer.inUtterance)
    (hrecording : p.utteranceBuffer.recording = p.endpointer.inUtterance) : InStep p := by
  constructor
  · rw [hspeech, hrecording]
  · rw [hrecording]

lemma InStep.recording_eq {p : AudioPipeline} (h : InStep p) :
    p.utteranceBuffer.recording = p.endpointer.inUtterance := Bool.eq_iff_iff.mpr h.recording

lemma InStep.inSpeech_eq {p : AudioPipeline} (h : InStep p) : p.inSpeech = p.endpointer.inUtterance :=
  Bool.eq_iff_iff.mpr (h.speech.trans h.recording)

/-- The frame neither mutes nor finds the window expired while an utterance is under way. -/
def Uncut (cfg : PipelineConfig) (p : AudioPipeline) (f : Frame) : Prop :=
  p.endpointer.inUtterance = true → p.mutes f = false ∧ p.expires cfg f = false

instance (cfg : PipelineConfig) (p : AudioPipeline) (f : Frame) : Decidable (p.Uncut cfg f) :=
  inferInstanceAs (Decidable (_ → _))

/-- An utterance that ends at the endpointer but not in the buffer leaves them out of step. -/
lemma InStep.not_of_cut {p p' : AudioPipeline} (h : InStep p) (hbefore : p.endpointer.inUtterance = true)
    (hutterance : p'.endpointer.inUtterance = false)
    (hrecording : p'.utteranceBuffer.recording = p.utteranceBuffer.recording) : ¬InStep p' := by
  intro hafter
  have heq := hafter.recording_eq
  rw [hrecording, hutterance, h.recording_eq, hbefore] at heq
  cases heq

lemma InStep.step_iff {cfg : PipelineConfig} {p : AudioPipeline} {f : Frame} (h : InStep p) :
    InStep (p.processFrame cfg f).1 ↔ p.Uncut cfg f := by
  have heffect := processFrame_effect cfg p f h.inSpeech_eq
  have hspeech := heffect.inSpeech h.inSpeech_eq
  have hbuffer := h.recording_eq
  generalize boundaries (p.processFrame cfg f).2.events = bs at heffect
  cases heffect with
  | block hmutes hexpires hblock =>
    refine iff_of_true (.of_eq hspeech ?_) (fun hu => ⟨hmutes hu, hexpires hu⟩)
    cases hblock with
    | keep hutterance hrecording _ => rw [hrecording, hutterance, hbuffer]
    | start _ hutterance hrecording _ => rw [hrecording, hutterance]
    | stop _ hutterance hrecording _ => rw [hrecording, hutterance]
  | mute hmutes _ hbefore hutterance hrecording _ =>
    apply iff_of_false (h.not_of_cut hbefore hutterance hrecording)
    · intro huncut
      rw [(huncut hbefore).1] at hmutes
      cases hmutes
  | expire hexpires hbefore hutterance hrecording _ =>
    apply iff_of_false (h.not_of_cut hbefore hutterance hrecording)
    · intro huncut
      rw [(huncut hbefore).2] at hexpires
      cases hexpires

/-- After every frame of a run the three objects agree exactly when no frame of the run cuts an utterance. -/
theorem capture_in_step_iff (cfg : PipelineConfig) (liveSink : Bool) (fs : List Frame) :
    (∀ before, before <+: fs →
      InStep (Runs.exec (fun p f => (p.processFrame cfg f).1) (create cfg liveSink) before)) ↔
    Runs.Along (fun p f => (p.processFrame cfg f).1) (Uncut cfg) (create cfg liveSink) fs := by
  have hcreate : InStep (create cfg liveSink) := .of_eq rfl rfl
  exact Runs.prefixes_iff_along (I := InStep) (fun _ h => h) (fun _ _ h huncut => h.step_iff.mpr huncut)
    (fun _ _ h hafter => h.step_iff.mp hafter) hcreate fs

/-- Two frames of speech of 10 ms start an utterance, and the wake word is good for 25 ms. -/
def quickConfig : PipelineConfig :=
  { endpointer := { minSpeechMs := 20, hangoverMs := 20 }, wakeWordEnabled := true, followupWindowMs := 25 }

/-- 10 ms of what the detector takes for speech. -/
def spokenFrame (now : Time) : Frame :=
  { capturedAt := now, resampled := List.replicate 160 0, probability := some 1 }

/-- The wake word and another frame of speech. -/
def wokenUtterance : List Frame := [{ spokenFrame 10000000 with wakeDetected := true }, spokenFrame 20000000]

/-- A mute in the middle of an utterance leaves the buffer recording. -/
theorem muted_utterance_still_recording :
    let p := Runs.exec (fun p f => (p.processFrame quickConfig f).1) (create quickConfig false)
      (wokenUtterance ++ [{ capturedAt := 30000000, muted := true }])
    p.utteranceBuffer.recording = true ∧ p.inSpeech = false ∧ ¬InStep p := by
  intro p
  have hrecording : p.utteranceBuffer.recording = true := by decide +kernel
  have hspeech : p.inSpeech = false := by decide +kernel
  refine ⟨hrecording, hspeech, fun h => ?_⟩
  rw [h.speech.mpr hrecording] at hspeech
  cases hspeech

/-! ### The bus -/

/-- Starts and ends take turns; `next` says which of them comes first. -/
def Alternates : Bool → List Bool → Prop
  | _, [] => True
  | next, b :: bs => b = next ∧ Alternates (!next) bs

/-- What comes after the boundaries. -/
def nextAfter (next : Bool) (bs : List Bool) : Bool := bs.foldl (fun b _ => !b) next

lemma alternates_append (next : Bool) (bs cs : List Bool) :
    Alternates next (bs ++ cs) ↔ Alternates next bs ∧ Alternates (nextAfter next bs) cs := by
  induction bs generalizing next with
  | nil => simp [Alternates, nextAfter]
  | cons b bs ih =>
    rw [List.cons_append, Alternates, Alternates, ih, and_assoc]
    rfl

/-- Alternating from a start, there is one start more than ends until the next end. -/
lemma count_of_alternates {next : Bool} {bs : List Bool} (h : Alternates next bs) :
    bs.count true + (if next then 0 else 1) = bs.count false + if nextAfter next bs then 0 else 1 := by
  induction bs generalizing next with
  | nil => rfl
  | cons b bs ih =>
    obtain ⟨rfl, hrest⟩ := h
    have hcount := ih hrest
    rw [nextAfter, List.foldl_cons, ← nextAfter]
    cases b <;> simp at hcount ⊢ <;> omega

/-- The pipeline and everything it has published. -/
structure Publishing where
  pipeline : AudioPipeline
  published : List Event := []
  deriving DecidableEq, Repr

def Publishing.step (cfg : PipelineConfig) (w : Publishing) (f : Frame) : Publishing :=
  { pipeline := (w.pipeline.processFrame cfg f).1
    published := w.published ++ (w.pipeline.processFrame cfg f).2.events }

/-- The boundaries alternate from a start, and outside an utterance there are as many starts as ends. -/
def Publishing.WellNested (w : Publishing) : Prop :=
  Alternates true (boundaries w.published) ∧
    (w.pipeline.endpointer.inUtterance = false →
      (boundaries w.published).count true = (boundaries w.published).count false)

/-- The frame does not find the window expired while an utterance is under way. -/
def Unexpired (cfg : PipelineConfig) (w : Publishing) (f : Frame) : Prop :=
  w.pipeline.endpointer.inUtterance = true → w.pipeline.expires cfg f = false

instance (cfg : PipelineConfig) (w : Publishing) (f : Frame) : Decidable (Unexpired cfg w f) :=
  inferInstanceAs (Decidable (_ → _))

/-- The boundaries alternate, and the next one is a start exactly outside an utterance. -/
structure Publishing.Followed (w : Publishing) : Prop where
  speech : w.pipeline.inSpeech = w.pipeline.endpointer.inUtterance
  alternates : Alternates true (boundaries w.published)
  next : nextAfter true (boundaries w.published) = !w.pipeline.endpointer.inUtterance

lemma boundaries_append (es fs : List Event) : boundaries (es ++ fs) = boundaries es ++ boundaries fs :=
  List.filterMap_append

lemma nextAfter_append (next : Bool) (bs cs : List Bool) :
    nextAfter next (bs ++ cs) = nextAfter (nextAfter next bs) cs := List.foldl_append

namespace Publishing

lemma Followed.counts {w : Publishing} (h : w.Followed) : (boundaries w.published).count true =
    (boundaries w.published).count false + if w.pipeline.endpointer.inUtterance then 1 else 0 := by
  have hcount := count_of_alternates h.alternates
  rw [h.next] at hcount
  cases hutterance : w.pipeline.endpointer.inUtterance <;> simpa [hutterance] using hcount

lemma Followed.wellNested {w : Publishing} (h : w.Followed) : w.WellNested := by
  refine ⟨h.alternates, fun hutterance => ?_⟩
  rw [h.counts, hutterance]
  rfl

lemma Followed.step {cfg : PipelineConfig} {w : Publishing} {f : Frame} (h : w.Followed)
    (hunexpired : Unexpired cfg w f) : (w.step cfg f).Followed := by
  have heffect := processFrame_effect cfg w.pipeline f h.speech
  have hspeech := heffect.inSpeech h.speech
  have hnext := h.next
  refine ⟨hspeech, ?_, ?_⟩
  · rw [Publishing.step, boundaries_append, alternates_append, hnext]
    refine ⟨h.alternates, ?_⟩
    generalize boundaries (w.pipeline.processFrame cfg f).2.events = bs at heffect
    cases heffect with
    | block _ _ hblock =>
      cases hblock with
      | keep _ _ _ => trivial
      | start hbefore _ _ _ => exact ⟨by rw [hbefore]; rfl, trivial⟩
      | stop hbefore _ _ _ => exact ⟨by rw [hbefore]; rfl, trivial⟩
    | mute _ _ hbefore _ _ _ => exact ⟨by rw [hbefore]; rfl, trivial⟩
    | expire hexpires hbefore _ _ _ => trivial
  · rw [Publishing.step, boundaries_append, nextAfter_append, hnext]
    generalize boundaries (w.pipeline.processFrame cfg f).2.events = bs at heffect
    cases heffect with
    | block _ _ hblock =>
      cases hblock with
      | keep hutterance _ _ => rw [hutterance]; rfl
      | start hbefore hutterance _ _ => rw [hbefore, hutterance]; rfl
      | stop hbefore hutterance _ _ => rw [hbefore, hutterance]; rfl
    | mute _ _ hbefore hutterance _ _ => rw [hbefore, hutterance]; rfl
    | expire hexpires hbefore _ _ _ =>
      rw [hunexpired hbefore] at hexpires
      cases hexpires

lemma Followed.unexpired {cfg : PipelineConfig} {w : Publishing} {f : Frame} (h : w.Followed)
    (hnested : (w.step cfg f).WellNested) : Unexpired cfg w f := by
  intro hbefore
  have hcounts := h.counts
  have heffect := processFrame_effect cfg w.pipeline f h.speech
  have hafter := hnested.2
  rw [Publishing.step, boundaries_append] at hafter
  generalize boundaries (w.pipeline.processFrame cfg f).2.events = bs at heffect hafter
  cases heffect with
  | block _ hexpires _ => exact hexpires hbefore
  | mute _ hexpires _ _ _ _ => exact hexpires
  | expire _ _ hutterance _ _ =>
    have hequal := hafter hutterance
    rw [List.append_nil, hcounts, hbefore] at hequal
    simp at hequal

/-- After every frame of a run the boundaries on the bus are well nested exactly when no frame of the run
finds the window expired inside an utterance. -/
theorem boundaries_nested_iff (cfg : PipelineConfig) (liveSink : Bool) (fs : List Frame) :
    (∀ before, before <+: fs →
      (Runs.exec (step cfg) { pipeline := create cfg liveSink } before).WellNested) ↔
    Runs.Along (step cfg) (Unexpired cfg) { pipeline := create cfg liveSink } fs := by
  have hcreate : Followed { pipeline := create cfg liveSink } := ⟨rfl, trivial, rfl⟩
  exact Runs.prefixes_iff_along (I := Followed) (fun _ h => h.wellNested)
    (fun _ _ h hunexpired => h.step hunexpired) (fun _ _ h hnested => h.unexpired hnested) hcreate fs

/-- An utterance that outlasts the wake word is never ended on the bus. -/
theorem expired_utterance_never_ends :
    let w := Runs.exec (step quickConfig) { pipeline := create quickConfig false }
      (wokenUtterance ++ [spokenFrame 40000000])
    w.published = [.speechStarted { ts := 20000000 }] ∧ w.pipeline.endpointer.inUtterance = false ∧
      ¬w.WellNested := by
  intro w
  have hpublished : w.published = [.speechStarted { ts := 20000000 }] := by decide +kernel
  have hutterance : w.pipeline.endpointer.inUtterance = false := by decide +kernel
  refine ⟨hpublished, hutterance, fun h => ?_⟩
  have hcounts := h.2 hutterance
  rw [hpublished] at hcounts
  cases hcounts

end Publishing

end AudioPipeline

end Acva
