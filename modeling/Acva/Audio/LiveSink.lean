import Acva.Audio.Boundaries
import Acva.Audio.Recording

/-!
# What the live sink hears of an utterance

The streaming path gets the pre-buffer when speech has started and then the block of that frame. The block
is in the pre-buffer already, so it is sent twice, and the live samples of an utterance are never the
recorded ones.
-/

namespace Acva

namespace UtteranceBuffer

/-- While it records, the buffer holds the end of what it was given, and all of it up to the limit. -/
structure Holds (u : UtteranceBuffer) (all : List Int16) : Prop where
  suffix : u.activeSamples <:+ all
  whole : u.cap = 0 ∨ all.length ≤ u.cap → u.activeSamples = all

lemma Holds.append {u : UtteranceBuffer} {all : List Int16} (h : u.Holds all) (hrecording : u.recording = true)
    (samples : List Int16) : (u.append samples).Holds (all ++ samples) := by
  by_cases hsamples : samples = []
  · have happend : u.append samples = u := by
      unfold UtteranceBuffer.append
      rw [if_pos hsamples]
    rw [happend, hsamples, List.append_nil]
    exact h
  · obtain ⟨hactive, _⟩ := append_of_recording hrecording hsamples
    refine ⟨?_, fun hroom => ?_⟩
    · rw [hactive]
      exact (capped_suffix _ _).trans (suffix_append_append h.suffix samples)
    · rw [u.append_cap] at hroom
      have hbefore : u.cap = 0 ∨ all.length ≤ u.cap := by
        rw [List.length_append] at hroom
        omega
      rw [hactive, h.whole hbefore]
      exact capped_of_length_le hroom

end UtteranceBuffer

namespace AudioPipeline

/-- What the verdict on a block makes of the buffer, and what goes to the sink with it. -/
inductive BufferEffect (sink : Bool) (u : UtteranceBuffer) (block : List Int16) (u' : UtteranceBuffer) :
    List Bool → List (List Int16) → Prop
  | keep (h : u' = u) : BufferEffect sink u block u' [] []
  | start {live : List (List Int16)} (s t : Time) (h : u' = u.onSpeechStarted s t)
      (hlive : sink = true → live.flatten = u.preBuffer ++ block) : BufferEffect sink u block u' [true] live
  | stop (now : Time) (released : List Nat) (h : u' = (u.onSpeechEnded now released).1) :
      BufferEffect sink u block u' [false] []

lemma onSpeechEnded_buffer (cfg : PipelineConfig) (p : AudioPipeline) (f : Frame) :
    (p.onSpeechEnded cfg f).1.utteranceBuffer = (p.utteranceBuffer.onSpeechEnded f.capturedAt f.released).1 ∧
      (p.onSpeechEnded cfg f).1.liveSink = p.liveSink ∧ (p.onSpeechEnded cfg f).2.live = [] := by
  unfold onSpeechEnded
  simp only
  split
  · exact ⟨rfl, rfl, rfl⟩
  · split <;> exact ⟨rfl, rfl, rfl⟩

lemma onSpeechStarted_live (cfg : PipelineConfig) (p : AudioPipeline) (f : Frame) (block : List Int16)
    (h : p.liveSink = true) :
    (p.onSpeechStarted cfg f block).2.live.flatten = p.utteranceBuffer.preBuffer ++ block := by
  unfold onSpeechStarted
  simp only [h, if_true]
  by_cases hpre : p.utteranceBuffer.preBuffer = []
  · simp [hpre]
  · simp [hpre]

lemma endpoint_buffer (cfg : PipelineConfig) (p : AudioPipeline) (f : Frame) (block : List Int16) :
    (p.endpoint cfg f block).1.liveSink = p.liveSink ∧
    BufferEffect p.liveSink p.utteranceBuffer block (p.endpoint cfg f block).1.utteranceBuffer
      (boundaries (p.endpoint cfg f block).2.events) (p.endpoint cfg f block).2.live := by
  rw [endpoint_eq]
  cases (p.verdict cfg f block).2 with
  | none => exact ⟨rfl, .keep rfl⟩
  | speechStarted => exact ⟨rfl, .start _ _ rfl (onSpeechStarted_live cfg (p.judged cfg f block) f block)⟩
  | falseStart => exact ⟨rfl, .keep rfl⟩
  | speechEnded =>
    obtain ⟨hbuffer, hsink, hlive⟩ := onSpeechEnded_buffer cfg (p.judged cfg f block) f
    obtain ⟨_, _, _, hevents⟩ := onSpeechEnded_effect cfg (p.judged cfg f block) f
    simp only [hbuffer, hlive, hevents]
    exact ⟨hsink, .stop _ _ rfl⟩

/-- The block of a frame that comes to the gate. -/
def blockOf (cfg : PipelineConfig) (p : AudioPipeline) (f : Frame) : List Int16 := (p.cancelEcho cfg f).2.2

lemma blockOf_ne_nil {cfg : PipelineConfig} {p : AudioPipeline} {f : Frame} (h : p.reachesGate cfg f = true) :
    p.blockOf cfg f ≠ [] := by
  unfold reachesGate at h
  unfold blockOf
  cases haec : f.aecActive with
  | true => simp_all
  | false =>
    have hecho : (p.cancelEcho cfg f).2.2 = f.resampled := by
      unfold cancelEcho
      rw [if_pos (by simp [haec])]
    simp_all

/-- The pipeline when the block is in the buffer. -/
def appended (p : AudioPipeline) (block : List Int16) : AudioPipeline :=
  { p with utteranceBuffer := p.utteranceBuffer.append block }

lemma processBlock_ungated {cfg : PipelineConfig} (hwake : cfg.wakeWordEnabled = false) (p : AudioPipeline) (f : Frame)
    (block : List Int16) : p.processBlock cfg f block = (((p.appended block).endpoint cfg f block).1,
      { ((p.appended block).endpoint cfg f block).2 with
        live := (if p.inSpeech && p.liveSink then [block] else []) ++
          ((p.appended block).endpoint cfg f block).2.live }) := by
  have hgate : (p.appended block).wakeGate cfg f = (p.appended block, true) := by
    unfold wakeGate
    rw [if_pos (by simp [hwake])]
  unfold appended at hgate
  unfold processBlock
  rw [hgate]
  rfl

/-- Without a wake-word gate, a block goes to the buffer, to the sink if somebody speaks, and is judged. -/
lemma processFrame_live {cfg : PipelineConfig} {p : AudioPipeline} {f : Frame} (hwake : cfg.wakeWordEnabled = false)
    (h : p.reachesGate cfg f = true) :
    (p.processFrame cfg f).1.liveSink = p.liveSink ∧
    ∃ live, (p.processFrame cfg f).2.live =
        (if p.inSpeech && p.liveSink then [p.blockOf cfg f] else []) ++ live ∧
      BufferEffect p.liveSink (p.utteranceBuffer.append (p.blockOf cfg f)) (p.blockOf cfg f)
        (p.processFrame cfg f).1.utteranceBuffer (boundaries (p.processFrame cfg f).2.events) live := by
  obtain ⟨carry, hframe, hevents, hlive⟩ := processFrame_passed h
  obtain ⟨hsink, heffect⟩ := endpoint_buffer cfg ((p.counted carry).appended (p.blockOf cfg f)) f (p.blockOf cfg f)
  rw [processBlock_ungated hwake] at hframe hevents hlive
  rw [hframe, hevents, hlive]
  exact ⟨hsink, _, rfl, heffect⟩

/-! ### Runs -/

/-- What went to the sink for an utterance, and what its recording was when it ended. -/
structure HeardUtterance where
  live : List Int16
  recorded : List Int16
  deriving DecidableEq, Repr

/-- The pipeline, what went to the sink since the last start, and the utterances that are over. -/
structure Monitor where
  pipeline : AudioPipeline
  live : List Int16 := []
  finished : List HeardUtterance := []
  deriving DecidableEq, Repr

def Monitor.step (cfg : PipelineConfig) (w : Monitor) (f : Frame) : Monitor :=
  let r := w.pipeline.processFrame cfg f
  match boundaries r.2.events with
  | [] => { w with pipeline := r.1, live := w.live ++ r.2.live.flatten }
  | true :: _ => { w with pipeline := r.1, live := r.2.live.flatten }
  | false :: _ =>
    { pipeline := r.1
      live := []
      finished := w.finished ++ [⟨w.live ++ r.2.live.flatten,
        (w.pipeline.utteranceBuffer.append (w.pipeline.blockOf cfg f)).activeSamples⟩] }

/-- The sink got a block more than the buffer, which holds the rest up to its limit. -/
def ExtraBlock (cap : Nat) (live recorded : List Int16) : Prop :=
  ∃ pre block rest, block ≠ [] ∧ live = pre ++ block ++ rest ∧ recorded <:+ pre ++ rest ∧
    (cap = 0 ∨ (pre ++ rest).length ≤ cap → recorded = pre ++ rest)

lemma ExtraBlock.ne {cap : Nat} {live recorded : List Int16} (h : ExtraBlock cap live recorded) : live ≠ recorded := by
  obtain ⟨pre, block, rest, hblock, rfl, hsuffix, _⟩ := h
  intro heq
  have hle := hsuffix.length_le
  have hpos := List.length_pos_iff.mpr hblock
  rw [← heq] at hle
  simp only [List.length_append] at hle
  omega

lemma ExtraBlock.append {u : UtteranceBuffer} {live : List Int16} (h : ExtraBlock u.cap live u.activeSamples)
    (hrecording : u.recording = true) (samples : List Int16) :
    ExtraBlock u.cap (live ++ samples) (u.append samples).activeSamples := by
  obtain ⟨pre, block, rest, hblock, hlive, hsuffix, hwhole⟩ := h
  have hholds : u.Holds (pre ++ rest) := ⟨hsuffix, hwhole⟩
  have hafter := hholds.append hrecording samples
  rw [List.append_assoc] at hafter
  refine ⟨pre, block, rest ++ samples, hblock, by rw [hlive, List.append_assoc], hafter.suffix, ?_⟩
  have hwhole' := hafter.whole
  rwa [UtteranceBuffer.append_cap] at hwhole'

/-- The start of an utterance: the pre-buffer and the block go to the sink, the buffer keeps the pre-buffer. -/
lemma ExtraBlock.start (u : UtteranceBuffer) {block : List Int16} (h : block ≠ []) (s t : Time) :
    ExtraBlock u.cap (u.preBuffer ++ block) (u.onSpeechStarted s t).activeSamples := by
  refine ⟨u.preBuffer, block, [], h, (List.append_nil _).symm, ?_, fun _ => ?_⟩
  · rw [List.append_nil]
    exact List.suffix_refl _
  · rw [List.append_nil]
    rfl

namespace Monitor

/-- The sink is ahead of the buffer in the utterance under way and was in those that are over. -/
structure Ahead (cap : Nat) (w : Monitor) : Prop where
  sink : w.pipeline.liveSink = true
  limit : w.pipeline.utteranceBuffer.cap = cap
  inStep : InStep w.pipeline
  live : w.pipeline.endpointer.inUtterance = true →
    ExtraBlock cap w.live w.pipeline.utteranceBuffer.activeSamples
  finished : ∀ u ∈ w.finished, ExtraBlock cap u.live u.recorded

lemma Ahead.step_idle {cfg : PipelineConfig} {cap : Nat} {w : Monitor} {f : Frame} (h : Ahead cap w)
    (hmuted : f.muted = false) (hreaches : w.pipeline.reachesGate cfg f = false) : Ahead cap (w.step cfg f) := by
  obtain ⟨carry, hframe, hevents, hlive⟩ := processFrame_idle hmuted hreaches
  have hstep : w.step cfg f = { w with pipeline := w.pipeline.counted carry } := by
    unfold step
    simp only [hframe, hevents, hlive]
    simp [boundaries]
  rw [hstep]
  exact ⟨h.sink, h.limit, .of_eq h.inStep.inSpeech_eq h.inStep.recording_eq, h.live, h.finished⟩

lemma Ahead.step_block {cfg : PipelineConfig} {cap : Nat} {w : Monitor} {f : Frame}
    (hwake : cfg.wakeWordEnabled = false) (h : Ahead cap w) (hmuted : f.muted = false)
    (hreaches : w.pipeline.reachesGate cfg f = true) : Ahead cap (w.step cfg f) := by
  have huncut : w.pipeline.Uncut cfg f := by
    intro _
    simp [mutes, expires, gateExpires, hmuted, hwake]
  have hinStep := h.inStep.step_iff.mpr huncut
  have heffect := processFrame_effect cfg w.pipeline f h.inStep.inSpeech_eq
  obtain ⟨hsink, live, hlive, hbuffer⟩ := processFrame_live hwake hreaches
  have hblock := blockOf_ne_nil hreaches
  rw [h.sink] at hsink hlive hbuffer
  rw [h.inStep.inSpeech_eq, Bool.and_true] at hlive
  have hcap := w.pipeline.utteranceBuffer.append_cap (w.pipeline.blockOf cfg f)
  rw [h.limit] at hcap
  have happend : w.pipeline.endpointer.inUtterance = true → ExtraBlock cap (w.live ++ w.pipeline.blockOf cfg f)
      (w.pipeline.utteranceBuffer.append (w.pipeline.blockOf cfg f)).activeSamples := by
    intro hbefore
    have hextra := h.live hbefore
    rw [← h.limit] at hextra ⊢
    exact hextra.append (h.inStep.recording.mpr hbefore) _
  unfold step
  simp only
  generalize boundaries (w.pipeline.processFrame cfg f).2.events = bs at heffect hbuffer ⊢
  cases hbuffer with
  | keep hkeep =>
    refine ⟨hsink, by rw [hkeep, hcap], hinStep, fun hafter => ?_, h.finished⟩
    have hbefore := heffect.silent hafter
    have hrest := happend hbefore
    rw [hkeep, hlive, if_pos hbefore]
    simpa using hrest
  | start s t hstart hpre =>
    have hbefore := heffect.started
    have hfirst := ExtraBlock.start (w.pipeline.utteranceBuffer.append (w.pipeline.blockOf cfg f)) hblock s t
    rw [hcap, ← hpre rfl] at hfirst
    refine ⟨hsink, by rw [hstart, UtteranceBuffer.onSpeechStarted_cap, hcap], hinStep, fun _ => ?_, h.finished⟩
    rw [hstart, hlive, if_neg (by simp [hbefore])]
    exact hfirst
  | stop now released hstop =>
    obtain ⟨hbefore, hafter⟩ := heffect.ended
    have hrest := happend hbefore
    refine ⟨hsink, by rw [hstop, UtteranceBuffer.onSpeechEnded_cap, hcap], hinStep, ?_, ?_⟩
    · intro hutterance
      rw [hafter] at hutterance
      cases hutterance
    · intro u hu
      rcases List.mem_append.mp hu with hu | hu
      · exact h.finished u hu
      · rw [List.mem_singleton.mp hu, hlive, if_pos hbefore]
        simpa using hrest

theorem Ahead.step {cfg : PipelineConfig} {cap : Nat} {w : Monitor} {f : Frame}
    (hwake : cfg.wakeWordEnabled = false) (h : Ahead cap w) (hmuted : f.muted = false) : Ahead cap (w.step cfg f) := by
  cases hreaches : w.pipeline.reachesGate cfg f with
  | false => exact h.step_idle hmuted hreaches
  | true => exact h.step_block hwake hmuted hreaches

/-- In every run without mute or wake word, what the sink got of an utterance is not what was recorded of
it: the sink got one block more. -/
theorem live_never_recorded (cfg : PipelineConfig) (hwake : cfg.wakeWordEnabled = false) (fs : List Frame)
    (hmuted : ∀ f ∈ fs, f.muted = false) :
    ∀ u ∈ (Runs.exec (step cfg) { pipeline := create cfg true } fs).finished,
      u.live ≠ u.recorded ∧ ∃ pre block rest, block ≠ [] ∧ u.live = pre ++ block ++ rest ∧
        (samplesIn cfg.outputSampleRate cfg.maxDurationMs = 0 ∨
            (pre ++ rest).length ≤ samplesIn cfg.outputSampleRate cfg.maxDurationMs →
          u.recorded = pre ++ rest) := by
  have hcreate : Ahead (samplesIn cfg.outputSampleRate cfg.maxDurationMs) { pipeline := create cfg true } :=
    ⟨rfl, rfl, .of_eq rfl rfl, by simp [create, Endpointer.inUtterance], by simp⟩
  have hunmuted : Runs.Along (step cfg) (fun _ f => f.muted = false) { pipeline := create cfg true } fs :=
    .of_forall hmuted _
  have hrun := hunmuted.invariant _ (fun w f h hf => Ahead.step hwake h hf) hcreate
  intro u hu
  have hextra := hrun.finished u hu
  obtain ⟨pre, block, rest, hblock, hlive, _, hwhole⟩ := id hextra
  exact ⟨hextra.ne, pre, block, rest, hblock, hlive, hwhole⟩

/-- Short utterances, and no wake word. -/
def plainConfig : PipelineConfig := { endpointer := { minSpeechMs := 20, hangoverMs := 20 } }

/-- Two frames of speech and two of silence. -/
def shortUtterance : List Frame :=
  [spokenFrame 10000000, spokenFrame 20000000, { spokenFrame 30000000 with probability := some 0 },
    { spokenFrame 40000000 with probability := some 0 }]

/-- Of an utterance of four blocks the sink gets five. -/
theorem short_utterance_sent_twice :
    ∃ u ∈ (Runs.exec (step plainConfig) { pipeline := create plainConfig true } shortUtterance).finished,
      u.live.length = 5 * 160 ∧ u.recorded.length = 4 * 160 ∧ u.live ≠ u.recorded := by
  decide +kernel

theorem short_utterance_not_recorded :
    let w := Runs.exec (step plainConfig) { pipeline := create plainConfig true } shortUtterance
    w.finished ≠ [] ∧ ∀ u ∈ w.finished, u.live ≠ u.recorded :=
  ⟨by decide +kernel, fun u hu => (live_never_recorded plainConfig rfl shortUtterance (by decide) u hu).1⟩

end Monitor

end AudioPipeline

end Acva
