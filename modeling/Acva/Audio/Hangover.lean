import Acva.Audio.Endpointing
import Acva.Audio.LiveSink
import Mathlib.Tactic.Ring

/-!
# The silence at the end of an utterance

What the pipeline publishes of the hangover. The cut at the end of a recording is reckoned from the time that the
pipeline gives as the end of the speech, which is that of the frame at which the hangover is over.
-/

namespace Acva

namespace AudioPipeline

/-- The block that a frame adds to the utterance buffer. -/
def heardBlock (cfg : PipelineConfig) (p : AudioPipeline) (f : Frame) : List Int16 :=
  if p.reachesGate cfg f then p.blockOf cfg f else []

def slices (es : List Event) : List AudioSlice :=
  es.filterMap fun e => match e with
    | .utteranceReady u => u.slice
    | _ => none

/-- What a frame does to the endpointer and the buffer when nothing is muted and no wake word is waited for, and the
slice that it publishes. -/
inductive FrameStep (cfg : PipelineConfig) (p : AudioPipeline) (f : Frame) (p' : AudioPipeline) :
    List AudioSlice → Prop
  | idle (hblock : p.heardBlock cfg f = []) (hendpointer : p'.endpointer = p.endpointer)
      (hbuffer : p'.utteranceBuffer = p.utteranceBuffer) : FrameStep cfg p f p' []
  | keep (hblock : p.heardBlock cfg f ≠ []) (hutterance : p'.endpointer.inUtterance = p.endpointer.inUtterance)
      (hbuffer : p'.utteranceBuffer = p.utteranceBuffer.append (p.heardBlock cfg f)) : FrameStep cfg p f p' []
  | start (hblock : p.heardBlock cfg f ≠ []) (hstate : p'.endpointer.state = .speaking)
      (hbuffer : p'.utteranceBuffer = (p.utteranceBuffer.append (p.heardBlock cfg f)).onSpeechStarted
        (f.capturedAt - cfg.prePaddingMs.toTime) f.capturedAt) : FrameStep cfg p f p' []
  | stop {out : List AudioSlice} (hblock : p.heardBlock cfg f ≠ []) (hstate : p.endpointer.state = .endpoint)
      (hafter : p'.endpointer.state = .quiet)
      (hbuffer : p'.utteranceBuffer =
        ((p.utteranceBuffer.append (p.heardBlock cfg f)).onSpeechEnded f.capturedAt f.released).1)
      (hout : ∀ slice ∈ out, ((p.utteranceBuffer.append (p.heardBlock cfg f)).onSpeechEnded f.capturedAt
        f.released).2 = some slice) : FrameStep cfg p f p' out

lemma slices_onSpeechEnded (cfg : PipelineConfig) (p : AudioPipeline) (f : Frame) :
    (p.onSpeechEnded cfg f).1.utteranceBuffer = (p.utteranceBuffer.onSpeechEnded f.capturedAt f.released).1 ∧
      ∀ slice ∈ slices (p.onSpeechEnded cfg f).2.events,
        (p.utteranceBuffer.onSpeechEnded f.capturedAt f.released).2 = some slice := by
  unfold onSpeechEnded
  simp only
  cases hslice : (p.utteranceBuffer.onSpeechEnded f.capturedAt f.released).2 with
  | none => exact ⟨rfl, fun slice h => by simp [slices] at h⟩
  | some cut =>
    simp only
    split
    · exact ⟨rfl, fun slice h => by simp [slices] at h⟩
    · exact ⟨rfl, fun slice h => by simpa [slices, eq_comm] using h⟩

theorem processFrame_step {cfg : PipelineConfig} (hwake : cfg.wakeWordEnabled = false) (p : AudioPipeline) {f : Frame}
    (hmuted : f.muted = false) :
    FrameStep cfg p f (p.processFrame cfg f).1 (slices (p.processFrame cfg f).2.events) := by
  cases hreaches : p.reachesGate cfg f with
  | false =>
    obtain ⟨carry, hframe, hevents, _⟩ := processFrame_idle hmuted hreaches
    rw [hframe, hevents]
    exact .idle (by simp [heardBlock, hreaches]) rfl rfl
  | true =>
    have hheard : p.heardBlock cfg f = p.blockOf cfg f := by rw [heardBlock, if_pos hreaches]
    have hblock : p.heardBlock cfg f ≠ [] := hheard ▸ blockOf_ne_nil hreaches
    obtain ⟨carry, hframe, hevents, _⟩ := processFrame_passed hreaches
    rw [processBlock_ungated hwake] at hframe hevents
    change _ = (((p.counted carry).appended (p.blockOf cfg f)).endpoint cfg f (p.blockOf cfg f)).1 at hframe
    change _ = (((p.counted carry).appended (p.blockOf cfg f)).endpoint cfg f (p.blockOf cfg f)).2.events at hevents
    rw [hframe, hevents, ← hheard, endpoint_eq]
    generalize hq : (p.counted carry).appended (p.heardBlock cfg f) = q
    have hbuffer : q.utteranceBuffer = p.utteranceBuffer.append (p.heardBlock cfg f) := by rw [← hq]; rfl
    have hendpointer : q.endpointer = p.endpointer := by rw [← hq]; rfl
    have hbrackets : Endpointer.Brackets q.endpointer.inUtterance (q.verdict cfg f (p.heardBlock cfg f)) :=
      q.endpointer.onFrame_brackets _ _ _
    have htransition : Endpointing.Transition q.endpointer ⟨.frame _ _ _, q.endpointer.cfg,
        (q.verdict cfg f (p.heardBlock cfg f)).2⟩ (q.verdict cfg f (p.heardBlock cfg f)).1 :=
      Endpointing.onFrame_transition q.endpointer _ _ _
    rw [hendpointer] at hbrackets
    cases houtcome : (q.verdict cfg f (p.heardBlock cfg f)).2 with
    | none => exact .keep hblock (hbrackets.other (by simp [houtcome]) (by simp [houtcome])) hbuffer
    | falseStart => exact .keep hblock (hbrackets.other (by simp [houtcome]) (by simp [houtcome])) hbuffer
    | speechStarted =>
      refine .start hblock (htransition.started houtcome) ?_
      rw [← hbuffer]
      rfl
    | speechEnded =>
      obtain ⟨hstate, hafter⟩ := htransition.ended rfl houtcome
      obtain ⟨hended, hout⟩ := slices_onSpeechEnded cfg (q.judged cfg f (p.heardBlock cfg f)) f
      have hkept : ((q.judged cfg f (p.heardBlock cfg f)).onSpeechEnded cfg f).1.endpointer =
          (q.verdict cfg f (p.heardBlock cfg f)).1 := (onSpeechEnded_effect cfg _ f).1
      rw [hendpointer] at hstate
      refine .stop hblock hstate ?_ ?_ ?_
      · rw [← hafter, ← hkept]
      · rw [← hbuffer]
        exact hended
      · rw [← hbuffer]
        exact hout

end AudioPipeline

/-! ### A recording and the stream it is cut from -/

/-- A frame was heard: when it was captured, and how much had been heard with it. -/
abbrev Mark := Time × Nat

/-- The time between two marks has room for what was heard between them, up to the post-padding, and the sizes
computed from it fit 64 bits. -/
structure KeepsUp (cfg : PipelineConfig) (a b : Mark) : Prop where
  audio : 1000 * ((b.2 : Int) - a.2) ≤ cfg.outputSampleRate.toNat * ((b.1 - a.1) / 1000000 + cfg.postPaddingMs)
  fits : cfg.outputSampleRate.toNat * ((b.1 - a.1) / 1000000 + cfg.prePaddingMs + cfg.postPaddingMs + 1) < 2 ^ 64

instance (cfg : PipelineConfig) (a b : Mark) : Decidable (KeepsUp cfg a b) :=
  decidable_of_iff (_ ∧ _) ⟨fun h => ⟨h.1, h.2⟩, fun h => ⟨h.audio, h.fits⟩⟩

/-- The second frame came no sooner than the audio after the first one lasts. -/
def Advances (sampleRate : UInt32) (a b : Mark) : Prop :=
  1000000000 * ((b.2 : Int) - a.2) ≤ sampleRate.toNat * (b.1 - a.1)

instance (sampleRate : UInt32) (a b : Mark) : Decidable (Advances sampleRate a b) :=
  inferInstanceAs (Decidable (_ ≤ _))

instance (sampleRate : UInt32) : IsTrans Mark (Advances sampleRate) where
  trans a b c hab hbc := by
    unfold Advances at *
    have hsplit : (sampleRate.toNat : Int) * (c.1 - a.1) =
        sampleRate.toNat * (b.1 - a.1) + sampleRate.toNat * (c.1 - b.1) := by ring
    rw [hsplit]
    linarith

/-- Times that advance from frame to frame by the durations of the frames keep up with the audio, if there is a
post-padding or the times are whole milliseconds. -/
theorem keepsUp_of_advances {cfg : PipelineConfig} {marks : List Mark}
    (hadvance : marks.IsChain (Advances cfg.outputSampleRate)) (hnonneg : 0 ≤ cfg.postPaddingMs)
    (hwhole : 1 ≤ cfg.postPaddingMs ∨ ∀ m ∈ marks, (1000000 : Int) ∣ m.1)
    (hfits : marks.Pairwise fun a b => (cfg.outputSampleRate.toNat : Int) *
      ((b.1 - a.1) / 1000000 + cfg.prePaddingMs + cfg.postPaddingMs + 1) < 2 ^ 64) :
    marks.Pairwise (KeepsUp cfg) := by
  have hpairs := List.isChain_iff_pairwise.1 hadvance
  refine (hpairs.and hfits).imp_of_mem fun {a b} ha hb h => ⟨?_, h.2⟩
  have hrate : (0 : Int) ≤ cfg.outputSampleRate.toNat := Int.natCast_nonneg _
  -- the milliseconds and the post-padding are no less than the exact time
  have htime : b.1 - a.1 ≤ 1000000 * ((b.1 - a.1) / 1000000 + cfg.postPaddingMs) := by
    rcases hwhole with hpost | hwhole
    · have := Int.lt_mul_ediv_self_add (x := b.1 - a.1) (k := 1000000) (by norm_num)
      linarith
    · rw [Int.mul_add, Int.mul_ediv_cancel' (Int.dvd_sub (hwhole b hb) (hwhole a ha))]
      linarith
  have hscaled := Int.mul_le_mul_of_nonneg_left htime hrate
  have hexact : (cfg.outputSampleRate.toNat : Int) * (1000000 * ((b.1 - a.1) / 1000000 + cfg.postPaddingMs)) =
      1000000 * (cfg.outputSampleRate.toNat * ((b.1 - a.1) / 1000000 + cfg.postPaddingMs)) := by ring
  have hadvances : 1000000000 * ((b.2 : Int) - a.2) ≤ cfg.outputSampleRate.toNat * (b.1 - a.1) := h.1
  linarith

namespace UtteranceBuffer

/-- The recording that began at a mark: it is the end of the stream, at least from the mark on unless it is cut to
the longest duration, and begins no earlier than the pre-padding before the mark. -/
structure Spans (u : UtteranceBuffer) (stream : List Int16) (begun : Mark) : Prop where
  suffix : u.activeSamples <:+ stream
  within : begun.2 ≤ stream.length
  held : stream.length - begun.2 ≤ u.activeSamples.length ∨ (0 < u.cap ∧ u.activeSamples.length = u.cap)
  timed : ∃ cut : Nat, u.activeStartedAt = begun.1 + Milliseconds.toTime (cut - u.prePaddingMs) ∧
    u.sampleRate.toNat * (cut : Int) + 1000 * u.activeSamples.length ≤
      u.sampleRate.toNat * u.prePaddingMs + 1000 * ((stream.length : Int) - begun.2)

variable {u : UtteranceBuffer} {stream samples : List Int16} {begun : Mark}

lemma Spans.append (h : u.Spans stream begun) (hrecording : u.recording = true) (hsamples : samples ≠ []) :
    (u.append samples).Spans (stream ++ samples) begun := by
  obtain ⟨hactive, hstarted, _⟩ := append_of_recording hrecording hsamples
  obtain ⟨hlimits, _⟩ := append_limits u samples
  obtain ⟨cut, hcut, hlength⟩ := h.timed
  have hlen := length_capped u.cap (u.activeSamples ++ samples)
  rw [← hactive, List.length_append] at hlen
  have hwithin := h.within
  refine ⟨?_, ?_, ?_, ?_⟩
  · rw [hactive]
    exact (capped_suffix _ _).trans (suffix_append_append h.suffix samples)
  · rw [List.length_append]
    omega
  · rw [u.append_cap, List.length_append]
    rcases h.held with hheld | ⟨hcap, hfull⟩
    · split at hlen <;> omega
    · rw [if_pos hcap] at hlen
      right
      omega
  · -- what is dropped at the front is no less than the milliseconds by which the start moves on
    have hle : (u.append samples).activeSamples.length ≤ u.activeSamples.length + samples.length := by
      split at hlen <;> omega
    rw [List.length_append] at hstarted
    generalize hdrop : u.activeSamples.length + samples.length - (u.append samples).activeSamples.length = dropped
      at hstarted
    have hmoved := Nat.mul_div_le (dropped * 1000) u.sampleRate.toNat
    have hcast : (dropped : Int) * 1000 / u.sampleRate.toNat = (dropped * 1000 / u.sampleRate.toNat : Nat) := by
      push_cast
      rfl
    rw [hcast] at hstarted
    generalize dropped * 1000 / u.sampleRate.toNat = moved at hstarted hmoved
    rw [hlimits.sampleRate, hlimits.prePaddingMs]
    refine ⟨cut + moved, ?_, ?_⟩
    · rw [hstarted, hcut]
      unfold Milliseconds.toTime
      push_cast
      ring
    · have hmoved' : (u.sampleRate.toNat : Int) * moved ≤ dropped * 1000 := by exact_mod_cast hmoved
      rw [List.length_append]
      push_cast
      rw [Int.mul_add]
      omega

lemma toSize_le {n : Int} (hnonneg : 0 ≤ n) : toSize n ≤ n.toNat := by
  unfold toSize
  omega

/-- A recording begins with the pre-buffer, which is no longer than the pre-padding. -/
lemma spans_onSpeechStarted (now : Time) (hpre : u.preBuffer <:+ stream)
    (hlength : u.preBuffer.length ≤ u.prePadCapacity) (hnonneg : 0 ≤ u.prePaddingMs) :
    (u.onSpeechStarted (now - u.prePaddingMs.toTime) now).Spans stream (now, stream.length) := by
  refine ⟨hpre, le_rfl, Or.inl ?_, 0, ?_, ?_⟩
  · rw [Nat.sub_self]
    exact Nat.zero_le _
  · simp only [onSpeechStarted, Milliseconds.toTime]
    push_cast
    ring
  · have hsize := toSize_le hnonneg
    have hcapacity : 1000 * u.preBuffer.length ≤ u.sampleRate.toNat * u.prePaddingMs.toNat := by
      calc 1000 * u.preBuffer.length ≤ 1000 * (u.sampleRate.toNat * toSize u.prePaddingMs % 2 ^ 64 / 1000) :=
            Nat.mul_le_mul_left _ hlength
        _ ≤ u.sampleRate.toNat * toSize u.prePaddingMs % 2 ^ 64 := Nat.mul_div_le _ _
        _ ≤ u.sampleRate.toNat * toSize u.prePaddingMs := Nat.mod_le _ _
        _ ≤ u.sampleRate.toNat * u.prePaddingMs.toNat := Nat.mul_le_mul_left _ hsize
    have hcast : ((u.prePaddingMs.toNat : Nat) : Int) = u.prePaddingMs := Int.toNat_of_nonneg hnonneg
    simp only [onSpeechStarted, Int.sub_self, Nat.cast_zero, Int.mul_zero, Int.zero_add, Int.add_zero]
    rw [← hcast]
    exact_mod_cast hcapacity

/-- The quotient that is rounded toward zero is between the one rounded down and the next integer. -/
lemma ediv_le_tdiv (x : Int) {k : Int} (hk : 0 < k) : x / k ≤ x.tdiv k ∧ x.tdiv k ≤ x / k + 1 := by
  rw [Int.tdiv_eq_ediv, Int.sign_eq_one_of_pos hk]
  split <;> omega

lemma le_samplesIn {sampleRate : UInt32} {d : Int} {n : Nat} (hlow : 1000 * (n : Int) ≤ sampleRate.toNat * d)
    (hhigh : sampleRate.toNat * d < 2 ^ 64) : n ≤ samplesIn sampleRate d := by
  by_cases hn : n = 0
  · rw [hn]
    exact Nat.zero_le _
  · have hproduct : 0 < (sampleRate.toNat : Int) * d := by omega
    have hrate : 0 < (sampleRate.toNat : Int) := by
      rcases Nat.eq_zero_or_pos sampleRate.toNat with hzero | hpos
      · simp [hzero] at hproduct
      · exact_mod_cast hpos
    have hd : 0 < d := (mul_pos_iff_of_pos_left hrate).1 hproduct
    have hle : d ≤ sampleRate.toNat * d := le_mul_of_one_le_left hd.le hrate
    have hsize : toSize d = d.toNat := by
      rw [toSize, Int.emod_eq_of_lt hd.le (by omega)]
    have hcast : ((sampleRate.toNat * d.toNat : Nat) : Int) = sampleRate.toNat * d := by
      push_cast
      rw [Int.toNat_of_nonneg hd.le]
    rw [samplesIn, hsize, Nat.mod_eq_of_lt (by omega), Nat.le_div_iff_mul_le (by norm_num)]
    omega

/-- If the times keep up with what is heard, the cut at the end is behind the end of the recording. -/
lemma Spans.uncut {cfg : PipelineConfig} (h : u.Spans stream begun) (hrecording : u.recording = true)
    (hrate : u.sampleRate = cfg.outputSampleRate) (hpre : u.prePaddingMs = cfg.prePaddingMs)
    (hpost : u.postPaddingMs = cfg.postPaddingMs) {now : Time} (hkeeps : KeepsUp cfg begun (now, stream.length))
    (released : List Nat) :
    ∀ slice, (u.onSpeechEnded now released).2 = some slice → slice.samples = u.activeSamples := by
  intro slice hslice
  obtain ⟨cut, hstarted, hlength⟩ := h.timed
  obtain ⟨haudio, hfits⟩ := hkeeps
  rw [← hrate, ← hpost] at haudio hfits
  rw [← hpre] at hfits
  have hspan : now - u.activeStartedAt = now - begun.1 + (u.prePaddingMs - cut) * 1000000 := by
    rw [hstarted, Milliseconds.toTime]
    ring
  obtain ⟨hlow, hhigh⟩ := ediv_le_tdiv (now - u.activeStartedAt) (k := 1000000) (by norm_num)
  rw [hspan, Int.add_mul_ediv_right _ _ (by norm_num), ← hspan] at hlow hhigh
  have hrateNonneg : (0 : Int) ≤ u.sampleRate.toNat := Int.natCast_nonneg _
  have htarget : u.activeSamples.length ≤
      samplesIn u.sampleRate (millisecondsBetween u.activeStartedAt now + u.postPaddingMs) := by
    apply le_samplesIn
    · have hscaled := Int.mul_le_mul_of_nonneg_left (Int.add_le_add_right hlow u.postPaddingMs) hrateNonneg
      refine le_trans ?_ hscaled
      linarith
    · refine lt_of_le_of_lt (Int.mul_le_mul_of_nonneg_left ?_ hrateNonneg) hfits
      have hcut : (0 : Int) ≤ cut := Int.natCast_nonneg _
      unfold millisecondsBetween
      linarith
  rw [onSpeechEnded, if_neg (by simp [hrecording]), Option.some.injEq] at hslice
  subst hslice
  exact if_neg fun hcut => absurd hcut.2 (not_lt.2 htarget)

/-- The buffer has the paddings and the rate of the configuration. -/
structure Configured (cfg : PipelineConfig) (u : UtteranceBuffer) : Prop where
  sampleRate : u.sampleRate = cfg.outputSampleRate
  prePaddingMs : u.prePaddingMs = cfg.prePaddingMs
  postPaddingMs : u.postPaddingMs = cfg.postPaddingMs
  maxDurationMs : u.maxDurationMs = cfg.maxDurationMs

lemma Configured.append {cfg : PipelineConfig} (h : Configured cfg u) (samples : List Int16) :
    Configured cfg (u.append samples) := by
  obtain ⟨hrate, hpre, hpost, hmax⟩ := h
  unfold UtteranceBuffer.append
  simp only
  split_ifs <;> exact ⟨hrate, hpre, hpost, hmax⟩

lemma Configured.onSpeechStarted {cfg : PipelineConfig} (h : Configured cfg u) (speechStartedAt now : Time) :
    Configured cfg (u.onSpeechStarted speechStartedAt now) :=
  ⟨h.sampleRate, h.prePaddingMs, h.postPaddingMs, h.maxDurationMs⟩

lemma Configured.onSpeechEnded {cfg : PipelineConfig} (h : Configured cfg u) (now : Time) (released : List Nat) :
    Configured cfg (u.onSpeechEnded now released).1 := by
  obtain ⟨hrate, hpre, hpost, hmax⟩ := h
  unfold UtteranceBuffer.onSpeechEnded track
  simp only
  split_ifs <;> exact ⟨hrate, hpre, hpost, hmax⟩

/-- The pre-buffer is the end of the stream, within its capacity, and empty during a recording. -/
structure Rolls (u : UtteranceBuffer) (stream : List Int16) : Prop where
  suffix : u.preBuffer <:+ stream
  length : u.preBuffer.length ≤ u.prePadCapacity
  recording : u.recording = true → u.preBuffer = []

lemma Rolls.append (h : u.Rolls stream) (hsamples : samples ≠ []) : (u.append samples).Rolls (stream ++ samples) := by
  obtain ⟨hlimits, hrecording, _⟩ := append_limits u samples
  have hcapacity : (u.append samples).prePadCapacity = u.prePadCapacity := hlimits.prePadCapacity
  cases hopen : u.recording with
  | true =>
    have hpre : (u.append samples).preBuffer = [] := (append_of_recording hopen hsamples).2.2.trans (h.recording hopen)
    exact ⟨hpre ▸ List.nil_suffix, hpre ▸ Nat.zero_le _, fun _ => hpre⟩
  | false =>
    have hpre : (u.append samples).preBuffer = lastOf u.prePadCapacity (u.preBuffer ++ samples) := by
      rw [append_of_idle hopen, if_neg hsamples]
    refine ⟨?_, ?_, fun hrec => absurd (hrecording.symm.trans hrec) (by simp [hopen])⟩
    · rw [hpre]
      exact (lastOf_suffix _ _).trans (suffix_append_append h.suffix samples)
    · rw [hpre, hcapacity, length_lastOf]
      exact Nat.min_le_left _ _

lemma rolls_onSpeechStarted (u : UtteranceBuffer) (stream : List Int16) (speechStartedAt now : Time) :
    (u.onSpeechStarted speechStartedAt now).Rolls stream := ⟨List.nil_suffix, Nat.zero_le _, fun _ => rfl⟩

lemma Rolls.onSpeechEnded (h : u.Rolls stream) (now : Time) (released : List Nat) :
    (u.onSpeechEnded now released).1.Rolls stream := by
  obtain ⟨hlimits, hpreBuffer, hidle⟩ := onSpeechEnded_limits u now released
  refine ⟨?_, ?_, fun hopen => absurd (hidle.symm.trans hopen) Bool.false_ne_true⟩
  · rw [hpreBuffer]
    exact h.suffix
  · rw [hpreBuffer, hlimits.prePadCapacity]
    exact h.length

end UtteranceBuffer

/-! ### What is published of an utterance -/

/-- A slice with its place in the stream: where the recording that it was cut from begins, how much had been heard
with the frame at which the endpointer entered the last quiet phase, how much when it ended, and how much of that
was the last frame's. -/
structure PublishedSlice where
  slice : AudioSlice
  start : Nat
  quietAt : Nat
  heard : Nat
  lastBlock : Nat
  deriving DecidableEq, Repr

namespace PublishedSlice

/-- The samples of the slice that were heard after the last quiet phase had been entered. -/
def trailing (x : PublishedSlice) : Nat := x.slice.samples.length - (x.quietAt - x.start)

/-- The post-padding and one frame. -/
def allowed (cfg : PipelineConfig) (x : PublishedSlice) : Nat :=
  samplesIn cfg.outputSampleRate cfg.postPaddingMs + x.lastBlock

/-- What was heard of the last quiet phase after it had been entered, or else the longest recording, is no more than
what may trail. -/
def ShortQuiet (cfg : PipelineConfig) (x : PublishedSlice) : Prop :=
  x.heard - x.quietAt ≤ x.allowed cfg ∨
    (0 < samplesIn cfg.outputSampleRate cfg.maxDurationMs ∧
      samplesIn cfg.outputSampleRate cfg.maxDurationMs ≤ x.allowed cfg)

end PublishedSlice

/-- The pipeline with what it has heard: the stream of samples, a mark for each frame, how much it had heard when the
endpointer last entered a quiet phase, and the slices published. -/
structure Hearing where
  pipeline : AudioPipeline
  stream : List Int16 := []
  marks : List Mark := []
  quietAt : Nat := 0
  published : List PublishedSlice := []
  deriving DecidableEq, Repr

namespace Hearing

/-- How much has been heard at the start of the last quiet phase, after a frame. -/
def quietAfter (cfg : PipelineConfig) (s : Hearing) (f : Frame) : Nat :=
  if s.pipeline.endpointer.state = .speaking ∧ (s.pipeline.processFrame cfg f).1.endpointer.state = .endpoint then
    (s.stream ++ s.pipeline.heardBlock cfg f).length
  else s.quietAt

def hear (cfg : PipelineConfig) (s : Hearing) (f : Frame) : Hearing :=
  let r := s.pipeline.processFrame cfg f
  let block := s.pipeline.heardBlock cfg f
  let stream := s.stream ++ block
  { pipeline := r.1
    stream := stream
    marks := if block = [] then s.marks else s.marks ++ [(f.capturedAt, stream.length)]
    quietAt := s.quietAfter cfg f
    published := s.published ++ (AudioPipeline.slices r.2.events).map fun slice =>
      { slice := slice
        start := stream.length - (s.pipeline.utteranceBuffer.append block).activeSamples.length
        quietAt := s.quietAfter cfg f
        heard := stream.length
        lastBlock := block.length } }

/-- A slice is a piece of the stream, and what trails in it is what the condition says. -/
structure Settled (cfg : PipelineConfig) (stream : List Int16) (marks : List Mark) (x : PublishedSlice) : Prop where
  within : x.start + x.slice.samples.length ≤ stream.length
  piece : x.slice.samples = (stream.drop x.start).take x.slice.samples.length
  enough : x.ShortQuiet cfg → x.trailing ≤ x.allowed cfg
  needed : marks.Pairwise (KeepsUp cfg) → x.trailing ≤ x.allowed cfg → x.ShortQuiet cfg

/-- The utterance under way is being recorded since one of the frames, and its quiet phase is later than that. -/
def UtteranceHeard (s : Hearing) : Prop :=
  s.pipeline.endpointer.inUtterance = true → s.pipeline.utteranceBuffer.recording = true ∧
    ∃ begun ∈ s.marks, s.pipeline.utteranceBuffer.Spans s.stream begun ∧
      (s.pipeline.endpointer.state = .endpoint → begun.2 ≤ s.quietAt ∧ s.quietAt ≤ s.stream.length)

structure Heard (cfg : PipelineConfig) (s : Hearing) : Prop where
  configured : s.pipeline.utteranceBuffer.Configured cfg
  rolls : s.pipeline.utteranceBuffer.Rolls s.stream
  utterance : s.UtteranceHeard
  settled : ∀ x ∈ s.published, Settled cfg s.stream s.marks x

variable {cfg : PipelineConfig} {s : Hearing} {f : Frame} {stream : List Int16} {marks : List Mark}
  {x : PublishedSlice}

lemma Settled.later (h : Settled cfg stream marks x) (block : List Int16) {marks' : List Mark}
    (hmarks : marks.Sublist marks') : Settled cfg (stream ++ block) marks' x := by
  have hwithin := h.within
  refine ⟨?_, ?_, h.enough, fun hkeeps => h.needed (hkeeps.sublist hmarks)⟩
  · rw [List.length_append]
    omega
  · rw [List.drop_append_of_le_length (by omega), List.take_append_of_le_length (by rw [List.length_drop]; omega)]
    exact h.piece

lemma settled_slice {u : UtteranceBuffer} {begun : Mark} {quietAt : Nat} {slice : AudioSlice} {now : Time}
    (hspans : u.Spans stream begun) (hconfigured : u.Configured cfg) (hrecording : u.recording = true)
    (hcap : 0 < u.cap → u.activeSamples.length ≤ u.cap) (hquiet : begun.2 ≤ quietAt ∧ quietAt ≤ stream.length)
    (hbegun : begun ∈ marks) (released : List Nat) (hslice : (u.onSpeechEnded now released).2 = some slice)
    (lastBlock : Nat) :
    Settled cfg stream (marks ++ [(now, stream.length)])
      { slice := slice, start := stream.length - u.activeSamples.length, quietAt := quietAt, heard := stream.length,
        lastBlock := lastBlock } := by
  have hbegins := (u.onSpeechEnded_slice now released).2 slice hslice
  have hle := hbegins.length_le
  have hactive := hspans.suffix.length_le
  have hcapEq : samplesIn cfg.outputSampleRate cfg.maxDurationMs = u.cap := by
    rw [UtteranceBuffer.cap, hconfigured.sampleRate, hconfigured.maxDurationMs]
  refine ⟨?_, ?_, ?_, ?_⟩
  · simp only
    omega
  · simp only
    rw [← List.suffix_iff_eq_drop.1 hspans.suffix]
    exact List.prefix_iff_eq_take.1 hbegins
  · rintro (hshort | ⟨hpos, hshort⟩)
    · simp only [PublishedSlice.trailing] at hshort ⊢
      omega
    · have := hcap (hcapEq ▸ hpos)
      simp only [PublishedSlice.trailing] at hshort ⊢
      omega
  · intro hkeeps htrailing
    have hmark : KeepsUp cfg begun (now, stream.length) :=
      (List.pairwise_append.1 hkeeps).2.2 begun hbegun _ (List.mem_singleton_self _)
    have hwhole := hspans.uncut hrecording hconfigured.sampleRate hconfigured.prePaddingMs hconfigured.postPaddingMs
      hmark released slice hslice
    simp only [PublishedSlice.trailing, hwhole] at htrailing
    unfold PublishedSlice.ShortQuiet
    rw [hcapEq]
    simp only
    -- without a cut in the tail the slice has the whole quiet phase, or is as long as a recording may be
    rcases hspans.held with hheld | ⟨hpos, hfull⟩ <;> omega

lemma quietAfter_of_not (h : ¬(s.pipeline.endpointer.state = .speaking ∧
    (s.pipeline.processFrame cfg f).1.endpointer.state = .endpoint)) : s.quietAfter cfg f = s.quietAt := if_neg h

@[simp] lemma hear_pipeline : (s.hear cfg f).pipeline = (s.pipeline.processFrame cfg f).1 := rfl

@[simp] lemma hear_stream : (s.hear cfg f).stream = s.stream ++ s.pipeline.heardBlock cfg f := rfl

@[simp] lemma hear_quietAt : (s.hear cfg f).quietAt = s.quietAfter cfg f := rfl

lemma marks_hear (hblock : s.pipeline.heardBlock cfg f ≠ []) :
    (s.hear cfg f).marks = s.marks ++ [(f.capturedAt, (s.hear cfg f).stream.length)] := if_neg hblock

lemma published_hear_of_nil (hout : AudioPipeline.slices (s.pipeline.processFrame cfg f).2.events = []) :
    (s.hear cfg f).published = s.published := by simp [Hearing.hear, hout]

lemma UtteranceHeard.keep (h : s.UtteranceHeard) (hblock : s.pipeline.heardBlock cfg f ≠ [])
    (hutterance : (s.pipeline.processFrame cfg f).1.endpointer.inUtterance = s.pipeline.endpointer.inUtterance)
    (hbuffer : (s.pipeline.processFrame cfg f).1.utteranceBuffer =
      s.pipeline.utteranceBuffer.append (s.pipeline.heardBlock cfg f)) : (s.hear cfg f).UtteranceHeard := by
  intro hopen
  rw [hear_pipeline, hutterance] at hopen
  obtain ⟨hrecording, begun, hbegun, hspans, hquiet⟩ := h hopen
  refine ⟨?_, begun, ?_, ?_, fun hstate => ?_⟩
  · rw [hear_pipeline, hbuffer, (UtteranceBuffer.append_limits _ _).2.1]
    exact hrecording
  · rw [marks_hear hblock]
    exact List.mem_append_left _ hbegun
  · rw [hear_pipeline, hear_stream, hbuffer]
    exact hspans.append hrecording hblock
  · have hwithin := hspans.within
    rw [hear_quietAt, hear_stream, List.length_append]
    unfold quietAfter
    split
    · rw [List.length_append]
      omega
    · -- the quiet phase was entered before
      rename_i hnot
      have hbefore : s.pipeline.endpointer.state = .endpoint := by
        rw [hear_pipeline] at hstate
        cases hs : s.pipeline.endpointer.state <;> simp_all [Endpointer.inUtterance]
      have := hquiet hbefore
      omega

lemma utteranceHeard_start (hblock : s.pipeline.heardBlock cfg f ≠ [])
    (hstate : (s.pipeline.processFrame cfg f).1.endpointer.state = .speaking)
    (hrecording : (s.pipeline.processFrame cfg f).1.utteranceBuffer.recording = true)
    (hspans : (s.pipeline.processFrame cfg f).1.utteranceBuffer.Spans (s.hear cfg f).stream
      (f.capturedAt, (s.hear cfg f).stream.length)) : (s.hear cfg f).UtteranceHeard := by
  intro _
  refine ⟨hrecording, _, ?_, hspans, fun hquiet => ?_⟩
  · rw [marks_hear hblock]
    exact List.mem_append_right _ (List.mem_singleton_self _)
  · rw [hear_pipeline, hstate] at hquiet
    cases hquiet

lemma Heard.later (h : Heard cfg s) (hblock : s.pipeline.heardBlock cfg f ≠ []) (hx : x ∈ s.published) :
    Settled cfg (s.hear cfg f).stream (s.hear cfg f).marks x := by
  rw [marks_hear hblock]
  exact (h.settled x hx).later _ (List.sublist_append_left _ _)

lemma Heard.stop (h : Heard cfg s) (hblock : s.pipeline.heardBlock cfg f ≠ [])
    (hstate : s.pipeline.endpointer.state = .endpoint) {slice : AudioSlice}
    (hslice : ((s.pipeline.utteranceBuffer.append (s.pipeline.heardBlock cfg f)).onSpeechEnded f.capturedAt
      f.released).2 = some slice) :
    Settled cfg (s.hear cfg f).stream (s.hear cfg f).marks
      { slice := slice
        start := (s.hear cfg f).stream.length -
          (s.pipeline.utteranceBuffer.append (s.pipeline.heardBlock cfg f)).activeSamples.length
        quietAt := s.quietAfter cfg f
        heard := (s.hear cfg f).stream.length
        lastBlock := (s.pipeline.heardBlock cfg f).length } := by
  obtain ⟨hrecording, begun, hbegun, hspans, hquiet⟩ := h.utterance (by simp [Endpointer.inUtterance, hstate])
  have hrecording' := (UtteranceBuffer.append_limits s.pipeline.utteranceBuffer (s.pipeline.heardBlock cfg f)).2.1
  rw [hrecording] at hrecording'
  have hcap : 0 < (s.pipeline.utteranceBuffer.append (s.pipeline.heardBlock cfg f)).cap →
      (s.pipeline.utteranceBuffer.append (s.pipeline.heardBlock cfg f)).activeSamples.length ≤
        (s.pipeline.utteranceBuffer.append (s.pipeline.heardBlock cfg f)).cap := by
    rw [UtteranceBuffer.append_cap, (UtteranceBuffer.append_of_recording hrecording hblock).1]
    exact fun hpos => UtteranceBuffer.length_capped_le hpos _
  have hquiet' : begun.2 ≤ s.quietAfter cfg f ∧ s.quietAfter cfg f ≤ (s.hear cfg f).stream.length := by
    rw [quietAfter_of_not (by simp [hstate]), hear_stream, List.length_append]
    have hbefore := hquiet hstate
    omega
  rw [marks_hear hblock]
  exact settled_slice (hspans.append hrecording hblock) (h.configured.append _) hrecording' hcap hquiet' hbegun
    f.released hslice _

lemma Heard.hear (h : Heard cfg s) (hwake : cfg.wakeWordEnabled = false) (hmuted : f.muted = false)
    (hpre : 0 ≤ cfg.prePaddingMs) : Heard cfg (s.hear cfg f) := by
  have hstep := AudioPipeline.processFrame_step hwake s.pipeline hmuted
  generalize hout : AudioPipeline.slices (s.pipeline.processFrame cfg f).2.events = out at hstep
  have hconfigured := h.configured.append (s.pipeline.heardBlock cfg f)
  cases hstep with
  | idle hblock hendpointer hbuffer =>
    have hquiet : s.quietAfter cfg f = s.quietAt := quietAfter_of_not (by rw [hendpointer]; simp_all)
    have hsame : s.hear cfg f = { s with pipeline := (s.pipeline.processFrame cfg f).1 } := by
      simp [Hearing.hear, hblock, hquiet, hout]
    rw [hsame]
    refine ⟨hbuffer ▸ h.configured, hbuffer ▸ h.rolls, ?_, h.settled⟩
    unfold UtteranceHeard
    simp only [hbuffer, hendpointer]
    exact h.utterance
  | keep hblock hutterance hbuffer =>
    refine ⟨?_, ?_, h.utterance.keep hblock hutterance hbuffer, fun x hx => ?_⟩
    · rw [hear_pipeline, hbuffer]
      exact hconfigured
    · rw [hear_pipeline, hear_stream, hbuffer]
      exact h.rolls.append hblock
    · rw [published_hear_of_nil hout] at hx
      exact h.later hblock hx
  | start hblock hstate hbuffer =>
    have hrolls := h.rolls.append hblock
    refine ⟨?_, ?_, ?_, fun x hx => ?_⟩
    · rw [hear_pipeline, hbuffer]
      exact hconfigured.onSpeechStarted _ _
    · rw [hear_pipeline, hbuffer]
      exact UtteranceBuffer.rolls_onSpeechStarted _ _ _ _
    · have hspans := UtteranceBuffer.spans_onSpeechStarted f.capturedAt hrolls.suffix hrolls.length
        (hconfigured.prePaddingMs ▸ hpre)
      rw [hconfigured.prePaddingMs] at hspans
      exact utteranceHeard_start hblock hstate (by rw [hbuffer]; rfl) (hbuffer ▸ hspans)
    · rw [published_hear_of_nil hout] at hx
      exact h.later hblock hx
  | stop hblock hstate hafter hbuffer hslices =>
    refine ⟨?_, ?_, fun hopen => ?_, fun x hx => ?_⟩
    · rw [hear_pipeline, hbuffer]
      exact hconfigured.onSpeechEnded _ _
    · rw [hear_pipeline, hear_stream, hbuffer]
      exact (h.rolls.append hblock).onSpeechEnded _ _
    · simp [Endpointer.inUtterance, hafter] at hopen
    · simp only [Hearing.hear, hout] at hx
      rcases List.mem_append.1 hx with hx | hx
      · exact h.later hblock hx
      · obtain ⟨slice, hslice, rfl⟩ := List.mem_map.1 hx
        exact h.stop hblock hstate (hslices slice hslice)

/-- A pipeline before its first frame. -/
def create (cfg : PipelineConfig) (liveSink : Bool) : Hearing := { pipeline := .create cfg liveSink }

lemma heard_create (cfg : PipelineConfig) (liveSink : Bool) : Heard cfg (create cfg liveSink) :=
  ⟨⟨rfl, rfl, rfl, rfl⟩, ⟨List.nil_suffix, Nat.zero_le _, fun _ => rfl⟩, fun h => by simp [create, AudioPipeline.create,
    Endpointer.inUtterance] at h, fun x hx => by simp [create] at hx⟩

/-- Every slice is a piece of what was heard. In frames that are not muted and wait for no wake word, what trails
in it is the post-padding and a frame at most if the quiet phase that ended the utterance was no longer than that;
and only then, if the times of the frames keep up with their audio. -/
theorem trailing_silence (cfg : PipelineConfig) (liveSink : Bool) (frames : List Frame)
    (hwake : cfg.wakeWordEnabled = false) (hpre : 0 ≤ cfg.prePaddingMs) (hmuted : ∀ f ∈ frames, f.muted = false) :
    let s := Runs.exec (hear cfg) (create cfg liveSink) frames
    ∀ x ∈ s.published,
      x.slice.samples = (s.stream.drop x.start).take x.slice.samples.length ∧
        (x.ShortQuiet cfg → x.trailing ≤ x.allowed cfg) ∧
        (s.marks.Pairwise (KeepsUp cfg) → (x.trailing ≤ x.allowed cfg ↔ x.ShortQuiet cfg)) := by
  intro s x hx
  have hheard : Heard cfg s := (Runs.Along.of_forall hmuted _).invariant (Heard cfg)
    (fun s f hs hf => hs.hear hwake hf hpre) (heard_create cfg liveSink)
  obtain ⟨_, hpiece, henough, hneeded⟩ := hheard.settled x hx
  exact ⟨hpiece, henough, fun hkeeps => ⟨hneeded hkeeps, henough⟩⟩

/-- Frames of a millisecond: the first `spoken` of them with speech, the others without. -/
def spokenFrames (spoken silent : Nat) : List Frame :=
  (List.range (spoken + silent)).map fun i =>
    { capturedAt := 1000000 * (i + 1), resampled := List.replicate 16 0,
      probability := some (if i < spoken then 1 else 0) }

def shortHangover : PipelineConfig :=
  { endpointer := { minSpeechMs := 2, hangoverMs := 3 }, prePaddingMs := 2, postPaddingMs := 2 }

/-- Of a hangover of three frames two trail, within the post-padding. -/
theorem short_hangover_trails :
    let s := Runs.exec (hear shortHangover) (create shortHangover false) (spokenFrames 3 3)
    s.published.map PublishedSlice.trailing = [32] ∧ ∀ x ∈ s.published,
      x.slice.samples = (s.stream.drop x.start).take x.slice.samples.length ∧
        (x.ShortQuiet shortHangover → x.trailing ≤ x.allowed shortHangover) ∧
        (s.marks.Pairwise (KeepsUp shortHangover) →
          (x.trailing ≤ x.allowed shortHangover ↔ x.ShortQuiet shortHangover)) :=
  ⟨by decide +kernel, trailing_silence shortHangover false (spokenFrames 3 3) rfl (by decide) (by decide)⟩

def longHangover : PipelineConfig :=
  { endpointer := { minSpeechMs := 2, hangoverMs := 6 }, prePaddingMs := 2, postPaddingMs := 1 }

/-- Of a hangover of six frames five trail, although the post-padding is one. -/
theorem long_hangover_trails :
    let s := Runs.exec (hear longHangover) (create longHangover false) (spokenFrames 3 6)
    s.marks.IsChain (Advances longHangover.outputSampleRate) ∧ s.marks.Pairwise (KeepsUp longHangover) ∧
      ∃ x ∈ s.published, x.trailing = 80 ∧ x.allowed longHangover = 32 := by
  decide +kernel

end Hearing

end Acva
