import Acva.Config.Load
import Acva.Lib.Runs

/-!
# Capturing

`CaptureEngine::on_input` gets a block of samples from the device or from the recording under test. It pushes a frame of
bounded size, or counts the block as gated or as an overrun, and ticks the clock.
-/

namespace Acva

def kMaxCaptureSamples : Nat := 1024

def kCaptureRingCapacity : Nat := 256

structure AudioFrame where
  frameIndex : Nat := 0
  count : UInt32 := 0
  capturedAt : Time := 0
  samples : List Int16 := List.replicate kMaxCaptureSamples 0
  deriving DecidableEq, Repr

def AudioFrame.view (f : AudioFrame) : List Int16 := f.samples.take f.count.toNat

/-- The frames that the consumer has not popped yet. One slot of the ring stays free. -/
structure CaptureRing where
  frames : List AudioFrame := []
  fits : frames.length ≤ kCaptureRingCapacity - 1 := by decide
  deriving DecidableEq, Repr

def CaptureRing.push (r : CaptureRing) (f : AudioFrame) : Option CaptureRing :=
  if h : r.frames.length = kCaptureRingCapacity - 1 then none
  else some ⟨r.frames ++ [f], by
    have hfits := r.fits
    rw [List.length_append, List.length_singleton]
    omega⟩

def CaptureRing.pop (r : CaptureRing) : CaptureRing :=
  ⟨r.frames.tail, by
    have hfits := r.fits
    rw [List.length_tail]
    omega⟩

/-- The clock counts no frames before its first tick. -/
structure MonotonicAudioClock where
  totalFrames : Nat := 0
  sampleRate : UInt32 := 0
  anchorFrame : Nat := 0
  anchorSteadyNs : Time := 0
  anchored : Bool := false
  fresh : anchored = false → totalFrames = 0 := by decide
  deriving DecidableEq, Repr

def MonotonicAudioClock.onCaptureFrames (c : MonotonicAudioClock) (frameCount : Nat) (sampleRate : UInt32)
    (now : Time) : MonotonicAudioClock :=
  if sampleRate = 0 ∨ frameCount = 0 then c
  else if !c.anchored then
    { sampleRate := sampleRate, anchorFrame := 0, anchorSteadyNs := now, totalFrames := frameCount, anchored := true,
      fresh := by simp }
  else
    { c with
      totalFrames := c.totalFrames + frameCount
      anchorFrame := c.totalFrames + frameCount
      anchorSteadyNs := now
      anchored := true
      fresh := by simp }

structure CaptureEngine where
  ring : CaptureRing := {}
  clock : MonotonicAudioClock := {}
  framesCaptured : Nat := 0
  ringOverruns : Nat := 0
  framesGated : Nat := 0
  deriving DecidableEq, Repr

namespace CaptureEngine

/-- `input` is absent for a null pointer, `gate` if there is no gate, and else what `should_drop_now` says. The times
are the readings of the callback's clock and of the clock's own. -/
def onInput (cfg : Config.AudioConfig) (e : CaptureEngine) (input : Option (List Int16)) (gate : Option Bool)
    (now tick : Time) : CaptureEngine :=
  match input with
  | none => e
  | some input =>
    if input.length = 0 then e
    else
      let take := min input.length kMaxCaptureSamples
      if gate = some true then
        { e with
          framesGated := e.framesGated + take
          clock := e.clock.onCaptureFrames take cfg.sampleRateHz tick }
      else
        let frame : AudioFrame :=
          { frameIndex := e.clock.totalFrames
            count := UInt32.ofNat take
            capturedAt := now
            samples := input.take take ++ List.replicate (kMaxCaptureSamples - take) 0 }
        let pushed := e.ring.push frame
        { e with
          ring := pushed.getD e.ring
          ringOverruns := if pushed.isNone then e.ringOverruns + 1 else e.ringOverruns
          framesCaptured := e.framesCaptured + take
          clock := e.clock.onCaptureFrames take cfg.sampleRateHz tick }

/-- The thread that feeds a recording: the blocks that it hands to `on_input`, with fuel for the samples left. -/
def pump (slice : Nat) : Nat → List Int16 → List (List Int16)
  | 0, _ => []
  | n + 1, samples => if samples = [] then [] else samples.take slice :: pump slice n (samples.drop slice)

/-- The blocks of a recording with the buffer size of a configuration. -/
def wavBlocks (cfg : Config.AudioConfig) (wavSamples : List Int16) : List (List Int16) :=
  pump (max 1 cfg.bufferFrames.toNat) wavSamples.length wavSamples

end CaptureEngine

/-- A call of the device or of the pump, or the consumer takes a frame. -/
inductive CaptureStep
  | onInput (input : Option (List Int16)) (gate : Option Bool) (now tick : Time)
  | pop
  deriving DecidableEq, Repr

/-- The samples that a step hands in. -/
def CaptureStep.received : CaptureStep → List Int16
  | .onInput input _ _ _ => input.getD []
  | .pop => []

namespace CaptureEngine

def step (cfg : Config.AudioConfig) (e : CaptureEngine) : CaptureStep → CaptureEngine
  | .onInput input gate now tick => e.onInput cfg input gate now tick
  | .pop => { e with ring := e.ring.pop }

/-- The samples are those of a pushed frame, or their call is counted as gated or as an overrun, and the clock advances
by their number. -/
structure Accounted (cfg : Config.AudioConfig) (e : CaptureEngine) (s : CaptureStep) : Prop where
  samples : s.received = [] ∨
    (∃ frame, (e.step cfg s).ring.frames = e.ring.frames ++ [frame] ∧ frame.view = s.received) ∨
    e.framesGated < (e.step cfg s).framesGated ∨ e.ringOverruns < (e.step cfg s).ringOverruns
  clock : (e.step cfg s).clock.totalFrames = e.clock.totalFrames + s.received.length

/-! ### What a step accounts for -/

lemma onCaptureFrames_totalFrames (c : MonotonicAudioClock) (frameCount : Nat) {sampleRate : UInt32}
    (hrate : sampleRate ≠ 0) (now : Time) :
    (c.onCaptureFrames frameCount sampleRate now).totalFrames = c.totalFrames + frameCount := by
  unfold MonotonicAudioClock.onCaptureFrames
  by_cases hcount : frameCount = 0
  · simp [hcount]
  · by_cases hanchored : c.anchored = true
    · simp [hrate, hcount, hanchored]
    · have hzero := c.fresh (by simpa using hanchored)
      simp [hrate, hcount, hanchored, hzero]

lemma view_of_take (input : List Int16) (frameIndex : Nat) (now : Time) :
    let take := min input.length kMaxCaptureSamples
    AudioFrame.view
        { frameIndex := frameIndex
          count := UInt32.ofNat take
          capturedAt := now
          samples := input.take take ++ List.replicate (kMaxCaptureSamples - take) 0 } =
      input.take take := by
  intro take
  have hbound : take ≤ kMaxCaptureSamples := Nat.min_le_right _ _
  have hcount : (UInt32.ofNat take).toNat = take := by
    rw [UInt32.toNat_ofNat']
    exact Nat.mod_eq_of_lt (Nat.lt_of_le_of_lt hbound (by decide))
  have hlength : (input.take take).length = take := List.length_take_of_le (Nat.min_le_left _ _)
  simp only [AudioFrame.view, hcount]
  exact List.take_left' hlength

lemma totalFrames_onInput {cfg : Config.AudioConfig} (hrate : cfg.sampleRateHz ≠ 0) (e : CaptureEngine)
    {input : List Int16} (hinput : input ≠ []) (gate : Option Bool) (now tick : Time) :
    (e.onInput cfg (some input) gate now tick).clock.totalFrames =
      e.clock.totalFrames + min input.length kMaxCaptureSamples := by
  have hlength : input.length ≠ 0 := fun h => hinput (List.length_eq_zero_iff.mp h)
  simp only [onInput, if_neg hlength]
  split
  · exact onCaptureFrames_totalFrames _ _ hrate tick
  · exact onCaptureFrames_totalFrames _ _ hrate tick

lemma pushes_or_counts (cfg : Config.AudioConfig) (e : CaptureEngine) {input : List Int16} (hinput : input ≠ [])
    (gate : Option Bool) (now tick : Time) :
    let e' := e.onInput cfg (some input) gate now tick
    (∃ frame, e'.ring.frames = e.ring.frames ++ [frame] ∧
      frame.view = input.take (min input.length kMaxCaptureSamples)) ∨
      e.framesGated < e'.framesGated ∨ e.ringOverruns < e'.ringOverruns := by
  have hlength : input.length ≠ 0 := fun h => hinput (List.length_eq_zero_iff.mp h)
  simp only [onInput, if_neg hlength]
  by_cases hgate : gate = some true
  · rw [if_pos hgate]
    right
    left
    have hpositive : 0 < min input.length kMaxCaptureSamples := by
      rw [kMaxCaptureSamples]
      omega
    exact Nat.lt_add_of_pos_right hpositive
  · rw [if_neg hgate]
    by_cases hfull : e.ring.frames.length = kCaptureRingCapacity - 1
    · right
      right
      simp [CaptureRing.push, hfull]
    · left
      refine ⟨_, ?_, view_of_take input e.clock.totalFrames now⟩
      simp [CaptureRing.push, hfull]

lemma accounted_onInput_iff {cfg : Config.AudioConfig} (hrate : cfg.sampleRateHz ≠ 0) (e : CaptureEngine)
    {input : List Int16} (hinput : input ≠ []) (gate : Option Bool) (now tick : Time) :
    Accounted cfg e (.onInput (some input) gate now tick) ↔ input.length ≤ kMaxCaptureSamples := by
  have htotal := totalFrames_onInput hrate e hinput gate now tick
  constructor
  · intro h
    have hclock : (e.onInput cfg (some input) gate now tick).clock.totalFrames = e.clock.totalFrames + input.length :=
      h.clock
    rw [htotal] at hclock
    omega
  · intro hle
    rw [Nat.min_eq_left hle] at htotal
    refine ⟨.inr ?_, htotal⟩
    have hpushes := pushes_or_counts cfg e hinput gate now tick
    rw [Nat.min_eq_left hle, List.take_length] at hpushes
    exact hpushes

lemma accounted_of_received_nil (cfg : Config.AudioConfig) (e : CaptureEngine) {s : CaptureStep}
    (h : s.received = []) : Accounted cfg e s := by
  refine ⟨.inl h, ?_⟩
  rw [h, List.length_nil, Nat.add_zero]
  cases s with
  | onInput input gate now tick =>
    cases input with
    | none => rfl
    | some input =>
      obtain rfl : input = [] := h
      rfl
  | pop => rfl

lemma accounted_step_iff {cfg : Config.AudioConfig} (hrate : cfg.sampleRateHz ≠ 0) (e : CaptureEngine)
    (s : CaptureStep) : Accounted cfg e s ↔ s.received.length ≤ kMaxCaptureSamples := by
  by_cases hnil : s.received = []
  · exact iff_of_true (accounted_of_received_nil cfg e hnil) (by simp [hnil])
  · cases s with
    | onInput input gate now tick =>
      cases input with
      | none => exact absurd rfl hnil
      | some input => exact accounted_onInput_iff hrate e hnil gate now tick
    | pop => exact absurd rfl hnil

/-- `validate` checks that there is a sample rate. Of the buffer size it only checks that it is not zero. -/
lemma sampleRateHz_ne_zero {host : Host} {cfg : Config} (hvalid : Config.validate host cfg = none) :
    cfg.audio.sampleRateHz ≠ 0 := by
  have hcheck := Config.firstError_eq_none.mp hvalid (Config.positive "audio.sample_rate_hz" cfg.audio.sampleRateHz)
    (by simp [Config.earlyChecks])
  simpa [Config.positive] using hcheck

lemma along_accounted_iff {cfg : Config.AudioConfig} (hrate : cfg.sampleRateHz ≠ 0) (e : CaptureEngine)
    (steps : List CaptureStep) : Runs.Along (step cfg) (Accounted cfg) e steps ↔
      ∀ s ∈ steps, s.received.length ≤ kMaxCaptureSamples := by
  induction steps generalizing e with
  | nil => simp [Runs.Along]
  | cons s steps ih =>
    rw [Runs.Along, List.forall_mem_cons]
    exact and_congr (accounted_step_iff hrate e s) (ih _)

/-- In every run, each call accounts for its samples exactly if it hands in no more than go into a frame. -/
theorem accounted_iff {host : Host} {cfg : Config} (hvalid : Config.validate host cfg = none) (e : CaptureEngine)
    (steps : List CaptureStep) : Runs.Along (step cfg.audio) (Accounted cfg.audio) e steps ↔
      ∀ s ∈ steps, s.received.length ≤ kMaxCaptureSamples :=
  along_accounted_iff (sampleRateHz_ne_zero hvalid) e steps

/-- The default configuration, and a call that hands in one of its buffers. -/
theorem accounted_iff_default : Runs.Along (step {}) (Accounted {}) {}
    [.onInput (some (List.replicate 480 0)) none 0 0] := by
  let host : Host := { env := fun _ => none, readFile := fun _ => none, fileExists := fun _ => false }
  have hvalid : Config.validate host {} = none := by decide +kernel
  exact (accounted_iff hvalid {} _).mpr (by decide +kernel)

/-- The pump hands in every sample of the recording, in blocks of the size of a buffer. -/
lemma flatten_pump {slice : Nat} (hslice : 0 < slice) (n : Nat) {samples : List Int16} (hn : samples.length ≤ n) :
    (pump slice n samples).flatten = samples ∧ ∀ block ∈ pump slice n samples, block.length ≤ slice := by
  induction n generalizing samples with
  | zero =>
    obtain rfl := List.length_eq_zero_iff.mp (Nat.le_zero.mp hn)
    exact ⟨rfl, fun block hblock => absurd hblock List.not_mem_nil⟩
  | succ n ih =>
    rw [pump]
    split
    · rename_i hnil
      exact ⟨hnil.symm, fun block hblock => absurd hblock List.not_mem_nil⟩
    · rename_i hne
      have hpositive : 0 < samples.length := List.length_pos_iff.mpr hne
      obtain ⟨hflatten, hblocks⟩ := ih (show (samples.drop slice).length ≤ n by rw [List.length_drop]; omega)
      refine ⟨by rw [List.flatten_cons, hflatten, List.take_append_drop], ?_⟩
      intro block hblock
      rcases List.mem_cons.mp hblock with rfl | hblock
      · exact List.length_take_le slice samples
      · exact hblocks block hblock

/-- A recording is accounted for if the buffer size goes into a frame. -/
theorem accounted_wavBlocks {host : Host} {cfg : Config} (hvalid : Config.validate host cfg = none)
    (hbuffer : cfg.audio.bufferFrames.toNat ≤ kMaxCaptureSamples) (e : CaptureEngine) (wavSamples : List Int16) :
    (wavBlocks cfg.audio wavSamples).flatten = wavSamples ∧
      Runs.Along (step cfg.audio) (Accounted cfg.audio) e
        ((wavBlocks cfg.audio wavSamples).map fun block => .onInput (some block) none 0 0) := by
  have hslice : max 1 cfg.audio.bufferFrames.toNat ≤ kMaxCaptureSamples := Nat.max_le.mpr ⟨by decide, hbuffer⟩
  obtain ⟨hflatten, hblocks⟩ := flatten_pump (Nat.lt_of_lt_of_le Nat.zero_lt_one (Nat.le_max_left _ _))
    wavSamples.length (Nat.le_refl wavSamples.length)
  refine ⟨hflatten, (along_accounted_iff (sampleRateHz_ne_zero hvalid) e _).mpr ?_⟩
  intro s hs
  obtain ⟨block, hblock, rfl⟩ := List.mem_map.mp hs
  exact Nat.le_trans (hblocks block hblock) hslice

/-- A configuration that `validate` accepts, and whose buffer does not go into a frame. -/
def largeBuffer : Config := { audio := { bufferFrames := 2048 } }

/-- Of a buffer of 2048 samples the first half is pushed, the rest is lost and no counter shows it. -/
theorem large_buffer_not_accounted :
    let host : Host := { env := fun _ => none, readFile := fun _ => none, fileExists := fun _ => false }
    let received : List Int16 := List.replicate 2048 0
    let e := step largeBuffer.audio {} (.onInput (some received) none 0 0)
    Config.validate host largeBuffer = none ∧ wavBlocks largeBuffer.audio received = [received] ∧
      e.ring.frames.map (·.view.length) = [1024] ∧ e.framesGated = 0 ∧ e.ringOverruns = 0 ∧
      e.clock.totalFrames = 1024 ∧
      ¬Runs.Along (step largeBuffer.audio) (Accounted largeBuffer.audio) {} [.onInput (some received) none 0 0] := by
  refine ⟨by decide +kernel, by decide +kernel, by decide +kernel, by decide +kernel, by decide +kernel,
    by decide +kernel, ?_⟩
  rw [along_accounted_iff (by decide)]
  decide +kernel

end CaptureEngine

end Acva
