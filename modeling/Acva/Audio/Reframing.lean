import Acva.Audio.Boundaries

/-!
# Blocks for the echo canceller

The canceller takes blocks of 10 ms and nothing else, while the resampler gives what it has. What does not fill a
block stays in `apm_carry_` for the frames to come. `Framing` says what cutting a stream into blocks is; cutting it
piece by piece, with the rest of one piece put before the next, is cutting it as a whole.
-/

namespace Acva

/-- The stream is cut into whole blocks of `n` samples and a rest that is shorter. -/
structure Framing {α : Type} (n : Nat) (stream : List α) (blocks : List (List α)) (rest : List α) : Prop where
  whole : ∀ b ∈ blocks, b.length = n
  join : blocks.flatten ++ rest = stream
  short : rest.length < n

namespace Framing

variable {α : Type} {n : Nat} {stream block rest rest' more : List α} {blocks blocks' : List (List α)}

lemma of_short (h : rest.length < n) : Framing n rest [] rest := ⟨by simp, rfl, h⟩

lemma cons (hblock : block.length = n) (h : Framing n stream blocks rest) :
    Framing n (block ++ stream) (block :: blocks) rest where
  whole b hb := by
    rcases List.mem_cons.mp hb with rfl | hb
    · exact hblock
    · exact h.whole b hb
  join := by rw [List.flatten_cons, List.append_assoc, h.join]
  short := h.short

lemma append (h : Framing n stream blocks rest) (h' : Framing n (rest ++ more) blocks' rest') :
    Framing n (stream ++ more) (blocks ++ blocks') rest' where
  whole b hb := (List.mem_append.mp hb).elim (h.whole b) (h'.whole b)
  join := by rw [List.flatten_append, List.append_assoc, h'.join, ← List.append_assoc, h.join]
  short := h'.short

/-- A stream is cut in one way only. -/
theorem unique (h : Framing n stream blocks rest) (h' : Framing n stream blocks' rest') :
    blocks = blocks' ∧ rest = rest' := by
  induction blocks generalizing stream blocks' with
  | nil =>
    have hstream : rest = stream := h.join
    cases blocks' with
    | nil => exact ⟨rfl, hstream.trans h'.join.symm⟩
    | cons b bs =>
      have hlength := congrArg List.length (hstream.trans h'.join.symm)
      have hblock := h'.whole b List.mem_cons_self
      have hshort := h.short
      simp only [List.flatten_cons, List.length_append] at hlength
      omega
  | cons b bs ih =>
    have hblock := h.whole b List.mem_cons_self
    have hjoin : b ++ (bs.flatten ++ rest) = stream := by simpa using h.join
    cases blocks' with
    | nil =>
      have hlength := congrArg List.length (hjoin.trans h'.join.symm)
      have hshort := h'.short
      simp only [List.flatten_nil, List.nil_append, List.length_append] at hlength
      omega
    | cons b' bs' =>
      have hblock' := h'.whole b' List.mem_cons_self
      have hjoin' : b' ++ (bs'.flatten ++ rest') = stream := by simpa using h'.join
      obtain ⟨hhead, htail⟩ := List.append_inj (hjoin.trans hjoin'.symm) (hblock.trans hblock'.symm)
      have hbs : Framing n (bs.flatten ++ rest) bs rest :=
        ⟨fun c hc => h.whole c (List.mem_cons_of_mem _ hc), rfl, h.short⟩
      have hbs' : Framing n (bs.flatten ++ rest) bs' rest' :=
        ⟨fun c hc => h'.whole c (List.mem_cons_of_mem _ hc), htail.symm, h'.short⟩
      obtain ⟨hblocks, hrest⟩ := ih hbs hbs'
      exact ⟨by rw [hhead, hblocks], hrest⟩

end Framing

lemma splitBlocks_framing {n fuel : Nat} {l : List Int16} (hn : 0 < n) (hfuel : l.length ≤ fuel) :
    Framing n l (splitBlocks n fuel l).1 (splitBlocks n fuel l).2 := by
  induction fuel generalizing l with
  | zero => exact .of_short (by omega)
  | succ fuel ih =>
    rw [splitBlocks]
    by_cases hblock : 0 < n ∧ n ≤ l.length
    · rw [if_pos hblock]
      have hrest := ih (l := l.drop n) (by rw [List.length_drop]; omega)
      have hlength : (l.take n).length = n := List.length_take_of_le hblock.2
      have hcons := hrest.cons hlength
      rwa [List.take_append_drop] at hcons
    · rw [if_neg hblock]
      exact .of_short (by omega)

namespace AudioPipeline

/-! ### One frame -/

lemma endpoint_apmCarry (cfg : PipelineConfig) (p : AudioPipeline) (f : Frame) (block : List Int16) :
    (p.endpoint cfg f block).1.apmCarry = p.apmCarry := by
  rw [endpoint_eq]
  cases (p.verdict cfg f block).2 with
  | none => rfl
  | speechStarted => rfl
  | falseStart => rfl
  | speechEnded =>
    simp only [onSpeechEnded]
    split
    · rfl
    · split <;> rfl

lemma wakeGate_apmCarry (cfg : PipelineConfig) (p : AudioPipeline) (f : Frame) :
    (p.wakeGate cfg f).1.apmCarry = p.apmCarry := by
  unfold wakeGate
  split
  · rfl
  · split <;> rfl

lemma processBlock_apmCarry (cfg : PipelineConfig) (p : AudioPipeline) (f : Frame) (block : List Int16) :
    (p.processBlock cfg f block).1.apmCarry = p.apmCarry := by
  have hgate := wakeGate_apmCarry cfg { p with utteranceBuffer := p.utteranceBuffer.append block } f
  simp only [processBlock]
  split
  · exact hgate
  · exact (endpoint_apmCarry cfg _ f block).trans hgate

lemma processMuted_apmCarry (p : AudioPipeline) (f : Frame) : (p.processMuted f).1.apmCarry = p.apmCarry := by
  simp only [processMuted]
  split
  · rfl
  · split <;> rfl

/-- What the resampler gives for a frame. A muted one does not come to it. -/
def resamplerOutput (f : Frame) : List Int16 := if f.muted then [] else f.resampled

/-- The samples of a block of 10 ms. -/
def apmFrameSamples (cfg : PipelineConfig) : Nat := cfg.outputSampleRate.toNat / 100

lemma cancelEcho_framing {cfg : PipelineConfig} (hcfg : 0 < apmFrameSamples cfg) (p : AudioPipeline) {f : Frame}
    (h : f.aecActive = true) : Framing (apmFrameSamples cfg) (p.apmCarry ++ f.resampled) (p.cancelEcho cfg f).2.1
      (p.cancelEcho cfg f).1.apmCarry := by
  unfold cancelEcho
  rw [if_neg (by simp [h])]
  exact splitBlocks_framing hcfg le_rfl

/-- A frame cuts the carry and what the resampler gives, also when that fills no block or is nothing at all. -/
lemma processFrame_framing {cfg : PipelineConfig} (hcfg : 0 < apmFrameSamples cfg) {p : AudioPipeline} {f : Frame}
    (haec : f.aecActive = true) (hshort : p.apmCarry.length < apmFrameSamples cfg) :
    Framing (apmFrameSamples cfg) (p.apmCarry ++ resamplerOutput f) (p.processFrame cfg f).2.apmBlocks
      (p.processFrame cfg f).1.apmCarry := by
  simp only [processFrame, resamplerOutput]
  by_cases hmuted : f.muted = true
  · rw [if_pos hmuted, if_pos hmuted, List.append_nil, processMuted_apmCarry]
    exact .of_short hshort
  · rw [if_neg hmuted, if_neg hmuted]
    by_cases hresampled : f.resampled = []
    · rw [if_pos hresampled, hresampled, List.append_nil]
      exact .of_short hshort
    · rw [if_neg hresampled]
      let q : AudioPipeline := { p with framesProcessed := p.framesProcessed + 1, prevMuted := false }
      have hecho := cancelEcho_framing hcfg q haec
      by_cases hempty : f.aecActive = true ∧ (q.cancelEcho cfg f).2.2 = []
      · rw [if_pos hempty]
        exact hecho
      · rw [if_neg hempty, processBlock_apmCarry]
        exact hecho

/-! ### Runs -/

/-- The pipeline and the blocks that the canceller has processed. -/
structure Reframing where
  pipeline : AudioPipeline
  apmBlocks : List (List Int16) := []
  deriving DecidableEq, Repr

namespace Reframing

def step (cfg : PipelineConfig) (w : Reframing) (f : Frame) : Reframing where
  pipeline := (w.pipeline.processFrame cfg f).1
  apmBlocks := w.apmBlocks ++ (w.pipeline.processFrame cfg f).2.apmBlocks

/-- Everything that has come from the resampler is in the blocks or in the carry. -/
def Framed (cfg : PipelineConfig) (stream : List Int16) (w : Reframing) : Prop :=
  Framing (apmFrameSamples cfg) stream w.apmBlocks w.pipeline.apmCarry

variable {cfg : PipelineConfig}

lemma framed_create (hcfg : 0 < apmFrameSamples cfg) (liveSink : Bool) :
    Framed cfg [] { pipeline := create cfg liveSink } := Framing.of_short hcfg

lemma Framed.step (hcfg : 0 < apmFrameSamples cfg) {stream : List Int16} {w : Reframing} {f : Frame}
    (h : w.Framed cfg stream) (haec : f.aecActive = true) :
    (w.step cfg f).Framed cfg (stream ++ resamplerOutput f) :=
  h.append (processFrame_framing hcfg haec h.short)

lemma Framed.exec (hcfg : 0 < apmFrameSamples cfg) {stream : List Int16} {w : Reframing} (h : w.Framed cfg stream)
    {fs : List Frame} (haec : ∀ f ∈ fs, f.aecActive = true) :
    (Runs.exec (Reframing.step cfg) w fs).Framed cfg (stream ++ (fs.map resamplerOutput).flatten) := by
  induction fs generalizing w stream with
  | nil => simpa using h
  | cons f fs ih =>
    have hstep := h.step hcfg (haec f List.mem_cons_self)
    rw [Runs.exec_cons, List.map_cons, List.flatten_cons, ← List.append_assoc]
    exact ih hstep fun g hg => haec g (List.mem_cons_of_mem _ hg)

/-- It does not matter into which pieces the resampler cuts the stream. -/
theorem blocks_eq_of_flatten_eq (hcfg : 0 < apmFrameSamples cfg) (liveSink : Bool) {fs gs : List Frame}
    (hfs : ∀ f ∈ fs, f.aecActive = true) (hgs : ∀ g ∈ gs, g.aecActive = true)
    (h : (fs.map resamplerOutput).flatten = (gs.map resamplerOutput).flatten) :
    (Runs.exec (step cfg) { pipeline := create cfg liveSink } fs).apmBlocks =
      (Runs.exec (step cfg) { pipeline := create cfg liveSink } gs).apmBlocks := by
  have hleft := (framed_create hcfg liveSink).exec hcfg hfs
  have hright := (framed_create hcfg liveSink).exec hcfg hgs
  rw [← h] at hright
  exact (Framing.unique hleft hright).1

end Reframing

/-- While the canceller is active it is given whole blocks of 10 ms, and after every frame these and the carry are, in
order, what the resampler has given. Below 100 Hz a block would have no samples; the program makes its pipelines for
16000 Hz. -/
theorem apm_blocks_framing (cfg : PipelineConfig) (hrate : 100 ≤ cfg.outputSampleRate.toNat) (liveSink : Bool)
    (fs : List Frame) (haec : ∀ f ∈ fs, f.aecActive = true) :
    let w := Runs.exec (Reframing.step cfg) { pipeline := create cfg liveSink } fs
    (∀ b ∈ w.apmBlocks, b.length = cfg.outputSampleRate.toNat / 100) ∧
      w.apmBlocks.flatten ++ w.pipeline.apmCarry = (fs.map resamplerOutput).flatten ∧
      w.pipeline.apmCarry.length < cfg.outputSampleRate.toNat / 100 := by
  intro w
  have hcfg : 0 < apmFrameSamples cfg := Nat.div_pos hrate (by decide)
  have hrun := (Reframing.framed_create hcfg liveSink).exec hcfg haec
  exact ⟨hrun.whole, hrun.join, hrun.short⟩

/-- Blocks of two samples. The second frame gives nothing, the third less than a block and the fourth is muted. -/
def narrowConfig : PipelineConfig := { outputSampleRate := 200 }

def irregularFrames : List Frame :=
  [{ aecActive := true, resampled := [1, 2, 3, 4, 5] }, { aecActive := true }, { aecActive := true, resampled := [6] },
    { aecActive := true, muted := true, resampled := [7, 8] }, { aecActive := true, resampled := [9] }]

theorem apm_blocks_framing_irregular :
    let w := Runs.exec (Reframing.step narrowConfig) { pipeline := create narrowConfig false } irregularFrames
    w.apmBlocks = [[1, 2], [3, 4], [5, 6]] ∧ w.pipeline.apmCarry = [9] ∧
      w.apmBlocks.flatten ++ w.pipeline.apmCarry = (irregularFrames.map resamplerOutput).flatten :=
  ⟨by decide, by decide, (apm_blocks_framing narrowConfig (by decide) false irregularFrames (by decide)).2.1⟩

end AudioPipeline

end Acva
