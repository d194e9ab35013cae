import Acva.Audio.Recording
import Acva.Audio.Reframing
import Mathlib.Data.List.Infix

/-!
# The detectors of speech and of the wake word

Both collect samples until these fill a window, and run their networks on whole windows. The wake word keeps the last
mel frames and the last embeddings only, and scores every window as if it had all that it has ever heard. What a
network computes is a parameter.
-/

namespace Acva

open UtteranceBuffer (lastOf lastOf_of_length_le length_lastOf lastOf_lastOf_append)

/-! ### Speech -/

/-- The network, on its own state and a window. -/
structure VadModel (ν π : Type) where
  start : ν
  quiet : π
  run : ν → List Int16 → π × ν

def kWindowSamples16k : Nat := 512

structure SileroVad (ν π : Type) where
  state : ν
  scratch : List Int16 := []
  lastP : π
  deriving DecidableEq, Repr

namespace SileroVad

variable {ν π : Type} (m : VadModel ν π)

def create : SileroVad ν π := { state := m.start, lastP := m.quiet }

def reset (_ : SileroVad ν π) : SileroVad ν π := create m

/-- One window. -/
def run (s : ν × π) (window : List Int16) : ν × π := ((m.run s.1 window).2, (m.run s.1 window).1)

def pushFrame (v : SileroVad ν π) (samples : List Int16) : SileroVad ν π :=
  if samples = [] then v
  else
    let buffer := v.scratch ++ samples
    let r := splitBlocks kWindowSamples16k buffer.length buffer
    let s := r.1.foldl (run m) (v.state, v.lastP)
    { state := s.1, scratch := r.2, lastP := s.2 }

/-- What the detector is after a stream: the networks has run on its whole windows. -/
def After (stream : List Int16) (v : SileroVad ν π) : Prop :=
  ∃ windows, Framing kWindowSamples16k stream windows v.scratch ∧
    (v.state, v.lastP) = windows.foldl (run m) (m.start, m.quiet)

variable {m} {v : SileroVad ν π} {stream : List Int16}

lemma after_create : After m [] (create m) := ⟨[], .of_short (by decide), rfl⟩

lemma After.push (h : After m stream v) (samples : List Int16) :
    After m (stream ++ samples) (v.pushFrame m samples) := by
  obtain ⟨windows, hframing, hstate⟩ := h
  unfold pushFrame
  split
  · rename_i hempty
    rw [hempty, List.append_nil]
    exact ⟨windows, hframing, hstate⟩
  · have hsplit := splitBlocks_framing (n := kWindowSamples16k) (l := v.scratch ++ samples) (by decide) (Nat.le_refl _)
    exact ⟨_, hframing.append hsplit, by rw [List.foldl_append, ← hstate]⟩

end SileroVad

/-- A call of the pipeline on the detector of speech. -/
inductive VadCall
  | pushFrame (samples : List Int16)
  | reset
  deriving DecidableEq, Repr

namespace SileroVad

variable {ν π : Type} (m : VadModel ν π)

def step (v : SileroVad ν π) : VadCall → SileroVad ν π
  | .pushFrame samples => v.pushFrame m samples
  | .reset => v.reset m

/-- The samples since the last reset. -/
def heard (stream : List Int16) : VadCall → List Int16
  | .pushFrame samples => stream ++ samples
  | .reset => []

/-- After any calls the detector is what its network makes of the whole windows of 512 samples since the last reset,
and what is left is shorter than a window. In which pieces the samples have come does not matter. -/
theorem run_on_windows (calls : List VadCall) :
    let v := Runs.exec (step m) (create m) calls
    ∃ windows, Framing kWindowSamples16k (Runs.exec heard [] calls) windows v.scratch ∧
      (v.state, v.lastP) = windows.foldl (run m) (m.start, m.quiet) := by
  suffices h : ∀ v stream, After m stream v →
      After m (Runs.exec heard stream calls) (Runs.exec (step m) v calls) from h _ [] after_create
  induction calls with
  | nil => exact fun _ _ h => h
  | cons c calls ih =>
    intro v stream h
    cases c with
    | pushFrame samples => exact ih _ _ (h.push samples)
    | reset => exact ih _ _ after_create

end SileroVad

/-! ### The wake word -/

def kAudioStep : Nat := 1280
def kMelFramesNeeded : Nat := 76
def kClassifierWindow : Nat := 16

/-- The frames that the ring keeps. -/
def kMelFramesKept : Nat := kMelFramesNeeded + 8

/-- The three networks and the comparisons of scores: `above` is `>` and `reaches` is `>=`. -/
structure WakeNets (μ ε κ σ : Type) where
  mel : List Int16 → List μ
  embed : List μ → ε
  classify : κ → List ε → σ
  zero : σ
  above : σ → σ → Bool
  reaches : σ → σ → Bool

structure WakeWord (μ ε κ σ : Type) where
  threshold : σ
  audioBuf : List Int16 := []
  melBuf : List μ := []
  classifiers : List (κ × List ε)
  lastScore : σ
  detectionsTotal : Nat := 0

namespace WakeWord

variable {μ ε κ σ : Type} (nets : WakeNets μ ε κ σ)

/-- The higher score. -/
def top (best score : σ) : σ := if nets.above score best then score else best

/-- The score of a classifier that has all its embeddings. -/
def runClassifier (c : κ × List ε) : Option σ :=
  if c.2.length < kClassifierWindow then none else some (nets.classify c.1 c.2)

/-- A window goes through the networks. -/
def runInferenceStep (w : WakeWord μ ε κ σ) (chunk : List Int16) : WakeWord μ ε κ σ × σ :=
  let melBuf := lastOf kMelFramesKept (w.melBuf ++ nets.mel chunk)
  if melBuf.length < kMelFramesNeeded then ({ w with melBuf := melBuf }, nets.zero)
  else
    let fresh := nets.embed (lastOf kMelFramesNeeded melBuf)
    let classifiers := w.classifiers.map fun c => (c.1, lastOf kClassifierWindow (c.2 ++ [fresh]))
    ({ w with melBuf := melBuf, classifiers := classifiers },
      (classifiers.filterMap (runClassifier nets)).foldl (top nets) nets.zero)

/-- One pass of the loop over the windows, with the highest score so far. -/
def stepOn (s : WakeWord μ ε κ σ × σ) (chunk : List Int16) : WakeWord μ ε κ σ × σ :=
  ((s.1.runInferenceStep nets chunk).1, top nets s.2 (s.1.runInferenceStep nets chunk).2)

def runSteps (w : WakeWord μ ε κ σ) (score : σ) (chunks : List (List Int16)) : WakeWord μ ε κ σ × σ :=
  chunks.foldl (stepOn nets) (w, score)

/-- The counters after a call in which the networks ran. -/
def note (w : WakeWord μ ε κ σ) (score : σ) : WakeWord μ ε κ σ :=
  { w with lastScore := score
           detectionsTotal := if nets.reaches score w.threshold then w.detectionsTotal + 1 else w.detectionsTotal }

/-- The windows that are complete go through the networks, and the rest is kept. -/
def drain (w : WakeWord μ ε κ σ) (chunks : List (List Int16)) (rest : List Int16) : WakeWord μ ε κ σ × σ :=
  let s := runSteps nets { w with audioBuf := rest } nets.zero chunks
  (if chunks.isEmpty then s.1 else s.1.note nets s.2, s.2)

/-- A detector that is enabled and whose models are loaded. -/
def pushFrame (w : WakeWord μ ε κ σ) (samples : List Int16) : WakeWord μ ε κ σ × σ :=
  let buffer := w.audioBuf ++ samples
  let r := splitBlocks kAudioStep buffer.length buffer
  w.drain nets r.1 r.2

def updateThreshold (w : WakeWord μ ε κ σ) (v : σ) : WakeWord μ ε κ σ := { w with threshold := v }

/-- A detector with the classifiers `heads`. -/
def create (heads : List κ) (threshold : σ) : WakeWord μ ε κ σ :=
  { threshold := threshold, classifiers := heads.map (·, []), lastScore := nets.zero }

/-! ### All that was heard -/

/-- The mel frames of the windows. -/
def mels (windows : List (List Int16)) : List μ := windows.flatMap nets.mel

/-- The embeddings of the windows: one for each window that ends with enough mel frames. -/
def embeddings (windows : List (List Int16)) : List ε :=
  (windows.inits.filter fun heard => kMelFramesNeeded ≤ (mels nets heard).length).map fun heard =>
    nets.embed (lastOf kMelFramesNeeded (mels nets heard))

/-- The score of the last of the windows, from all of them. -/
def scoreOf (heads : List κ) (windows : List (List Int16)) : σ :=
  if (mels nets windows).length < kMelFramesNeeded ∨ (embeddings nets windows).length < kClassifierWindow then nets.zero
  else (heads.map fun head => nets.classify head (lastOf kClassifierWindow (embeddings nets windows))).foldl
    (top nets) nets.zero

/-- What the detector keeps of the windows. -/
structure Heard (heads : List κ) (windows : List (List Int16)) (w : WakeWord μ ε κ σ) : Prop where
  melBuf : w.melBuf = lastOf kMelFramesKept (mels nets windows)
  classifiers : w.classifiers = heads.map fun head => (head, lastOf kClassifierWindow (embeddings nets windows))

variable {nets} {heads : List κ} {windows : List (List Int16)} {w : WakeWord μ ε κ σ}

lemma lastOf_lastOf {α : Type} {m n : Nat} (h : m ≤ n) (l : List α) : lastOf m (lastOf n l) = lastOf m l := by
  unfold lastOf
  rw [List.drop_drop, List.length_drop]
  congr 1
  omega

lemma mels_concat (windows : List (List Int16)) (chunk : List Int16) :
    mels nets (windows ++ [chunk]) = mels nets windows ++ nets.mel chunk := by
  simp [mels]

lemma embeddings_concat (windows : List (List Int16)) (chunk : List Int16) :
    embeddings nets (windows ++ [chunk]) = embeddings nets windows ++
      if kMelFramesNeeded ≤ (mels nets (windows ++ [chunk])).length then
        [nets.embed (lastOf kMelFramesNeeded (mels nets (windows ++ [chunk])))] else [] := by
  have hinits : (windows ++ [chunk]).inits = windows.inits ++ [windows ++ [chunk]] := by simp [List.inits_append]
  rw [embeddings, embeddings, hinits, List.filter_append, List.map_append]
  congr 1
  by_cases hwarm : kMelFramesNeeded ≤ (mels nets (windows ++ [chunk])).length
  · simp [hwarm]
  · simp [hwarm]

/-- The classifiers that have no full window are passed over, and all have the same number of embeddings. -/
lemma scores_of_heads (es : List ε) :
    (heads.map fun head => (head, lastOf kClassifierWindow es)).filterMap (runClassifier nets) =
      if es.length < kClassifierWindow then []
      else heads.map fun head => nets.classify head (lastOf kClassifierWindow es) := by
  have hlength : (lastOf kClassifierWindow es).length < kClassifierWindow ↔ es.length < kClassifierWindow := by
    rw [length_lastOf]
    omega
  rw [List.filterMap_map]
  by_cases hshort : es.length < kClassifierWindow
  · rw [if_pos hshort, List.filterMap_eq_nil_iff]
    intro head _
    simp only [Function.comp_apply, runClassifier, if_pos (hlength.mpr hshort)]
  · have hfull : runClassifier nets ∘ (fun head => (head, lastOf kClassifierWindow es)) =
        fun head => some (nets.classify head (lastOf kClassifierWindow es)) := by
      funext head
      simp only [Function.comp_apply, runClassifier, if_neg (fun h => hshort (hlength.mp h))]
    rw [if_neg hshort, hfull, List.filterMap_eq_map']

/-- A window more: what is kept and the score are as if nothing had been dropped. -/
lemma Heard.step (h : w.Heard nets heads windows) (chunk : List Int16) :
    (w.runInferenceStep nets chunk).1.Heard nets heads (windows ++ [chunk]) ∧
      (w.runInferenceStep nets chunk).2 = scoreOf nets heads (windows ++ [chunk]) ∧
      (w.runInferenceStep nets chunk).1.threshold = w.threshold ∧
      (w.runInferenceStep nets chunk).1.detectionsTotal = w.detectionsTotal ∧
      (w.runInferenceStep nets chunk).1.audioBuf = w.audioBuf := by
  have hmel : lastOf kMelFramesKept (w.melBuf ++ nets.mel chunk) =
      lastOf kMelFramesKept (mels nets (windows ++ [chunk])) := by
    rw [h.melBuf, lastOf_lastOf_append, mels_concat]
  have hlength : (lastOf kMelFramesKept (mels nets (windows ++ [chunk]))).length < kMelFramesNeeded ↔
      (mels nets (windows ++ [chunk])).length < kMelFramesNeeded := by
    rw [length_lastOf, kMelFramesKept]
    omega
  unfold runInferenceStep
  simp only [hmel]
  by_cases hcold : (mels nets (windows ++ [chunk])).length < kMelFramesNeeded
  · rw [if_pos (hlength.mpr hcold)]
    refine ⟨⟨rfl, ?_⟩, ?_, rfl, rfl, rfl⟩
    · rw [embeddings_concat, if_neg (by omega), List.append_nil]
      exact h.classifiers
    · rw [scoreOf, if_pos (.inl hcold)]
  · have hlast : lastOf kMelFramesNeeded (lastOf kMelFramesKept (mels nets (windows ++ [chunk]))) =
        lastOf kMelFramesNeeded (mels nets (windows ++ [chunk])) := lastOf_lastOf (by decide) _
    have hclassifiers : (w.classifiers.map fun c => (c.1, lastOf kClassifierWindow
        (c.2 ++ [nets.embed (lastOf kMelFramesNeeded (mels nets (windows ++ [chunk])))]))) =
        heads.map fun head => (head, lastOf kClassifierWindow (embeddings nets (windows ++ [chunk]))) := by
      rw [h.classifiers, embeddings_concat, if_pos (by omega), List.map_map]
      exact List.map_congr_left fun head _ => by simp only [Function.comp_apply, lastOf_lastOf_append]
    rw [if_neg (fun h => hcold (hlength.mp h)), hlast, hclassifiers]
    refine ⟨⟨rfl, rfl⟩, ?_, rfl, rfl, rfl⟩
    simp only [scores_of_heads]
    by_cases hshort : (embeddings nets (windows ++ [chunk])).length < kClassifierWindow
    · rw [if_pos hshort, scoreOf, if_pos (.inr hshort)]
      rfl
    · rw [if_neg hshort, scoreOf, if_neg (by simp only [not_or]; exact ⟨hcold, hshort⟩)]

/-- The scores of some more windows, one after the other. -/
def scores (nets : WakeNets μ ε κ σ) (heads : List κ) (windows more : List (List Int16)) : List σ :=
  more.inits.tail.map fun now => scoreOf nets heads (windows ++ now)

lemma scores_cons (windows : List (List Int16)) (chunk : List Int16) (chunks : List (List Int16)) :
    scores nets heads windows (chunk :: chunks) =
      scoreOf nets heads (windows ++ [chunk]) :: scores nets heads (windows ++ [chunk]) chunks := by
  have hinits : ∀ l : List (List Int16), l.inits = [] :: l.inits.tail := by
    intro l
    cases l with
    | nil => rfl
    | cons a l => rw [List.inits_cons, List.tail_cons]
  rw [scores, List.inits_cons, List.tail_cons, hinits chunks, List.map_cons, List.map_cons, List.map_map]
  simp [scores, Function.comp_def]

lemma Heard.steps (h : w.Heard nets heads windows) (score : σ) (chunks : List (List Int16)) :
    (runSteps nets w score chunks).1.Heard nets heads (windows ++ chunks) ∧
      (runSteps nets w score chunks).2 = (scores nets heads windows chunks).foldl (top nets) score ∧
      (runSteps nets w score chunks).1.threshold = w.threshold ∧
      (runSteps nets w score chunks).1.detectionsTotal = w.detectionsTotal ∧
      (runSteps nets w score chunks).1.audioBuf = w.audioBuf := by
  induction chunks generalizing w windows score with
  | nil =>
    rw [List.append_nil]
    exact ⟨h, rfl, rfl, rfl, rfl⟩
  | cons chunk chunks ih =>
    obtain ⟨hheard, hscore, hthreshold, hdetections, hbuf⟩ := h.step chunk
    obtain ⟨hheard', hscore', hthreshold', hdetections', hbuf'⟩ :=
      ih hheard (top nets score (scoreOf nets heads (windows ++ [chunk])))
    rw [List.append_assoc, List.singleton_append] at hheard'
    have hsteps : runSteps nets w score (chunk :: chunks) =
        runSteps nets (w.runInferenceStep nets chunk).1
          (top nets score (scoreOf nets heads (windows ++ [chunk]))) chunks := by
      rw [runSteps, List.foldl_cons, stepOn, hscore, runSteps]
    rw [hsteps, scores_cons, List.foldl_cons]
    exact ⟨hheard', hscore', hthreshold'.trans hthreshold, hdetections'.trans hdetections, hbuf'.trans hbuf⟩

end WakeWord

/-- A frame of the pipeline, or a new threshold from a reload. -/
inductive WakeCall (σ : Type)
  | pushFrame (samples : List Int16)
  | updateThreshold (v : σ)
  deriving DecidableEq, Repr

namespace WakeWord

variable {μ ε κ σ : Type} (nets : WakeNets μ ε κ σ)

def step (w : WakeWord μ ε κ σ) : WakeCall σ → WakeWord μ ε κ σ
  | .pushFrame samples => (w.pushFrame nets samples).1
  | .updateThreshold v => w.updateThreshold v

/-- The samples so far. -/
def stream (heard : List Int16) : WakeCall σ → List Int16
  | .pushFrame samples => heard ++ samples
  | .updateThreshold _ => heard

/-- After a stream the detector keeps what it must of the whole windows, and the rest. -/
def After (heads : List κ) (heard : List Int16) (w : WakeWord μ ε κ σ) : Prop :=
  ∃ windows, Framing kAudioStep heard windows w.audioBuf ∧ w.Heard nets heads windows

variable {nets} {heads : List κ} {w : WakeWord μ ε κ σ} {heard : List Int16}

lemma after_create (threshold : σ) : After nets heads [] (create nets heads threshold) :=
  ⟨[], .of_short (by decide), rfl, rfl⟩

lemma pushFrame_spec {windows : List (List Int16)} (hframing : Framing kAudioStep heard windows w.audioBuf)
    (hheard : w.Heard nets heads windows) (samples : List Int16) :
    ∃ more, Framing kAudioStep (heard ++ samples) (windows ++ more) (w.pushFrame nets samples).1.audioBuf ∧
      (w.pushFrame nets samples).1.Heard nets heads (windows ++ more) ∧
      (w.pushFrame nets samples).2 = (scores nets heads windows more).foldl (top nets) nets.zero ∧
      (w.pushFrame nets samples).1.detectionsTotal = w.detectionsTotal +
        if more ≠ [] ∧ nets.reaches (w.pushFrame nets samples).2 w.threshold = true then 1 else 0 := by
  have hsplit := splitBlocks_framing (n := kAudioStep) (l := w.audioBuf ++ samples) (by decide) (Nat.le_refl _)
  rw [pushFrame]
  cases hr : splitBlocks kAudioStep (w.audioBuf ++ samples).length (w.audioBuf ++ samples) with
  | mk more rest =>
    rw [hr] at hsplit
    have hready : ({ w with audioBuf := rest } : WakeWord μ ε κ σ).Heard nets heads windows := { hheard with }
    obtain ⟨hafter, hscore, hthreshold, hdetections, hbuf⟩ := hready.steps nets.zero more
    refine ⟨more, ?_, ?_, hscore, ?_⟩
    · have hwhole := hframing.append hsplit
      cases more with
      | nil => exact hwhole
      | cons chunk chunks => exact hbuf ▸ hwhole
    · cases more with
      | nil => exact hafter
      | cons chunk chunks => exact { hafter with }
    · cases more with
      | nil => simp [drain, runSteps]
      | cons chunk chunks =>
        simp only [drain, List.isEmpty_cons, Bool.false_eq_true, if_false, note, hthreshold, hdetections]
        split
        · rename_i hreaches
          rw [if_pos ⟨List.cons_ne_nil _ _, hreaches⟩]
        · rename_i hreaches
          rw [if_neg fun h => hreaches h.2, Nat.add_zero]

lemma After.step (h : After nets heads heard w) (c : WakeCall σ) :
    After nets heads (stream heard c) (w.step nets c) := by
  obtain ⟨windows, hframing, hheard⟩ := h
  cases c with
  | pushFrame samples =>
    obtain ⟨more, hframing', hheard', -, -⟩ := pushFrame_spec hframing hheard samples
    exact ⟨windows ++ more, hframing', hheard'⟩
  | updateThreshold v => exact ⟨windows, hframing, { hheard with }⟩

/-- After any frames and reloads, the score of the next frame is the highest of the windows of 1280 samples that it
completes, each scored from everything heard so far, although the ring keeps 84 mel frames and each classifier 16
embeddings. A frame is a detection exactly when it completes a window and its score reaches the threshold. -/
theorem score_of_all_heard (heads : List κ) (threshold : σ) (calls : List (WakeCall σ)) (samples : List Int16) :
    let w := Runs.exec (step nets) (create nets heads threshold) calls
    let heard := Runs.exec stream [] calls
    w.melBuf.length ≤ kMelFramesKept ∧ (∀ c ∈ w.classifiers, c.2.length ≤ kClassifierWindow) ∧
      ∃ windows more, Framing kAudioStep heard windows w.audioBuf ∧
        Framing kAudioStep (heard ++ samples) (windows ++ more) (w.pushFrame nets samples).1.audioBuf ∧
        (w.pushFrame nets samples).2 = (scores nets heads windows more).foldl (top nets) nets.zero ∧
        (w.pushFrame nets samples).1.detectionsTotal = w.detectionsTotal +
          if more ≠ [] ∧ nets.reaches (w.pushFrame nets samples).2 w.threshold = true then 1 else 0 := by
  intro w heard
  have hafter : After nets heads heard w := by
    suffices h : ∀ w heard, After nets heads heard w →
        After nets heads (Runs.exec stream heard calls) (Runs.exec (step nets) w calls) from h _ [] (after_create _)
    induction calls with
    | nil => exact fun _ _ h => h
    | cons c calls ih => exact fun w heard h => ih _ _ (h.step c)
  obtain ⟨windows, hframing, hheard⟩ := hafter
  obtain ⟨more, hframing', -, hscore, hdetections⟩ := pushFrame_spec hframing hheard samples
  refine ⟨?_, fun c hc => ?_, windows, more, hframing, hframing', hscore, hdetections⟩
  · rw [hheard.melBuf, length_lastOf]
    exact Nat.min_le_left _ _
  · rw [hheard.classifiers] at hc
    obtain ⟨head, -, rfl⟩ := List.mem_map.mp hc
    rw [length_lastOf]
    exact Nat.min_le_left _ _

end WakeWord

end Acva
