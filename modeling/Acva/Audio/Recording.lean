import Acva.Audio.Utterance
import Acva.Lib.Runs
import Mathlib.Tactic.Linarith

/-!
# What the utterance buffer holds

The content of an `UtteranceBuffer` in terms of the calls on it: the pre-buffer is the end of what came in while
nobody was recorded, a recording the end of the pre-buffer that it began with and what has come in since.
-/

namespace Acva

inductive UtteranceCall
  | append (samples : List Int16)
  | speechStarted (prePadStart speechStartedAt : Time)
  | speechEnded (speechEndedAt : Time) (released : List Nat)
  | abortActive
  deriving DecidableEq, Repr

namespace UtteranceBuffer

/-! ### The end of a list -/

section LastOf

variable {α : Type*}

lemma lastOf_of_length_le {n : Nat} {l : List α} (h : l.length ≤ n) : lastOf n l = l := by
  rw [lastOf, Nat.sub_eq_zero_of_le h, List.drop_zero]

lemma length_lastOf (n : Nat) (l : List α) : (lastOf n l).length = min n l.length := by
  rw [lastOf, List.length_drop]
  omega

lemma lastOf_suffix (n : Nat) (l : List α) : lastOf n l <:+ l := List.drop_suffix _ _

/-- What is cut off at the front before something is appended would be cut off after it too. -/
lemma lastOf_lastOf_append (n : Nat) (l m : List α) : lastOf n (lastOf n l ++ m) = lastOf n (l ++ m) := by
  by_cases hle : l.length ≤ n
  · rw [lastOf_of_length_le hle]
  · unfold lastOf
    simp only [List.length_append, List.length_drop]
    rw [← List.drop_append_of_le_length (by omega), List.drop_drop]
    congr 1
    omega

end LastOf

/-- A recording that is cut at the front to `cap`; there is no cut at zero. -/
def capped (cap : Nat) (taken : List Int16) : List Int16 := if 0 < cap then lastOf cap taken else taken

/-- `max_duration_ms` in samples; 0 means no limit. -/
def cap (u : UtteranceBuffer) : Nat := samplesIn u.sampleRate u.maxDurationMs

@[simp] lemma append_cap (u : UtteranceBuffer) (samples : List Int16) : (u.append samples).cap = u.cap := by
  unfold append
  simp only
  split
  · rfl
  · split
    · split <;> rfl
    · rfl

@[simp] lemma onSpeechStarted_cap (u : UtteranceBuffer) (s t : Time) : (u.onSpeechStarted s t).cap = u.cap := rfl

@[simp] lemma onSpeechEnded_cap (u : UtteranceBuffer) (now : Time) (released : List Nat) :
    (u.onSpeechEnded now released).1.cap = u.cap := by
  unfold onSpeechEnded
  split
  · rfl
  · unfold track
    simp only
    split <;> rfl

lemma capped_append (cap : Nat) (taken samples : List Int16) :
    capped cap (capped cap taken ++ samples) = capped cap (taken ++ samples) := by
  unfold capped
  split
  · exact lastOf_lastOf_append cap taken samples
  · rfl

lemma capped_of_length_le {cap : Nat} {taken : List Int16} (hfits : cap = 0 ∨ taken.length ≤ cap) :
    capped cap taken = taken := by
  unfold capped
  split
  · exact lastOf_of_length_le (by omega)
  · rfl

lemma length_capped_le {cap : Nat} (hcap : 0 < cap) (taken : List Int16) : (capped cap taken).length ≤ cap := by
  rw [capped, if_pos hcap, length_lastOf]
  exact Nat.min_le_left _ _

lemma length_capped (cap : Nat) (taken : List Int16) :
    (capped cap taken).length = if 0 < cap then min cap taken.length else taken.length := by
  unfold capped
  split
  · exact length_lastOf _ _
  · rfl

lemma capped_suffix (cap : Nat) (taken : List Int16) : capped cap taken <:+ taken := by
  unfold capped
  split
  · exact lastOf_suffix _ _
  · exact List.suffix_rfl

lemma suffix_append_append {α : Type*} {l m : List α} (h : l <:+ m) (n : List α) : l ++ n <:+ m ++ n := by
  obtain ⟨front, rfl⟩ := h
  exact ⟨front, by rw [List.append_assoc]⟩

/-! ### The calls and their history -/

def create (sampleRate : UInt32) (prePaddingMs postPaddingMs : Milliseconds) (maxInFlight : Nat)
    (maxDurationMs : Milliseconds) : UtteranceBuffer :=
  { sampleRate := sampleRate, prePaddingMs := prePaddingMs, postPaddingMs := postPaddingMs,
    maxInFlight := maxInFlight, maxDurationMs := maxDurationMs }

def call (u : UtteranceBuffer) : UtteranceCall → UtteranceBuffer
  | .append samples => u.append samples
  | .speechStarted prePadStart speechStartedAt => u.onSpeechStarted prePadStart speechStartedAt
  | .speechEnded speechEndedAt released => (u.onSpeechEnded speechEndedAt released).1
  | .abortActive => u.abortActive

/-- What came in while nobody was recorded, since the last start; and of the open recording the pre-buffer at its
start and what came in since. -/
structure History where
  idle : List Int16 := []
  taken : Option (List Int16) := none
  deriving DecidableEq, Repr

def History.record (u : UtteranceBuffer) (h : History) : UtteranceCall → History
  | .append samples =>
    match h.taken with
    | none => { h with idle := h.idle ++ samples }
    | some taken => { h with taken := some (taken ++ samples) }
  | .speechStarted _ _ => { idle := [], taken := some u.preBuffer }
  | .speechEnded _ _ => { h with taken := none }
  | .abortActive => { h with taken := none }

def step (s : UtteranceBuffer × History) (c : UtteranceCall) : UtteranceBuffer × History :=
  (s.1.call c, s.2.record s.1 c)

/-- The buffer is a summary of the history. -/
structure Lawful (u : UtteranceBuffer) (h : History) : Prop where
  preBuffer : u.preBuffer = lastOf u.prePadCapacity h.idle
  recording : u.recording = h.taken.isSome
  active : ∀ taken, h.taken = some taken → u.activeSamples = capped u.cap taken
  inFlight : u.inFlight.length ≤ u.maxInFlight

/-- The limits of a buffer; they stay as they were set. -/
structure Limits (u : UtteranceBuffer) (sampleRate : UInt32) (prePaddingMs maxDurationMs : Milliseconds)
    (maxInFlight : Nat) : Prop where
  sampleRate : u.sampleRate = sampleRate
  prePaddingMs : u.prePaddingMs = prePaddingMs
  maxDurationMs : u.maxDurationMs = maxDurationMs
  maxInFlight : u.maxInFlight = maxInFlight

variable {u : UtteranceBuffer} {h : History} {sampleRate : UInt32} {prePaddingMs maxDurationMs : Milliseconds}
  {maxInFlight : Nat}

lemma append_of_idle {samples : List Int16} (hrecording : u.recording = false) :
    u.append samples =
      if samples = [] then u else { u with preBuffer := lastOf u.prePadCapacity (u.preBuffer ++ samples) } := by
  unfold append
  rw [if_neg (by simp [hrecording] : ¬u.recording = true)]

/-- A recording takes up what is appended and is cut at the front, and its start moves on with the cut. -/
lemma append_of_recording {samples : List Int16} (hrecording : u.recording = true) (hsamples : samples ≠ []) :
    (u.append samples).activeSamples = capped u.cap (u.activeSamples ++ samples) ∧
      (u.append samples).activeStartedAt = u.activeStartedAt + Milliseconds.toTime
        (((u.activeSamples ++ samples).length - (u.append samples).activeSamples.length : Nat) * 1000 /
          u.sampleRate.toNat) ∧
      (u.append samples).preBuffer = u.preBuffer := by
  unfold append
  rw [if_neg hsamples, if_pos hrecording]
  simp only
  split
  · rename_i hlong
    refine ⟨?_, ?_, rfl⟩
    · rw [capped, if_pos (show 0 < u.cap from hlong.1)]
      rfl
    · have hcut : (u.activeSamples ++ samples).length -
          ((u.activeSamples ++ samples).drop
            ((u.activeSamples ++ samples).length - samplesIn u.sampleRate u.maxDurationMs)).length =
          (u.activeSamples ++ samples).length - samplesIn u.sampleRate u.maxDurationMs := by
        rw [List.length_drop]
        omega
      simp only [hcut]
  · rename_i hshort
    refine ⟨?_, ?_, rfl⟩
    · exact (capped_of_length_le ((Nat.eq_zero_or_pos _).imp_right fun hcap => not_lt.1 fun hlong =>
        hshort ⟨hcap, hlong⟩)).symm
    · simp [Milliseconds.toTime]

lemma append_limits (u : UtteranceBuffer) (samples : List Int16) :
    Limits (u.append samples) u.sampleRate u.prePaddingMs u.maxDurationMs u.maxInFlight ∧
      (u.append samples).recording = u.recording ∧ (u.append samples).inFlight = u.inFlight := by
  unfold append
  simp only
  split_ifs <;> exact ⟨⟨rfl, rfl, rfl, rfl⟩, rfl, rfl⟩

lemma track_limits (u : UtteranceBuffer) (released : List Nat) :
    Limits (u.track released) u.sampleRate u.prePaddingMs u.maxDurationMs u.maxInFlight ∧
      (u.track released).preBuffer = u.preBuffer ∧ (u.track released).recording = u.recording := by
  unfold track
  simp only
  split_ifs <;> exact ⟨⟨rfl, rfl, rfl, rfl⟩, rfl, rfl⟩

lemma length_inFlight_track (released : List Nat) (hroom : 1 ≤ u.maxInFlight)
    (hfits : u.inFlight.length ≤ u.maxInFlight) : (u.track released).inFlight.length ≤ u.maxInFlight := by
  have hlive : (u.inFlight.filter (· ∉ released)).length ≤ u.inFlight.length := List.length_filter_le _ _
  unfold track
  simp only
  split
  · simp only [List.length_append, List.length_tail, List.length_singleton]
    omega
  · simp only [List.length_append, List.length_singleton]
    omega

lemma onSpeechEnded_limits (u : UtteranceBuffer) (speechEndedAt : Time) (released : List Nat) :
    Limits (u.onSpeechEnded speechEndedAt released).1 u.sampleRate u.prePaddingMs u.maxDurationMs u.maxInFlight ∧
      (u.onSpeechEnded speechEndedAt released).1.preBuffer = u.preBuffer ∧
      (u.onSpeechEnded speechEndedAt released).1.recording = false := by
  unfold onSpeechEnded
  split
  · rename_i hidle
    exact ⟨⟨rfl, rfl, rfl, rfl⟩, rfl, by simpa using hidle⟩
  · exact track_limits _ released

lemma length_inFlight_onSpeechEnded (speechEndedAt : Time) (released : List Nat) (hroom : 1 ≤ u.maxInFlight)
    (hfits : u.inFlight.length ≤ u.maxInFlight) :
    (u.onSpeechEnded speechEndedAt released).1.inFlight.length ≤ u.maxInFlight := by
  unfold onSpeechEnded
  split
  · exact hfits
  · exact length_inFlight_track (u := { u with activeSamples := [], recording := false }) released hroom hfits

lemma onSpeechEnded_slice (u : UtteranceBuffer) (speechEndedAt : Time) (released : List Nat) :
    ((u.onSpeechEnded speechEndedAt released).2.isSome ↔ u.recording = true) ∧
      ∀ slice, (u.onSpeechEnded speechEndedAt released).2 = some slice → slice.samples <+: u.activeSamples := by
  unfold onSpeechEnded
  split
  · rename_i hidle
    exact ⟨iff_of_false Bool.false_ne_true hidle, fun slice h => by simp at h⟩
  · rename_i hrecording
    refine ⟨iff_of_true rfl (not_not.1 hrecording), fun slice h => ?_⟩
    simp only [Option.some.injEq] at h
    rw [← h]
    simp only
    split
    · exact List.take_prefix _ _
    · exact List.prefix_rfl

lemma abortActive_limits (u : UtteranceBuffer) :
    Limits u.abortActive u.sampleRate u.prePaddingMs u.maxDurationMs u.maxInFlight ∧
      u.abortActive.preBuffer = u.preBuffer ∧ u.abortActive.recording = false ∧
      u.abortActive.inFlight = u.inFlight := by
  unfold abortActive
  split
  · rename_i hidle
    exact ⟨⟨rfl, rfl, rfl, rfl⟩, rfl, by simpa using hidle, rfl⟩
  · exact ⟨⟨rfl, rfl, rfl, rfl⟩, rfl, rfl, rfl⟩

lemma Limits.call (hlimits : Limits u sampleRate prePaddingMs maxDurationMs maxInFlight) (c : UtteranceCall) :
    Limits (u.call c) sampleRate prePaddingMs maxDurationMs maxInFlight := by
  obtain ⟨rfl, rfl, rfl, rfl⟩ := hlimits
  cases c with
  | append samples => exact (append_limits u samples).1
  | speechStarted prePadStart speechStartedAt => exact ⟨rfl, rfl, rfl, rfl⟩
  | speechEnded speechEndedAt released => exact (onSpeechEnded_limits u speechEndedAt released).1
  | abortActive => exact (abortActive_limits u).1

lemma Limits.prePadCapacity (hlimits : Limits u sampleRate prePaddingMs maxDurationMs maxInFlight) :
    u.prePadCapacity = samplesIn sampleRate prePaddingMs := by
  rw [UtteranceBuffer.prePadCapacity, hlimits.sampleRate, hlimits.prePaddingMs]

lemma Limits.cap (hlimits : Limits u sampleRate prePaddingMs maxDurationMs maxInFlight) :
    u.cap = samplesIn sampleRate maxDurationMs := by
  rw [UtteranceBuffer.cap, hlimits.sampleRate, hlimits.maxDurationMs]

lemma call_limits (u : UtteranceBuffer) (c : UtteranceCall) :
    (u.call c).prePadCapacity = u.prePadCapacity ∧ (u.call c).cap = u.cap ∧ (u.call c).maxInFlight = u.maxInFlight := by
  have hlimits : Limits u u.sampleRate u.prePaddingMs u.maxDurationMs u.maxInFlight := ⟨rfl, rfl, rfl, rfl⟩
  have hafter := hlimits.call c
  exact ⟨hafter.prePadCapacity, hafter.cap, hafter.maxInFlight⟩

lemma Lawful.append_idle (h' : Lawful u h) (htaken : h.taken = none) (samples : List Int16) :
    Lawful (u.append samples) (h.record u (.append samples)) := by
  have hidle : u.recording = false := by rw [h'.recording, htaken]; rfl
  obtain ⟨_, hrecording, hsame⟩ := append_limits u samples
  obtain ⟨hcapacity, _, hflight⟩ := u.call_limits (.append samples)
  rw [UtteranceBuffer.call] at hcapacity hflight
  refine ⟨?_, ?_, by simp [History.record, htaken], ?_⟩
  · rw [hcapacity, History.record, htaken, append_of_idle hidle]
    by_cases hsamples : samples = []
    · rw [if_pos hsamples, hsamples, h'.preBuffer]
      simp
    · rw [if_neg hsamples, h'.preBuffer]
      exact lastOf_lastOf_append _ _ _
  · simp only [hrecording, hidle, History.record, htaken, Option.isSome_none]
  · rw [hflight, hsame]
    exact h'.inFlight

lemma Lawful.append_recording (h' : Lawful u h) {taken : List Int16} (htaken : h.taken = some taken)
    (samples : List Int16) : Lawful (u.append samples) (h.record u (.append samples)) := by
  have hactive : u.recording = true := by rw [h'.recording, htaken]; rfl
  obtain ⟨_, hrecording, hsame⟩ := append_limits u samples
  obtain ⟨hcapacity, hmax, hflight⟩ := u.call_limits (.append samples)
  rw [UtteranceBuffer.call] at hcapacity hmax hflight
  refine ⟨?_, ?_, fun taken' htaken' => ?_, ?_⟩
  · rw [hcapacity, History.record, htaken]
    by_cases hsamples : samples = []
    · rw [append, if_pos hsamples]
      exact h'.preBuffer
    · rw [(append_of_recording hactive hsamples).2.2]
      exact h'.preBuffer
  · simp only [hrecording, hactive, History.record, htaken, Option.isSome_some]
  · have hjoin : taken ++ samples = taken' := by simpa [History.record, htaken] using htaken'
    rw [hmax, ← hjoin]
    by_cases hsamples : samples = []
    · rw [append, if_pos hsamples, hsamples, List.append_nil]
      exact h'.active taken htaken
    · rw [(append_of_recording hactive hsamples).1, h'.active taken htaken]
      exact capped_append _ _ _
  · rw [hflight, hsame]
    exact h'.inFlight

/-- A recording starts with the pre-buffer, which is no longer than a recording may be. -/
lemma Lawful.speechStarted (h' : Lawful u h) (hpad : u.prePadCapacity ≤ u.cap) (prePadStart speechStartedAt : Time) :
    Lawful (u.onSpeechStarted prePadStart speechStartedAt)
      (h.record u (.speechStarted prePadStart speechStartedAt)) := by
  refine ⟨by simp [onSpeechStarted, History.record, lastOf], rfl, fun taken htaken => ?_, h'.inFlight⟩
  have hsame : u.preBuffer = taken := by simpa [History.record] using htaken
  have hlength : u.preBuffer.length ≤ u.cap := by
    rw [h'.preBuffer, length_lastOf]
    exact (Nat.min_le_left _ _).trans hpad
  rw [onSpeechStarted_cap, ← hsame]
  exact (capped_of_length_le (Or.inr hlength)).symm

theorem Lawful.call (h' : Lawful u h) (hlimits : Limits u sampleRate prePaddingMs maxDurationMs maxInFlight)
    (hpad : samplesIn sampleRate prePaddingMs ≤ samplesIn sampleRate maxDurationMs) (hroom : 1 ≤ maxInFlight)
    (c : UtteranceCall) : Lawful (u.call c) (h.record u c) := by
  rw [← hlimits.prePadCapacity, ← hlimits.cap] at hpad
  rw [← hlimits.maxInFlight] at hroom
  obtain ⟨hcapacity, _, hflight⟩ := u.call_limits c
  cases c with
  | append samples =>
    cases htaken : h.taken with
    | none => exact h'.append_idle htaken samples
    | some taken => exact h'.append_recording htaken samples
  | speechStarted prePadStart speechStartedAt => exact h'.speechStarted hpad prePadStart speechStartedAt
  | speechEnded speechEndedAt released =>
    obtain ⟨_, hpre, hidle⟩ := onSpeechEnded_limits u speechEndedAt released
    refine ⟨?_, hidle, by simp [History.record], ?_⟩
    · rw [hcapacity, UtteranceBuffer.call, hpre]
      exact h'.preBuffer
    · rw [hflight]
      exact length_inFlight_onSpeechEnded speechEndedAt released hroom h'.inFlight
  | abortActive =>
    obtain ⟨_, hpre, hidle, hsame⟩ := abortActive_limits u
    refine ⟨?_, hidle, by simp [History.record], ?_⟩
    · rw [hcapacity, UtteranceBuffer.call, hpre]
      exact h'.preBuffer
    · rw [hflight, UtteranceBuffer.call, hsame]
      exact h'.inFlight

/-! ### Runs of calls -/

lemma samplesIn_of_lt (sampleRate : UInt32) {d : Milliseconds} (hnonneg : 0 ≤ d) (hlt : d < 2 ^ 32) :
    samplesIn sampleRate d = sampleRate.toNat * d.toNat / 1000 := by
  have hd : (4294967296 : Int) > d := by linarith
  have hnonneg' : (0 : Int) ≤ d := hnonneg
  have hsize : toSize d = d.toNat := by
    rw [toSize, Int.emod_eq_of_lt hnonneg (by omega)]
  have hbound : sampleRate.toNat * d.toNat < 2 ^ 64 := by
    have hrate := sampleRate.toNat_lt
    calc sampleRate.toNat * d.toNat ≤ 2 ^ 32 * d.toNat := Nat.mul_le_mul_right _ (by omega)
      _ < 2 ^ 32 * 2 ^ 32 := Nat.mul_lt_mul_of_pos_left (by omega) (by decide)
      _ = 2 ^ 64 := by norm_num
  rw [samplesIn, hsize, Nat.mod_eq_of_lt hbound]

lemma lawful_create (sampleRate : UInt32) (prePaddingMs postPaddingMs maxDurationMs : Milliseconds)
    (maxInFlight : Nat) : Lawful (create sampleRate prePaddingMs postPaddingMs maxInFlight maxDurationMs) {} :=
  ⟨(List.drop_nil).symm, rfl, fun _ h => by simp at h, Nat.zero_le _⟩

/-- The buffer and its history after some calls. -/
def run (sampleRate : UInt32) (prePaddingMs postPaddingMs : Milliseconds) (maxInFlight : Nat)
    (maxDurationMs : Milliseconds) (calls : List UtteranceCall) : UtteranceBuffer × History :=
  Runs.exec step (create sampleRate prePaddingMs postPaddingMs maxInFlight maxDurationMs, {}) calls

/-- After any calls the pre-buffer is the end of what came in while nobody was recorded; there is a slice exactly
of an open recording, and it begins as the recording does when that is cut at the front to the longest duration, if
there is one; and no more slices are tracked than may be in flight. -/
theorem content_law (sampleRate : UInt32) (prePaddingMs postPaddingMs maxDurationMs : Milliseconds)
    (maxInFlight : Nat) (hpre : 0 ≤ prePaddingMs) (hle : prePaddingMs ≤ maxDurationMs) (hmax : maxDurationMs < 2 ^ 32)
    (hroom : 1 ≤ maxInFlight) (calls : List UtteranceCall) :
    let s := run sampleRate prePaddingMs postPaddingMs maxInFlight maxDurationMs calls
    let cap := sampleRate.toNat * maxDurationMs.toNat / 1000
    s.1.preBuffer = lastOf (sampleRate.toNat * prePaddingMs.toNat / 1000) s.2.idle ∧
      (∀ speechEndedAt released,
        ((s.1.onSpeechEnded speechEndedAt released).2.isSome ↔ s.2.taken.isSome) ∧
          ∀ slice, (s.1.onSpeechEnded speechEndedAt released).2 = some slice →
            ∃ taken, s.2.taken = some taken ∧ slice.samples <+: capped cap taken ∧
              (0 < cap → slice.samples.length ≤ cap)) ∧
      s.1.inFlight.length ≤ maxInFlight := by
  intro s cap
  have hcap : samplesIn sampleRate maxDurationMs = cap := samplesIn_of_lt sampleRate (le_trans hpre hle) hmax
  have hcapacity := samplesIn_of_lt sampleRate hpre (lt_of_le_of_lt hle hmax)
  have hpad : samplesIn sampleRate prePaddingMs ≤ samplesIn sampleRate maxDurationMs := by
    rw [hcapacity, hcap]
    exact Nat.div_le_div_right (Nat.mul_le_mul_left _ (Int.toNat_le_toNat hle))
  have hstart : Limits (create sampleRate prePaddingMs postPaddingMs maxInFlight maxDurationMs) sampleRate prePaddingMs
      maxDurationMs maxInFlight := ⟨rfl, rfl, rfl, rfl⟩
  have hrun : Limits s.1 sampleRate prePaddingMs maxDurationMs maxInFlight ∧ Lawful s.1 s.2 :=
    Runs.exec_invariant
      (fun s : UtteranceBuffer × History =>
        Limits s.1 sampleRate prePaddingMs maxDurationMs maxInFlight ∧ Lawful s.1 s.2)
      (fun s c hs => ⟨hs.1.call c, hs.2.call hs.1 hpad hroom c⟩)
      ⟨hstart, lawful_create sampleRate prePaddingMs postPaddingMs maxDurationMs maxInFlight⟩ calls
  obtain ⟨hlimits, hlaw⟩ := hrun
  refine ⟨?_, fun speechEndedAt released => ?_, ?_⟩
  · rw [hlaw.preBuffer, hlimits.prePadCapacity, hcapacity]
  · obtain ⟨hopen, hslices⟩ := s.1.onSpeechEnded_slice speechEndedAt released
    rw [hlaw.recording] at hopen
    refine ⟨hopen, fun slice hslice => ?_⟩
    obtain ⟨taken, htaken⟩ := Option.isSome_iff_exists.1 (hopen.1 (by rw [hslice]; rfl))
    have hbegins := hslices slice hslice
    rw [hlaw.active taken htaken, hlimits.cap, hcap] at hbegins
    exact ⟨taken, htaken, hbegins, fun hpos => hbegins.length_le.trans (length_capped_le hpos taken)⟩
  · rw [← hlimits.maxInFlight]
    exact hlaw.inFlight

/-- Speech at a rate of a sample in a millisecond, with a pre-buffer of two and a recording of at most four. -/
def cutRecording : List UtteranceCall :=
  [.append [1, 2, 3], .speechStarted 0 0, .append [4, 5, 6], .append [7]]

theorem cut_recording_law :
    let s := run 1000 2 100 3 4 cutRecording
    s.1.preBuffer = lastOf 2 s.2.idle ∧
      (∀ speechEndedAt released,
        ((s.1.onSpeechEnded speechEndedAt released).2.isSome ↔ s.2.taken.isSome) ∧
          ∀ slice, (s.1.onSpeechEnded speechEndedAt released).2 = some slice →
            ∃ taken, s.2.taken = some taken ∧ slice.samples <+: capped 4 taken ∧ (0 < 4 → slice.samples.length ≤ 4)) ∧
      s.1.inFlight.length ≤ 3 :=
  content_law 1000 2 100 4 3 (by decide) (by decide) (by decide) (by decide) cutRecording

/-- A longest duration of zero is none: the slice is longer than it. -/
theorem no_longest_duration :
    let s := run 16000 0 100 3 0 [.speechStarted 0 0, .append [1]]
    ∃ slice, (s.1.onSpeechEnded 0 []).2 = some slice ∧ s.2.taken = some [1] ∧
      ¬slice.samples <+: lastOf (16000 * 0 / 1000) [1] ∧ ¬slice.samples.length ≤ 16000 * 0 / 1000 := by
  refine ⟨_, rfl, rfl, ?_, ?_⟩ <;> decide +kernel

end UtteranceBuffer

end Acva
