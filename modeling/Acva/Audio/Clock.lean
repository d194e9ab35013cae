import Acva.Audio.Capture
import Acva.Lib.Runs
import Mathlib.Tactic.Linarith
import Mathlib.Tactic.Ring

/-!
# The audio clock

`MonotonicAudioClock` translates between frame indices and instants from one anchor. `steady_for` multiplies a whole
number of nanoseconds per frame, `frames_at` divides by the exact rate: the way there and back ends at the index it
started from only at the anchor, or where a frame lasts a whole number of nanoseconds.
-/

namespace Acva

/-- The value of a `std::int64_t`. A cast wraps; a sum that leaves the range is undefined in C++ and wraps here. -/
def int64 (x : Int) : Int := (x + 9223372036854775808) % 18446744073709551616 - 9223372036854775808

namespace MonotonicAudioClock

def steadyFor (c : MonotonicAudioClock) (frameIndex : Nat) : Time :=
  if !c.anchored then 0
  else if c.sampleRate = 0 then 0
  else
    let deltaFrames := int64 (int64 frameIndex - int64 c.anchorFrame)
    let nsPerFrame := Int.tdiv 1000000000 c.sampleRate.toNat
    int64 (c.anchorSteadyNs + int64 (deltaFrames * nsPerFrame))

def framesAt (c : MonotonicAudioClock) (tp : Time) : Nat :=
  if !c.anchored then 0
  else if c.sampleRate = 0 then 0
  else
    let deltaNs := int64 (tp - c.anchorSteadyNs)
    let deltaFrames := Int.tdiv (int64 (deltaNs * c.sampleRate.toNat)) 1000000000
    let result := int64 (int64 c.anchorFrame + deltaFrames)
    if result < 0 then 0 else result.toNat

end MonotonicAudioClock

/-- A call of `on_capture_frames`, with the clock it reads. -/
structure CaptureTick where
  frameCount : Nat
  sampleRate : UInt32
  now : Time
  deriving DecidableEq, Repr

def MonotonicAudioClock.step (c : MonotonicAudioClock) (t : CaptureTick) : MonotonicAudioClock :=
  c.onCaptureFrames t.frameCount t.sampleRate t.now

/-! ### There and back from the anchor -/

lemma int64_of_fits {x : Int} (hlow : -9223372036854775808 ≤ x) (hhigh : x < 9223372036854775808) : int64 x = x := by
  unfold int64
  omega

lemma int64_range (x : Int) : -9223372036854775808 ≤ int64 x ∧ int64 x < 9223372036854775808 := by
  unfold int64
  omega

lemma int64_sub (a b : Nat) : int64 (int64 a - int64 b) = int64 (a - b : Int) := by
  unfold int64
  omega

lemma int64_add_sub (a x : Int) : int64 (int64 (a + int64 x) - a) = int64 x := by
  unfold int64
  omega

lemma int64_add (a : Nat) (x : Int) : int64 (int64 a + x) = int64 (a + x) := by
  unfold int64
  omega

/-- A distance in frames survives the nanoseconds only if it is 0 or a frame lasts a whole number of them. -/
lemma tdiv_period_eq_iff {r n : Nat} (hn : 0 < n) (delta : Int) :
    (delta * (n / r : Nat) * r).tdiv n = delta ↔ delta = 0 ∨ r ∣ n := by
  have hperiod : n / r * r ≤ n := Nat.div_mul_le_self n r
  constructor
  · intro h
    by_contra hnot
    obtain ⟨hdelta, hdvd⟩ := not_or.mp hnot
    have hshort : n / r * r < n := by
      apply lt_of_le_of_ne hperiod
      intro heq
      exact hdvd (Dvd.intro_left (n / r) heq)
    have habs : (delta.natAbs * (n / r) * r) / n = delta.natAbs := by
      have hcongr := congrArg Int.natAbs h
      rwa [Int.natAbs_tdiv, Int.natAbs_mul, Int.natAbs_mul, Int.natAbs_natCast, Int.natAbs_natCast,
        Int.natAbs_natCast] at hcongr
    have hpos : 0 < delta.natAbs := Int.natAbs_pos.mpr hdelta
    have hlt : delta.natAbs * (n / r) * r < delta.natAbs * n := by
      rw [Nat.mul_assoc]
      exact Nat.mul_lt_mul_of_pos_left hshort hpos
    have hdiv := (Nat.div_lt_iff_lt_mul hn).mpr hlt
    omega
  · intro h
    cases h with
    | inl hzero => simp [hzero]
    | inr hdvd =>
      have hwhole : ((n / r : Nat) : Int) * r = n := by
        exact_mod_cast Nat.div_mul_cancel hdvd
      rw [mul_assoc, hwhole, Int.mul_tdiv_cancel _ (by omega)]

/-- The truncations never lead past the distance itself. -/
lemma natAbs_tdiv_period_le (r : Nat) {n : Nat} (delta : Int) :
    ((delta * (n / r : Nat) * r).tdiv n).natAbs ≤ delta.natAbs := by
  have hperiod : n / r * r ≤ n := Nat.div_mul_le_self n r
  rw [Int.natAbs_tdiv, Int.natAbs_mul, Int.natAbs_mul, Int.natAbs_natCast, Int.natAbs_natCast, Int.natAbs_natCast]
  apply Nat.div_le_of_le_mul
  rw [Nat.mul_assoc, Nat.mul_comm n]
  exact Nat.mul_le_mul_left _ hperiod

namespace MonotonicAudioClock

variable {c : MonotonicAudioClock}

/-- What `frames_at` makes of an instant of `steady_for`, within one hour of the anchor. -/
lemma framesAt_steadyFor {f : Nat} (hanchored : c.anchored = true) (hpos : 0 < c.sampleRate.toNat)
    (hrate : c.sampleRate.toNat ≤ 192000)
    (hhour : ((f : Int) - c.anchorFrame).natAbs ≤ 3600 * c.sampleRate.toNat) :
    c.framesAt (c.steadyFor f) =
      (int64 (c.anchorFrame + (((f : Int) - c.anchorFrame) * (1000000000 / c.sampleRate.toNat : Nat) *
        c.sampleRate.toNat).tdiv 1000000000)).toNat := by
  have hne : c.sampleRate ≠ 0 := by
    intro hzero
    rw [hzero] at hpos
    exact absurd hpos (by decide)
  set delta : Int := (f : Int) - c.anchorFrame with hdelta
  set r := c.sampleRate.toNat with hr
  have hperiod : 1000000000 / r * r ≤ 1000000000 := Nat.div_mul_le_self _ _
  have hproduct : (delta * (1000000000 / r : Nat)).natAbs ≤ 3600000000000 := by
    rw [Int.natAbs_mul, Int.natAbs_natCast]
    calc delta.natAbs * (1000000000 / r) ≤ 3600 * r * (1000000000 / r) := Nat.mul_le_mul_right _ hhour
      _ = 3600 * (1000000000 / r * r) := by ring
      _ ≤ 3600 * 1000000000 := Nat.mul_le_mul_left _ hperiod
  have hback : (delta * (1000000000 / r : Nat) * r).natAbs ≤ 691200000000000000 := by
    rw [Int.natAbs_mul, Int.natAbs_natCast r]
    calc (delta * (1000000000 / r : Nat)).natAbs * r ≤ 3600000000000 * 192000 := Nat.mul_le_mul hproduct hrate
      _ = 691200000000000000 := by norm_num
  have hquotient : Int.tdiv 1000000000 (r : Int) = (1000000000 / r : Nat) := by
    rw [Int.tdiv_eq_ediv_of_nonneg (by norm_num)]
    norm_cast
  have hframes : int64 (int64 f - int64 c.anchorFrame) = delta := by
    rw [int64_sub, int64_of_fits] <;> omega
  have hinstant : c.steadyFor f = int64 (c.anchorSteadyNs + int64 (delta * (1000000000 / r : Nat))) := by
    simp only [steadyFor, hanchored, Bool.not_true, Bool.false_eq_true, if_false, if_neg hne, hframes, ← hr, hquotient]
  have hns : int64 (c.steadyFor f - c.anchorSteadyNs) = delta * (1000000000 / r : Nat) := by
    rw [hinstant, int64_add_sub, int64_of_fits] <;> omega
  have hscaled : int64 (delta * (1000000000 / r : Nat) * r) = delta * (1000000000 / r : Nat) * r := by
    apply int64_of_fits <;> omega
  simp only [framesAt, hanchored, Bool.not_true, Bool.false_eq_true, if_false, if_neg hne, ← hr, hns, hscaled,
    int64_add]
  split
  · omega
  · rfl

/-- Within the hour the way back ends where it started exactly if the index is a positive 64-bit value and either the
anchor or a multiple of a whole number of nanoseconds away from it. -/
lemma framesAt_steadyFor_eq_iff {f : Nat} (hanchored : c.anchored = true) (hpos : 0 < c.sampleRate.toNat)
    (hrate : c.sampleRate.toNat ≤ 192000)
    (hhour : ((f : Int) - c.anchorFrame).natAbs ≤ 3600 * c.sampleRate.toNat) :
    c.framesAt (c.steadyFor f) = f ↔
      f < 2 ^ 63 ∧ (f = c.anchorFrame ∨ c.sampleRate.toNat ∣ 1000000000) := by
  rw [framesAt_steadyFor hanchored hpos hrate hhour]
  have hsecond : 0 < 1000000000 := by norm_num
  have hiff := tdiv_period_eq_iff (r := c.sampleRate.toNat) hsecond ((f : Int) - c.anchorFrame)
  have hle := natAbs_tdiv_period_le c.sampleRate.toNat (n := 1000000000) ((f : Int) - c.anchorFrame)
  push_cast at hiff hle ⊢
  set back : Int := (((f : Int) - c.anchorFrame) * (1000000000 / (c.sampleRate.toNat : Int)) *
    c.sampleRate.toNat).tdiv 1000000000
  have hanchor : (f : Int) - c.anchorFrame = 0 ↔ f = c.anchorFrame := by omega
  rw [hanchor] at hiff
  rw [← hiff]
  have hrange := int64_range (c.anchorFrame + back)
  unfold int64 at hrange ⊢
  constructor
  · intro heq
    constructor <;> omega
  · rintro ⟨hsmall, hback⟩
    omega

lemma anchored_exec (ticks : List CaptureTick) :
    (Runs.exec step {} ticks).sampleRate ≠ 0 → (Runs.exec step {} ticks).anchored = true := by
  apply Runs.exec_invariant (fun c : MonotonicAudioClock => c.sampleRate ≠ 0 → c.anchored = true)
  · intro c t h
    unfold step onCaptureFrames
    split
    · exact h
    · split
      · exact fun _ => rfl
      · exact fun _ => rfl
  · exact fun h => absurd rfl h

end MonotonicAudioClock

/-- In every reachable state, for the rates of devices and within one hour of the anchor: `frames_at` inverts
`steady_for` at the anchor, and elsewhere exactly where a frame lasts a whole number of nanoseconds. -/
theorem audioClock_inverse_iff (ticks : List CaptureTick) (f : Nat) :
    let c := Runs.exec MonotonicAudioClock.step {} ticks
    8000 ≤ c.sampleRate.toNat → c.sampleRate.toNat ≤ 192000 →
      ((f : Int) - c.anchorFrame).natAbs ≤ 3600 * c.sampleRate.toNat →
      (c.framesAt (c.steadyFor f) = f ↔
        f < 2 ^ 63 ∧ (f = c.anchorFrame ∨ c.sampleRate.toNat ∣ 1000000000)) := by
  intro c hlow hhigh hhour
  have hne : c.sampleRate ≠ 0 := by
    intro hzero
    rw [hzero] at hlow
    exact absurd hlow (by decide)
  have hanchored := MonotonicAudioClock.anchored_exec ticks hne
  exact MonotonicAudioClock.framesAt_steadyFor_eq_iff hanchored (by omega) hhigh hhour

/-- At 8000 Hz a frame lasts 125000 ns. -/
theorem audioClock_inverse_8000 :
    let c := Runs.exec MonotonicAudioClock.step {} [⟨80, 8000, 5⟩]
    c.framesAt (c.steadyFor 7) = 7 := by
  intro c
  exact (audioClock_inverse_iff [⟨80, 8000, 5⟩] 7 (by decide) (by decide) (by decide)).mpr (by decide)

/-- At 48000 Hz the first frame after the anchor starts 20833 ns later, which is short of a whole frame. -/
theorem audioClock_not_inverse_48000 :
    let c := Runs.exec MonotonicAudioClock.step {} [⟨480, 48000, 0⟩]
    c.sampleRate = 48000 ∧ c.anchorFrame = 0 ∧ c.steadyFor 1 = 20833 ∧ c.framesAt (c.steadyFor 1) = 0 := by
  decide

end Acva
