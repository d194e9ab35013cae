import Acva.Audio.Wav

/-!
# The walk over the chunks

The sizes that a file declares decide where its next chunk is, and with that whether the walk of `read_wav_file` ends
and stays inside its buffers.
-/

namespace Acva

namespace Wav

open Pcm

/-! ### The chunks of a file -/

def IsRiff (buf : List UInt8) : Prop :=
  44 ≤ buf.length ∧ bytesAt buf 0 4 = ascii "RIFF" ∧ bytesAt buf 8 4 = ascii "WAVE"

instance (buf : List UInt8) : Decidable (IsRiff buf) := by unfold IsRiff; infer_instance

/-- The declared size of the chunk at a position. -/
def sizeAt (buf : List UInt8) (pos : Nat) : UInt32 := readU32le buf (pos + 4)

/-- There is a chunk, it is not the one with the samples, and if it is a format the format is PCM. -/
structure Continues (buf : List UInt8) (pos : Nat) : Prop where
  fits : pos + 8 ≤ buf.length
  notData : bytesAt buf pos 4 ≠ ascii "data"
  format : bytesAt buf pos 4 = ascii "fmt " → pos + 24 ≤ buf.length ∧ readU16le buf (pos + 8) = 1

/-- The chunks of a file, each with the last format before it. -/
inductive ChunkAt (buf : List UInt8) : Nat → Option Nat → Prop
  | first (h : IsRiff buf) : ChunkAt buf 12 none
  | next {pos : Nat} {fmt : Option Nat} (h : ChunkAt buf pos fmt) (hnext : Continues buf pos) :
    ChunkAt buf (pos + (step (sizeAt buf pos)).toNat) (if bytesAt buf pos 4 = ascii "fmt " then some pos else fmt)

/-- The variables of the loop at a chunk. -/
def walkAt (buf : List UInt8) (pos : Nat) : Option Nat → Walk
  | none => { pos := pos }
  | some f =>
    { pos := pos, channels := readU16le buf (f + 10), rate := readU32le buf (f + 12), bits := readU16le buf (f + 22) }

/-! ### Iterations -/

def Outcome.next? : Outcome → Option Walk
  | .next w => some w
  | _ => none

/-- The variables of the loop after so many iterations, unless it has ended. -/
def after (buf : List UInt8) : Nat → Walk → Option Walk
  | 0, w => some w
  | n + 1, w => (readChunk buf w).2.next?.bind (after buf n)

/-- The same from the beginning of the loop, if the file gets that far. -/
def iteration (buf : List UInt8) (n : Nat) : Option Walk := if IsRiff buf then after buf n {} else none

lemma next?_eq_some {o : Outcome} {w : Walk} : o.next? = some w ↔ o = .next w := by
  cases o <;> simp [Outcome.next?]

lemma after_succ (buf : List UInt8) (n : Nat) (w : Walk) :
    after buf (n + 1) w = (after buf n w).bind fun v => (readChunk buf v).2.next? := by
  induction n generalizing w with
  | zero =>
    rw [after, after, Option.bind_some]
    cases (readChunk buf w).2.next? <;> rfl
  | succ n ih =>
    rw [after, after, Option.bind_assoc]
    exact Option.bind_congr fun v _ => ih v

/-- The loop goes on exactly from a chunk that continues. -/
lemma readChunk_eq_next {buf : List UInt8} {pos : Nat} {fmt : Option Nat} {w : Walk} :
    (readChunk buf (walkAt buf pos fmt)).2 = .next w ↔ Continues buf pos ∧
      w = walkAt buf (pos + (step (sizeAt buf pos)).toNat)
        (if bytesAt buf pos 4 = ascii "fmt " then some pos else fmt) := by
  have hpos : (walkAt buf pos fmt).pos = pos := by cases fmt <;> rfl
  have hmove : ∀ p, { walkAt buf pos fmt with pos := p } = walkAt buf p fmt := by
    intro p
    cases fmt <;> rfl
  have hne : ascii "fmt " ≠ ascii "data" := by decide
  unfold readChunk
  simp only [hpos, hmove]
  by_cases hfits : buf.length < pos + 8
  · rw [if_pos hfits]
    refine iff_of_false (by simp) fun h => ?_
    have := h.1.fits
    omega
  · rw [if_neg hfits]
    have hle : pos + 8 ≤ buf.length := by omega
    by_cases hfmt : bytesAt buf pos 4 = ascii "fmt "
    · rw [if_pos hfmt, if_pos hfmt]
      by_cases hroom : buf.length < pos + 8 + 16
      · rw [if_pos hroom]
        refine iff_of_false (by simp) fun h => ?_
        have := (h.1.format hfmt).1
        omega
      · rw [if_neg hroom]
        by_cases hcode : readU16le buf (pos + 8) = 1
        · rw [if_neg (not_not_intro hcode)]
          have hcontinues : Continues buf pos := ⟨hle, hfmt ▸ hne, fun _ => ⟨by omega, hcode⟩⟩
          rw [Outcome.next.injEq, eq_comm]
          exact (and_iff_right hcontinues).symm
        · rw [if_pos hcode]
          exact iff_of_false (by simp) fun h => hcode (h.1.format hfmt).2
    · rw [if_neg hfmt, if_neg hfmt]
      by_cases hdata : bytesAt buf pos 4 = ascii "data"
      · rw [if_pos hdata]
        exact iff_of_false (by simp) fun h => h.1.notData hdata
      · rw [if_neg hdata]
        have hcontinues : Continues buf pos := ⟨hle, hdata, fun h => absurd h hfmt⟩
        rw [Outcome.next.injEq, eq_comm]
        exact (and_iff_right hcontinues).symm

lemma exists_iteration_iff {buf : List UInt8} {w : Walk} :
    (∃ n, iteration buf n = some w) ↔ ∃ pos fmt, ChunkAt buf pos fmt ∧ w = walkAt buf pos fmt := by
  constructor
  · rintro ⟨n, hn⟩
    unfold iteration at hn
    split at hn
    · rename_i hriff
      induction n generalizing w with
      | zero =>
        obtain rfl : {} = w := by simpa [after] using hn
        exact ⟨12, none, .first hriff, rfl⟩
      | succ n ih =>
        rw [after_succ, Option.bind_eq_some_iff] at hn
        obtain ⟨v, hv, hnext⟩ := hn
        obtain ⟨pos, fmt, hchunk, rfl⟩ := ih hv
        obtain ⟨hcontinues, rfl⟩ := readChunk_eq_next.mp (next?_eq_some.mp hnext)
        exact ⟨_, _, hchunk.next hcontinues, rfl⟩
    · cases hn
  · rintro ⟨pos, fmt, hchunk, rfl⟩
    induction hchunk with
    | first hriff => exact ⟨0, by rw [iteration, if_pos hriff]; rfl⟩
    | next hchunk hcontinues ih =>
      obtain ⟨n, hn⟩ := ih
      refine ⟨n + 1, ?_⟩
      unfold iteration at hn ⊢
      split at hn
      · rename_i hriff
        rw [if_pos hriff, after_succ, hn, Option.bind_some, next?_eq_some, readChunk_eq_next]
        exact ⟨hcontinues, rfl⟩
      · cases hn

/-! ### The walk ends -/

/-- The call returns, after enough iterations. -/
def WalkEnds (buf : List UInt8) : Prop := ∃ fuel, (readWavFile fuel buf).2 ≠ none

/-- An iteration that does not leave the loop goes forward. -/
def WalkAdvances (buf : List UInt8) : Prop :=
  ∀ n w w', iteration buf n = some w → (readChunk buf w).2 = .next w' → w.pos < w'.pos

lemma walk_eq_none_iff (buf : List UInt8) (n : Nat) (w : Walk) :
    (walk buf n w).2 = none ↔ (after buf n w).isSome = true := by
  induction n generalizing w with
  | zero => simp [walk, after]
  | succ n ih =>
    rw [walk, after]
    split
    · rename_i w' hw'
      simp [ih, hw', Outcome.next?]
    · rename_i h
      simp [h, Outcome.next?]
    · rename_i h
      simp [h, Outcome.next?]
    · rename_i h
      simp [h, Outcome.next?]

lemma readWavFile_eq_none_iff (buf : List UInt8) (n : Nat) :
    (readWavFile n buf).2 = none ↔ (iteration buf n).isSome = true := by
  unfold readWavFile iteration IsRiff
  by_cases hlength : buf.length < 44
  · simp [hlength, show ¬44 ≤ buf.length by omega]
  · by_cases hriff : bytesAt buf 0 4 = ascii "RIFF"
    · by_cases hwave : bytesAt buf 8 4 = ascii "WAVE"
      · simp [hlength, hriff, hwave, walk_eq_none_iff, show 44 ≤ buf.length by omega]
      · simp [hlength, hriff, hwave]
    · simp [hlength, hriff]

lemma step_eq_zero_iff (sz : UInt32) : step sz = 0 ↔ sz = 0xFFFFFFF7 ∨ sz = 0xFFFFFFF8 := by
  have hlt := sz.toNat_lt
  simp only [← UInt32.toNat_inj, step, UInt32.toNat_add, UInt32.toNat_and, UInt32.reduceToNat, Nat.and_one_is_mod]
  omega

lemma iteration_succ {buf : List UInt8} {n : Nat} {w : Walk} (h : iteration buf (n + 1) = some w) :
    ∃ v, iteration buf n = some v ∧ (readChunk buf v).2 = .next w := by
  unfold iteration at h ⊢
  split at h
  · rename_i hriff
    rw [after_succ, Option.bind_eq_some_iff] at h
    obtain ⟨v, hv, hnext⟩ := h
    exact ⟨v, by rw [if_pos hriff, hv], next?_eq_some.mp hnext⟩
  · cases h

lemma WalkAdvances.ends {buf : List UInt8} (h : WalkAdvances buf) : WalkEnds buf := by
  have hpos : ∀ n w, iteration buf n = some w → 12 + n ≤ w.pos := by
    intro n
    induction n with
    | zero =>
      intro w hw
      unfold iteration at hw
      split at hw
      · obtain rfl : {} = w := by simpa [after] using hw
        exact Nat.le_refl 12
      · cases hw
    | succ n ih =>
      intro w hw
      obtain ⟨v, hv, hnext⟩ := iteration_succ hw
      have hforward := h n v w hv hnext
      have hbefore := ih v hv
      omega
  refine ⟨buf.length + 1, fun hnone => ?_⟩
  obtain ⟨w, hw⟩ := Option.isSome_iff_exists.mp ((readWavFile_eq_none_iff buf _).mp hnone)
  obtain ⟨v, hv, hnext⟩ := iteration_succ hw
  have hfar := hpos buf.length v hv
  obtain ⟨pos, fmt, -, rfl⟩ := exists_iteration_iff.mp ⟨_, hv⟩
  have hfits := (readChunk_eq_next.mp hnext).1.fits
  have hat : (walkAt buf pos fmt).pos = pos := by cases fmt <;> rfl
  omega

/-- The walk ends, and goes forward until then, exactly if no chunk that it passes declares one of the two sizes for
which the step to the next chunk is zero. -/
theorem walk_ends_iff (buf : List UInt8) : WalkEnds buf ∧ WalkAdvances buf ↔
    ∀ pos fmt, ChunkAt buf pos fmt → Continues buf pos →
      sizeAt buf pos ≠ 0xFFFFFFF7 ∧ sizeAt buf pos ≠ 0xFFFFFFF8 := by
  have hat : ∀ pos fmt, (walkAt buf pos fmt).pos = pos := by
    intro pos fmt
    cases fmt <;> rfl
  constructor
  · rintro ⟨-, hadvances⟩ pos fmt hchunk hcontinues
    obtain ⟨n, hn⟩ := exists_iteration_iff.mpr ⟨pos, fmt, hchunk, rfl⟩
    have hforward := hadvances n _ _ hn (readChunk_eq_next.mpr ⟨hcontinues, rfl⟩)
    rw [hat, hat] at hforward
    rw [← not_or, ← step_eq_zero_iff]
    intro hzero
    rw [hzero] at hforward
    exact absurd hforward (by simp)
  · intro h
    have hadvances : WalkAdvances buf := by
      intro n w w' hn hnext
      obtain ⟨pos, fmt, hchunk, rfl⟩ := exists_iteration_iff.mp ⟨n, hn⟩
      obtain ⟨hcontinues, rfl⟩ := readChunk_eq_next.mp hnext
      have hstep : step (sizeAt buf pos) ≠ 0 := by
        rw [Ne, step_eq_zero_iff, not_or]
        exact h pos fmt hchunk hcontinues
      have hpositive : 0 < (step (sizeAt buf pos)).toNat :=
        Nat.pos_of_ne_zero fun hzero => hstep (UInt32.toNat_inj.mp hzero)
      rw [hat, hat]
      omega
    exact ⟨hadvances.ends, hadvances⟩

/-- A file of 44 bytes whose first chunk declares a size that wraps. -/
def wrappingFile : List UInt8 :=
  ascii "RIFF" ++ bytes32 36 ++ ascii "WAVE" ++ ascii "junk" ++ bytes32 0xFFFFFFF8 ++ List.replicate 24 0

/-- The loop stays at the first chunk. -/
theorem wrapping_file_never_ends : iteration wrappingFile 1 = iteration wrappingFile 0 ∧ ¬WalkAdvances wrappingFile ∧
    ¬WalkEnds wrappingFile := by
  have hnext : (readChunk wrappingFile {}).2 = .next {} := by decide +kernel
  have hafter : ∀ n, after wrappingFile n {} = some {} := by
    intro n
    induction n with
    | zero => rfl
    | succ n ih => rw [after, hnext, Outcome.next?, Option.bind_some, ih]
  have hstays : ∀ n, iteration wrappingFile n = some {} := by
    intro n
    rw [iteration, if_pos (by decide +kernel), hafter]
  refine ⟨by rw [hstays, hstays], fun hadvances => ?_, ?_⟩
  · exact Nat.lt_irrefl _ (hadvances 0 {} {} (hstays 0) hnext)
  · rintro ⟨fuel, hends⟩
    apply hends
    rw [readWavFile_eq_none_iff, hstays]
    rfl

/-! ### The walk stays inside its buffers -/

/-- The loop ends at the chunk with the samples, the last format before it is the one supported, and the file is long
enough. -/
structure AcceptedAt (buf : List UInt8) (pos : Nat) (fmt : Option Nat) : Prop where
  chunk : ChunkAt buf pos fmt
  fits : pos + 8 ≤ buf.length
  tag : bytesAt buf pos 4 = ascii "data"
  format : ∃ f ∈ fmt, readU16le buf (f + 10) = 1 ∧ readU16le buf (f + 22) = 16 ∧ readU32le buf (f + 12) ≠ 0
  room : pos + 8 + (sizeAt buf pos).toNat ≤ buf.length

lemma readChunk_inBounds (buf : List UInt8) (w : Walk) : ∀ a ∈ (readChunk buf w).1, a.InBounds := by
  unfold readChunk
  simp only
  by_cases hfits : buf.length < w.pos + 8
  · simp [hfits]
  · rw [if_neg hfits]
    by_cases hfmt : bytesAt buf w.pos 4 = ascii "fmt "
    · rw [if_pos hfmt]
      by_cases hroom : buf.length < w.pos + 8 + 16
      · simp [hroom, Access.InBounds]
        omega
      · rw [if_neg hroom]
        by_cases hcode : readU16le buf (w.pos + 8) = 1
        · simp [hcode, Access.InBounds]
          omega
        · simp [hcode, Access.InBounds]
          omega
    · rw [if_neg hfmt]
      by_cases hdata : bytesAt buf w.pos 4 = ascii "data"
      · simp [hdata, Access.InBounds]
        omega
      · simp [hdata, Access.InBounds]
        omega

/-- The copy reads inside the file, and writes one byte too many if their number is odd. -/
lemma finish_inBounds_iff (buf : List UInt8) (w : Walk) (dataOff dataBytes : Nat) :
    (∀ a ∈ (finish buf w dataOff dataBytes).1, a.InBounds) ↔
      (w.channels = 1 ∧ w.bits = 16 ∧ w.rate ≠ 0 ∧ dataOff ≠ 0 ∧ dataOff + dataBytes ≤ buf.length →
        dataBytes % 2 = 0) := by
  unfold finish
  by_cases h : w.channels ≠ 1 ∨ w.bits ≠ 16 ∨ w.rate = 0 ∨ dataOff = 0 ∨ buf.length < dataOff + dataBytes
  · rw [if_pos h]
    refine iff_of_true (by simp) fun haccepted => ?_
    obtain ⟨h1, h2, h3, h4, h5⟩ := haccepted
    rcases h with h | h | h | h | h
    · exact absurd h1 h
    · exact absurd h2 h
    · exact absurd h h3
    · exact absurd h h4
    · omega
  · rw [if_neg h]
    simp only [not_or, not_not, Nat.not_lt] at h
    simp only [List.mem_cons, List.not_mem_nil, or_false, forall_eq_or_imp, forall_eq, Access.InBounds]
    constructor
    · rintro ⟨-, hwrite⟩ -
      omega
    · intro heven
      have := heven h
      omega

lemma readChunk_eq_data {buf : List UInt8} {w : Walk} {dataOff dataBytes : Nat} :
    (readChunk buf w).2 = .data dataOff dataBytes ↔ w.pos + 8 ≤ buf.length ∧ bytesAt buf w.pos 4 = ascii "data" ∧
      dataOff = w.pos + 8 ∧ dataBytes = (sizeAt buf w.pos).toNat := by
  have hne : ascii "data" ≠ ascii "fmt " := by decide
  unfold readChunk
  simp only
  by_cases hfits : buf.length < w.pos + 8
  · rw [if_pos hfits]
    refine iff_of_false ?_ fun h => absurd h.1 (by omega)
    simp
  · rw [if_neg hfits]
    by_cases hdata : bytesAt buf w.pos 4 = ascii "data"
    · simp [hdata, hne, sizeAt, show w.pos + 8 ≤ buf.length by omega, eq_comm]
    · by_cases hfmt : bytesAt buf w.pos 4 = ascii "fmt "
      · rw [if_pos hfmt]
        refine iff_of_false ?_ fun h => hdata h.2.1
        split
        · simp
        · split <;> simp
      · simp [hdata, hfmt]

/-- The accesses of the loop are those of its iterations and of the copy after it. -/
lemma mem_walk {buf : List UInt8} {n : Nat} {w : Walk} {a : Access} (h : a ∈ (walk buf n w).1) :
    ∃ k v, after buf k w = some v ∧ (a ∈ (readChunk buf v).1 ∨
      ∃ dataOff dataBytes, (readChunk buf v).2 = .data dataOff dataBytes ∧ a ∈ (finish buf v dataOff dataBytes).1) := by
  induction n generalizing w with
  | zero => cases h
  | succ n ih =>
    rw [walk] at h
    split at h
    · rename_i w' hw'
      rcases List.mem_append.mp h with h | h
      · exact ⟨0, w, rfl, .inl h⟩
      · obtain ⟨k, v, hv, ha⟩ := ih h
        exact ⟨k + 1, v, by rw [after, hw', Outcome.next?, Option.bind_some, hv], ha⟩
    · exact ⟨0, w, rfl, .inl h⟩
    · rename_i dataOff dataBytes hdata
      rcases List.mem_append.mp h with h | h
      · exact ⟨0, w, rfl, .inl h⟩
      · exact ⟨0, w, rfl, .inr ⟨dataOff, dataBytes, hdata, h⟩⟩
    · -- nothing is copied without a chunk with samples
      have hnone : (finish buf w 0 0).1 = [] := by simp [finish]
      rw [hnone, List.append_nil] at h
      exact ⟨0, w, rfl, .inl h⟩

lemma mem_walk_of_data {buf : List UInt8} {k : Nat} {w v : Walk} {a : Access} {dataOff dataBytes : Nat}
    (hv : after buf k w = some v) (hdata : (readChunk buf v).2 = .data dataOff dataBytes)
    (ha : a ∈ (finish buf v dataOff dataBytes).1) : a ∈ (walk buf (k + 1) w).1 := by
  induction k generalizing w with
  | zero =>
    obtain rfl : w = v := by simpa [after] using hv
    rw [walk]
    simp [hdata, ha]
  | succ k ih =>
    rw [after, Option.bind_eq_some_iff] at hv
    obtain ⟨w', hw', hv⟩ := hv
    have hlater := ih hv
    rw [walk]
    simp [next?_eq_some.mp hw', hlater]

lemma acceptedAt_iff {buf : List UInt8} {pos : Nat} {fmt : Option Nat} (h : ChunkAt buf pos fmt) :
    AcceptedAt buf pos fmt ↔ ∃ dataOff dataBytes, (readChunk buf (walkAt buf pos fmt)).2 = .data dataOff dataBytes ∧
      dataBytes = (sizeAt buf pos).toNat ∧ (walkAt buf pos fmt).channels = 1 ∧ (walkAt buf pos fmt).bits = 16 ∧
      (walkAt buf pos fmt).rate ≠ 0 ∧ dataOff ≠ 0 ∧ dataOff + dataBytes ≤ buf.length := by
  have hpos : (walkAt buf pos fmt).pos = pos := by cases fmt <;> rfl
  simp only [readChunk_eq_data, hpos]
  constructor
  · rintro ⟨-, hfits, htag, ⟨f, rfl, hchannels, hbits, hrate⟩, hroom⟩
    exact ⟨pos + 8, _, ⟨hfits, htag, rfl, rfl⟩, rfl, hchannels, hbits, hrate, by omega, hroom⟩
  · rintro ⟨_, _, ⟨hfits, htag, rfl, -⟩, rfl, hchannels, hbits, hrate, -, hroom⟩
    refine ⟨h, hfits, htag, ?_, hroom⟩
    cases fmt with
    | none => exact absurd hchannels (by simp [walkAt])
    | some f => exact ⟨f, rfl, hchannels, hbits, hrate⟩

lemma mem_readWavFile {buf : List UInt8} {fuel : Nat} {a : Access} (h : a ∈ (readWavFile fuel buf).1) :
    a.InBounds ∨ IsRiff buf ∧ a ∈ (walk buf fuel {}).1 := by
  unfold readWavFile at h
  by_cases hlength : buf.length < 44
  · simp [hlength] at h
  · rw [if_neg hlength] at h
    by_cases hriff : bytesAt buf 0 4 = ascii "RIFF"
    · by_cases hwave : bytesAt buf 8 4 = ascii "WAVE"
      · simp only [hriff, hwave, ne_eq, not_true_eq_false, if_false, List.mem_append, List.mem_cons, List.not_mem_nil,
          or_false] at h
        rcases h with (rfl | rfl) | h
        · left
          simp only [Access.InBounds]
          omega
        · left
          simp only [Access.InBounds]
          omega
        · exact .inr ⟨⟨by omega, hriff, hwave⟩, h⟩
      · left
        simp only [hriff, hwave, ne_eq, not_true_eq_false, not_false_eq_true, if_false, if_true, List.mem_cons,
          List.not_mem_nil, or_false] at h
        rcases h with rfl | rfl
        · simp only [Access.InBounds]
          omega
        · simp only [Access.InBounds]
          omega
    · left
      simp only [hriff, ne_eq, not_false_eq_true, if_true, List.mem_cons, List.not_mem_nil, or_false] at h
      rw [h]
      simp only [Access.InBounds]
      omega

/-- Every access is inside its buffer exactly if no accepted chunk of samples declares an odd number of bytes. -/
theorem accesses_inBounds_iff (buf : List UInt8) : (∀ fuel, ∀ a ∈ (readWavFile fuel buf).1, a.InBounds) ↔
    ∀ pos fmt, AcceptedAt buf pos fmt → (sizeAt buf pos).toNat % 2 = 0 := by
  constructor
  · intro h pos fmt haccepted
    obtain ⟨dataOff, dataBytes, hdata, rfl, hformat⟩ := (acceptedAt_iff haccepted.chunk).mp haccepted
    obtain ⟨n, hn⟩ := exists_iteration_iff.mpr ⟨pos, fmt, haccepted.chunk, rfl⟩
    unfold iteration at hn
    split at hn
    · rename_i hriff
      refine (finish_inBounds_iff buf _ dataOff _).mp (fun a ha => h (n + 1) a ?_) hformat
      have hlength : ¬buf.length < 44 := by
        have := hriff.1
        omega
      simp [readWavFile, hlength, hriff.2.1, hriff.2.2, mem_walk_of_data hn hdata ha]
    · cases hn
  · intro h fuel a ha
    rcases mem_readWavFile ha with hbounds | ⟨hriff, hwalk⟩
    · exact hbounds
    · obtain ⟨n, w, hw, ha⟩ := mem_walk hwalk
      rcases ha with ha | ⟨dataOff, dataBytes, hdata, ha⟩
      · exact readChunk_inBounds buf w a ha
      · obtain ⟨pos, fmt, hchunk, rfl⟩ := exists_iteration_iff.mp ⟨n, by rw [iteration, if_pos hriff, hw]⟩
        refine (finish_inBounds_iff buf _ dataOff dataBytes).mpr ?_ a ha
        intro hformat
        have hsize : dataBytes = (sizeAt buf pos).toNat := by
          have hpos : (walkAt buf pos fmt).pos = pos := by cases fmt <;> rfl
          rw [(readChunk_eq_data.mp hdata).2.2.2, hpos]
        rw [hsize]
        exact h pos fmt ((acceptedAt_iff hchunk).mpr ⟨dataOff, dataBytes, hdata, hsize, hformat⟩)

/-- A file with a chunk of one byte of samples. -/
def oddFile : List UInt8 := header 37 16000 32000 1 ++ [0]

/-- The byte is written to a vector without room for it. -/
theorem odd_file_overruns : ⟨0, 1, 0⟩ ∈ (readWavFile 2 oddFile).1 ∧
    ¬∀ fuel, ∀ a ∈ (readWavFile fuel oddFile).1, a.InBounds := by
  have hmem : ⟨0, 1, 0⟩ ∈ (readWavFile 2 oddFile).1 := by decide +kernel
  exact ⟨hmem, fun h => absurd (h 2 _ hmem) (by simp [Access.InBounds])⟩

end Wav

end Acva
