import Acva.Playback.Queue

/-!
# The tape of chunks to be heard

What a listener is promised: chunk after chunk is played and the end of every sentence is announced once,
in order. `play` takes samples off the tape; the positions of the ends say which callback announces them.
-/

namespace Acva

/-- The event that a chunk causes once it is consumed. -/
def AudioChunk.mark (c : AudioChunk) : List SentenceRef := if c.endOfSentence then [c.ref] else []

def marks (cs : List AudioChunk) : List SentenceRef := cs.flatMap AudioChunk.mark

/-- `c` with its first samples gone. -/
def AudioChunk.skip (c : AudioChunk) (n : Nat) : AudioChunk := { c with samples := c.samples.drop n }

/-- Takes `n` samples off the tape. The end of a chunk is noticed when a sample after it is asked for. -/
def play : Nat → List AudioChunk → List AudioChunk × List SentenceRef
  | _, [] => ([], [])
  | n, c :: cs =>
    if c.samples.length < n then
      ((play (n - c.samples.length) cs).1, c.mark ++ (play (n - c.samples.length) cs).2)
    else (c.skip n :: cs, [])

/-- The positions on the tape at which sentences end. -/
def ends : List AudioChunk → List Nat
  | [] => []
  | c :: cs => (if c.endOfSentence then [c.samples.length] else []) ++ (ends cs).map (· + c.samples.length)

@[simp] lemma AudioChunk.skip_mark (c : AudioChunk) (n : Nat) : (c.skip n).mark = c.mark := rfl

@[simp] lemma AudioChunk.skip_samples (c : AudioChunk) (n : Nat) : (c.skip n).samples = c.samples.drop n := rfl

@[simp] lemma AudioChunk.skip_zero (c : AudioChunk) : c.skip 0 = c := rfl

@[simp] lemma AudioChunk.skip_skip (c : AudioChunk) (m n : Nat) : (c.skip m).skip n = c.skip (m + n) := by
  simp [AudioChunk.skip, List.drop_drop]

@[simp] lemma play_nil (n : Nat) : play n [] = ([], []) := rfl

@[simp] lemma play_zero (cs : List AudioChunk) : play 0 cs = (cs, []) := by
  cases cs with
  | nil => rfl
  | cons c cs => simp [play]

lemma play_past {n : Nat} {c : AudioChunk} (cs : List AudioChunk) (h : c.samples.length < n) :
    play n (c :: cs) = ((play (n - c.samples.length) cs).1, c.mark ++ (play (n - c.samples.length) cs).2) := by
  rw [play, if_pos h]

/-- Taking `k` samples of the first chunk and then the rest. -/
lemma play_skip {n k : Nat} {c : AudioChunk} (cs : List AudioChunk) (hk : k ≤ c.samples.length) (hn : k ≤ n) :
    play n (c :: cs) = play (n - k) (c.skip k :: cs) := by
  by_cases h : c.samples.length < n
  · have hlength : n - k - (c.samples.length - k) = n - c.samples.length := by omega
    rw [play_past cs h, play_past cs (by simp; omega), AudioChunk.skip_samples, List.length_drop, hlength,
      AudioChunk.skip_mark]
  · rw [play, if_neg h, play, if_neg (by simp; omega), AudioChunk.skip_skip, Nat.add_sub_cancel' hn]

lemma play_marks (n : Nat) (cs : List AudioChunk) : (play n cs).2 ++ marks (play n cs).1 = marks cs := by
  induction cs generalizing n with
  | nil => rfl
  | cons c cs ih =>
    by_cases h : c.samples.length < n
    · rw [play_past cs h, List.append_assoc, ih]
      rfl
    · rw [play, if_neg h]
      rfl

lemma le_of_mem_ends {c : AudioChunk} {cs : List AudioChunk} {p : Nat} (h : p ∈ ends (c :: cs)) :
    c.samples.length ≤ p := by
  simp only [ends, List.mem_append, List.mem_map] at h
  rcases h with h | ⟨q, _, rfl⟩
  · split at h
    · exact Nat.le_of_eq (List.mem_singleton.mp h).symm
    · cases h
  · exact Nat.le_add_left _ _

/-- The ends before position `n` are announced. -/
lemma length_play (n : Nat) (cs : List AudioChunk) : (play n cs).2.length = ((ends cs).filter (· < n)).length := by
  induction cs generalizing n with
  | nil => rfl
  | cons c cs ih =>
    by_cases h : c.samples.length < n
    · rw [play_past cs h, List.length_append, ih, ends, List.filter_append, List.length_append, List.filter_map,
        List.length_map]
      congr 1
      · cases hend : c.endOfSentence <;> simp [AudioChunk.mark, hend, h]
      · congr 1
        refine List.filter_congr fun p _ => ?_
        simp only [Function.comp_apply, decide_eq_decide]
        omega
    · rw [play, if_neg h, List.length_nil, eq_comm, List.length_eq_zero_iff, List.filter_eq_nil_iff]
      intro p hp
      have hle := le_of_mem_ends hp
      simp only [decide_eq_true_eq]
      omega

lemma ends_play (n : Nat) (cs : List AudioChunk) :
    ends (play n cs).1 = ((ends cs).filter (n ≤ ·)).map (· - n) := by
  induction cs generalizing n with
  | nil => rfl
  | cons c cs ih =>
    by_cases h : c.samples.length < n
    · have hhead : (if c.endOfSentence then [c.samples.length] else []).filter (n ≤ ·) = [] := by
        cases hend : c.endOfSentence <;> simp [h]
      rw [play_past cs h, ih, ends, List.filter_append, hhead, List.nil_append, List.filter_map, List.map_map]
      have hfilter : (ends cs).filter ((n ≤ ·) ∘ (· + c.samples.length)) =
          (ends cs).filter (n - c.samples.length ≤ ·) := by
        refine List.filter_congr fun p _ => ?_
        simp only [Function.comp_apply, decide_eq_decide]
        omega
      rw [hfilter]
      refine List.map_congr_left fun p _ => ?_
      simp only [Function.comp_apply]
      omega
    · have hall : (ends (c :: cs)).filter (n ≤ ·) = ends (c :: cs) := by
        rw [List.filter_eq_self]
        intro p hp
        have hle := le_of_mem_ends hp
        simp only [decide_eq_true_eq]
        omega
      rw [play, if_neg h, hall, ends, ends, List.map_append, List.map_map]
      congr 1
      · cases hend : c.endOfSentence <;> simp [AudioChunk.skip, hend]
      · refine List.map_congr_left fun p _ => ?_
        simp only [AudioChunk.skip_samples, List.length_drop, Function.comp_apply]
        omega

/-- What is left on the tape, a chunk counting like a sample. -/
def weight (cs : List AudioChunk) : Nat := (cs.map fun c => c.samples.length + 1).sum

lemma weight_play {n : Nat} (hn : 0 < n) {cs : List AudioChunk} (hcs : cs ≠ []) :
    weight (play n cs).1 < weight cs := by
  have hle : ∀ (m : Nat) (ds : List AudioChunk), weight (play m ds).1 ≤ weight ds := by
    intro m ds
    induction ds generalizing m with
    | nil => simp
    | cons d ds ih =>
      by_cases h : d.samples.length < m
      · rw [play_past ds h]
        exact Nat.le_trans (ih _) (by simp [weight])
      · rw [play, if_neg h]
        simp [weight, AudioChunk.skip]
  cases cs with
  | nil => exact absurd rfl hcs
  | cons c cs =>
    by_cases h : c.samples.length < n
    · rw [play_past cs h]
      exact Nat.lt_of_le_of_lt (hle _ cs) (by simp [weight])
    · rw [play, if_neg h]
      simp only [weight, List.map_cons, List.sum_cons, AudioChunk.skip_samples, List.length_drop]
      omega

/-! ### Callback after callback -/

/-- The tape after `n` callbacks. -/
def tapeAfter (frames : Nat → Nat) (cs : List AudioChunk) : Nat → List AudioChunk
  | 0 => cs
  | n + 1 => (play (frames n) (tapeAfter frames cs n)).1

/-- The sentences whose end the `n`-th callback notices. -/
def endedIn (frames : Nat → Nat) (cs : List AudioChunk) (n : Nat) : List SentenceRef :=
  (play (frames n) (tapeAfter frames cs n)).2

/-- The samples asked for by the first `n` callbacks. -/
def asked (frames : Nat → Nat) : Nat → Nat
  | 0 => 0
  | n + 1 => asked frames n + frames n

lemma ends_tapeAfter (frames : Nat → Nat) (cs : List AudioChunk) (n : Nat) :
    ends (tapeAfter frames cs n) = ((ends cs).filter (asked frames n ≤ ·)).map (· - asked frames n) := by
  induction n with
  | zero => simp [tapeAfter, asked, List.filter_eq_self.mpr]
  | succ n ih =>
    rw [tapeAfter, ends_play, ih, List.filter_map, List.filter_filter, List.map_map]
    have hfilter : (ends cs).filter (fun p => decide (frames n ≤ p - asked frames n) && decide (asked frames n ≤ p)) =
        (ends cs).filter (asked frames (n + 1) ≤ ·) := by
      refine List.filter_congr fun p _ => ?_
      rw [Bool.eq_iff_iff]
      simp only [Bool.and_eq_true, decide_eq_true_eq]
      rw [asked]
      omega
    simp only [Function.comp_def, hfilter, asked, Nat.sub_sub]

lemma length_endedIn (frames : Nat → Nat) (cs : List AudioChunk) (n : Nat) :
    (endedIn frames cs n).length =
      ((ends cs).filter fun p => asked frames n ≤ p ∧ p < asked frames (n + 1)).length := by
  rw [endedIn, length_play, ends_tapeAfter, List.filter_map, List.length_map, List.filter_filter]
  congr 1
  refine List.filter_congr fun p _ => ?_
  rw [Bool.eq_iff_iff]
  simp only [Function.comp_apply, Bool.and_eq_true, decide_eq_true_eq]
  rw [asked]
  omega

lemma marks_tapeAfter (frames : Nat → Nat) (cs : List AudioChunk) (n : Nat) :
    (List.range n).flatMap (endedIn frames cs) ++ marks (tapeAfter frames cs n) = marks cs := by
  induction n with
  | zero => rfl
  | succ n ih =>
    rw [List.range_succ, List.flatMap_append, List.flatMap_singleton, List.append_assoc, tapeAfter, endedIn, play_marks]
    exact ih

lemma tapeAfter_eq_nil (frames : Nat → Nat) (hframes : ∀ k, 0 < frames k) (cs : List AudioChunk) :
    ∃ N, ∀ n, N ≤ n → tapeAfter frames cs n = [] := by
  have hfall : ∀ n, tapeAfter frames cs n = [] ∨ weight (tapeAfter frames cs n) + n ≤ weight cs := by
    intro n
    induction n with
    | zero => exact .inr (Nat.le_refl _)
    | succ n ih =>
      by_cases hnil : tapeAfter frames cs n = []
      · exact .inl (by rw [tapeAfter, hnil, play_nil])
      · have hless := weight_play (hframes n) hnil
        rw [tapeAfter]
        rcases ih with ih | ih
        · exact absurd ih hnil
        · exact .inr (by omega)
  refine ⟨weight cs + 1, fun n hn => (hfall n).resolve_right ?_⟩
  omega

end Acva
