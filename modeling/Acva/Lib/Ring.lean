import Mathlib.Data.Nat.ModEq
import Mathlib.Tactic.Common

/-!
# Ring buffers

A list of slots and a cursor at which the next item goes. The slots behind the cursor hold the end of the stream
of items written so far; a block goes in in one piece, or in two around the end of the slots.
-/

namespace Ring

variable {α : Type*}

/-- A copy of `xs` to the slots from `pos` on. -/
def overwrite (slots : List α) (pos : Nat) (xs : List α) : List α :=
  slots.take pos ++ xs ++ slots.drop (pos + xs.length)

/-- A copy of a block that is no longer than the ring. -/
def write (slots : List α) (cursor : Nat) (xs : List α) : List α :=
  if xs.length ≤ slots.length - cursor then overwrite slots cursor xs
  else
    let first := slots.length - cursor
    overwrite (overwrite slots cursor (xs.take first)) 0 (xs.drop first)

/-- The slot `back` places behind the cursor. -/
def slot (n cursor back : Nat) : Nat := (cursor + n - back) % n

/-- The slots behind the cursor hold the end of the stream. -/
def Holds (slots : List α) (cursor : Nat) (stream : List α) : Prop :=
  ∀ back, 0 < back → back ≤ slots.length → back ≤ stream.length →
    slots[slot slots.length cursor back]? = stream[stream.length - back]?

variable {slots xs stream : List α} {pos cursor : Nat}

@[simp] lemma length_overwrite (h : pos + xs.length ≤ slots.length) :
    (overwrite slots pos xs).length = slots.length := by
  simp only [overwrite, List.length_append, List.length_take, List.length_drop]
  omega

lemma getElem?_overwrite (h : pos + xs.length ≤ slots.length) (i : Nat) :
    (overwrite slots pos xs)[i]? = if pos ≤ i ∧ i < pos + xs.length then xs[i - pos]? else slots[i]? := by
  have htake : (slots.take pos).length = pos := by
    rw [List.length_take]
    omega
  have hleft : (slots.take pos ++ xs).length = pos + xs.length := by rw [List.length_append, htake]
  unfold overwrite
  by_cases hlow : i < pos
  · rw [if_neg (by omega), List.getElem?_append_left (by omega), List.getElem?_append_left (by omega),
      List.getElem?_take_of_lt hlow]
  · by_cases hhigh : i < pos + xs.length
    · rw [if_pos ⟨by omega, hhigh⟩, List.getElem?_append_left (by omega), List.getElem?_append_right (by omega), htake]
    · rw [if_neg (by omega), List.getElem?_append_right (by omega), hleft, List.getElem?_drop]
      congr 1
      omega

lemma length_write (hcursor : cursor < slots.length) (hfits : xs.length ≤ slots.length) :
    (write slots cursor xs).length = slots.length := by
  unfold write
  split
  · exact length_overwrite (by omega)
  · have hfirst : cursor + (xs.take (slots.length - cursor)).length ≤ slots.length := by
      rw [List.length_take]
      omega
    rw [length_overwrite, length_overwrite hfirst]
    rw [length_overwrite hfirst, List.length_drop]
    omega

/-- The `k`-th item of the block, or what the slot held before. -/
lemma getElem?_write (hcursor : cursor < slots.length) (hfits : xs.length ≤ slots.length) {i : Nat}
    (hi : i < slots.length) :
    (write slots cursor xs)[i]? =
      if (if cursor ≤ i then i - cursor else i + slots.length - cursor) < xs.length then
        xs[if cursor ≤ i then i - cursor else i + slots.length - cursor]?
      else slots[i]? := by
  unfold write
  by_cases hone : xs.length ≤ slots.length - cursor
  · rw [if_pos hone, getElem?_overwrite (by omega)]
    by_cases hle : cursor ≤ i
    · simp only [if_pos hle]
      by_cases hin : i - cursor < xs.length
      · rw [if_pos ⟨hle, by omega⟩, if_pos hin]
      · rw [if_neg (by omega), if_neg hin]
    · simp only [if_neg hle]
      rw [if_neg (by omega), if_neg (by omega)]
  · have htake : (xs.take (slots.length - cursor)).length = slots.length - cursor := by
      rw [List.length_take]
      omega
    have hdrop : (xs.drop (slots.length - cursor)).length = xs.length - (slots.length - cursor) := List.length_drop
    have hfirst : cursor + (xs.take (slots.length - cursor)).length ≤ slots.length := by omega
    simp only [if_neg hone]
    rw [getElem?_overwrite (by rw [length_overwrite hfirst]; omega), getElem?_overwrite hfirst, htake, hdrop]
    by_cases hle : cursor ≤ i
    · simp only [if_pos hle]
      rw [if_neg (by omega), if_pos ⟨hle, by omega⟩, if_pos (by omega), List.getElem?_take_of_lt (by omega)]
    · simp only [if_neg hle]
      by_cases hin : i + slots.length - cursor < xs.length
      · rw [if_pos ⟨Nat.zero_le _, by omega⟩, if_pos hin, List.getElem?_drop]
        congr 1
        omega
      · rw [if_neg (by omega), if_neg (by omega), if_neg hin]

lemma slot_lt {n back : Nat} (hn : 0 < n) : slot n cursor back < n := Nat.mod_lt _ hn

lemma slot_eq {n back : Nat} (hcursor : cursor < n) (hback : 0 < back) (hle : back ≤ n) :
    slot n cursor back = if back ≤ cursor then cursor - back else cursor + n - back := by
  unfold slot
  split
  · have hsum : cursor + n - back = cursor - back + n := by omega
    rw [hsum, Nat.add_mod_right, Nat.mod_eq_of_lt (by omega)]
  · exact Nat.mod_eq_of_lt (by omega)

/-- A block that is written extends the stream. What the ring held before matters only if some of it stays. -/
theorem Holds.write (hcursor : cursor < slots.length) (hfits : xs.length ≤ slots.length)
    (h : xs.length < slots.length → Holds slots cursor stream) :
    Holds (write slots cursor xs) ((cursor + xs.length) % slots.length) (stream ++ xs) := by
  have hpos : 0 < slots.length := by omega
  intro back hback hle hstream
  rw [length_write hcursor hfits] at hle ⊢
  rw [List.length_append] at hstream ⊢
  have hnext : (cursor + xs.length) % slots.length =
      if cursor + xs.length < slots.length then cursor + xs.length else cursor + xs.length - slots.length := by
    split
    · exact Nat.mod_eq_of_lt ‹_›
    · rw [Nat.mod_eq_sub_mod (by omega), Nat.mod_eq_of_lt (by omega)]
  have hslot := slot_eq (Nat.mod_lt (cursor + xs.length) hpos) hback hle
  rw [getElem?_write hcursor hfits (slot_lt hpos), hslot, hnext]
  by_cases hnew : back ≤ xs.length
  · -- an item of the block
    rw [List.getElem?_append_right (by omega)]
    rw [if_pos (by split_ifs <;> omega)]
    congr 1
    split_ifs <;> omega
  · -- an item that was there before
    have hold := h (by omega) (back - xs.length) (by omega) (by omega) (by omega)
    rw [slot_eq hcursor (by omega) (by omega)] at hold
    rw [List.getElem?_append_left (by omega), if_neg (by split_ifs <;> omega),
      show stream.length + xs.length - back = stream.length - (back - xs.length) by omega, ← hold]
    congr 1
    split_ifs <;> omega

/-- Counters less than `n` apart fall on one slot only if they are equal. -/
lemma mod_eq_iff_of_window {n a b : Nat} (hab : a ≤ b) (hlt : b < a + n) : a % n = b % n ↔ a = b := by
  constructor
  · intro h
    have hdvd : n ∣ b - a := (Nat.modEq_iff_dvd' hab).mp h
    have hzero : b - a = 0 := Nat.eq_zero_of_dvd_of_lt hdvd (by omega)
    omega
  · exact fun h => by rw [h]

end Ring
