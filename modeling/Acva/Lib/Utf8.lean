import Mathlib.Tactic.Common

/-!
# Cutting UTF-8

A byte sequence is valid UTF-8 if it encodes a list of Unicode scalar values. A byte below `0x80` is a
character of its own, so a valid sequence can be cut after one.
-/

namespace Utf8

/-- The bytes encode a list of Unicode scalar values. -/
def Valid (s : List UInt8) : Prop := ∃ cs : List Char, s = cs.flatMap String.utf8EncodeChar

lemma Valid.nil : Valid [] := ⟨[], rfl⟩

lemma Valid.cons_char (c : Char) {s : List UInt8} (h : Valid s) : Valid (String.utf8EncodeChar c ++ s) := by
  obtain ⟨cs, rfl⟩ := h
  exact ⟨c :: cs, rfl⟩

lemma Valid.append {s t : List UInt8} (hs : Valid s) (ht : Valid t) : Valid (s ++ t) := by
  obtain ⟨cs, rfl⟩ := hs
  obtain ⟨ds, rfl⟩ := ht
  exact ⟨cs ++ ds, List.flatMap_append.symm⟩

/-- A byte below `0x80` is a character. -/
lemma encode_ofNat {b : UInt8} (hb : b < 0x80) : String.utf8EncodeChar (Char.ofNat b.toNat) = [b] := by
  have hlt : b.toNat < 128 := UInt8.lt_iff_toNat_lt.1 hb
  have hval : (Char.ofNat b.toNat).val.toNat = b.toNat := by
    rw [Char.ofNat, dif_pos (Or.inl (by omega))]
    rfl
  simp [String.utf8EncodeChar, hval, show b.toNat ≤ 127 by omega]

lemma valid_of_lt {s : List UInt8} (h : ∀ b ∈ s, b < 0x80) : Valid s := by
  induction s with
  | nil => exact .nil
  | cons b s ih =>
    have htail := ih fun c hc => h c (List.mem_cons_of_mem b hc)
    have hcons := htail.cons_char (Char.ofNat b.toNat)
    rwa [encode_ofNat (h b List.mem_cons_self)] at hcons

lemma valid_of_all {s : List UInt8} (h : s.all (· < 0x80)) : Valid s :=
  valid_of_lt fun b hb => of_decide_eq_true (List.all_eq_true.mp h b hb)

/-- A character is one byte, or has no byte below `0x80`. -/
lemma encode_cases (c : Char) :
    (∃ b, String.utf8EncodeChar c = [b]) ∨ ∀ b ∈ String.utf8EncodeChar c, 0x80 ≤ b := by
  have hv : c.val.toNat < 1114112 := by
    rcases c.valid with h | h
    · exact Nat.lt_trans h (by decide)
    · exact h.2
  simp only [String.utf8EncodeChar, UInt8.le_iff_toNat_le]
  split
  · exact .inl ⟨_, rfl⟩
  · right
    split
    · simp
      omega
    · split
      · simp
        omega
      · simp
        omega

/-- What is written for each byte is valid if a byte from `0x80` on stays and the others become such bytes. -/
lemma Valid.flatMap {s : List UInt8} (f : UInt8 → List UInt8) (hlow : ∀ b < 0x80, ∀ c ∈ f b, c < 0x80)
    (hhigh : ∀ b, 0x80 ≤ b → f b = [b]) (h : Valid s) : Valid (s.flatMap f) := by
  obtain ⟨cs, rfl⟩ := h
  induction cs with
  | nil => exact .nil
  | cons c cs ih =>
    rw [List.flatMap_cons, List.flatMap_append]
    refine .append ?_ ih
    by_cases hc : ∀ b ∈ String.utf8EncodeChar c, 0x80 ≤ b
    · have hsame : (String.utf8EncodeChar c).flatMap f = String.utf8EncodeChar c := by
        rw [List.flatMap_def, List.map_congr_left fun b hb => hhigh b (hc b hb), ← List.flatMap_def,
          List.flatMap_singleton']
      rw [hsame]
      exact ⟨[c], by simp⟩
    · apply valid_of_lt
      intro x hx
      obtain ⟨b, hb, hx⟩ := List.mem_flatMap.1 hx
      refine hlow b ?_ x hx
      rcases encode_cases c with ⟨z, hz⟩ | hbig
      · rw [hz] at hb hc
        obtain rfl := List.mem_singleton.1 hb
        simpa using hc
      · exact absurd hbig hc

/-- A valid sequence may be cut after a byte below `0x80`. -/
theorem Valid.cut {a b : List UInt8} {x : UInt8} (hx : x < 0x80) (h : Valid (a ++ x :: b)) :
    Valid (a ++ [x]) ∧ Valid b := by
  obtain ⟨cs, hcs⟩ := h
  induction cs generalizing a with
  | nil => simp at hcs
  | cons c cs ih =>
    rw [List.flatMap_cons, List.append_eq_append_iff] at hcs
    rcases hcs with ⟨mid, henc, hrest⟩ | ⟨mid, rfl, hrest⟩
    · cases mid with
      | nil =>
        obtain ⟨hleft, hright⟩ := ih (a := []) hrest
        rw [List.append_nil] at henc
        exact ⟨henc ▸ hleft.cons_char c, hright⟩
      | cons y mid =>
        obtain ⟨rfl, rfl⟩ := List.cons.inj hrest
        rcases encode_cases c with ⟨z, hz⟩ | hbig
        · rw [hz] at henc
          obtain ⟨rfl, hone⟩ | ⟨_, hbad⟩ := List.append_eq_singleton_iff.1 henc.symm
          · obtain ⟨rfl, rfl⟩ := List.cons.inj hone
            exact ⟨⟨[c], by simp [hz]⟩, ⟨cs, rfl⟩⟩
          · cases hbad
        · exact absurd (hbig x (by simp [henc])) (UInt8.not_le.2 hx)
    · obtain ⟨hleft, hright⟩ := ih hrest.symm
      rw [List.append_assoc]
      exact ⟨hleft.cons_char c, hright⟩

end Utf8
