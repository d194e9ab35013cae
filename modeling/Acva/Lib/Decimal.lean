import Mathlib.Tactic.Common

/-!
# Decimal numbers

Numbers as ASCII digits, also filled up with zeros to a width.
-/

namespace Decimal

def decimal (n : Nat) : List UInt8 := (Nat.toDigits 10 n).map fun c => c.toNat.toUInt8

/-- At least as many digits as the width asks for. -/
def padded (width n : Nat) : List UInt8 := List.replicate (width - (decimal n).length) 48 ++ decimal n

/-- A minus sign counts as one of the digits. -/
def paddedInt (width : Nat) (n : Int) : List UInt8 :=
  if n < 0 then 45 :: padded (width - 1) n.natAbs else padded width n.natAbs

/-- The sign is always there. -/
def signed (width : Nat) (n : Int) : List UInt8 :=
  (if n < 0 then 45 else 43) :: padded (width - 1) n.natAbs

lemma toNat_of_mem {n : Nat} {c : Char} (hc : c ∈ Nat.toDigits 10 n) : 48 ≤ c.toNat ∧ c.toNat ≤ 57 := by
  have hdigit := Nat.isDigit_of_mem_toDigits (by omega) (by omega) hc
  simp only [Char.isDigit, Bool.and_eq_true, decide_eq_true_eq] at hdigit
  exact ⟨UInt32.le_iff_toNat_le.mp hdigit.1, UInt32.le_iff_toNat_le.mp hdigit.2⟩

lemma mem_decimal {n : Nat} {b : UInt8} (hb : b ∈ decimal n) : 48 ≤ b ∧ b ≤ 57 := by
  obtain ⟨c, hc, rfl⟩ := List.mem_map.mp hb
  obtain ⟨hlo, hhi⟩ := toNat_of_mem hc
  rw [UInt8.le_iff_toNat_le, UInt8.le_iff_toNat_le]
  simpa [Nat.mod_eq_of_lt (show c.toNat < 256 by omega)] using And.intro hlo hhi

lemma decimal_ne_nil (n : Nat) : decimal n ≠ [] := by
  simp [decimal, Nat.toDigits_ne_nil]

lemma head_toDigits {n : Nat} (h : (Nat.toDigits 10 n).head? = some '0') : n = 0 := by
  induction n using Nat.strongRecOn with
  | _ n ih =>
    by_cases hn : n < 10
    · rw [Nat.toDigits_of_lt_base hn] at h
      have hchar : ∀ n < 10, Nat.digitChar n = '0' → n = 0 := by decide
      exact hchar n hn (by simpa using h)
    · rw [Nat.toDigits_of_base_le (by omega) (by omega), List.head?_append, Option.or_of_isSome (by simp)] at h
      have hdiv := ih (n / 10) (by omega) h
      omega

lemma head_decimal {n : Nat} (h : (decimal n).head? = some 48) : decimal n = [48] := by
  have hzero : n = 0 := by
    apply head_toDigits
    rw [decimal, List.head?_map, Option.map_eq_some_iff] at h
    obtain ⟨c, hc, hb⟩ := h
    have hbounds := toNat_of_mem (List.mem_of_mem_head? hc)
    have hnat : c.toNat = 48 := by
      have h48 := congrArg UInt8.toNat hb
      simpa [Nat.mod_eq_of_lt (show c.toNat < 256 by omega)] using h48
    rw [hc, Char.toNat_inj.mp (show c.toNat = '0'.toNat from hnat)]
  rw [hzero]
  rfl

lemma mem_padded {width n : Nat} {b : UInt8} (hb : b ∈ padded width n) : 48 ≤ b ∧ b ≤ 57 := by
  rcases List.mem_append.mp hb with hb | hb
  · rw [(List.mem_replicate.mp hb).2]
    decide
  · exact mem_decimal hb

lemma padded_ne_nil (width n : Nat) : padded width n ≠ [] := by
  simp [padded, decimal_ne_nil]

lemma mem_paddedInt {width : Nat} {n : Int} {b : UInt8} (hb : b ∈ paddedInt width n) : b = 45 ∨ 48 ≤ b ∧ b ≤ 57 := by
  unfold paddedInt at hb
  split at hb
  · exact (List.mem_cons.mp hb).imp_right mem_padded
  · exact .inr (mem_padded hb)

lemma mem_signed {width : Nat} {n : Int} {b : UInt8} (hb : b ∈ signed width n) :
    b = 45 ∨ b = 43 ∨ 48 ≤ b ∧ b ≤ 57 := by
  rcases List.mem_cons.mp hb with rfl | hb
  · split
    · exact .inl rfl
    · exact .inr (.inl rfl)
  · exact .inr (.inr (mem_padded hb))

example : signed 3 2 ++ padded 2 0 = [43, 48, 50, 48, 48] := by decide

end Decimal
