import Mathlib.Tactic.Common

/-!
# Little-endian numbers

Words and signed samples of 16 bits as bytes, the low one first.
-/

namespace Pcm

/-- The bytes do not overlap, so that they add. -/
def word16 (a b : UInt8) : UInt16 := UInt16.ofNat (a.toNat + 256 * b.toNat)

def word32 (a b c d : UInt8) : UInt32 :=
  UInt32.ofNat (a.toNat + 256 * b.toNat + 65536 * c.toNat + 16777216 * d.toNat)

def bytes16 (v : UInt16) : List UInt8 := [v.toUInt8, (v >>> 8).toUInt8]

def bytes32 (v : UInt32) : List UInt8 := [v.toUInt8, (v >>> 8).toUInt8, (v >>> 16).toUInt8, (v >>> 24).toUInt8]

def sample (lo hi : UInt8) : Int16 := (word16 lo hi).toInt16

def bytes (s : Int16) : List UInt8 := bytes16 s.toUInt16

/-- A last byte alone is no sample. -/
def decode : List UInt8 → List Int16
  | lo :: hi :: s => sample lo hi :: decode s
  | _ => []

def encode (samples : List Int16) : List UInt8 := samples.flatMap bytes

@[simp]
lemma word16_bytes (v : UInt16) : word16 v.toUInt8 (v >>> 8).toUInt8 = v := by
  have hvalue : v.toUInt8.toNat + 256 * (v >>> 8).toUInt8.toNat = v.toNat := by
    have hlt := v.toNat_lt
    simp [Nat.shiftRight_eq_div_pow]
    omega
  rw [word16, hvalue]
  simp

@[simp]
lemma word32_bytes (v : UInt32) : word32 v.toUInt8 (v >>> 8).toUInt8 (v >>> 16).toUInt8 (v >>> 24).toUInt8 = v := by
  have hvalue : v.toUInt8.toNat + 256 * (v >>> 8).toUInt8.toNat + 65536 * (v >>> 16).toUInt8.toNat +
      16777216 * (v >>> 24).toUInt8.toNat = v.toNat := by
    have hlt := v.toNat_lt
    simp [Nat.shiftRight_eq_div_pow]
    omega
  rw [word32, hvalue]
  simp

lemma sample_bytes (s : Int16) : sample s.toUInt16.toUInt8 (s.toUInt16 >>> 8).toUInt8 = s := by
  rw [sample, word16_bytes]
  simp

theorem decode_encode (samples : List Int16) : decode (encode samples) = samples := by
  induction samples with
  | nil => rfl
  | cons s samples ih =>
    change sample _ _ :: decode (encode samples) = s :: samples
    rw [sample_bytes, ih]

lemma length_encode (samples : List Int16) : (encode samples).length = 2 * samples.length := by
  induction samples with
  | nil => rfl
  | cons s samples ih =>
    change (encode samples).length + 2 = _
    rw [ih, List.length_cons]
    omega

/-- Bytes may be cut between two samples. -/
theorem decode_append (x y : List UInt8) (h : x.length % 2 = 0) : decode (x ++ y) = decode x ++ decode y := by
  induction x using decode.induct with
  | case1 lo hi s ih =>
    have hs := ih (by simp at h; omega)
    rw [List.cons_append, List.cons_append, decode, decode, hs, List.cons_append]
  | case2 s hs =>
    cases s with
    | nil => rfl
    | cons a s =>
      cases s with
      | nil => simp at h
      | cons b s => exact absurd rfl (hs a b s)

lemma decode_take (s : List UInt8) : decode (s.take (2 * (s.length / 2))) = decode s := by
  have hlast : decode (s.drop (2 * (s.length / 2))) = [] := by
    have hlen : (s.drop (2 * (s.length / 2))).length < 2 := by
      rw [List.length_drop]
      omega
    match s.drop (2 * (s.length / 2)), hlen with
    | [], _ => rfl
    | [_], _ => rfl
  conv_rhs => rw [← List.take_append_drop (2 * (s.length / 2)) s]
  rw [decode_append _ _ (by rw [List.length_take]; omega), hlast, List.append_nil]

/-- What is left of the first part goes before the second. -/
theorem decode_append_carry (x y : List UInt8) :
    decode (x ++ y) = decode x ++ decode (x.drop (2 * (x.length / 2)) ++ y) := by
  have hsplit : x ++ y = x.take (2 * (x.length / 2)) ++ (x.drop (2 * (x.length / 2)) ++ y) := by
    rw [← List.append_assoc, List.take_append_drop]
  rw [hsplit, decode_append _ _ (by rw [List.length_take]; omega), decode_take]

end Pcm
