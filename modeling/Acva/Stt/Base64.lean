import Acva.Event.Event
import Mathlib.Tactic.Common

/-!
# Base64

The encoding in which audio goes to the realtime service and messages come back from it. Three bytes are four
digits of six bits; the last group is padded.
-/

namespace Acva

namespace Realtime

def alpha : Text := ascii "ABCDEFGHIJKLMNOPQRSTUVWXYZabcdefghijklmnopqrstuvwxyz0123456789+/"

def alphaAt (i : Nat) : UInt8 := alpha.getD i 0

/-- The value of each byte as a digit, and -1 for a byte that is none. -/
def kBase64Lookup : List Int :=
  (List.range alpha.length).foldl (fun t i => t.set (alphaAt i).toNat i) (List.replicate 256 (-1))

def lookup (ch : UInt8) : Int := kBase64Lookup.getD ch.toNat (-1)

def padding : UInt8 := 0x3D

/-- Three bytes as one number. -/
def tripleOf (a b c : UInt8) : Nat := a.toNat <<< 16 ||| b.toNat <<< 8 ||| c.toNat

/-- The digit of the six bits from `shift` on. -/
def digitAt (triple shift : Nat) : UInt8 := alphaAt ((triple >>> shift) &&& 0x3F)

def base64Encode : Text → Text
  | [] => []
  | [a] =>
    let triple := tripleOf a 0 0
    [digitAt triple 18, digitAt triple 12, padding, padding]
  | [a, b] =>
    let triple := tripleOf a b 0
    [digitAt triple 18, digitAt triple 12, digitAt triple 6, padding]
  | a :: b :: c :: rest =>
    let triple := tripleOf a b c
    digitAt triple 18 :: digitAt triple 12 :: digitAt triple 6 :: digitAt triple 0 :: base64Encode rest

/-- The low byte of a number shifted to the right. -/
def byteAt (n shift : Nat) : UInt8 := UInt8.ofNat ((n >>> shift) &&& 0xFF)

/-- The loop of `base64_decode`; padding ends it. -/
def decodeQuads (out : Text) : Text → Option Text
  | aCh :: bCh :: cCh :: dCh :: rest =>
    let a := lookup aCh
    let b := lookup bCh
    if a < 0 ∨ b < 0 then none
    else
      let triple := a.toNat <<< 18 ||| b.toNat <<< 12
      let out := out ++ [byteAt triple 16]
      if cCh = padding then
        if dCh ≠ padding then none
        else if b.toNat &&& 0x0F ≠ 0 then none
        else some out
      else
        let c := lookup cCh
        if c < 0 then none
        else
          let withC := triple ||| c.toNat <<< 6
          let out := out ++ [byteAt withC 8]
          if dCh = padding then
            if c.toNat &&& 0x03 ≠ 0 then none else some out
          else
            let d := lookup dCh
            if d < 0 then none
            else
              let withD := withC ||| d.toNat
              decodeQuads (out ++ [byteAt withD 0]) rest
  | _ => some out

def base64Decode (input : Text) : Option Text := if input.length % 4 ≠ 0 then none else decodeQuads [] input

example : base64Encode (ascii "acva") = ascii "YWN2YQ==" := by decide +kernel

/-! ### Digits -/

lemma lookup_alphaAt : ∀ i < 64, lookup (alphaAt i) = i ∧ alphaAt i ≠ padding := by decide +kernel

lemma or_eq_add {a b n : Nat} (h : b < 2 ^ n) : a * 2 ^ n ||| b = a * 2 ^ n + b := by
  rw [Nat.mul_comm]
  exact (Nat.two_pow_add_eq_or_of_lt h a).symm

lemma tripleOf_eq (a b c : UInt8) : tripleOf a b c = (a.toNat * 256 + b.toNat) * 256 + c.toNat := by
  have hb := b.toNat_lt
  have hc := c.toNat_lt
  have hhigh : a.toNat <<< 16 ||| b.toNat <<< 8 = (a.toNat * 256 + b.toNat) * 2 ^ 8 := by
    rw [Nat.shiftLeft_eq, Nat.shiftLeft_eq, or_eq_add (by omega)]
    omega
  rw [tripleOf, hhigh, or_eq_add hc]
  omega

/-- The four digits of a number of 24 bits. -/
def sextet (triple shift : Nat) : Nat := triple / 2 ^ shift % 64

lemma digitAt_eq (triple shift : Nat) : digitAt triple shift = alphaAt (sextet triple shift) := by
  rw [digitAt, sextet, Nat.shiftRight_eq_div_pow]
  exact congrArg alphaAt (Nat.and_two_pow_sub_one_eq_mod _ 6)

lemma byteAt_eq (n shift : Nat) : byteAt n shift = UInt8.ofNat (n / 2 ^ shift % 256) := by
  rw [byteAt, Nat.shiftRight_eq_div_pow]
  exact congrArg UInt8.ofNat (Nat.and_two_pow_sub_one_eq_mod _ 8)

lemma sextet_lt (triple shift : Nat) : sextet triple shift < 64 := Nat.mod_lt _ (by decide)

variable {i j k l : Nat} {out rest : Text}

lemma lookup_digit (hi : i < 64) : lookup (alphaAt i) = i := (lookup_alphaAt i hi).1

lemma two_digits (hj : j < 64) : i <<< 18 ||| j <<< 12 = (i * 64 + j) * 2 ^ 12 := by
  rw [Nat.shiftLeft_eq, Nat.shiftLeft_eq, or_eq_add (by omega)]
  omega

lemma third_digit (hk : k < 64) : i * 2 ^ 12 ||| k <<< 6 = (i * 64 + k) * 2 ^ 6 := by
  rw [Nat.shiftLeft_eq, or_eq_add (by omega)]
  omega

lemma fourth_digit (hl : l < 64) : i * 2 ^ 6 ||| l = i * 2 ^ 6 + l := or_eq_add (by omega)

/-! ### Groups -/

lemma decodeQuads_one (hi : i < 64) (hj : j < 64) (hrest : j % 16 = 0) :
    decodeQuads out (alphaAt i :: alphaAt j :: padding :: padding :: rest) =
      some (out ++ [UInt8.ofNat (i * 4 + j / 16)]) := by
  have hmask : j &&& 0x0F = 0 := (Nat.and_two_pow_sub_one_eq_mod j 4).trans hrest
  have hbyte : (i * 64 + j) * 2 ^ 12 / 2 ^ 16 % 256 = i * 4 + j / 16 := by omega
  have hneg : ¬((i : Int) < 0 ∨ (j : Int) < 0) := by omega
  simp only [decodeQuads, lookup_digit hi, lookup_digit hj, Int.toNat_natCast, two_digits hj, byteAt_eq, hmask, hneg,
    hbyte, if_false, ne_eq, not_true_eq_false, if_true]

/-- Three digits and padding: two bytes, if the rest of the third digit is zero. -/
lemma decodeQuads_two (hi : i < 64) (hj : j < 64) (hk : k < 64) (hrest : k % 4 = 0) :
    decodeQuads out (alphaAt i :: alphaAt j :: alphaAt k :: padding :: rest) =
      some (out ++ [UInt8.ofNat (i * 4 + j / 16)] ++ [UInt8.ofNat (j % 16 * 16 + k / 4)]) := by
  have hmask : k &&& 0x03 = 0 := (Nat.and_two_pow_sub_one_eq_mod k 2).trans hrest
  have hfirst : (i * 64 + j) * 2 ^ 12 / 2 ^ 16 % 256 = i * 4 + j / 16 := by omega
  have hsecond : ((i * 64 + j) * 64 + k) * 2 ^ 6 / 2 ^ 8 % 256 = j % 16 * 16 + k / 4 := by omega
  have hneg : ¬((i : Int) < 0 ∨ (j : Int) < 0) := by omega
  have hneg' : ¬(k : Int) < 0 := by omega
  simp only [decodeQuads, lookup_digit hi, lookup_digit hj, lookup_digit hk, (lookup_alphaAt k hk).2,
    Int.toNat_natCast, two_digits hj, third_digit hk, byteAt_eq, hmask, hneg, hneg', hfirst, hsecond, if_false,
    ne_eq, not_true_eq_false, if_true]

lemma decodeQuads_three (hi : i < 64) (hj : j < 64) (hk : k < 64) (hl : l < 64) :
    decodeQuads out (alphaAt i :: alphaAt j :: alphaAt k :: alphaAt l :: rest) =
      decodeQuads (out ++ [UInt8.ofNat (i * 4 + j / 16)] ++ [UInt8.ofNat (j % 16 * 16 + k / 4)] ++
        [UInt8.ofNat (k % 4 * 64 + l)]) rest := by
  have hfirst : (i * 64 + j) * 2 ^ 12 / 2 ^ 16 % 256 = i * 4 + j / 16 := by omega
  have hsecond : ((i * 64 + j) * 64 + k) * 2 ^ 6 / 2 ^ 8 % 256 = j % 16 * 16 + k / 4 := by omega
  have hthird : (((i * 64 + j) * 64 + k) * 2 ^ 6 + l) / 2 ^ 0 % 256 = k % 4 * 64 + l := by omega
  have hneg : ¬((i : Int) < 0 ∨ (j : Int) < 0) := by omega
  have hneg' : ¬(k : Int) < 0 := by omega
  have hneg'' : ¬(l : Int) < 0 := by omega
  simp only [decodeQuads, lookup_digit hi, lookup_digit hj, lookup_digit hk, lookup_digit hl, (lookup_alphaAt k hk).2,
    (lookup_alphaAt l hl).2, Int.toNat_natCast, two_digits hj, third_digit hk, fourth_digit hl, byteAt_eq, hneg,
    hneg', hneg'', hfirst, hsecond, hthird, if_false]

lemma digits_triple (a b c : UInt8) :
    sextet (tripleOf a b c) 18 * 4 + sextet (tripleOf a b c) 12 / 16 = a.toNat ∧
      sextet (tripleOf a b c) 12 % 16 * 16 + sextet (tripleOf a b c) 6 / 4 = b.toNat ∧
      sextet (tripleOf a b c) 6 % 4 * 64 + sextet (tripleOf a b c) 0 = c.toNat := by
  have ha := a.toNat_lt
  have hb := b.toNat_lt
  have hc := c.toNat_lt
  simp only [sextet, tripleOf_eq]
  omega

lemma decodeQuads_base64Encode (x out : Text) : decodeQuads out (base64Encode x) = some (out ++ x) := by
  induction x using base64Encode.induct generalizing out with
  | case1 => rw [base64Encode, decodeQuads, List.append_nil]; rintro _ _ _ _ _ h; cases h
  | case2 a =>
    obtain ⟨ha, hb, _⟩ := digits_triple a 0 0
    simp only [UInt8.toNat_zero] at hb
    simp only [base64Encode, digitAt_eq]
    rw [decodeQuads_one (sextet_lt _ _) (sextet_lt _ _) (by omega), ha, UInt8.ofNat_toNat]
  | case3 a b =>
    obtain ⟨ha, hb, hc⟩ := digits_triple a b 0
    simp only [UInt8.toNat_zero] at hc
    simp only [base64Encode, digitAt_eq]
    rw [decodeQuads_two (sextet_lt _ _) (sextet_lt _ _) (sextet_lt _ _) (by omega), ha, hb, UInt8.ofNat_toNat,
      UInt8.ofNat_toNat, List.append_assoc]
    rfl
  | case4 a b c rest ih =>
    obtain ⟨ha, hb, hc⟩ := digits_triple a b c
    simp only [base64Encode, digitAt_eq]
    rw [decodeQuads_three (sextet_lt _ _) (sextet_lt _ _) (sextet_lt _ _) (sextet_lt _ _), ha, hb, hc, ih]
    simp only [UInt8.ofNat_toNat, List.append_assoc, List.cons_append, List.nil_append]

lemma length_base64Encode (x : Text) : (base64Encode x).length % 4 = 0 := by
  induction x using base64Encode.induct with
  | case1 => rfl
  | case2 a => simp [base64Encode]
  | case3 a b => simp [base64Encode]
  | case4 a b c rest ih =>
    simp only [base64Encode, List.length_cons]
    omega

theorem base64_round_trip (x : Text) : base64Decode (base64Encode x) = some x := by
  rw [base64Decode, if_neg (not_not_intro (length_base64Encode x)), decodeQuads_base64Encode, List.nil_append]

/-! ### Canonical encodings -/

lemma alphaAt_entry : ∀ e ∈ kBase64Lookup.zipIdx, ¬e.1 < 0 → e.1.toNat < 64 ∧ alphaAt e.1.toNat = UInt8.ofNat e.2 := by
  decide +kernel

lemma lookup_padding : lookup padding = -1 := by decide +kernel

lemma exists_digit {ch : UInt8} (h : ¬lookup ch < 0) : ∃ i < 64, ch = alphaAt i := by
  unfold lookup at h
  rw [List.getD_eq_getElem?_getD] at h
  cases hentry : kBase64Lookup[ch.toNat]? with
  | none =>
    rw [hentry] at h
    exact absurd (by decide) h
  | some v =>
    rw [hentry] at h
    obtain ⟨hlt, heq⟩ := alphaAt_entry (v, ch.toNat) (List.mem_zipIdx_iff_getElem?.2 hentry) h
    rw [UInt8.ofNat_toNat] at heq
    exact ⟨v.toNat, hlt, heq.symm⟩

lemma tripleOf_digits (hi : i < 64) (hj : j < 64) (hk : k < 64) (hl : l < 64) :
    tripleOf (UInt8.ofNat (i * 4 + j / 16)) (UInt8.ofNat (j % 16 * 16 + k / 4)) (UInt8.ofNat (k % 4 * 64 + l)) =
      ((i * 64 + j) * 64 + k) * 64 + l := by
  have hfirst : (UInt8.ofNat (i * 4 + j / 16)).toNat = i * 4 + j / 16 :=
    UInt8.toNat_ofNat_of_lt' (by simp only [UInt8.size]; omega)
  have hsecond : (UInt8.ofNat (j % 16 * 16 + k / 4)).toNat = j % 16 * 16 + k / 4 :=
    UInt8.toNat_ofNat_of_lt' (by simp only [UInt8.size]; omega)
  have hthird : (UInt8.ofNat (k % 4 * 64 + l)).toNat = k % 4 * 64 + l :=
    UInt8.toNat_ofNat_of_lt' (by simp only [UInt8.size]; omega)
  rw [tripleOf_eq, hfirst, hsecond, hthird]
  omega

lemma sextet_digits (hi : i < 64) (hj : j < 64) (hk : k < 64) (hl : l < 64) :
    sextet (((i * 64 + j) * 64 + k) * 64 + l) 18 = i ∧ sextet (((i * 64 + j) * 64 + k) * 64 + l) 12 = j ∧
      sextet (((i * 64 + j) * 64 + k) * 64 + l) 6 = k ∧ sextet (((i * 64 + j) * 64 + k) * 64 + l) 0 = l := by
  simp only [sextet]
  omega

/-- The bytes of a group are encoded as the group again, if the rest of its last digit is zero. -/
lemma base64Encode_one (hi : i < 64) (hj : j < 64) (hrest : j % 16 = 0) :
    base64Encode [UInt8.ofNat (i * 4 + j / 16)] = [alphaAt i, alphaAt j, padding, padding] := by
  have htriple := tripleOf_digits hi hj (by decide : 0 < 64) (by decide : 0 < 64)
  obtain ⟨hfirst, hsecond, _⟩ := sextet_digits hi hj (by decide : 0 < 64) (by decide : 0 < 64)
  simp only [hrest, Nat.zero_mul, Nat.zero_div, Nat.zero_mod, Nat.add_zero] at htriple hfirst hsecond
  simp only [base64Encode, digitAt_eq]
  rw [show (0 : UInt8) = UInt8.ofNat 0 from rfl, htriple, hfirst, hsecond]

lemma base64Encode_two (hi : i < 64) (hj : j < 64) (hk : k < 64) (hrest : k % 4 = 0) :
    base64Encode [UInt8.ofNat (i * 4 + j / 16), UInt8.ofNat (j % 16 * 16 + k / 4)] =
      [alphaAt i, alphaAt j, alphaAt k, padding] := by
  have htriple := tripleOf_digits hi hj hk (by decide : 0 < 64)
  obtain ⟨hfirst, hsecond, hthird, _⟩ := sextet_digits hi hj hk (by decide : 0 < 64)
  simp only [hrest, Nat.zero_mul, Nat.add_zero] at htriple hfirst hsecond hthird
  simp only [base64Encode, digitAt_eq]
  rw [show (0 : UInt8) = UInt8.ofNat 0 from rfl, htriple, hfirst, hsecond, hthird]

lemma base64Encode_three (hi : i < 64) (hj : j < 64) (hk : k < 64) (hl : l < 64) (x : Text) :
    base64Encode
        (UInt8.ofNat (i * 4 + j / 16) :: UInt8.ofNat (j % 16 * 16 + k / 4) :: UInt8.ofNat (k % 4 * 64 + l) :: x) =
      alphaAt i :: alphaAt j :: alphaAt k :: alphaAt l :: base64Encode x := by
  obtain ⟨hfirst, hsecond, hthird, hfourth⟩ := sextet_digits hi hj hk hl
  simp only [base64Encode, digitAt_eq, tripleOf_digits hi hj hk hl, hfirst, hsecond, hthird, hfourth]

/-- A group that stands for one or two bytes: digits and padding, and zeros in the rest of the last digit. -/
def paddedGroup (aCh bCh cCh dCh : UInt8) : Bool :=
  0 ≤ lookup aCh && 0 ≤ lookup bCh && dCh = padding &&
    (cCh = padding && (lookup bCh).toNat % 16 = 0 || 0 ≤ lookup cCh && (lookup cCh).toNat % 4 = 0)

lemma paddedGroup_one (hi : i < 64) (hj : j < 64) (hrest : j % 16 = 0) :
    paddedGroup (alphaAt i) (alphaAt j) padding padding = true := by
  simp [paddedGroup, lookup_digit hi, lookup_digit hj, hrest]

lemma paddedGroup_two (hi : i < 64) (hj : j < 64) (hk : k < 64) (hrest : k % 4 = 0) :
    paddedGroup (alphaAt i) (alphaAt j) (alphaAt k) padding = true := by
  simp [paddedGroup, lookup_digit hi, lookup_digit hj, lookup_digit hk, hrest]

/-- After groups of digits there is a padded group, and another group after it. -/
def padsBeforeEnd : Text → Bool
  | aCh :: bCh :: cCh :: dCh :: rest =>
    if 0 ≤ lookup aCh ∧ 0 ≤ lookup bCh ∧ 0 ≤ lookup cCh ∧ 0 ≤ lookup dCh then padsBeforeEnd rest
    else paddedGroup aCh bCh cCh dCh && rest ≠ []
  | _ => false

/-- What a group is that the loop accepts. -/
inductive Accepted (out : Text) : Text → Text → Prop
  | one {i j : Nat} (rest : Text) (hi : i < 64) (hj : j < 64) (hrest : j % 16 = 0) :
      Accepted out (alphaAt i :: alphaAt j :: padding :: padding :: rest) (out ++ [UInt8.ofNat (i * 4 + j / 16)])
  | two {i j k : Nat} (rest : Text) (hi : i < 64) (hj : j < 64) (hk : k < 64) (hrest : k % 4 = 0) :
      Accepted out (alphaAt i :: alphaAt j :: alphaAt k :: padding :: rest)
        (out ++ [UInt8.ofNat (i * 4 + j / 16), UInt8.ofNat (j % 16 * 16 + k / 4)])
  | three {i j k l : Nat} {rest y : Text} (hi : i < 64) (hj : j < 64) (hk : k < 64) (hl : l < 64)
      (hloop : decodeQuads (out ++ [UInt8.ofNat (i * 4 + j / 16), UInt8.ofNat (j % 16 * 16 + k / 4),
        UInt8.ofNat (k % 4 * 64 + l)]) rest = some y) :
      Accepted out (alphaAt i :: alphaAt j :: alphaAt k :: alphaAt l :: rest) y

lemma accepted_of_decodeQuads {aCh bCh cCh dCh : UInt8} {y : Text}
    (h : decodeQuads out (aCh :: bCh :: cCh :: dCh :: rest) = some y) :
    Accepted out (aCh :: bCh :: cCh :: dCh :: rest) y := by
  by_cases hneg : lookup aCh < 0 ∨ lookup bCh < 0
  · simp [decodeQuads, hneg] at h
  rw [not_or] at hneg
  obtain ⟨i, hi, rfl⟩ := exists_digit hneg.1
  obtain ⟨j, hj, rfl⟩ := exists_digit hneg.2
  by_cases hc : cCh = padding
  · subst cCh
    by_cases hd : dCh = padding
    · subst dCh
      by_cases hrest : j % 16 = 0
      · rw [decodeQuads_one hi hj hrest, Option.some.injEq] at h
        exact h ▸ .one rest hi hj hrest
      · have hmask : j &&& 0x0F ≠ 0 := fun hzero => hrest ((Nat.and_two_pow_sub_one_eq_mod j 4).symm.trans hzero)
        simp [decodeQuads, lookup_digit hi, lookup_digit hj, hmask] at h
    · simp [decodeQuads, hneg, hd] at h
  by_cases hcneg : lookup cCh < 0
  · simp [decodeQuads, hneg, hc, hcneg] at h
  obtain ⟨k, hk, rfl⟩ := exists_digit hcneg
  by_cases hd : dCh = padding
  · subst dCh
    by_cases hrest : k % 4 = 0
    · rw [decodeQuads_two hi hj hk hrest, Option.some.injEq, List.append_assoc] at h
      exact h ▸ .two rest hi hj hk hrest
    · have hmask : k &&& 0x03 ≠ 0 := fun hzero => hrest ((Nat.and_two_pow_sub_one_eq_mod k 2).symm.trans hzero)
      simp [decodeQuads, hneg, hc, lookup_digit hk, hmask] at h
  by_cases hdneg : lookup dCh < 0
  · simp [decodeQuads, hneg, hc, hcneg, hd, hdneg] at h
  obtain ⟨l, hl, rfl⟩ := exists_digit hdneg
  rw [decodeQuads_three hi hj hk hl, List.append_assoc, List.append_assoc] at h
  exact .three hi hj hk hl h

/-- The bytes that the loop adds are encoded as the string exactly if it does not go on after padding. -/
lemma decodeQuads_canonical_iff {s y : Text} (hlength : s.length % 4 = 0) (h : decodeQuads out s = some y) :
    ∃ x, y = out ++ x ∧ (base64Encode x = s ↔ padsBeforeEnd s = false) := by
  induction s using padsBeforeEnd.induct generalizing out with
  | case1 aCh bCh cCh dCh rest hdigits ih =>
    have haccepted := accepted_of_decodeQuads h
    generalize hs : aCh :: bCh :: cCh :: dCh :: rest = s at haccepted
    cases haccepted with
    | three hi hj hk hl hloop =>
      cases hs
      simp only [List.length_cons] at hlength
      obtain ⟨x, hy, hiff⟩ := ih (by omega) hloop
      refine ⟨_ :: _ :: _ :: x, by rw [hy, List.append_assoc]; rfl, ?_⟩
      rw [base64Encode_three hi hj hk hl, padsBeforeEnd, if_pos hdigits, ← hiff]
      simp only [List.cons.injEq, true_and]
    | _ =>
      cases hs
      simp [lookup_padding] at hdigits
  | case2 aCh bCh cCh dCh rest hpadded =>
    have haccepted := accepted_of_decodeQuads h
    rw [padsBeforeEnd, if_neg hpadded]
    generalize hs : aCh :: bCh :: cCh :: dCh :: rest = s at haccepted ⊢
    cases haccepted with
    | one rest' hi hj hrest =>
      cases hs
      refine ⟨_, rfl, ?_⟩
      rw [base64Encode_one hi hj hrest, paddedGroup_one hi hj hrest]
      simp
    | two rest' hi hj hk hrest =>
      cases hs
      refine ⟨_, rfl, ?_⟩
      rw [base64Encode_two hi hj hk hrest, paddedGroup_two hi hj hk hrest]
      simp
    | three hi hj hk hl _ =>
      cases hs
      exact absurd ⟨by simp [lookup_digit hi], by simp [lookup_digit hj], by simp [lookup_digit hk],
        by simp [lookup_digit hl]⟩ hpadded
  | case3 s hshort =>
    have hnil : s = [] := by
      rcases s with _ | ⟨a, _ | ⟨b, _ | ⟨c, _ | ⟨d, rest⟩⟩⟩⟩
      · rfl
      · simp at hlength
      · simp at hlength
      · simp at hlength
      · exact absurd rfl (hshort a b c d rest)
    subst hnil
    refine ⟨[], ?_, iff_of_true rfl rfl⟩
    rw [List.append_nil]
    exact (Option.some.inj h).symm

lemma isSome_decodeQuads_of_padsBeforeEnd {s : Text} (h : padsBeforeEnd s = true) : (decodeQuads out s).isSome := by
  induction s using padsBeforeEnd.induct generalizing out with
  | case1 aCh bCh cCh dCh rest hdigits ih =>
    rw [padsBeforeEnd, if_pos hdigits] at h
    obtain ⟨i, hi, rfl⟩ := exists_digit (Int.not_lt.2 hdigits.1)
    obtain ⟨j, hj, rfl⟩ := exists_digit (Int.not_lt.2 hdigits.2.1)
    obtain ⟨k, hk, rfl⟩ := exists_digit (Int.not_lt.2 hdigits.2.2.1)
    obtain ⟨l, hl, rfl⟩ := exists_digit (Int.not_lt.2 hdigits.2.2.2)
    rw [decodeQuads_three hi hj hk hl]
    exact ih h
  | case2 aCh bCh cCh dCh rest hpadded =>
    rw [padsBeforeEnd, if_neg hpadded, paddedGroup] at h
    simp only [Bool.and_eq_true, Bool.or_eq_true, decide_eq_true_eq] at h
    obtain ⟨⟨⟨⟨ha, hb⟩, rfl⟩, hlast⟩, _⟩ := h
    obtain ⟨i, hi, rfl⟩ := exists_digit (Int.not_lt.2 ha)
    obtain ⟨j, hj, rfl⟩ := exists_digit (Int.not_lt.2 hb)
    rw [lookup_digit hj, Int.toNat_natCast] at hlast
    rcases hlast with ⟨rfl, hrest⟩ | ⟨hc, hrest⟩
    · rw [decodeQuads_one hi hj hrest]
      rfl
    · obtain ⟨k, hk, rfl⟩ := exists_digit (Int.not_lt.2 hc)
      rw [lookup_digit hk, Int.toNat_natCast] at hrest
      rw [decodeQuads_two hi hj hk hrest]
      rfl
  | case3 s hshort =>
    unfold padsBeforeEnd at h
    split at h
    · exact absurd rfl (hshort _ _ _ _ _)
    · cases h

/-- What decodes is the encoding of what it decodes to exactly if no whole group comes after a padded one. -/
theorem base64_strict_iff (s : Text) :
    (∀ x, base64Decode s = some x → base64Encode x = s) ↔ ¬(s.length % 4 = 0 ∧ padsBeforeEnd s = true) := by
  unfold base64Decode
  by_cases hlength : s.length % 4 = 0
  · rw [if_neg (not_not_intro hlength)]
    constructor
    · rintro hstrict ⟨_, hpads⟩
      have hsome : (decodeQuads [] s).isSome := isSome_decodeQuads_of_padsBeforeEnd hpads
      obtain ⟨y, hy⟩ := Option.isSome_iff_exists.1 hsome
      obtain ⟨x, heq, hiff⟩ := decodeQuads_canonical_iff hlength hy
      rw [List.nil_append] at heq
      rw [hiff.1 (hstrict x (heq ▸ hy))] at hpads
      cases hpads
    · intro hpads x hx
      obtain ⟨y, heq, hiff⟩ := decodeQuads_canonical_iff hlength hx
      rw [heq, List.nil_append]
      exact hiff.2 (Bool.eq_false_iff.2 fun h => hpads ⟨hlength, h⟩)
  · rw [if_pos hlength]
    exact iff_of_true (fun _ h => nomatch h) (fun h => hlength h.1)

/-- Two fragments that were padded on their own: the second one is lost. -/
theorem padded_fragments_decode :
    base64Decode (ascii "aGU=bGxv") = some (ascii "he") ∧ base64Encode (ascii "he") ≠ ascii "aGU=bGxv" := by
  decide +kernel

end Realtime

end Acva
