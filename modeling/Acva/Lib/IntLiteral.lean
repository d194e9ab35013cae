import Mathlib.Algebra.Group.Int.Defs
import Mathlib.Data.List.TakeWhile
import Mathlib.Tactic.Common

/-!
# Integers at the start of a text

`std::stoll` skips blanks and reads a sign and digits; what follows them is not its concern. It throws if there are no
digits or the number does not fit in 64 bits.
-/

namespace IntLiteral

/-- `std::isspace` in the C locale. -/
def isSpace (b : UInt8) : Bool := b == 32 || (9 ≤ b && b ≤ 13)

def isDigit (b : UInt8) : Bool := 48 ≤ b && b ≤ 57

def value (digits : List UInt8) : Nat := digits.foldl (fun n b => n * 10 + (b.toNat - 48)) 0

def fits (n : Int) : Bool := -2 ^ 63 ≤ n && n < 2 ^ 63

/-- Whether there is a minus sign, and what follows the sign. -/
def splitSign (s : List UInt8) : Bool × List UInt8 :=
  match s with
  | 45 :: s => (true, s)
  | 43 :: s => (false, s)
  | s => (false, s)

/-- The number and how many bytes it takes, blanks and sign included. -/
def stoll (s : List UInt8) : Option (Int × Nat) :=
  let (negative, body) := splitSign (s.dropWhile isSpace)
  let digits := body.takeWhile isDigit
  let n : Int := if negative then -(value digits : Int) else value digits
  if digits ≠ [] && fits n then some (n, s.length - body.length + digits.length) else none

/-- Blanks, a sign or none, and digits of a number that fits. -/
structure Literal (s : List UInt8) (n : Int) : Prop where
  parts : ∃ blanks sign digits, s = blanks ++ (sign ++ digits) ∧ (∀ b ∈ blanks, isSpace b) ∧
    (sign = [] ∨ sign = [43] ∨ sign = [45]) ∧ digits ≠ [] ∧ (∀ b ∈ digits, isDigit b) ∧
    n = if sign = [45] then -(value digits : Int) else value digits
  fits : fits n

/-- What follows a number does not go on with a digit. -/
def Ends (rest : List UInt8) : Prop := ∀ b ∈ rest.head?, isDigit b = false

lemma not_isSpace_of_isDigit {b : UInt8} (h : isDigit b) : isSpace b = false := by
  simp only [isDigit, isSpace, Bool.and_eq_true, decide_eq_true_eq, UInt8.le_iff_toNat_le] at h ⊢
  simp only [Bool.or_eq_false_iff, beq_eq_false_iff_ne, ne_eq, ← UInt8.toNat_inj, Bool.and_eq_false_imp,
    decide_eq_true_eq, decide_eq_false_iff_not]
  change 48 ≤ b.toNat ∧ b.toNat ≤ 57 at h
  change ¬b.toNat = 32 ∧ (9 ≤ b.toNat → ¬b.toNat ≤ 13)
  omega

lemma takeWhile_digits {digits rest : List UInt8} (hdigits : ∀ b ∈ digits, isDigit b) (hrest : Ends rest) :
    (digits ++ rest).takeWhile isDigit = digits := by
  rw [List.takeWhile_append_of_pos hdigits]
  cases rest with
  | nil => simp
  | cons b rest =>
    have hb : isDigit b = false := hrest b rfl
    simp [hb]

lemma ends_dropWhile (s : List UInt8) : Ends (s.dropWhile isDigit) := by
  intro b hb
  cases hs : s.dropWhile isDigit with
  | nil => simp [hs] at hb
  | cons c cs =>
    have hhead := List.head_dropWhile_not isDigit (l := s) (by simp [hs])
    simp only [hs, List.head?_cons, List.head_cons, Option.mem_def, Option.some.injEq] at hb hhead
    rw [← hb]
    exact hhead

lemma splitSign_dropWhile {blanks sign digits rest : List UInt8} (hblanks : ∀ b ∈ blanks, isSpace b)
    (hsign : sign = [] ∨ sign = [43] ∨ sign = [45]) (hne : digits ≠ []) (hdigits : ∀ b ∈ digits, isDigit b) :
    splitSign ((blanks ++ (sign ++ digits) ++ rest).dropWhile isSpace) = (decide (sign = [45]), digits ++ rest) := by
  obtain ⟨d, ds, rfl⟩ := List.exists_cons_of_ne_nil hne
  have hd : isDigit d := hdigits d (List.mem_cons_self ..)
  rw [List.append_assoc, List.dropWhile_append_of_pos hblanks]
  rcases hsign with rfl | rfl | rfl
  · rw [List.nil_append, List.cons_append, List.dropWhile_cons_of_neg (by simp [not_isSpace_of_isDigit hd])]
    unfold splitSign
    split
    · simp_all [isDigit]
    · simp_all [isDigit]
    · simp
  · simp [isSpace, splitSign]
  · simp [isSpace, splitSign]

/-- The blanks and the sign that `stoll` passes over. -/
lemma splitSign_eq (s : List UInt8) : ∃ sign, (sign = [] ∨ sign = [43] ∨ sign = [45]) ∧
    s = sign ++ (splitSign s).2 ∧ (splitSign s).1 = decide (sign = [45]) := by
  unfold splitSign
  split
  · exact ⟨[45], .inr (.inr rfl), rfl, rfl⟩
  · exact ⟨[43], .inr (.inl rfl), rfl, rfl⟩
  · exact ⟨[], .inl rfl, rfl, rfl⟩

/-- The text starts with a number, the longest that it can. -/
theorem stoll_eq_some_iff {s : List UInt8} {n : Int} {k : Nat} :
    stoll s = some (n, k) ↔
      ∃ literal rest, s = literal ++ rest ∧ Literal literal n ∧ Ends rest ∧ k = literal.length := by
  constructor
  · intro h
    obtain ⟨sign, hsign, hbody, hnegative⟩ := splitSign_eq (s.dropWhile isSpace)
    unfold stoll at h
    dsimp only at h
    rw [hnegative] at h
    generalize (splitSign (s.dropWhile isSpace)).2 = body at hbody h
    have hs : s = s.takeWhile isSpace ++ (sign ++ body) := by rw [← hbody, List.takeWhile_append_dropWhile]
    rw [Option.ite_none_right_eq_some, Bool.and_eq_true, decide_eq_true_eq] at h
    obtain ⟨⟨hne, hfits⟩, hsome⟩ := h
    obtain ⟨hn, hk⟩ := Prod.mk.inj (Option.some.inj hsome)
    rw [hn] at hfits
    refine ⟨s.takeWhile isSpace ++ (sign ++ body.takeWhile isDigit), body.dropWhile isDigit, ?_, ⟨?_, hfits⟩,
      ends_dropWhile body, ?_⟩
    · rw [List.append_assoc, List.append_assoc, List.takeWhile_append_dropWhile]
      exact hs
    · refine ⟨s.takeWhile isSpace, sign, body.takeWhile isDigit, rfl, fun b hb => List.mem_takeWhile_imp hb, hsign,
        hne, fun b hb => List.mem_takeWhile_imp hb, ?_⟩
      rw [← hn]
      simp only [decide_eq_true_eq]
    · rw [← hk]
      have hlen := congrArg List.length hs
      simp only [List.length_append] at hlen ⊢
      omega
  · rintro ⟨literal, rest, rfl, ⟨⟨blanks, sign, digits, rfl, hblanks, hsign, hne, hdigits, rfl⟩, hfits⟩, hends, rfl⟩
    unfold stoll
    dsimp only
    rw [splitSign_dropWhile hblanks hsign hne hdigits, takeWhile_digits hdigits hends]
    simp only [decide_eq_true_eq]
    rw [if_pos (by rw [hfits, decide_eq_true hne]; rfl)]
    simp only [Option.some.injEq, Prod.mk.injEq, true_and, List.length_append]
    omega

lemma Literal.stoll_eq {s : List UInt8} {n : Int} (h : Literal s n) : stoll s = some (n, s.length) := by
  refine stoll_eq_some_iff.mpr ⟨s, [], (List.append_nil s).symm, h, ?_, rfl⟩
  intro b hb
  cases hb

end IntLiteral
