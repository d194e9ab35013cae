import Mathlib.Tactic.Common

/-!
# Tilings

Ranges of numbers, each given by its first and its last, that follow one another without a gap.
-/

namespace Tiling

/-- From `a` on the ranges leave nothing out, none is empty, and `n` comes next. -/
def Tiles : Nat → List (Nat × Nat) → Nat → Prop
  | a, [], n => n = a
  | a, r :: l, n => r.1 = a ∧ r.1 ≤ r.2 ∧ Tiles (r.2 + 1) l n

variable {a m n : Nat} {l l' : List (Nat × Nat)} {r : Nat × Nat}

lemma Tiles.start_le (h : Tiles a l n) : a ≤ n := by
  induction l generalizing a with
  | nil => exact Nat.le_of_eq h.symm
  | cons r l ih =>
    have hnext := ih h.2.2
    have hstart := h.1
    have hle := h.2.1
    omega

lemma Tiles.bounds (h : Tiles a l n) (hr : r ∈ l) : a ≤ r.1 ∧ r.1 ≤ r.2 ∧ r.2 < n := by
  induction l generalizing a with
  | nil => simp at hr
  | cons q l ih =>
    obtain ⟨hstart, hle, hl⟩ := h
    rcases List.mem_cons.mp hr with rfl | hr
    · have hnext := hl.start_le
      omega
    · have hbounds := ih hl hr
      omega

lemma tiles_append : Tiles a (l ++ l') n ↔ ∃ k, Tiles a l k ∧ Tiles k l' n := by
  induction l generalizing a with
  | nil => simp [Tiles]
  | cons r l ih => simp only [List.cons_append, Tiles, ih, exists_and_left, and_assoc]

lemma tiles_concat : Tiles a (l ++ [r]) n ↔ Tiles a l r.1 ∧ r.1 ≤ r.2 ∧ n = r.2 + 1 := by
  rw [tiles_append]
  constructor
  · rintro ⟨k, hl, hk, hle, hn⟩
    exact ⟨hk ▸ hl, hle, hn⟩
  · rintro ⟨hl, hle, hn⟩
    exact ⟨r.1, hl, rfl, hle, hn⟩

/-- Every number before the next one is in one range, and in no other. -/
theorem Tiles.existsUnique (h : Tiles a l n) (ha : a ≤ m) (hm : m < n) :
    ∃! j : Nat, ∃ r : Nat × Nat, l[j]? = some r ∧ r.1 ≤ m ∧ m ≤ r.2 := by
  induction l generalizing a with
  | nil =>
    have hn : n = a := h
    omega
  | cons r l ih =>
    obtain ⟨hstart, hle, hl⟩ := h
    by_cases hmr : m ≤ r.2
    · refine ⟨0, ⟨r, rfl, by omega, hmr⟩, ?_⟩
      rintro (_ | j) ⟨q, hq, hq₁, hq₂⟩
      · rfl
      · have hbounds := hl.bounds (List.mem_of_getElem? hq)
        omega
    · obtain ⟨j, ⟨q, hq, hmq⟩, hunique⟩ := ih hl (by omega)
      refine ⟨j + 1, ⟨q, hq, hmq⟩, ?_⟩
      rintro (_ | i) ⟨p, hp, hp₁, hp₂⟩
      · obtain rfl : r = p := by simpa using hp
        omega
      · rw [hunique i ⟨p, hp, hp₁, hp₂⟩]

/-- The same among the ranges up to one of them, for what does not come after it. -/
theorem Tiles.existsUnique_le (h : Tiles a l n) {k : Nat} (hk : l[k]? = some r) (ha : a ≤ m) (hm : m ≤ r.2) :
    ∃! j : Nat, j ≤ k ∧ ∃ q : Nat × Nat, l[j]? = some q ∧ q.1 ≤ m ∧ m ≤ q.2 := by
  have hlt : k < l.length := (List.getElem?_eq_some_iff.mp hk).1
  have htake : l.take (k + 1) = l.take k ++ [r] := by rw [List.take_add_one, hk, Option.toList_some]
  rw [← List.take_append_drop (k + 1) l, tiles_append] at h
  obtain ⟨b, htiles, -⟩ := h
  have hb : b = r.2 + 1 := (tiles_concat.mp (htake ▸ htiles)).2.2
  obtain ⟨j, ⟨q, hq, hmq⟩, hunique⟩ := htiles.existsUnique ha (show m < b by omega)
  have hsome : ∀ (i : Nat) (p : Nat × Nat), (l.take (k + 1))[i]? = some p ↔ i ≤ k ∧ l[i]? = some p := fun i p => by
    rw [List.getElem?_take]
    split
    · exact ⟨fun hp => ⟨by omega, hp⟩, fun hp => hp.2⟩
    · exact ⟨fun hp => by simp at hp, fun hp => by omega⟩
  refine ⟨j, ⟨((hsome j q).mp hq).1, q, ((hsome j q).mp hq).2, hmq⟩, ?_⟩
  rintro i ⟨hi, p, hp, hmp⟩
  exact hunique i ⟨p, (hsome i p).mpr ⟨hi, hp⟩, hmp⟩

end Tiling
