import Acva.ModelController.EnvFile

/-!
# What the template makes of a value

`ReplaceAllString` takes the new line of the env file for a template: a `$$` in the value becomes `$`, the names of
groups that the pattern does not have vanish, and `$0` brings back the line that was there. A value with such a
reference in it is never read back from what it expands to.
-/

namespace Acva.EnvFile

section

variable (nameLen : Text → Nat)

/-- The value has a `$` that the template expands. -/
def refers : Text → Bool
  | [] => false
  | c :: cs => (c = 0x24 && (cs.head? = some 0x24 || (extract nameLen cs).isSome)) || refers cs

/-- Nothing is left of the value: it consists of blanks and the names of groups that there are not. The first `skip`
bytes belong to a name. -/
def vanishes : Nat → Text → Bool
  | _, [] => true
  | skip + 1, _ :: cs => vanishes skip cs
  | 0, c :: cs =>
    if c ≠ 0x24 then isSpace c && vanishes 0 cs
    else if cs.head? = some 0x24 then false
    else
      match extract nameLen cs with
      | none => false
      | some (name, n) => name ≠ [0x30] && vanishes n cs

end

variable {nameLen : Text → Nat} {key m : Text}

lemma expand_skip (m : Text) (skip : Nat) (cs : Text) :
    expand nameLen m skip cs = expand nameLen m 0 (cs.drop skip) := by
  induction cs generalizing skip with
  | nil => cases skip <;> rfl
  | cons c cs ih =>
    cases skip with
    | zero => rfl
    | succ skip => exact ih skip

lemma expand_of_not_refers (m : Text) {v : Text} (h : refers nameLen v = false) : expand nameLen m 0 v = v := by
  induction v with
  | nil => rfl
  | cons c cs ih =>
    simp only [refers, Bool.or_eq_false_iff, Bool.and_eq_false_iff, decide_eq_false_iff_not,
      Option.isSome_eq_false_iff, Option.isNone_iff_eq_none] at h
    obtain ⟨hc, hcs⟩ := h
    rw [expand]
    by_cases hdollar : c = 0x24
    · obtain ⟨hdouble, hname⟩ := hc.resolve_left fun hne => hne hdollar
      rw [if_neg (not_not_intro hdollar), if_neg hdouble, hname]
      dsimp only
      rw [ih hcs, hdollar]
    · rw [if_pos hdollar, ih hcs]

/-! ### The parts of a value -/

/-- The parts of a value with what they expand to when `m` is replaced, and whether there is a reference among them. -/
inductive Parts (m : Text) : Bool → Text → Text → Prop
  | nil : Parts m false [] []
  | literal {r : Bool} {c : UInt8} {w e : Text} (h : Parts m r w e) : Parts m r (c :: w) (c :: e)
  | double {r : Bool} {w e : Text} (h : Parts m r w e) : Parts m true (0x24 :: 0x24 :: w) (0x24 :: e)
  | group {r : Bool} {name w e : Text} (hname : 0x3D ∉ name) (h : Parts m r w e) :
      Parts m true (0x24 :: (name ++ w)) e
  | line {r : Bool} {name w e : Text} (h : Parts m r w e) : Parts m true (0x24 :: (name ++ w)) (m ++ e)

/-- No name has the sign in it, which is neither a letter nor a digit nor an underscore. -/
def SignFree (nameLen : Text → Nat) : Prop := ∀ s : Text, 0x3D ∉ s.take (nameLen s)

lemma SignFree.extract (hname : SignFree nameLen) {cs name : Text} {n : Nat}
    (h : extract nameLen cs = some (name, n)) : 0x3D ∉ cs.take n := by
  cases cs with
  | nil => cases h
  | cons c cs =>
    rw [EnvFile.extract] at h
    by_cases hbrace : c = 0x7B
    · rw [if_pos hbrace] at h
      by_cases hlen : nameLen cs = 0
      · rw [if_pos hlen] at h
        cases h
      · rw [if_neg hlen] at h
        split at h
        · rename_i hclose
          obtain ⟨-, rfl⟩ := Prod.mk.inj (Option.some.inj h)
          have htake : cs.take (nameLen cs + 1) = cs.take (nameLen cs) ++ [0x7D] := by
            rw [List.take_add_one, hclose]
            rfl
          have hfree := hname cs
          rw [List.take_succ_cons, htake]
          simp [hbrace, hfree]
        · cases h
    · rw [if_neg hbrace] at h
      split at h
      · cases h
      · obtain ⟨-, rfl⟩ := Prod.mk.inj (Option.some.inj h)
        exact hname (c :: cs)

lemma parts_expand (hname : SignFree nameLen) (m v : Text) : Parts m (refers nameLen v) v (expand nameLen m 0 v) := by
  induction hlen : v.length using Nat.strong_induction_on generalizing v with
  | _ len ih =>
    cases v with
    | nil => exact .nil
    | cons c cs =>
      subst hlen
      have hrest := ih cs.length (by simp) cs rfl
      rw [expand]
      by_cases hc : c = 0x24
      · rw [if_neg (not_not_intro hc)]
        subst hc
        by_cases hdouble : cs.head? = some 0x24
        · rw [if_pos hdouble, expand_skip]
          obtain ⟨d, ds, rfl⟩ : ∃ d ds, cs = d :: ds := List.exists_cons_of_ne_nil (by rintro rfl; cases hdouble)
          obtain rfl : d = 0x24 := by simpa using hdouble
          have hparts := ih ds.length (by simp only [List.length_cons]; omega) ds rfl
          have hrefers : refers nameLen (0x24 :: 0x24 :: ds) = true := by simp [refers]
          rw [hrefers]
          exact .double hparts
        · rw [if_neg hdouble]
          cases hextract : extract nameLen cs with
          | none =>
            have hrefers : refers nameLen (0x24 :: cs) = refers nameLen cs := by simp [refers, hdouble, hextract]
            rw [hrefers]
            exact .literal hrest
          | some found =>
            obtain ⟨name, n⟩ := found
            have hrefers : refers nameLen (0x24 :: cs) = true := by simp [refers, hextract]
            have hparts := ih (cs.drop n).length (by rw [List.length_drop, List.length_cons]; omega) (cs.drop n) rfl
            have hsplit : (0x24 : UInt8) :: cs = 0x24 :: (cs.take n ++ cs.drop n) := by rw [List.take_append_drop]
            dsimp only
            rw [hrefers, expand_skip, hsplit]
            split
            · exact .line hparts
            · exact .group (hname.extract hextract) hparts
      · have hrefers : refers nameLen (c :: cs) = refers nameLen cs := by simp [refers, hc]
        rw [if_pos hc, hrefers]
        exact .literal hrest

lemma Parts.mem {r : Bool} {w e : Text} (h : Parts m r w e) {c : UInt8} (hc : c ∈ e) : c ∈ w ∨ c ∈ m := by
  induction h with
  | nil => cases hc
  | literal h ih => exact (List.mem_cons.1 hc).elim (fun h => by simp [h]) fun hc => (ih hc).imp_left (by simp [·])
  | double h ih => exact (List.mem_cons.1 hc).elim (fun h => by simp [h]) fun hc => (ih hc).imp_left (by simp [·])
  | group hname h ih => exact (ih hc).imp_left (by simp [·])
  | line h ih => exact (List.mem_append.1 hc).elim .inr fun hc => (ih hc).imp_left (by simp [·])

/-! ### No echo -/

section Echo

variable (hkey : PlainKey key) (hsign : 0x3D ∉ key) (hm : IsMatch key m)
include hkey hsign hm

/-- Before its sign, the line that is replaced has no `$`. -/
lemma IsMatch.append_ne {δ x y : Text} (hδ : 0x3D ∉ δ) : m ++ x ≠ δ ++ 0x24 :: y := by
  intro heq
  obtain ⟨a, d, line, ha, hd, rfl⟩ := hm
  have hblank : ∀ l : Text, (∀ c ∈ l, isSpace c) → 0x3D ∉ l ∧ 0x24 ∉ l := fun l hl =>
    ⟨fun hmem => by simpa [isSpace] using hl _ hmem, fun hmem => by simpa [isSpace] using hl _ hmem⟩
  have hbefore : ∀ c ∈ a ++ (key ++ d), c ≠ 0x3D := by
    rintro c hc rfl
    simp [(hblank a ha).1, (hblank d hd).1, hsign] at hc
  have hleft : ((a ++ (key ++ (d ++ 0x3D :: line))) ++ x).takeWhile (· ≠ 0x3D) = a ++ (key ++ d) := by
    have hassoc : (a ++ (key ++ (d ++ 0x3D :: line))) ++ x = (a ++ (key ++ d)) ++ 0x3D :: (line ++ x) := by simp
    rw [hassoc, List.takeWhile_append_of_pos fun c hc => by simpa using hbefore c hc]
    simp
  have hright : (δ ++ 0x24 :: y).takeWhile (· ≠ 0x3D) = δ ++ 0x24 :: y.takeWhile (· ≠ 0x3D) := by
    rw [List.takeWhile_append_of_pos fun c hc => by simpa using ne_of_mem_of_not_mem hc hδ]
    simp
  have hmem : (0x24 : UInt8) ∈ a ++ (key ++ d) := by
    rw [← hleft, heq, hright]
    simp
  simp [(hblank a ha).2, (hblank d hd).2, hkey.dollar] at hmem

/-- What a value expands to does not have the value further on, if there is no sign before it. -/
lemma Parts.no_echo {r : Bool} {w e : Text} (h : Parts m r w e) {δ : Text} (hne : δ ≠ []) (hδ : 0x3D ∉ δ) (B : Text) :
    e ≠ δ ++ (w ++ B) := by
  induction h generalizing δ with
  | nil => simp [hne]
  | @literal r c w e h ih =>
    intro heq
    obtain ⟨d, δ', rfl⟩ := List.exists_cons_of_ne_nil hne
    simp only [List.mem_cons, not_or] at hδ
    obtain ⟨rfl, he⟩ := List.cons.inj heq
    exact ih (δ := δ' ++ [c]) (by simp) (by simp [hδ.1, hδ.2]) (by simpa using he)
  | @double r w e h ih =>
    intro heq
    obtain ⟨d, δ', rfl⟩ := List.exists_cons_of_ne_nil hne
    simp only [List.mem_cons, not_or] at hδ
    obtain ⟨-, he⟩ := List.cons.inj heq
    exact ih (δ := δ' ++ [0x24, 0x24]) (by simp) (by simp [hδ.2]) (by simpa using he)
  | @group r name w e hname h ih =>
    intro heq
    exact ih (δ := δ ++ 0x24 :: name) (by simp) (by simp [hδ, hname]) (by simpa using heq)
  | line h ih => exact hm.append_ne hkey hsign hδ

lemma Parts.no_prefix {w e : Text} (h : Parts m true w e) (B : Text) : e ≠ w ++ B := by
  generalize hr : true = r at h
  induction h with
  | nil => cases hr
  | literal h ih =>
    intro heq
    exact ih hr (List.cons.inj heq).2
  | double h ih =>
    intro heq
    exact h.no_echo hkey hsign hm (δ := [0x24]) (by simp) (by simp) B (List.cons.inj heq).2
  | @group r name w e hname h ih =>
    intro heq
    exact h.no_echo hkey hsign hm (δ := 0x24 :: name) (by simp) (by simp [hname]) B (by simpa using heq)
  | line h ih =>
    intro heq
    exact hm.append_ne hkey hsign (δ := []) (by simp) (by simpa using heq)

end Echo

/-! ### What is read of an expanded value -/

lemma takeWhile_lineEnd {x tail : Text} (htail : LineEnd tail) :
    (x ++ tail).takeWhile (fun c => !isNewline c) = x.takeWhile fun c => !isNewline c := by
  induction x with
  | nil =>
    cases tail with
    | nil => rfl
    | cons t ts =>
      have ht : isNewline t := htail t rfl
      simp [ht]
  | cons c cs ih => rw [List.cons_append, List.takeWhile_cons, List.takeWhile_cons, ih]

lemma dropWhile_append_of_visible {e : Text} (he : ¬∀ c ∈ e, isSpace c) (tail : Text) :
    (e ++ tail).dropWhile isSpace = e.dropWhile isSpace ++ tail := by
  have hne : e.dropWhile isSpace ≠ [] := mt List.dropWhile_eq_nil_iff.1 he
  rw [List.dropWhile_append, if_neg (by simpa using hne)]

lemma exists_append_unquote (y : Text) : ∃ q r, y = q ++ (unquote y ++ r) ∧ 0x3D ∉ q := by
  unfold unquote
  split
  · rename_i hquoted
    obtain ⟨hlength, hhead, -⟩ := hquoted
    cases y with
    | nil => simp at hlength
    | cons c cs =>
      have hcs : cs ≠ [] := by
        rintro rfl
        simp at hlength
      refine ⟨[c], [cs.getLast hcs], ?_, ?_⟩
      · rw [List.tail_cons, List.dropLast_append_getLast hcs]
        rfl
      · rcases hhead with hhead | hhead
        · simp [Option.some.inj hhead]
        · simp [Option.some.inj hhead]
  · exact ⟨[], [], by simp, by simp⟩

/-- What can be seen of an expanded value is never the value. -/
theorem unquote_valueOf_expand_ne (hname : SignFree nameLen) (hkey : PlainKey key) (hsign : 0x3D ∉ key)
    (hm : IsMatch key m) {v tail : Text} (hrefers : refers nameLen v = true)
    (hvisible : ¬∀ c ∈ expand nameLen m 0 v, isSpace c) (htail : LineEnd tail) :
    unquote (valueOf (expand nameLen m 0 v ++ tail)) ≠ v := by
  intro hread
  have hparts := parts_expand hname m v
  rw [hrefers] at hparts
  generalize expand nameLen m 0 v = e at hvisible hread hparts
  have hvalue : valueOf (e ++ tail) <+: e.dropWhile isSpace := by
    rw [valueOf, dropWhile_append_of_visible hvisible, takeWhile_lineEnd htail]
    exact (List.rdropWhile_prefix isSpace _).trans (List.takeWhile_prefix _)
  obtain ⟨r, hr⟩ := hvalue
  obtain ⟨q, r', hq, hfree⟩ := exists_append_unquote (valueOf (e ++ tail))
  rw [hread] at hq
  have he : e = (e.takeWhile isSpace ++ q) ++ (v ++ (r' ++ r)) := by
    conv_lhs => rw [← List.takeWhile_append_dropWhile (p := isSpace) (l := e), ← hr, hq]
    simp
  by_cases hnil : e.takeWhile isSpace ++ q = []
  · rw [hnil] at he
    exact hparts.no_prefix hkey hsign hm _ he
  · refine hparts.no_echo hkey hsign hm hnil ?_ _ he
    simp only [List.mem_append, hfree, or_false]
    intro hmem
    simpa [isSpace] using List.mem_takeWhile_imp hmem

lemma expand_of_vanishes {skip : Nat} {v : Text} (h : vanishes nameLen skip v = true) (m m' : Text) :
    expand nameLen m skip v = expand nameLen m' skip v ∧ ∀ c ∈ expand nameLen m skip v, isSpace c := by
  induction skip, v using vanishes.induct nameLen with
  | case1 skip => cases skip <;> simp [expand]
  | case2 skip c cs ih => exact ih h
  | case3 c cs hc ih =>
    rw [vanishes, if_pos hc, Bool.and_eq_true] at h
    obtain ⟨hsame, hblank⟩ := ih h.2
    simp only [expand, if_pos hc]
    exact ⟨congrArg (c :: ·) hsame, by simpa [h.1] using hblank⟩
  | case4 c cs hc hdouble =>
    rw [vanishes, if_neg hc, if_pos hdouble] at h
    cases h
  | case5 c cs hc hdouble hextract =>
    rw [vanishes, if_neg hc, if_neg hdouble, hextract] at h
    cases h
  | case6 c cs hc hdouble name n hextract ih =>
    rw [vanishes, if_neg hc, if_neg hdouble, hextract] at h
    simp only [Bool.and_eq_true, decide_eq_true_eq] at h
    obtain ⟨hsame, hblank⟩ := ih h.2
    simp only [expand, if_neg hc, if_neg hdouble, hextract, if_neg h.1, List.nil_append]
    exact ⟨hsame, hblank⟩

lemma vanishes_of_expand (hm : IsMatch key m) {skip : Nat} {v : Text}
    (h : ∀ c ∈ expand nameLen m skip v, isSpace c) : vanishes nameLen skip v = true := by
  have hdollar : ∀ e : Text, ¬∀ c ∈ 0x24 :: e, isSpace c := fun e he => by simpa [isSpace] using he 0x24 (by simp)
  induction skip, v using vanishes.induct nameLen with
  | case1 skip => simp [vanishes]
  | case2 skip c cs ih => exact ih h
  | case3 c cs hc ih =>
    rw [expand, if_pos hc] at h
    rw [vanishes, if_pos hc, Bool.and_eq_true]
    exact ⟨h c (by simp), ih fun d hd => h d (by simp [hd])⟩
  | case4 c cs hc hdouble =>
    rw [expand, if_neg hc, if_pos hdouble] at h
    exact absurd h (hdollar _)
  | case5 c cs hc hdouble hextract =>
    rw [expand, if_neg hc, if_neg hdouble, hextract] at h
    exact absurd h (hdollar _)
  | case6 c cs hc hdouble name n hextract ih =>
    rw [expand, if_neg hc, if_neg hdouble, hextract] at h
    rw [vanishes, if_neg hc, if_neg hdouble, hextract]
    simp only [Bool.and_eq_true, decide_eq_true_eq]
    by_cases hzero : name = [0x30]
    · -- the sign comes back with the line
      obtain ⟨a, d, line, -, -, rfl⟩ := hm
      have hsign := h 0x3D (by simp [hzero])
      simp [isSpace] at hsign
    · refine ⟨hzero, ih fun c hc => h c ?_⟩
      simp [hzero, hc]

end Acva.EnvFile
