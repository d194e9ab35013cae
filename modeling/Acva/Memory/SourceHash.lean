import Acva.Memory.Summaries

/-!
# The source hash of a summary

`compute_source_hash` writes each turn of a range as `id|text` and a newline and hashes the bytes. A text is
written as it is, so bytes that look like the beginning of another turn are read as one: `pieces` says how a turn is
read, and two lists have the same bytes exactly when they have the same pieces.
-/

namespace Acva

/-- What the hash reads of a turn. -/
structure SourceTurn where
  id : Int
  text : Option Text
  deriving DecidableEq, Repr

/-- The buffer that `compute_source_hash` fills. -/
def sourceBytes (turns : List SourceTurn) : Text :=
  turns.flatMap fun t => ascii (toString t.id) ++ ascii "|" ++ t.text.getD [] ++ ascii "\n"

lemma sourceText_eq (turns : List StoredTurn) (rangeStart rangeEnd : Nat) :
    sourceText turns rangeStart rangeEnd =
      sourceBytes ((turns.filter fun t =>
        rangeStart ≤ t.id ∧ t.id ≤ rangeEnd).map fun t => ⟨t.id, some t.row.text⟩) := by
  rw [sourceText, sourceBytes, List.flatMap_map]
  rfl

lemma hex16_ne_nil (h : UInt64) : hex16 h ≠ [] := by simp [hex16]

namespace SourceHash

/-- Decimal digits, possibly after a minus sign, if they are written as the stream writes the number. -/
def number? (s : Text) : Option Int :=
  let digits (ds : Text) : Int := Nat.ofDigitChars 10 (ds.map fun b => Char.ofNat b.toNat) 0
  let n := match s with
    | 45 :: ds => - digits ds
    | ds => digits ds
  if ascii (toString n) = s then some n else none

/-- An id and a bar at the beginning, and what follows. -/
def head? (s : Text) : Option (Int × Text) :=
  match number? (s.takeWhile (· ≠ 124)), s.dropWhile (· ≠ 124) with
  | some n, 124 :: text => some (n, text)
  | _, _ => none

/-- Reads backwards: the text up to the first newline that a head follows, and the turns from there on. -/
def readByte (b : UInt8) : Text × List (Int × Text) → Text × List (Int × Text)
  | (first, rest) =>
    match if b = 10 then head? first else none with
    | some turn => ([], turn :: rest)
    | none => (b :: first, rest)

def readText (s : Text) (rest : List (Int × Text)) : Text × List (Int × Text) := s.foldr readByte ([], rest)

/-- The turns that the bytes of one turn are read as. A missing text is read as an empty one. -/
def pieces (t : SourceTurn) : List (Int × Text) :=
  let (first, rest) := readText (t.text.getD []) []
  (t.id, first) :: rest

lemma ascii_append (s t : String) : ascii (s ++ t) = ascii s ++ ascii t := by simp [ascii]

lemma toNat_of_isDigit {c : Char} (hc : c.isDigit = true) : 48 ≤ c.toNat ∧ c.toNat ≤ 57 := by
  simp only [Char.isDigit, Bool.and_eq_true, decide_eq_true_eq] at hc
  exact ⟨UInt32.le_iff_toNat_le.mp hc.1, UInt32.le_iff_toNat_le.mp hc.2⟩

lemma mem_ascii_nat {n : Nat} {b : UInt8} (hb : b ∈ ascii (toString n)) : 48 ≤ b ∧ b ≤ 57 := by
  obtain ⟨c, hc, rfl⟩ := List.mem_map.mp hb
  rw [Nat.toString_eq_repr, Nat.toList_repr] at hc
  obtain ⟨hlo, hhi⟩ := toNat_of_isDigit (Nat.isDigit_of_mem_toDigits (by omega) (by omega) hc)
  rw [UInt8.le_iff_toNat_le, UInt8.le_iff_toNat_le]
  simpa [Nat.mod_eq_of_lt (show c.toNat < 256 by omega)] using And.intro hlo hhi

lemma ascii_toString_nonneg {n : Int} (hn : 0 ≤ n) : ascii (toString n) = ascii (toString n.toNat) := by
  rw [Int.toString_eq_repr, Int.repr_eq_if, if_pos hn, Nat.toString_eq_repr]

lemma ascii_toString_neg {n : Int} (hn : ¬ 0 ≤ n) : ascii (toString n) = 45 :: ascii (toString (-n).toNat) := by
  rw [Int.toString_eq_repr, Int.repr_eq_if, if_neg hn, ascii_append, Nat.toString_eq_repr]
  rfl

lemma mem_ascii_int {n : Int} {b : UInt8} (hb : b ∈ ascii (toString n)) : b = 45 ∨ 48 ≤ b ∧ b ≤ 57 := by
  by_cases hn : 0 ≤ n
  · rw [ascii_toString_nonneg hn] at hb
    exact .inr (mem_ascii_nat hb)
  · rw [ascii_toString_neg hn] at hb
    exact (List.mem_cons.mp hb).imp_right mem_ascii_nat

lemma ofDigitChars_ascii (n : Nat) :
    Nat.ofDigitChars 10 ((ascii (toString n)).map fun b => Char.ofNat b.toNat) 0 = n := by
  have hdigits : (ascii (toString n)).map (fun b => Char.ofNat b.toNat) = Nat.toDigits 10 n := by
    rw [ascii, Nat.toString_eq_repr, Nat.toList_repr, List.map_map]
    conv_rhs => rw [← List.map_id (Nat.toDigits 10 n)]
    refine List.map_congr_left fun c hc => ?_
    have hc := toNat_of_isDigit (Nat.isDigit_of_mem_toDigits (by omega) (by omega) hc)
    simp [Nat.mod_eq_of_lt (show c.toNat < 256 by omega)]
  rw [hdigits, Nat.ofDigitChars_ten_toDigits]

lemma number?_ascii (n : Int) : number? (ascii (toString n)) = some n := by
  by_cases hn : 0 ≤ n
  · rw [ascii_toString_nonneg hn]
    have hhead : ∀ ds, ascii (toString n.toNat) ≠ 45 :: ds := fun ds hds =>
      absurd (mem_ascii_nat (hds ▸ List.mem_cons_self)).1 (by decide)
    unfold number?
    split
    · rename_i ds hds
      exact absurd hds (hhead ds)
    · simp only [ofDigitChars_ascii, Int.toNat_of_nonneg hn, ascii_toString_nonneg hn, if_true]
  · rw [ascii_toString_neg hn]
    have hvalue : -((-n).toNat : Int) = n := by omega
    simp only [number?, ofDigitChars_ascii, hvalue, ascii_toString_neg hn, if_true]

lemma eq_of_number? {s : Text} {n : Int} (h : number? s = some n) : s = ascii (toString n) := by
  simp only [number?] at h
  split at h
  all_goals
    split at h
    · rename_i hs
      injection h with h
      exact h ▸ hs.symm
    · simp at h

lemma head?_eq_some_iff {s text : Text} {n : Int} :
    head? s = some (n, text) ↔ s = ascii (toString n) ++ 124 :: text := by
  have hdigits : ∀ b ∈ ascii (toString n), decide (b ≠ 124) = true := fun b hb => by
    rcases mem_ascii_int hb with rfl | ⟨_, hle⟩
    · decide
    · exact decide_eq_true fun h => absurd (h ▸ hle) (by decide)
  constructor
  · intro h
    unfold head? at h
    split at h
    · rename_i m rest hnum hdrop
      injection h with h
      obtain ⟨rfl, rfl⟩ := Prod.mk.inj h
      rw [← eq_of_number? hnum, ← hdrop, List.takeWhile_append_dropWhile]
    · simp at h
  · rintro rfl
    simp only [head?, List.takeWhile_append_of_pos hdigits, List.dropWhile_append_of_pos hdigits]
    simp only [List.takeWhile_cons, List.dropWhile_cons, ne_eq, not_true_eq_false, decide_false, Bool.false_eq_true,
      if_false, List.append_nil, number?_ascii]

variable {s : Text} {rest : List (Int × Text)}

lemma readText_append_rest (s : Text) (rest more : List (Int × Text)) :
    readText s (rest ++ more) = ((readText s rest).1, (readText s rest).2 ++ more) := by
  induction s with
  | nil => rfl
  | cons b s ih =>
    have ih : s.foldr readByte ([], rest ++ more) = _ := ih
    simp only [readText, List.foldr_cons, ih, readByte]
    split <;> rfl

lemma foldr_readByte_plain (hs : ∀ b ∈ s, b ≠ 10) (r : Text × List (Int × Text)) :
    s.foldr readByte r = (s ++ r.1, r.2) := by
  induction s with
  | nil => rfl
  | cons b s ih =>
    rw [List.foldr_cons, ih fun c hc => hs c (List.mem_cons_of_mem _ hc), readByte,
      if_neg (hs b List.mem_cons_self)]
    rfl

/-- The bytes that a list of turns is read from, each turn after a newline. -/
def written (turns : List (Int × Text)) : Text :=
  turns.flatMap fun t => 10 :: ascii (toString t.1) ++ 124 :: t.2

lemma readText_written (s : Text) (rest : List (Int × Text)) :
    (readText s rest).1 ++ written (readText s rest).2 = s ++ written rest := by
  induction s with
  | nil => rfl
  | cons b s ih =>
    rw [readText, List.foldr_cons, ← readText, readByte]
    split
    · rename_i turn hturn
      obtain ⟨rfl, hhead⟩ : b = 10 ∧ head? (readText s rest).1 = some turn := by
        split at hturn
        · exact ⟨‹_›, hturn⟩
        · simp at hturn
      have hfirst := head?_eq_some_iff.mp hhead
      rw [List.cons_append, ← ih, hfirst]
      simp [written]
    · rw [List.cons_append, ih, List.cons_append]

lemma pieces_eq (t : SourceTurn) :
    pieces t = (t.id, (readText (t.text.getD []) []).1) :: (readText (t.text.getD []) []).2 := rfl

lemma written_pieces (t : SourceTurn) :
    written (pieces t) = 10 :: ascii (toString t.id) ++ 124 :: t.text.getD [] := by
  have hread := readText_written (t.text.getD []) []
  rw [pieces_eq, written, List.flatMap_cons, ← written]
  simp only [List.cons_append, List.append_assoc, hread]
  simp [written]

lemma readText_turn (t : SourceTurn) :
    readText (10 :: ascii (toString t.id) ++ 124 :: t.text.getD []) rest = ([], pieces t ++ rest) := by
  have hplain : ∀ b ∈ ascii (toString t.id) ++ [124], b ≠ 10 := fun b hb => by
    rcases List.mem_append.mp hb with hb | hb
    · rcases mem_ascii_int hb with rfl | ⟨hle, _⟩
      · decide
      · exact fun h => absurd (h ▸ hle) (by decide)
    · exact List.mem_singleton.mp hb ▸ by decide
  have htext : readText (t.text.getD []) rest = _ := readText_append_rest _ [] rest
  rw [readText, List.cons_append, List.foldr_cons, List.append_cons, List.foldr_append, ← readText, htext,
    foldr_readByte_plain hplain, readByte, if_pos rfl]
  rw [List.append_assoc, List.singleton_append, head?_eq_some_iff.mpr rfl]
  rfl

lemma readText_turns (turns : List SourceTurn) :
    readText (turns.flatMap fun t => written (pieces t)) [] = ([], turns.flatMap pieces) := by
  induction turns with
  | nil => rfl
  | cons t turns ih =>
    rw [List.flatMap_cons, readText, List.foldr_append, ← readText, ih, List.flatMap_cons, written_pieces]
    exact readText_turn t

lemma cons_sourceBytes (turns : List SourceTurn) :
    10 :: sourceBytes turns = (turns.flatMap fun t => written (pieces t)) ++ [10] := by
  induction turns with
  | nil => rfl
  | cons t turns ih =>
    rw [List.flatMap_cons, List.append_assoc, ← ih, written_pieces, sourceBytes, List.flatMap_cons, ← sourceBytes]
    simp [ascii]

/-- Two lists have the same bytes exactly when they are read as the same turns. -/
lemma sourceBytes_eq_iff {turns others : List SourceTurn} :
    sourceBytes turns = sourceBytes others ↔ turns.flatMap pieces = others.flatMap pieces := by
  constructor
  · intro h
    have hread := readText_turns turns
    rw [List.append_cancel_right (((cons_sourceBytes turns).symm.trans (congrArg _ h)).trans (cons_sourceBytes others)),
      readText_turns] at hread
    exact (Prod.mk.inj hread).2.symm
  · intro h
    have hwritten : ∀ ts : List SourceTurn, (ts.flatMap fun t => written (pieces t)) = written (ts.flatMap pieces) :=
      fun ts => List.flatMap_assoc.symm
    have hcons := cons_sourceBytes turns
    rw [hwritten, h, ← hwritten, ← cons_sourceBytes] at hcons
    exact (List.cons.inj hcons).2

/-- Different lists give different bytes exactly when they are still different after each text is taken apart where
another turn seems to begin and a missing text is taken for an empty one. -/
theorem source_bytes_injective_iff (turns others : List SourceTurn) :
    (turns ≠ others → sourceBytes turns ≠ sourceBytes others) ↔
      (turns ≠ others → turns.flatMap pieces ≠ others.flatMap pieces) := by
  rw [Ne, Ne, Ne, sourceBytes_eq_iff]

/-- A text in which no other turn seems to begin. -/
def Plain (t : SourceTurn) : Prop := t.text ≠ none ∧ (readText (t.text.getD []) []).2 = []

lemma Plain.pieces_eq {t : SourceTurn} (ht : Plain t) : pieces t = [(t.id, t.text.getD [])] := by
  have hread := readText_written (t.text.getD []) []
  simp only [ht.2, written, List.flatMap_nil, List.append_nil] at hread
  rw [SourceHash.pieces_eq, ht.2, hread]

/-- Among turns with such texts the bytes tell the lists apart. -/
theorem sourceBytes_injOn_plain {turns others : List SourceTurn} (hturns : ∀ t ∈ turns, Plain t)
    (hothers : ∀ t ∈ others, Plain t) (h : sourceBytes turns = sourceBytes others) : turns = others := by
  have hpieces : ∀ ts : List SourceTurn, (∀ t ∈ ts, Plain t) →
      ts.flatMap pieces = ts.map fun t => (t.id, t.text.getD []) := fun ts hts => by
    rw [List.map_eq_flatMap]
    exact List.flatMap_congr fun t ht => (hts t ht).pieces_eq
  have hback : ∀ ts : List SourceTurn, (∀ t ∈ ts, Plain t) →
      (ts.map fun t => (t.id, t.text.getD [])).map (fun p => SourceTurn.mk p.1 (some p.2)) = ts := fun ts hts => by
    rw [List.map_map]
    conv_rhs => rw [← List.map_id ts]
    refine List.map_congr_left fun t ht => ?_
    obtain ⟨id, text⟩ := t
    cases text with
    | none => exact absurd rfl (hts _ ht).1
    | some text => rfl
  rw [sourceBytes_eq_iff, hpieces turns hturns, hpieces others hothers] at h
  rw [← hback turns hturns, h, hback others hothers]

/-- One turn against two: the second is in the text of the first. -/
theorem two_turns_in_one :
    ¬ ∀ turns others : List SourceTurn, turns ≠ others → sourceBytes turns ≠ sourceBytes others := by
  intro hall
  exact hall [⟨1, some (ascii "hello")⟩, ⟨2, some (ascii "bye")⟩] [⟨1, some (ascii "hello\n2|bye")⟩] (by decide)
    (by decide +kernel)

end SourceHash

end Acva
