import Acva.Dialogue.SentenceEnds
import Mathlib.Algebra.Group.Nat.Even
import Mathlib.Data.List.Infix

/-!
# Code fences

The splitter changes its mode at every byte that completes three backticks, so a longer run changes it
several times. The mode is the parity of a count over the text; a fenced block stays whole where that count
is odd, and wherever else nothing in it ends a sentence.
-/

namespace Acva

namespace SentenceSplitter

/-- How often three backticks have been completed in `s`. -/
def fencesRead (s : Text) : Nat := s.inits.countP fun p => kFenceOpen.isSuffixOf p

lemma fencesRead_concat (s : Text) (c : UInt8) :
    fencesRead (s ++ [c]) = fencesRead s + if kFenceOpen.isSuffixOf (s ++ [c]) then 1 else 0 := by
  simp [fencesRead, List.inits_append, List.countP_append, List.countP_cons]

lemma getLast?_pieces {cuts : List Cut} (hends : ∀ k ∈ cuts, k.piece.getLast?.any endsPiece)
    (hne : pieces cuts ≠ []) : (pieces cuts).getLast?.any endsPiece := by
  rcases List.eq_nil_or_concat cuts with rfl | ⟨init, k, rfl⟩
  · exact absurd rfl hne
  · have hk := hends k (by simp)
    obtain ⟨x, hx, _⟩ := (Option.any_eq_true _ _).1 hk
    rw [List.concat_eq_append, pieces_append, pieces_cons, pieces_nil, List.append_nil, List.getLast?_append, hx]
    rw [hx] at hk
    exact hk

/-- Three backticks are never cut apart, so the buffer shows whether they end the text. -/
lemma fence_buf_iff (cfg : SentenceSplitterConfig) (s : Text) (c : UInt8) :
    kFenceOpen.isSuffixOf ((after { cfg := cfg } s).buf ++ [c]) = kFenceOpen.isSuffixOf (s ++ [c]) := by
  have hnew := Settled.new cfg
  have hcover : pieces (cutsOf { cfg := cfg } s) ++ (after { cfg := cfg } s).buf = s := hnew.pieces_cutsOf s
  rw [Bool.eq_iff_iff, List.isSuffixOf_iff_suffix, List.isSuffixOf_iff_suffix]
  constructor
  · rintro ⟨t, ht⟩
    refine ⟨pieces (cutsOf { cfg := cfg } s) ++ t, ?_⟩
    rw [List.append_assoc, ht, ← List.append_assoc, hcover]
  · intro hs
    obtain ⟨rfl, t, rfl⟩ := of_fence (List.isSuffixOf_iff_suffix.2 hs)
    rcases List.append_eq_append_iff.1 hcover with ⟨m, _, hm⟩ | ⟨m, hp, hm⟩
    · exact ⟨m, by rw [hm, List.append_assoc]; rfl⟩
    · rcases List.eq_nil_or_concat m with rfl | ⟨init, x, rfl⟩
      · rw [List.nil_append] at hm
        exact ⟨[], by rw [← hm]; rfl⟩
      · -- the pieces would end with a backtick
        have hx : x = 0x60 := by
          have hmem : x ∈ ([0x60, 0x60] : Text) := by
            rw [hm]
            simp
          simpa using hmem
        rw [List.concat_eq_append, ← List.append_assoc] at hp
        have hne : pieces (cutsOf { cfg := cfg } (t ++ [0x60, 0x60])) ≠ [] := by simp [hp]
        have hlast := getLast?_pieces (fun k hk => hnew.getLast?_of_mem_cutsOf hk) hne
        simp [hp, hx, endsPiece, isTerminator, isDot, isWhitespace] at hlast

lemma pushSettled_keeps (sp : SentenceSplitter) (c : UInt8) :
    (sp.pushSettled c).1.cfg = sp.cfg ∧ (sp.pushSettled c).1.mode = sp.mode := by
  unfold pushSettled
  split
  · split
    · exact ⟨rfl, rfl⟩
    · split
      · exact ⟨rfl, rfl⟩
      · split <;> exact ⟨rfl, rfl⟩
  · dsimp only
    split <;> exact ⟨rfl, rfl⟩

lemma pushChar_keeps (sp : SentenceSplitter) (c : UInt8) :
    (sp.pushChar c).1.cfg = sp.cfg ∧ (sp.pushChar c).1.mode = (sp.appendByte c).mode := by
  simp only [pushChar, pushAppended]
  split
  · exact ⟨rfl, rfl⟩
  · split
    · exact pushSettled_keeps _ c
    · simp only [pushPending]
      split
      · exact ⟨rfl, rfl⟩
      · split
        · exact ⟨rfl, rfl⟩
        · split
          · exact ⟨rfl, rfl⟩
          · exact pushSettled_keeps _ c

lemma after_concat (sp : SentenceSplitter) (s : Text) (c : UInt8) :
    sp.after (s ++ [c]) = ((sp.after s).pushChar c).1 := by
  rw [after_append]
  rfl

lemma after_cfg (cfg : SentenceSplitterConfig) (s : Text) : (after { cfg := cfg } s).cfg = cfg := by
  induction s using List.reverseRecOn with
  | nil => rfl
  | append_singleton s c ih => rw [after_concat, (pushChar_keeps _ c).1, ih]

lemma mode_iff {cfg : SentenceSplitterConfig} (hdetect : cfg.detectCodeFences) (s : Text) :
    (after { cfg := cfg } s).mode = .normal ↔ Even (fencesRead s) := by
  induction s using List.reverseRecOn with
  | nil => simp [after, push, fencesRead, kFenceOpen, ascii]
  | append_singleton s c ih =>
    rw [after_concat, (pushChar_keeps _ c).2, fencesRead_concat]
    simp only [appendByte, after_cfg, hdetect, Bool.true_and, fence_buf_iff]
    by_cases hfence : kFenceOpen.isSuffixOf (s ++ [c])
    · simp only [hfence, if_true, Nat.even_add_one, ← ih]
      by_cases hm : (after { cfg := cfg } s).mode = .normal <;> simp [hm]
    · simpa [hfence] using ih

/-! ### A block in one piece -/

/-- Three or more backticks, a body and as many backticks again. -/
def fencedBlock (k : Nat) (body : Text) : Text := List.replicate k 0x60 ++ body ++ List.replicate k 0x60

/-- One sentence has the whole of `block`, which follows `pre` in the text. -/
def InOneSentence (cuts : List Cut) (pre block : Text) : Prop :=
  ∃ before k rest a b, cuts = before ++ k :: rest ∧ k.piece = a ++ block ++ b ∧ pieces before ++ a = pre ∧
    ∃ s ∈ sentenceOf k.piece, block <:+: s

/-- Outside code the byte ends a sentence: the one before it at a terminator, or a tail that is too long. -/
def endsProse (sp : SentenceSplitter) (c : UInt8) : Bool :=
  sp.splitsBefore c || (sp.pendingTermPos.isNone && sp.overlong c)

lemma Settled.cuts_iff {sp : SentenceSplitter} (h : sp.Settled) (c : UInt8) :
    (sp.splitsBefore c ∨ sp.flushesAfter c) ↔ (sp.appendByte c).mode = .normal ∧ sp.endsProse c := by
  by_cases hsplit : sp.splitsBefore c
  · have hp : sp.pendingTermPos.isSome := by
      simp only [splitsBefore, Bool.and_eq_true] at hsplit
      exact hsplit.1.1.1
    simp [hsplit, endsProse, h.mode_append hp c]
  · simp [hsplit, endsProse, flushesAfter, settling, overlong, appendByte, and_assoc]

/-- The place of a cut in the text is inside the block that follows `pre`. -/
def Inside (pre block place : Text) : Prop := pre.length < place.length ∧ place.length < (pre ++ block).length

lemma exists_piece {cuts : List Cut} {pre block post : Text} (hpieces : pieces cuts = pre ++ block ++ post)
    (hne : block ≠ [])
    (hout : ∀ before k rest, cuts = before ++ k :: rest → ¬Inside pre block (pieces before ++ k.piece)) :
    ∃ before k rest a b, cuts = before ++ k :: rest ∧ k.piece = a ++ block ++ b ∧ pieces before ++ a = pre := by
  induction cuts generalizing pre with
  | nil => simp [hne] at hpieces
  | cons j cs ih =>
    have hj : j.piece <+: pre ++ block ++ post := ⟨pieces cs, hpieces⟩
    by_cases hle : j.piece.length ≤ pre.length
    · have hpre : j.piece <+: pre :=
        List.prefix_of_prefix_length_le hj (by rw [List.append_assoc]; exact List.prefix_append _ _) hle
      obtain ⟨pre', rfl⟩ := hpre
      have hrest : pieces cs = pre' ++ block ++ post := by
        rw [pieces_cons, List.append_assoc, List.append_assoc] at hpieces
        rw [List.append_cancel_left hpieces, List.append_assoc]
      obtain ⟨before, k, rest, a, b, rfl, hk, ha⟩ := ih hrest fun before k rest hcs hin =>
        hout (j :: before) k rest (by rw [hcs]; rfl) (by simpa [Inside, Nat.add_assoc] using hin)
      exact ⟨j :: before, k, rest, a, b, rfl, hk, by rw [pieces_cons, List.append_assoc, ha]⟩
    · have hlong : (pre ++ block).length ≤ j.piece.length := by
        by_contra hshort
        exact hout [] j cs rfl ⟨by simpa using Nat.not_le.1 hle, by simpa using Nat.not_le.1 hshort⟩
      obtain ⟨b, hb⟩ := List.prefix_of_prefix_length_le (List.prefix_append _ post) hj hlong
      exact ⟨[], j, cs, pre, b, rfl, hb.symm, rfl⟩

lemma not_inside {cuts before rest before' rest' : List Cut} {k k' : Cut} {pre block a b : Text}
    (hcuts : cuts = before ++ k :: rest) (hk : k.piece = a ++ block ++ b) (ha : pieces before ++ a = pre)
    (hcuts' : cuts = before' ++ k' :: rest') : ¬Inside pre block (pieces before' ++ k'.piece) := by
  have hplace : (pieces before ++ k.piece).length = (pre ++ block).length + b.length := by
    rw [hk, ← ha]
    simp only [List.length_append]
    omega
  have hpre : (pieces before).length ≤ pre.length := by
    rw [← ha, List.length_append]
    omega
  rintro ⟨hlow, hhigh⟩
  rw [hcuts] at hcuts'
  rcases List.append_eq_append_iff.1 hcuts' with ⟨m, rfl, hm⟩ | ⟨m, rfl, hm⟩
  · cases m with
    | nil =>
      obtain ⟨rfl, _⟩ := List.cons.inj hm
      rw [List.append_nil] at hhigh
      omega
    | cons j m =>
      obtain ⟨rfl, _⟩ := List.cons.inj hm
      simp only [pieces_append, pieces_cons, List.length_append] at hplace hhigh
      omega
  · cases m with
    | nil =>
      obtain ⟨rfl, _⟩ := List.cons.inj hm
      rw [List.append_nil] at hplace
      omega
    | cons j m =>
      obtain ⟨rfl, _⟩ := List.cons.inj hm
      simp only [pieces_append, pieces_cons, List.length_append] at hpre hlow
      omega

lemma split_block {pre block post a b : Text} {c : UInt8} (htext : pre ++ block ++ post = a ++ c :: b)
    (hlow : pre.length ≤ a.length) (hhigh : a.length < (pre ++ block).length) :
    ∃ x y, a = pre ++ x ∧ block = x ++ c :: y := by
  have hpre : pre <+: a ++ c :: b := ⟨block ++ post, by rw [← htext, List.append_assoc]⟩
  obtain ⟨x, rfl⟩ := List.prefix_of_prefix_length_le hpre (List.prefix_append a _) hlow
  rw [List.append_assoc, List.append_assoc] at htext
  have hrest : block ++ post = (x ++ [c]) ++ b := by
    rw [List.append_cancel_left htext, List.append_assoc]
    rfl
  have hx : x ++ [c] <+: block ++ post := ⟨b, hrest.symm⟩
  have hlen : (x ++ [c]).length ≤ block.length := by
    simp only [List.length_append, List.length_singleton] at hhigh ⊢
    omega
  obtain ⟨y, hy⟩ := List.prefix_of_prefix_length_le hx (List.prefix_append block _) hlen
  exact ⟨x, y, rfl, by rw [← hy, List.append_assoc]; rfl⟩

lemma head_fencedBlock {k : Nat} (hk : 3 ≤ k) (body : Text) :
    ∃ t, fencedBlock k body = 0x60 :: t := by
  obtain ⟨j, rfl⟩ : ∃ j, k = j + 1 := ⟨k - 1, by omega⟩
  exact ⟨_, by rw [fencedBlock, List.replicate_succ, List.append_assoc, List.cons_append]⟩

lemma getLast?_fencedBlock {k : Nat} (hk : 3 ≤ k) (body : Text) : (fencedBlock k body).getLast? = some 0x60 := by
  have hpos : k ≠ 0 := by omega
  simp [fencedBlock, List.getLast?_append, List.getLast?_replicate, hpos]

lemma mem_sentenceOf_block {a t b : Text} : ∃ s ∈ sentenceOf (a ++ 0x60 :: t ++ b), 0x60 :: t <:+: s := by
  have htrim : ∃ a', trimLeading (a ++ 0x60 :: t ++ b) = a' ++ 0x60 :: t ++ b := by
    induction a with
    | nil => exact ⟨[], by simp [trimLeading, isWhitespace]⟩
    | cons x a ih =>
      by_cases hx : isWhitespace x
      · simpa [trimLeading, hx] using ih
      · exact ⟨x :: a, by simp [trimLeading, hx]⟩
  obtain ⟨a', ha'⟩ := htrim
  refine ⟨trimLeading (a ++ 0x60 :: t ++ b), ?_, a', b, ha'.symm⟩
  have hne : trimLeading (a ++ 0x60 :: t ++ b) ≠ [] := by simp only [ha', ne_eq, List.append_eq_nil_iff]; simp
  rw [sentenceOf, if_neg hne]
  exact List.mem_singleton_self _

/-- The byte `c` is read outside code exactly if it leaves the count of fences even. -/
lemma mode_append_iff {cfg : SentenceSplitterConfig} (hdetect : cfg.detectCodeFences) (s : Text) (c : UInt8) :
    ((after { cfg := cfg } s).appendByte c).mode = .normal ↔ Even (fencesRead (s ++ [c])) := by
  rw [← mode_iff hdetect, after_concat, (pushChar_keeps _ c).2]

lemma not_fence_of_flushesAfter {sp : SentenceSplitter} {c : UInt8} (h : sp.flushesAfter c) : c ≠ 0x60 := by
  rintro rfl
  simp [flushesAfter, overlong, isWhitespace] at h

/-! ### Runs of backticks -/

lemma fencesRead_of_ne {s : Text} {c : UInt8} (hc : c ≠ 0x60) : fencesRead (s ++ [c]) = fencesRead s := by
  have hfence : ¬kFenceOpen.isSuffixOf (s ++ [c]) := fun hf => hc (of_fence hf).1
  simp [fencesRead_concat, hfence]

/-- A run of `k` backticks changes the mode `k - 2` times. -/
lemma fencesRead_run {s : Text} (hs : s.getLast? ≠ some 0x60) (k : Nat) :
    fencesRead (s ++ List.replicate k 0x60) = fencesRead s + (k - 2) := by
  induction k with
  | zero => simp
  | succ k ih =>
    rw [List.replicate_succ', ← List.append_assoc, fencesRead_concat, ih]
    have hiff : kFenceOpen.isSuffixOf (s ++ List.replicate k 0x60 ++ [0x60]) ↔ 2 ≤ k := by
      constructor
      · intro hf
        obtain ⟨_, t, ht⟩ := of_fence hf
        rcases k with _ | _ | k
        · rw [List.replicate_zero, List.append_nil] at ht
          simp [ht] at hs
        · have ht' : s ++ [0x60] = (t ++ [0x60]) ++ [0x60] := by simpa using ht
          simp [(List.append_inj' ht' rfl).1] at hs
        · omega
      · intro h2
        obtain ⟨j, rfl⟩ : ∃ j, k = j + 2 := ⟨k - 2, by omega⟩
        refine List.isSuffixOf_iff_suffix.2 ⟨s ++ List.replicate j 0x60, ?_⟩
        rw [← List.replicate_append_replicate (n := j) (m := 2)]
        simp [kFenceOpen, ascii]
    by_cases h2 : 2 ≤ k
    · rw [if_pos (hiff.2 h2)]
      omega
    · rw [if_neg (fun hf => h2 (hiff.1 hf))]
      omega

/-- A text without three backticks in a row, and not starting with one, changes nothing. -/
lemma fencesRead_body {s body : Text} (hhead : body.head? ≠ some 0x60) (hbody : ¬kFenceOpen <:+: body) :
    fencesRead (s ++ body) = fencesRead s := by
  induction body using List.reverseRecOn with
  | nil => simp
  | append_singleton b c ih =>
    rw [← List.append_assoc]
    by_cases hb : b = []
    · subst hb
      rw [List.append_nil]
      exact fencesRead_of_ne (by simpa using hhead)
    · have hhead' : b.head? ≠ some 0x60 := by
        rwa [List.head?_append_of_ne_nil _ hb] at hhead
      have hin : ¬kFenceOpen <:+: b := fun hf => hbody (hf.trans (List.prefix_append b [c]).isInfix)
      have hfence : ¬kFenceOpen.isSuffixOf (s ++ b ++ [c]) := by
        intro hf
        obtain ⟨rfl, t, ht⟩ := of_fence hf
        rcases List.append_eq_append_iff.1 ht with ⟨m, _, hm⟩ | ⟨m, _, hm⟩
        · refine hbody ⟨m, [], ?_⟩
          rw [hm, List.append_nil, List.append_assoc]
          rfl
        · -- `b` would be one or two backticks
          cases b with
          | nil => exact hb rfl
          | cons z b =>
            have hz : z ∈ ([0x60, 0x60] : Text) := by
              rw [hm]
              simp
            exact hhead' (by simpa using hz)
      rw [fencesRead_concat, if_neg hfence, ih hhead' hin]
      rfl

lemma not_endsProse_of_tick {cfg : SentenceSplitterConfig} {s : Text} (hlast : s.getLast? = some 0x60) :
    ¬(after { cfg := cfg } s).endsProse 0x60 := by
  have hnone : (after { cfg := cfg } s).pendingTermPos = none := by
    by_contra hp
    have hterm := getLast?_of_pending (Option.isSome_iff_ne_none.2 hp)
    rw [hlast] at hterm
    simp [isTerminator, isDot] at hterm
  simp [endsProse, splitsBefore, hnone, overlong, isWhitespace]

/-- After an opening run of an odd number of backticks the count of fences is odd, and a body leaves it so. -/
lemma not_even_after_run {k : Nat} (hk : 3 ≤ k) (hodd : ¬Even k) {pre body : Text}
    (hpre : pre.getLast? ≠ some 0x60) (heven : Even (fencesRead pre)) (hhead : body.head? ≠ some 0x60)
    (hbody : ¬kFenceOpen <:+: body) : ¬Even (fencesRead (pre ++ List.replicate k 0x60 ++ body)) := by
  rw [fencesRead_body hhead hbody, fencesRead_run hpre k, Nat.even_add, Nat.even_sub (by omega)]
  simp [heven, hodd, show Even 2 from ⟨1, rfl⟩]

/-- The first backtick after a body that does not end in one completes no fence. -/
lemma fencesRead_close {s body : Text} (hne : body ≠ []) (hlast : body.getLast? ≠ some 0x60) :
    fencesRead (s ++ body ++ [0x60]) = fencesRead (s ++ body) := by
  have hfence : ¬kFenceOpen.isSuffixOf (s ++ body ++ [0x60]) := by
    intro hf
    obtain ⟨_, t, ht⟩ := of_fence hf
    have hl : (s ++ body).getLast? = some 0x60 := by simp [ht]
    rw [List.getLast?_append_of_ne_nil _ hne] at hl
    exact hlast hl
  rw [fencesRead_concat, if_neg hfence]
  rfl

lemma getLast?_of_run {k : Nat} {m n : Text} (hmn : List.replicate k 0x60 = m ++ n) (hm : m ≠ []) :
    m.getLast? = some 0x60 := by
  cases hl : m.getLast? with
  | none => exact absurd (List.getLast?_eq_none_iff.1 hl) hm
  | some z =>
    have hz : z ∈ List.replicate k 0x60 := by
      rw [hmn]
      exact List.mem_append_left _ (List.mem_of_getLast? hl)
    rw [List.eq_of_mem_replicate hz]

lemma eq_of_run {k : Nat} {m n : Text} {c : UInt8} (hmn : List.replicate k 0x60 = m ++ c :: n) : c = 0x60 := by
  have hc : c ∈ List.replicate k 0x60 := by rw [hmn]; simp
  exact List.eq_of_mem_replicate hc

/-- Where a byte after the first one of a fenced block lies: it follows a backtick of one of the two runs, it is the
first backtick after the body, or it belongs to the body. -/
lemma fencedBlock_byte {k : Nat} {body x y : Text} {c : UInt8} (hblock : fencedBlock k body = x ++ c :: y)
    (hx : x ≠ []) :
    c = 0x60 ∧ x.getLast? = some 0x60 ∨
      c = 0x60 ∧ body ≠ [] ∧ x = List.replicate k 0x60 ++ body ∨
      ∃ b z, x = List.replicate k 0x60 ++ b ∧ body = b ++ c :: z := by
  have hclose : c = 0x60 → x = List.replicate k 0x60 ++ body →
      c = 0x60 ∧ x.getLast? = some 0x60 ∨ c = 0x60 ∧ body ≠ [] ∧ x = List.replicate k 0x60 ++ body := by
    intro hc hxb
    by_cases hnil : body = []
    · rw [hnil, List.append_nil] at hxb
      exact .inl ⟨hc, getLast?_of_run (n := []) (by rw [List.append_nil, hxb]) hx⟩
    · exact .inr ⟨hc, hnil, hxb⟩
  have hinner : ∀ b, x = List.replicate k 0x60 ++ b → body ++ List.replicate k 0x60 = b ++ c :: y →
      c = 0x60 ∧ x.getLast? = some 0x60 ∨ c = 0x60 ∧ body ≠ [] ∧ x = List.replicate k 0x60 ++ body ∨
        ∃ b z, x = List.replicate k 0x60 ++ b ∧ body = b ++ c :: z := by
    intro b hxb hb
    rcases List.append_eq_append_iff.1 hb with ⟨m, rfl, hm⟩ | ⟨m, hbm, hm⟩
    · -- in the closing run
      have hc := eq_of_run hm
      by_cases hnil : m = []
      · exact (hclose hc (by rw [hxb, hnil, List.append_nil])).imp_right .inl
      · refine .inl ⟨hc, ?_⟩
        rw [hxb, ← List.append_assoc, List.getLast?_append_of_ne_nil _ hnil]
        exact getLast?_of_run hm hnil
    · cases m with
      | nil =>
        rw [List.append_nil] at hbm
        exact (hclose (eq_of_run (m := []) hm.symm) (by rw [hxb, hbm])).imp_right .inl
      | cons z m =>
        obtain ⟨rfl, _⟩ := List.cons.inj hm
        exact .inr (.inr ⟨b, m, hxb, hbm⟩)
  rw [fencedBlock, List.append_assoc] at hblock
  rcases List.append_eq_append_iff.1 hblock with ⟨b, hxb, hb⟩ | ⟨m, hm, hb⟩
  · exact hinner b hxb hb
  · cases m with
    | nil => exact hinner [] (by simpa using hm.symm) hb.symm
    | cons z m =>
      obtain ⟨rfl, _⟩ := List.cons.inj hb
      exact .inl ⟨eq_of_run hm, getLast?_of_run hm hx⟩

/-- The bytes of a block whose fences have an odd number of backticks: those of a run follow a backtick, and the
rest are read as code. -/
lemma quiet_of_odd {cfg : SentenceSplitterConfig} {k : Nat} (hk : 3 ≤ k) (hodd : ¬Even k) {pre body : Text}
    (hpre : pre.getLast? ≠ some 0x60) (heven : Even (fencesRead pre)) (hhead : body.head? ≠ some 0x60)
    (hlast : body.getLast? ≠ some 0x60) (hbody : ¬kFenceOpen <:+: body) {x y : Text} {c : UInt8}
    (hblock : fencedBlock k body = x ++ c :: y) (hx : x ≠ []) (hev : Even (fencesRead (pre ++ x ++ [c]))) :
    ¬(after { cfg := cfg } (pre ++ x)).endsProse c := by
  rcases fencedBlock_byte hblock hx with ⟨rfl, hl⟩ | ⟨rfl, hnil, rfl⟩ | ⟨b, z, rfl, rfl⟩
  · refine not_endsProse_of_tick ?_
    rw [List.getLast?_append_of_ne_nil _ hx]
    exact hl
  · rw [← List.append_assoc, fencesRead_close hnil hlast] at hev
    exact absurd hev (not_even_after_run hk hodd hpre heven hhead hbody)
  · -- the body up to the byte is a body as well
    rw [← List.append_assoc, List.append_assoc] at hev
    refine absurd hev (not_even_after_run hk hodd hpre heven ?_ fun hf => hbody (hf.trans ?_))
    · cases b <;> simpa using hhead
    · exact ⟨[], z, by simp⟩

/-- A fenced block is one sentence, or a part of one, exactly when none of its bytes ends a sentence while the
number of fences read is even. -/
theorem fenced_block_whole_iff {cfg : SentenceSplitterConfig} (hdetect : cfg.detectCodeFences) {k : Nat} (hk : 3 ≤ k)
    (texts : List Text) (pre body post : Text) (htext : texts.flatten = pre ++ fencedBlock k body ++ post) :
    InOneSentence (cuts cfg texts) pre (fencedBlock k body) ↔
      ∀ x c y, fencedBlock k body = x ++ c :: y → x ≠ [] → Even (fencesRead (pre ++ x ++ [c])) →
        ¬(after { cfg := cfg } (pre ++ x)).endsProse c := by
  have hnew := Settled.new cfg
  obtain ⟨t, ht⟩ := head_fencedBlock hk body
  constructor
  · rintro ⟨before, j, rest, a, b, hcuts, hj, ha, _⟩ x c y hblock hx heven hends
    have hmode := (mode_append_iff hdetect (pre ++ x) c).2 heven
    have hlen : (fencedBlock k body).length = x.length + 1 + y.length := by
      rw [hblock, List.length_append, List.length_cons]
      omega
    have hpos := List.length_pos_iff.2 hx
    have htext' : texts.flatten = (pre ++ x) ++ c :: (y ++ post) := by simp [htext, hblock]
    -- the cut that the byte makes would lie inside the block
    have hin : ∃ before' k' rest', cuts cfg texts = before' ++ k' :: rest' ∧
        Inside pre (fencedBlock k body) (pieces before' ++ k'.piece) := by
      rcases ((hnew.after (pre ++ x)).cuts_iff c).2 ⟨hmode, hends⟩ with hsplit | hflush
      · obtain ⟨before', k', rest', hcut, _, _, hplace⟩ := hnew.cut_before (b := y ++ post) hsplit
        refine ⟨before', k', _, by rw [cuts_eq, htext', hcut, List.append_assoc]; rfl, ?_⟩
        rw [hplace]
        simp only [Inside, List.nil_append, List.length_append]
        omega
      · obtain ⟨before', k', rest', hcut, hplace⟩ := hnew.cut_after (b := y ++ post) hflush
        refine ⟨before', k', _, by rw [cuts_eq, htext', hcut, List.append_assoc]; rfl, ?_⟩
        have hy : 0 < y.length := by
          refine List.length_pos_iff.2 fun hnil => not_fence_of_flushesAfter hflush ?_
          have hlast := getLast?_fencedBlock hk body
          rw [hblock, hnil] at hlast
          simpa using hlast
        rw [hplace]
        simp only [Inside, List.nil_append, List.length_append, List.length_singleton]
        omega
    obtain ⟨before', k', rest', hcuts', hinside⟩ := hin
    exact not_inside hcuts hj ha hcuts' hinside
  · intro hquiet
    have hpieces : pieces (cuts cfg texts) = pre ++ fencedBlock k body ++ post := by rw [pieces_cuts, htext]
    have hout : ∀ before' k' rest', cuts cfg texts = before' ++ k' :: rest' →
        ¬Inside pre (fencedBlock k body) (pieces before' ++ k'.piece) := by
      rintro before' k' rest' hcuts' ⟨hlow, hhigh⟩
      rcases cut_place hcuts' with hend | ⟨a, c, b, htext', ⟨hsplit, hplace⟩ | ⟨hflush, hplace⟩⟩
      · rw [hend, htext, List.length_append] at hhigh
        omega
      · rw [hplace] at hlow hhigh
        obtain ⟨x, y, rfl, hblock⟩ := split_block (htext.symm.trans htext') (Nat.le_of_lt hlow) hhigh
        have hboth := ((hnew.after (pre ++ x)).cuts_iff c).1 (.inl hsplit)
        refine hquiet x c y hblock ?_ ((mode_append_iff hdetect _ c).1 hboth.1) hboth.2
        rintro rfl
        simp at hlow
      · rw [hplace, List.length_append, List.length_singleton] at hlow hhigh
        obtain ⟨x, y, rfl, hblock⟩ := split_block (htext.symm.trans htext') (by omega) (by omega)
        have hboth := ((hnew.after (pre ++ x)).cuts_iff c).1 (.inr hflush)
        refine hquiet x c y hblock ?_ ((mode_append_iff hdetect _ c).1 hboth.1) hboth.2
        rintro rfl
        rw [ht] at hblock
        exact not_fence_of_flushesAfter hflush (List.cons.inj hblock).1.symm
    obtain ⟨before, j, rest, a, b, hcuts, hj, ha⟩ := exists_piece hpieces (by simp [ht]) hout
    refine ⟨before, j, rest, a, b, hcuts, hj, ha, ?_⟩
    rw [hj, ht]
    exact mem_sentenceOf_block

/-- Three backticks keep their block whole. -/
theorem three_backticks_whole :
    fencedBlock 3 (ascii "\nLeave. Then\n") = ascii "\x60\x60\x60\nLeave. Then\n\x60\x60\x60" ∧
      InOneSentence (cuts {} [ascii "Look: ", ascii "\x60\x60\x60\nLeave. Then\n\x60\x60\x60 there."]) (ascii "Look: ")
        (fencedBlock 3 (ascii "\nLeave. Then\n")) := by
  refine ⟨by decide, ?_⟩
  refine (fenced_block_whole_iff rfl (by decide) _ (ascii "Look: ") (ascii "\nLeave. Then\n") (ascii " there.")
    (by decide)).2 fun x c y hblock hx hev => ?_
  exact quiet_of_odd (by decide) (by decide) (by decide) (by decide) (by decide) (by decide) (by decide) hblock hx hev

/-- Four backticks open a fence and close it again, so their block is cut like prose. -/
theorem four_backticks_cut :
    ¬InOneSentence (cuts {} [ascii "\x60\x60\x60\x60\nLeave. Then\n\x60\x60\x60\x60"]) []
      (fencedBlock 4 (ascii "\nLeave. Then\n")) := by
  rintro ⟨before, k, rest, a, b, hcuts, hk, _⟩
  have hshort : ∀ k ∈ cuts {} [ascii "\x60\x60\x60\x60\nLeave. Then\n\x60\x60\x60\x60"],
      k.piece.length < (fencedBlock 4 (ascii "\nLeave. Then\n")).length := by decide +kernel
  have hlt := hshort k (by rw [hcuts]; simp)
  rw [hk, List.length_append, List.length_append] at hlt
  omega

end SentenceSplitter

end Acva
