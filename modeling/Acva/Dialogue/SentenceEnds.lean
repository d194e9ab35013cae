import Acva.Dialogue.SentenceCuts

/-!
# Sentence ends

Which terminators end a sentence. A deferred terminator is decided by the next byte, and almost any byte
will do: the splitter does not ask for whitespace after it. On the other side a short last word is taken
for a list marker wherever it stands on its line.
-/

namespace Acva

namespace SentenceSplitter

/-! ### The place of a cut -/

lemma cutsAt_cases {sp : SentenceSplitter} {c : UInt8} {before rest : List Cut} {k : Cut}
    (h : sp.cutsAt c = before ++ k :: rest) :
    k.kind = .terminator ∧ sp.splitsBefore c ∧ pieces before ++ k.piece = sp.buf ∨
      k.kind = .forced ∧ sp.flushesAfter c ∧ pieces before ++ k.piece = sp.buf ++ [c] := by
  have hcover := pieces_cutsAt sp c
  unfold cutsAt at h hcover
  by_cases hsplit : sp.splitsBefore c
  · by_cases hflush : sp.flushesAfter c
    · simp only [hsplit, hflush, if_true, List.singleton_append] at h hcover
      cases before with
      | nil =>
        obtain ⟨rfl, _⟩ := List.cons.inj h
        exact .inl ⟨rfl, hsplit, rfl⟩
      | cons j before =>
        obtain ⟨rfl, hsecond⟩ := List.cons.inj h
        cases before with
        | nil =>
          obtain ⟨rfl, _⟩ := List.cons.inj hsecond
          exact .inr ⟨rfl, hflush, by simpa using hcover⟩
        | cons _ _ => simp at hsecond
    · simp only [hsplit, hflush, if_true, Bool.false_eq_true, if_false, List.append_nil] at h
      cases before with
      | nil =>
        obtain ⟨rfl, _⟩ := List.cons.inj h
        exact .inl ⟨rfl, hsplit, rfl⟩
      | cons _ _ => simp at h
  · by_cases hflush : sp.flushesAfter c
    · simp only [hsplit, hflush, if_true, Bool.false_eq_true, if_false, List.nil_append] at h hcover
      cases before with
      | nil =>
        obtain ⟨rfl, _⟩ := List.cons.inj h
        exact .inr ⟨rfl, hflush, by simpa using hcover⟩
      | cons _ _ => simp at h
    · simp [hsplit, hflush] at h

/-- A cut of `push` is made by a byte `c`: before it, at a terminator, or after it, by force. -/
lemma Settled.cut_cases {sp : SentenceSplitter} (h : sp.Settled) {text : Text} {before rest : List Cut} {k : Cut}
    (hcut : sp.cutsOf text = before ++ k :: rest) :
    ∃ a c b, text = a ++ c :: b ∧
      (k.kind = .terminator ∧ (sp.after a).splitsBefore c ∧ pieces before ++ k.piece = sp.buf ++ a ∨
        k.kind = .forced ∧ (sp.after a).flushesAfter c ∧ pieces before ++ k.piece = sp.buf ++ a ++ [c]) := by
  induction text generalizing sp before with
  | nil => simp [cutsOf] at hcut
  | cons c cs ih =>
    have hread := pushChar_reads h c
    -- a cut made by a later byte: the induction hypothesis in the state after `c`
    have later : ∀ mid, before = sp.cutsAt c ++ mid → (sp.pushChar c).1.cutsOf cs = mid ++ k :: rest →
        ∃ a c' b, c :: cs = a ++ c' :: b ∧
          (k.kind = .terminator ∧ (sp.after a).splitsBefore c' ∧ pieces before ++ k.piece = sp.buf ++ a ∨
            k.kind = .forced ∧ (sp.after a).flushesAfter c' ∧
              pieces before ++ k.piece = sp.buf ++ a ++ [c']) := by
      intro mid hbefore hmid
      obtain ⟨a, c', b, rfl, hk⟩ := ih (h.pushChar c) hmid
      have hshift : ∀ tail : Text, pieces mid ++ k.piece = (sp.pushChar c).1.buf ++ tail →
          pieces before ++ k.piece = sp.buf ++ c :: tail := by
        intro tail htail
        rw [hbefore, pieces_append, List.append_assoc, htail, hread.buf, ← List.append_assoc, pieces_cutsAt,
          List.append_assoc]
        rfl
      refine ⟨c :: a, c', b, rfl, hk.imp ?_ ?_⟩
      · rintro ⟨hkind, hsplit, hplace⟩
        exact ⟨hkind, hsplit, hshift a hplace⟩
      · rintro ⟨hkind, hflush, hplace⟩
        refine ⟨hkind, hflush, ?_⟩
        rw [List.append_assoc] at hplace ⊢
        exact hshift (a ++ [c']) hplace
    rw [cutsOf, List.append_eq_append_iff] at hcut
    rcases hcut with ⟨mid, hbefore, hmid⟩ | ⟨mid, hhere, hmid⟩
    · exact later mid hbefore hmid
    · cases mid with
      | nil =>
        rw [List.append_nil] at hhere
        exact later [] (by simp [hhere]) hmid.symm
      | cons j mid =>
        obtain ⟨rfl, _⟩ := List.cons.inj hmid
        refine ⟨[], c, cs, rfl, (cutsAt_cases hhere).imp ?_ ?_⟩
        · simp
        · simp

lemma Settled.cut_before {sp : SentenceSplitter} (h : sp.Settled) {a b : Text} {c : UInt8}
    (hsplit : (sp.after a).splitsBefore c) :
    ∃ before k rest, sp.cutsOf (a ++ c :: b) = before ++ k :: rest ∧ k.kind = .terminator ∧
      k.piece = (sp.after a).buf ∧ pieces before ++ k.piece = sp.buf ++ a := by
  have hcut := cutsOf_append sp a (c :: b)
  rw [cutsOf, cutsAt, if_pos hsplit, List.append_assoc, List.singleton_append] at hcut
  exact ⟨_, _, _, hcut, rfl, rfl, h.pieces_cutsOf a⟩

/-- A cut of the stream is the last one, which `flush` makes, or one of `push`. -/
lemma cuts_cases {cfg : SentenceSplitterConfig} {texts : List Text} {before rest : List Cut} {k : Cut}
    (hcut : cuts cfg texts = before ++ k :: rest) :
    pieces before ++ k.piece = texts.flatten ∨
      ∃ rest', cutsOf { cfg := cfg } texts.flatten = before ++ k :: rest' := by
  have hall := pieces_cuts cfg texts
  rw [hcut] at hall
  rw [cuts_eq, lastCut] at hcut
  split at hcut
  · exact .inr ⟨rest, by rw [← hcut, List.append_nil]⟩
  · rcases List.eq_nil_or_concat rest with rfl | ⟨rest', l, rfl⟩
    · exact .inl (by simpa using hall)
    · right
      rw [List.concat_eq_append, ← List.cons_append, ← List.append_assoc] at hcut
      exact ⟨rest', (List.append_inj' hcut rfl).1⟩

/-- Where a cut of the stream lies: at the end of the text, before the byte that shows the end of a sentence,
or after the byte that ends a tail that is too long. -/
lemma cut_place {cfg : SentenceSplitterConfig} {texts : List Text} {before rest : List Cut} {k : Cut}
    (hcut : cuts cfg texts = before ++ k :: rest) :
    pieces before ++ k.piece = texts.flatten ∨
      ∃ a c b, texts.flatten = a ++ c :: b ∧
        ((after { cfg := cfg } a).splitsBefore c ∧ pieces before ++ k.piece = a ∨
          (after { cfg := cfg } a).flushesAfter c ∧ pieces before ++ k.piece = a ++ [c]) := by
  refine (cuts_cases hcut).imp_right ?_
  rintro ⟨rest', hpush⟩
  obtain ⟨a, c, b, htext, hk⟩ := (Settled.new cfg).cut_cases hpush
  exact ⟨a, c, b, htext, hk.imp (fun h => h.2) fun h => h.2⟩

lemma Settled.cut_after {sp : SentenceSplitter} (h : sp.Settled) {a b : Text} {c : UInt8}
    (hflush : (sp.after a).flushesAfter c) :
    ∃ before k rest, sp.cutsOf (a ++ c :: b) = before ++ k :: rest ∧
      pieces before ++ k.piece = sp.buf ++ a ++ [c] := by
  have hcut := cutsOf_append sp a (c :: b)
  rw [cutsOf, cutsAt, if_pos hflush, List.append_assoc, ← List.append_assoc, List.singleton_append] at hcut
  refine ⟨_, _, _, hcut, ?_⟩
  have hcover := pieces_cutsAt (sp.after a) c
  rw [cutsAt, if_pos hflush, if_pos hflush, pieces_append, pieces_cons, pieces_nil, List.append_nil,
    List.append_nil] at hcover
  rw [pieces_append, List.append_assoc, hcover, ← List.append_assoc, h.pieces_cutsOf a]

/-! ### Splits at terminators -/

/-- Every cut of `push` that is not forced lies between a terminator and whitespace or another terminator. -/
def CutsAtSentenceEnds (cfg : SentenceSplitterConfig) (texts : List Text) : Prop :=
  ∀ before k rest, cutsOfAll { cfg := cfg } texts = before ++ k :: rest → k.kind ≠ .forced →
    ∃ a x y b, pieces before ++ k.piece = a ++ [x] ∧ texts.flatten = a ++ x :: y :: b ∧ isTerminator x ∧
      (isWhitespace y ∨ isTerminator y)

/-- Whatever is read after a single deferred terminator is whitespace, another terminator or a digit. -/
def TerminatorsFollowed (cfg : SentenceSplitterConfig) (text : Text) : Prop :=
  ∀ a c b, text = a ++ c :: b → (after { cfg := cfg } a).pendingTermPos.isSome →
    (after { cfg := cfg } a).pendingDotRun < 2 → isWhitespace c ∨ isTerminator c ∨ isDigit c

lemma Settled.getLast?_text {sp : SentenceSplitter} (h : sp.Settled) (text : Text)
    (hne : (sp.after text).buf ≠ []) : (sp.buf ++ text).getLast? = (sp.after text).buf.getLast? := by
  rw [← h.pieces_cutsOf text, List.getLast?_append]
  cases hl : (sp.after text).buf.getLast? with
  | none => exact absurd (List.getLast?_eq_none_iff.1 hl) hne
  | some x => rfl

lemma getLast?_of_pending {cfg : SentenceSplitterConfig} {a : Text}
    (hp : (after { cfg := cfg } a).pendingTermPos.isSome) : a.getLast?.any isTerminator := by
  have hlast := ((Settled.new cfg).after a).last hp
  have hne : (after { cfg := cfg } a).buf ≠ [] := by
    intro hnil
    simp [hnil] at hlast
  rw [← (Settled.new cfg).getLast?_text a hne] at hlast
  exact hlast

/-- The splitter cuts only at sentence ends as long as no deferred terminator is followed by anything but
whitespace, another terminator or a digit. -/
theorem cuts_at_sentence_ends_iff (cfg : SentenceSplitterConfig) (texts : List Text) :
    CutsAtSentenceEnds cfg texts ↔ TerminatorsFollowed cfg texts.flatten := by
  have hnew := Settled.new cfg
  unfold CutsAtSentenceEnds
  rw [cutsOfAll_eq]
  constructor
  · intro hcuts a c b htext hp hrun
    by_cases hdigit : isDigit c
    · exact .inr (.inr hdigit)
    · by_cases hdot : isDot c
      · exact .inr (.inl (by simp [isTerminator, hdot]))
      · have hsplit : (after { cfg := cfg } a).splitsBefore c := by simp [splitsBefore, hp, hrun, hdot, hdigit]
        obtain ⟨before, k, rest, hcut, hkind, _, hplace⟩ := hnew.cut_before (b := b) hsplit
        rw [htext] at hcuts
        obtain ⟨a', x, y, b', hends, htext', _, hy⟩ := hcuts before k rest hcut (by simp [hkind])
        have ha : a = a' ++ [x] := hplace.symm.trans hends
        rw [ha, List.append_assoc] at htext'
        obtain ⟨rfl, _⟩ := List.cons.inj (List.cons.inj (List.append_cancel_left htext')).2
        exact hy.imp_right .inl
  · intro hfollowed before k rest hcut hkind
    obtain ⟨a, c, b, htext, ⟨_, hsplit, hplace⟩ | ⟨hforced, _⟩⟩ := hnew.cut_cases hcut
    · simp only [splitsBefore, Bool.and_eq_true, decide_eq_true_eq, Bool.not_eq_true'] at hsplit
      obtain ⟨⟨⟨hp, hrun⟩, _⟩, hdigit⟩ := hsplit
      obtain ⟨x, hx, hterm⟩ := (Option.any_eq_true _ _).1 (getLast?_of_pending hp)
      obtain ⟨a', rfl⟩ := List.getLast?_eq_some_iff.1 hx
      refine ⟨a', x, c, b, hplace, by simp [htext], hterm, ?_⟩
      rcases hfollowed _ c b htext hp hrun with hc | hc | hc
      · exact .inl hc
      · exact .inr hc
      · simp [hdigit] at hc
    · exact absurd hforced hkind

/-- A host name is cut after its dot. -/
theorem host_name_split : ¬CutsAtSentenceEnds {} [ascii "See example.com now."] := by
  intro h
  obtain ⟨a, x, y, b, hends, htext, _, hy⟩ :=
    h [] ⟨.terminator, ascii "See example."⟩ [] (by decide +kernel) (by decide)
  have hflat : [ascii "See example.com now."].flatten = ascii "See example." ++ ascii "com now." := by
    decide +kernel
  have hafter : ascii "See example." ++ y :: b = ascii "See example." ++ ascii "com now." := by
    rw [← hflat, htext, show ascii "See example." = a ++ [x] from hends, List.append_assoc]
    rfl
  obtain ⟨rfl, _⟩ := List.cons.inj (List.append_cancel_left hafter)
  exact absurd hy (by decide)

/-! ### Ordinary sentence ends -/

/-- A sentence of the stream ends right after the first part `p` of the text. -/
def EndsAfter (cuts : List Cut) (p : Text) : Prop :=
  ∃ before k rest, cuts = before ++ k :: rest ∧ pieces before ++ k.piece = p ∧ sentenceOf k.piece ≠ []

/-- Letters, digits and dots, and the bytes of characters beyond ASCII. -/
def isWordByte (c : UInt8) : Bool := isLower c || isUpper c || isDigit c || isDot c || c ≥ 0x80

/-- The word at the end of `s`. -/
def endWord (s : Text) : Text := (s.reverse.takeWhile isWordByte).reverse

/-- The part of `s` after its last line feed. -/
def lastLine (s : Text) : Text := (s.reverse.takeWhile (· ≠ 0x0A)).reverse

/-- The dot between `pre` and `post` ends an ordinary sentence: a word before it that is no abbreviation, no
number, no run of dots and not the first on its line, and whitespace and a capital letter after it. -/
structure OrdinaryEnd (pre post : Text) : Prop where
  word : endWord pre ≠ []
  notAbbreviation : (endWord pre).map toLower ∉ kAbbreviations
  notDigit : pre.getLast?.any isDigit = false
  notDots : pre.getLast?.any isDot = false
  notFirst : ∃ x ∈ (lastLine pre).take ((lastLine pre).length - (endWord pre).length), isWhitespace x = false
  followed : ∃ blanks u rest, post = blanks ++ u :: rest ∧ blanks ≠ [] ∧ (∀ x ∈ blanks, isWhitespace x) ∧ isUpper u

lemma OrdinaryEnd.last {pre post : Text} (h : OrdinaryEnd pre post) :
    pre.getLast?.any isTerminator = false := by
  cases hl : pre.getLast? with
  | none => rfl
  | some x =>
    obtain ⟨init, rfl⟩ := List.getLast?_eq_some_iff.1 hl
    have hword : isWordByte x := by
      by_contra hx
      exact h.word (by simp [endWord, hx])
    have hdot := h.notDots
    have hbyte : ∀ y : UInt8, isWordByte y → isDot y = false → isTerminator y = false := by
      intro y hy hd
      simp only [isTerminator, hd, Bool.false_or, Bool.or_eq_false_iff, decide_eq_false_iff_not]
      constructor <;> rintro rfl <;> exact absurd hy (by decide)
    exact hbyte x hword (by simpa using hdot)

lemma pending_after_dot {sp : SentenceSplitter} (hnone : sp.pendingTermPos = none)
    (hdigit : sp.buf.getLast?.any isDigit = false) (hdots : sp.buf.getLast?.any isDot = false) :
    ((sp.pushChar 0x2E).1.pendingTermPos.isSome ∧ (sp.pushChar 0x2E).1.pendingDotRun < 2) ↔
      sp.mode = .normal ∧ (sp.appendByte 0x2E).lastWordIsAbbreviation = false ∧
        (sp.appendByte 0x2E).bufferEndsWithListMarker = false := by
  have hmode : (sp.appendByte 0x2E).mode = sp.mode := by
    have hfence : ¬kFenceOpen.isSuffixOf (sp.buf ++ [0x2E]) := fun hf => absurd (of_fence hf).1 (by decide)
    simp [appendByte, hfence]
  have hbuf : (sp.appendByte 0x2E).buf = sp.buf ++ [0x2E] := rfl
  have hdecimal : (sp.appendByte 0x2E).bufferEndsWithDecimal = false := by
    simp [bufferEndsWithDecimal, hbuf, hdigit]
  have hellipsis : (sp.appendByte 0x2E).bufferEndsWithEllipsis = false := by
    rw [bufferEndsWithEllipsis, hbuf, Bool.or_eq_false_iff]
    constructor
    · refine Bool.eq_false_iff.2 fun hs => ?_
      obtain ⟨t, ht⟩ := List.isSuffixOf_iff_suffix.1 hs
      have hb : t ++ [0x2E, 0x2E] ++ [0x2E] = sp.buf ++ [0x2E] := by
        rw [← ht, List.append_assoc]
        rfl
      rw [← (List.append_inj' hb rfl).1] at hdots
      simp [isDot] at hdots
    · refine Bool.eq_false_iff.2 fun hs => ?_
      obtain ⟨t, ht⟩ := List.isSuffixOf_iff_suffix.1 hs
      have hb : t ++ [0xE2, 0x80] ++ [0xA6] = sp.buf ++ [0x2E] := by
        rw [← ht, List.append_assoc]
        rfl
      exact absurd (List.singleton_inj.1 (List.append_inj' hb rfl).2) (by decide)
  cases hm : sp.mode with
  | inCodeFence => simp [pushChar, pushAppended, hmode, hm, show (sp.appendByte 0x2E).pendingTermPos = none from hnone]
  | normal =>
    rw [hm] at hmode
    simp only [pushChar, pushAppended, hmode, reduceCtorEq, if_false,
      show (sp.appendByte 0x2E).pendingTermPos = none from hnone, pushSettled,
      show isTerminator 0x2E = true from rfl, if_true, hdecimal, hellipsis, Bool.false_eq_true]
    by_cases habbr : (sp.appendByte 0x2E).lastWordIsAbbreviation
    · simp [habbr]
    · by_cases hlist : (sp.appendByte 0x2E).bufferEndsWithListMarker
      · simp [habbr, hlist]
      · simp [habbr, hlist, show isDot 0x2E = true from rfl]

lemma sentenceOf_ne_nil {s : Text} (h : s.getLast?.any isTerminator) : sentenceOf s ≠ [] := by
  obtain ⟨x, hx, hterm⟩ := (Option.any_eq_true _ _).1 h
  have hblank : isWhitespace x = false := by
    by_contra hb
    rw [Bool.not_eq_false] at hb
    simp only [isWhitespace, Bool.or_eq_true, decide_eq_true_eq] at hb
    rcases hb with ((rfl | rfl) | rfl) | rfl <;> exact absurd hterm (by decide)
  have hmem : x ∈ withoutWhitespace (trimLeading s) := by
    rw [withoutWhitespace_trimLeading]
    exact List.mem_filter.2 ⟨List.mem_of_getLast? hx, by simp [hblank]⟩
  have hne : trimLeading s ≠ [] := by
    intro hnil
    simp [hnil, withoutWhitespace] at hmem
  simp [sentenceOf, hne]

lemma splitsBefore_blank {sp : SentenceSplitter} {y : UInt8} (hy : isWhitespace y) :
    sp.splitsBefore y ↔ sp.pendingTermPos.isSome ∧ sp.pendingDotRun < 2 := by
  have hbyte : isDot y = false ∧ isDigit y = false := by
    simp only [isWhitespace, Bool.or_eq_true, decide_eq_true_eq] at hy
    rcases hy with ((rfl | rfl) | rfl) | rfl <;> decide
  simp [splitsBefore, hbyte]

/-- A cut of the stream right after the first part `a` of the text is made by the next byte or, if forced,
by the last one. -/
lemma endsAfter_cases {cfg : SentenceSplitterConfig} {texts : List Text} {a b : Text} {c : UInt8}
    (htext : texts.flatten = a ++ c :: b) (h : EndsAfter (cuts cfg texts) a) :
    (after { cfg := cfg } a).splitsBefore c ∨
      ∃ a' c', a = a' ++ [c'] ∧ (after { cfg := cfg } a').flushesAfter c' := by
  obtain ⟨before, k, rest, hcut, hplace, _⟩ := h
  rcases cut_place hcut with hend | ⟨a', c', b', htext', ⟨hsplit, hplace'⟩ | ⟨hflush, hplace'⟩⟩
  · rw [hplace, htext] at hend
    simp at hend
  · have ha : a = a' := hplace.symm.trans hplace'
    rw [htext, ha] at htext'
    obtain ⟨rfl, _⟩ := List.cons.inj (List.append_cancel_left htext')
    exact .inl (ha ▸ hsplit)
  · exact .inr ⟨a', c', hplace.symm.trans hplace', hflush⟩

/-- An ordinary sentence end is a boundary exactly when the splitter is outside code there and its buffer ends
neither with an abbreviation nor with what it takes for a list marker. -/
theorem ordinary_end_iff (cfg : SentenceSplitterConfig) (texts : List Text) {pre post : Text}
    (h : OrdinaryEnd pre post) (htext : texts.flatten = pre ++ 0x2E :: post) :
    EndsAfter (cuts cfg texts) (pre ++ [0x2E]) ↔
      (after { cfg := cfg } pre).mode = .normal ∧
        ((after { cfg := cfg } pre).appendByte 0x2E).lastWordIsAbbreviation = false ∧
        ((after { cfg := cfg } pre).appendByte 0x2E).bufferEndsWithListMarker = false := by
  have hnew := Settled.new cfg
  have hnone : (after { cfg := cfg } pre).pendingTermPos = none := by
    by_contra hp
    have hlast := getLast?_of_pending (Option.isSome_iff_ne_none.2 hp)
    rw [h.last] at hlast
    cases hlast
  have hbuf : ∀ p : UInt8 → Bool, pre.getLast?.any p = false →
      (after { cfg := cfg } pre).buf.getLast?.any p = false := by
    intro p hp
    by_cases hnil : (after { cfg := cfg } pre).buf = []
    · simp [hnil]
    · rw [← hnew.getLast?_text pre hnil]
      exact hp
  obtain ⟨y, post', rfl, hy⟩ : ∃ y post', post = y :: post' ∧ isWhitespace y := by
    obtain ⟨blanks, u, rest, rfl, hne, hblank, _⟩ := h.followed
    cases blanks with
    | nil => exact absurd rfl hne
    | cons y blanks => exact ⟨y, _, rfl, hblank y List.mem_cons_self⟩
  have hafter : after { cfg := cfg } (pre ++ [0x2E]) = ((after { cfg := cfg } pre).pushChar 0x2E).1 := by
    rw [after_append]
    rfl
  have htext' : texts.flatten = (pre ++ [0x2E]) ++ y :: post' := by simp [htext]
  rw [← pending_after_dot hnone (hbuf isDigit h.notDigit) (hbuf isDot h.notDots), ← hafter,
    ← splitsBefore_blank hy]
  constructor
  · intro hends
    rcases endsAfter_cases htext' hends with hsplit | ⟨a', c', hlast, hflush⟩
    · exact hsplit
    · have hc : 0x2E = c' := List.singleton_inj.1 (List.append_inj' hlast rfl).2
      simp [flushesAfter, overlong, ← hc, isTerminator, isDot] at hflush
  · intro hsplit
    obtain ⟨before, k, rest, hcut, _, hpiece, hplace⟩ := hnew.cut_before (b := post') hsplit
    refine ⟨before, k, rest ++ (after { cfg := cfg } texts.flatten).lastCut, ?_, hplace, ?_⟩
    · rw [cuts_eq, htext', hcut, List.append_assoc]
      rfl
    · rw [hpiece]
      exact sentenceOf_ne_nil ((hnew.after _).last ((splitsBefore_blank hy).1 hsplit).1)

/-- The last word of `pre` is longer than a list marker. -/
theorem sentence_split_after_long_word :
    OrdinaryEnd (ascii "I waited there") (ascii " Then I left.") ∧
      EndsAfter (cuts {} [ascii "I waited there. Then I left."]) (ascii "I waited there" ++ [0x2E]) := by
  have h : OrdinaryEnd (ascii "I waited there") (ascii " Then I left.") :=
    ⟨by decide, by decide, by decide, by decide, ⟨0x49, by decide, by decide⟩,
      [0x20], 0x54, ascii "hen I left.", by decide, by decide, by simp [isWhitespace], by decide⟩
  exact ⟨h, (ordinary_end_iff {} [ascii "I waited there. Then I left."] h (by decide)).2 (by decide +kernel)⟩

/-- A short last word is taken for a list marker in the middle of a line. -/
theorem short_word_not_split :
    OrdinaryEnd (ascii "Then I saw him") (ascii " He left.") ∧
      ¬EndsAfter (cuts {} [ascii "Then I saw him. He left."]) (ascii "Then I saw him" ++ [0x2E]) := by
  refine ⟨⟨by decide, by decide, by decide, by decide, ⟨0x54, by decide, by decide⟩,
    [0x20], 0x48, ascii "e left.", by decide, by decide, by simp [isWhitespace], by decide⟩, ?_⟩
  rintro ⟨before, k, rest, hcut, hplace, _⟩
  have hone : cuts {} [ascii "Then I saw him. He left."] = [⟨.streamEnd, ascii "Then I saw him. He left."⟩] := by
    decide +kernel
  rw [hone] at hcut
  cases before with
  | nil =>
    obtain ⟨rfl, _⟩ := List.cons.inj hcut
    exact absurd hplace (by decide)
  | cons _ _ => simp at hcut

end SentenceSplitter

end Acva
