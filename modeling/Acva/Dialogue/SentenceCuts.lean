import Acva.Dialogue.SentenceSplitter
import Acva.Lib.Utf8

/-!
# Where the splitter cuts

Seen from outside, the splitter cuts the text into pieces and trims each one. A byte can show that the
terminator before it ends a sentence, and it can itself end a tail that has grown too long; a piece is
what lies between two cuts. All that is said about sentences below is said about these pieces.
-/

namespace Acva

/-- Why a piece is cut off: a terminator, a tail that is too long, or the end of the stream. -/
inductive CutKind
  | terminator
  | forced
  | streamEnd
  deriving DecidableEq, Repr

structure Cut where
  kind : CutKind
  piece : Text
  deriving DecidableEq, Repr

/-- The text that the cuts cover. -/
def pieces (cuts : List Cut) : Text := cuts.flatMap Cut.piece

/-- The sentences that the cuts emit. -/
def emits (cuts : List Cut) : List Text := cuts.flatMap fun k => SentenceSplitter.sentenceOf k.piece

@[simp] lemma pieces_nil : pieces [] = [] := rfl

@[simp] lemma pieces_cons (k : Cut) (cuts : List Cut) : pieces (k :: cuts) = k.piece ++ pieces cuts := rfl

@[simp] lemma pieces_append (a b : List Cut) : pieces (a ++ b) = pieces a ++ pieces b := by simp [pieces]

@[simp] lemma emits_nil : emits [] = [] := rfl

@[simp] lemma emits_cons (k : Cut) (cuts : List Cut) :
    emits (k :: cuts) = SentenceSplitter.sentenceOf k.piece ++ emits cuts := rfl

@[simp] lemma emits_append (a b : List Cut) : emits (a ++ b) = emits a ++ emits b := by
  simp [emits]

namespace SentenceSplitter

/-- `push` for each text in turn. -/
def pushAll (sp : SentenceSplitter) : List Text → SentenceSplitter × List Text
  | [] => (sp, [])
  | t :: ts =>
    let one := sp.push t
    let rest := one.1.pushAll ts
    (rest.1, one.2 ++ rest.2)

/-- The sentences of a whole stream: `push` for each text, then `flush`. -/
def split (cfg : SentenceSplitterConfig) (texts : List Text) : List Text :=
  let pushed := pushAll { cfg := cfg } texts
  pushed.2 ++ pushed.1.flush.2

/-- The state once `text` is read. -/
def after (sp : SentenceSplitter) (text : Text) : SentenceSplitter := (sp.push text).1

/-! ### The cuts of one byte -/

/-- The byte `c` shows that the terminator before it ends a sentence. -/
def splitsBefore (sp : SentenceSplitter) (c : UInt8) : Bool :=
  sp.pendingTermPos.isSome && sp.pendingDotRun < 2 && !(isDot c && sp.buf.getLast?.any isDot) && !isDigit c

/-- The buffer with `c` appended, less what is cut off before `c`. -/
def tail (sp : SentenceSplitter) (c : UInt8) : Text := if sp.splitsBefore c then [c] else sp.buf ++ [c]

/-- The byte `c`, already appended, ends a tail that is too long. -/
def overlong (sp : SentenceSplitter) (c : UInt8) : Bool :=
  !isTerminator c && (isWhitespace c || c = 0x2C) && sp.charsSinceTerminator + 1 ≥ sp.cfg.maxSentenceChars

/-- The state in which `pushSettled` reads `c`, if it does: after a cut the tail is `c` alone. -/
def settling (sp : SentenceSplitter) (c : UInt8) : SentenceSplitter :=
  if sp.splitsBefore c then ((sp.appendByte c).resolvePending (sp.buf.length - 1)).1 else sp.appendByte c

/-- The byte `c` is read outside code with no terminator left to decide about, and the tail is too long. -/
def flushesAfter (sp : SentenceSplitter) (c : UInt8) : Bool :=
  (sp.appendByte c).mode = .normal && (sp.pendingTermPos.isNone || sp.splitsBefore c) && (sp.settling c).overlong c

def cutsAt (sp : SentenceSplitter) (c : UInt8) : List Cut :=
  (if sp.splitsBefore c then [⟨.terminator, sp.buf⟩] else []) ++
    if sp.flushesAfter c then [⟨.forced, sp.tail c⟩] else []

/-- The cuts made while `text` is read. -/
def cutsOf (sp : SentenceSplitter) : Text → List Cut
  | [] => []
  | c :: cs => sp.cutsAt c ++ (sp.pushChar c).1.cutsOf cs

/-- The cut that `flush` makes. -/
def lastCut (sp : SentenceSplitter) : List Cut := if sp.buf = [] then [] else [⟨.streamEnd, sp.buf⟩]

/-- The cuts of `push` for each text in turn. -/
def cutsOfAll (sp : SentenceSplitter) : List Text → List Cut
  | [] => []
  | t :: ts => sp.cutsOf t ++ (sp.after t).cutsOfAll ts

/-- The cuts of a whole stream. -/
def cuts (cfg : SentenceSplitterConfig) (texts : List Text) : List Cut :=
  cutsOfAll { cfg := cfg } texts ++ (pushAll { cfg := cfg } texts).1.lastCut

/-! ### What one byte does -/

lemma pushSettled_of_overlong {sp : SentenceSplitter} {c : UInt8} (h : sp.overlong c) :
    (sp.pushSettled c).2 = sentenceOf sp.buf ∧ (sp.pushSettled c).1.buf = [] := by
  simp only [overlong, Bool.and_eq_true, Bool.not_eq_true', decide_eq_true_eq] at h
  obtain ⟨⟨hterm, hblank⟩, hlong⟩ := h
  simp [pushSettled, hterm, hblank, hlong, flushBuffer]

lemma pushSettled_of_not_overlong {sp : SentenceSplitter} {c : UInt8} (h : sp.overlong c = false) :
    (sp.pushSettled c).2 = [] ∧ (sp.pushSettled c).1.buf = sp.buf := by
  by_cases hterm : isTerminator c
  · simp only [pushSettled, hterm, if_true]
    split
    · simp
    · split
      · simp
      · split <;> simp
  · have hkeep : ¬(sp.charsSinceTerminator + 1 ≥ sp.cfg.maxSentenceChars ∧ (isWhitespace c || c = 0x2C)) := by
      rintro ⟨hlong, hblank⟩
      simp [overlong, hterm, hblank, hlong] at h
    simp only [pushSettled, hterm, if_false, hkeep, Bool.false_eq_true]
    exact ⟨trivial, trivial⟩

/-- What the byte `c` emits, and what it leaves in the buffer. -/
structure Reads (sp : SentenceSplitter) (c : UInt8) (r : SentenceSplitter × List Text) : Prop where
  emitted : r.2 = emits (sp.cutsAt c)
  buf : r.1.buf = if sp.flushesAfter c then [] else sp.tail c

/-- The byte is read by `pushSettled`, with the tail of the buffer before it. -/
lemma reads_settling {sp : SentenceSplitter} {c : UInt8} (hmode : (sp.appendByte c).mode = .normal)
    (hopen : sp.pendingTermPos.isNone || sp.splitsBefore c) (hbuf : (sp.settling c).buf = sp.tail c) :
    sp.Reads c (((sp.settling c).pushSettled c).1,
      (if sp.splitsBefore c then sentenceOf sp.buf else []) ++ ((sp.settling c).pushSettled c).2) := by
  have hflush : sp.flushesAfter c = (sp.settling c).overlong c := by simp [flushesAfter, hmode, hopen]
  have hcuts : emits (sp.cutsAt c) = (if sp.splitsBefore c then sentenceOf sp.buf else []) ++
      if sp.flushesAfter c then sentenceOf (sp.tail c) else [] := by
    unfold cutsAt
    split <;> split <;> simp
  by_cases hlong : (sp.settling c).overlong c
  · obtain ⟨hout, hnil⟩ := pushSettled_of_overlong hlong
    constructor
    · rw [hcuts, hflush, hlong, hout, hbuf, if_pos rfl]
    · rw [hflush, hlong, if_pos rfl, hnil]
  · rw [Bool.not_eq_true] at hlong
    obtain ⟨hout, hkept⟩ := pushSettled_of_not_overlong hlong
    constructor
    · rw [hcuts, hflush, hlong, hout]
      rfl
    · rw [hflush, hlong, hkept, hbuf]
      rfl

lemma reads_kept {sp s' : SentenceSplitter} {c : UInt8} (hsplit : sp.splitsBefore c = false)
    (hflush : sp.flushesAfter c = false) (hbuf : s'.buf = sp.buf ++ [c]) : sp.Reads c (s', []) := by
  refine ⟨by simp [cutsAt, hsplit, hflush], ?_⟩
  simp [hflush, tail, hsplit, hbuf]

/-- While the deferred terminator is a single one, it is the last byte of the buffer. -/
lemma Settled.deferred_byte {sp : SentenceSplitter} (h : sp.Settled) {pos : Nat} (hp : sp.pendingTermPos = some pos)
    (hrun : sp.pendingDotRun < 2) (c : UInt8) : ((sp.appendByte c).buf[pos]?) = sp.buf.getLast? := by
  have hpos := h.single hp hrun
  change (sp.buf ++ [c])[pos]? = _
  rw [List.getElem?_append_left (by omega), List.getLast?_eq_getElem?]
  congr 1
  omega

lemma pushChar_reads_of_none {sp : SentenceSplitter} (hp : sp.pendingTermPos = none) (c : UInt8) :
    sp.Reads c (sp.pushChar c) := by
  have hsplit : sp.splitsBefore c = false := by simp [splitsBefore, hp]
  have hset : sp.settling c = sp.appendByte c := by simp [settling, hsplit]
  by_cases hmode : (sp.appendByte c).mode = .normal
  · have htail : sp.tail c = sp.buf ++ [c] := by simp [tail, hsplit]
    have hread := reads_settling hmode (by simp [hp]) (by rw [hset, htail]; rfl)
    rw [hset, hsplit] at hread
    simpa [pushChar, pushAppended, hmode, show (sp.appendByte c).pendingTermPos = none from hp] using hread
  · have hcode : (sp.appendByte c).mode = .inCodeFence := by
      cases hm : (sp.appendByte c).mode with
      | normal => exact absurd hm hmode
      | inCodeFence => rfl
    simp only [pushChar, pushAppended, hcode, if_true]
    exact reads_kept hsplit (by simp [flushesAfter, hcode]) rfl

lemma reads_dot {sp : SentenceSplitter} (h : sp.Settled) {pos : Nat} (hp : sp.pendingTermPos = some pos) {c : UInt8}
    (hflush : sp.splitsBefore c = false → sp.flushesAfter c = false) (hdot : isDot c)
    (hdots : ((sp.appendByte c).buf[pos]?).any isDot) :
    sp.Reads c ({ sp.appendByte c with pendingDotRun := sp.pendingDotRun + 1 }, []) := by
  have hsplit : sp.splitsBefore c = false := by
    by_cases hrun : sp.pendingDotRun < 2
    · rw [h.deferred_byte hp hrun] at hdots
      simp [splitsBefore, hdot, hdots]
    · simp [splitsBefore, hrun]
  exact reads_kept hsplit (hflush hsplit) rfl

lemma reads_resolved {sp : SentenceSplitter} (h : sp.Settled) {pos : Nat} (hp : sp.pendingTermPos = some pos)
    (hrun : sp.pendingDotRun < 2) {c : UInt8} (hsplit : sp.splitsBefore c) :
    sp.Reads c ((((sp.appendByte c).resolvePending pos).1.pushSettled c).1,
      ((sp.appendByte c).resolvePending pos).2 ++ (((sp.appendByte c).resolvePending pos).1.pushSettled c).2) := by
  have hpos := h.single hp hrun
  have hset : sp.settling c = ((sp.appendByte c).resolvePending pos).1 := by
    rw [settling, if_pos hsplit, show sp.buf.length - 1 = pos by omega]
  have htail : sp.tail c = [c] := by rw [tail, if_pos hsplit]
  have hbuf : ((sp.appendByte c).resolvePending pos).1.buf = [c] := by
    change (sp.buf ++ [c]).drop (pos + 1) = [c]
    rw [hpos, List.drop_left]
  have hhead : ((sp.appendByte c).resolvePending pos).2 = sentenceOf sp.buf := by
    change sentenceOf ((sp.buf ++ [c]).take (pos + 1)) = _
    rw [hpos, List.take_left]
  have hread := reads_settling (h.mode_append (by simp [hp]) c) (by simp [hsplit]) (by rw [hset, hbuf, htail])
  rw [hset, if_pos hsplit] at hread
  rw [hhead]
  exact hread

lemma pushPending_reads {sp : SentenceSplitter} (h : sp.Settled) {pos : Nat} (hp : sp.pendingTermPos = some pos)
    (c : UInt8) : sp.Reads c ((sp.appendByte c).pushPending c pos) := by
  have hflush : sp.splitsBefore c = false → sp.flushesAfter c = false := fun hs => by simp [flushesAfter, hs, hp]
  rw [pushPending]
  split
  · rename_i hdots
    obtain ⟨hdot, hdots⟩ := Bool.and_eq_true_iff.1 hdots
    exact reads_dot h hp hflush hdot hdots
  · split
    · rename_i hdigit
      have hsplit : sp.splitsBefore c = false := by simp [splitsBefore, hdigit]
      exact reads_kept hsplit (hflush hsplit) rfl
    · split
      · rename_i hrun
        have hsplit : sp.splitsBefore c = false := by
          have : ¬sp.pendingDotRun < 2 := Nat.not_lt.2 hrun
          simp [splitsBefore, this]
        exact reads_kept hsplit (hflush hsplit) rfl
      · rename_i hdots hdigit hrun
        have hrun : sp.pendingDotRun < 2 := Nat.not_le.1 hrun
        have hsplit : sp.splitsBefore c := by
          rw [h.deferred_byte hp hrun] at hdots
          simp [splitsBefore, hp, hrun, hdots, hdigit]
        exact reads_resolved h hp hrun hsplit

lemma pushChar_reads {sp : SentenceSplitter} (h : sp.Settled) (c : UInt8) : sp.Reads c (sp.pushChar c) := by
  cases hp : sp.pendingTermPos with
  | none => exact pushChar_reads_of_none hp c
  | some pos =>
    have hmode := h.mode_append (by simp [hp]) c
    simp only [pushChar, pushAppended, hmode, reduceCtorEq, if_false,
      show (sp.appendByte c).pendingTermPos = some pos from hp]
    exact pushPending_reads h hp c

/-! ### The pieces cover the text -/

lemma pieces_cutsAt (sp : SentenceSplitter) (c : UInt8) :
    pieces (sp.cutsAt c) ++ (if sp.flushesAfter c then [] else sp.tail c) = sp.buf ++ [c] := by
  by_cases hsplit : sp.splitsBefore c <;> by_cases hflush : sp.flushesAfter c <;>
    simp [cutsAt, tail, hsplit, hflush]

@[simp] lemma after_nil (sp : SentenceSplitter) : sp.after [] = sp := rfl

@[simp] lemma after_cons (sp : SentenceSplitter) (c : UInt8) (cs : Text) :
    sp.after (c :: cs) = (sp.pushChar c).1.after cs := rfl

lemma push_append (sp : SentenceSplitter) (a b : Text) :
    sp.push (a ++ b) = ((sp.after a).after b, (sp.push a).2 ++ ((sp.after a).push b).2) := by
  induction a generalizing sp with
  | nil => rfl
  | cons c cs ih => simp [push, ih, after, List.append_assoc]

lemma after_append (sp : SentenceSplitter) (a b : Text) : sp.after (a ++ b) = (sp.after a).after b := by
  rw [after, push_append]

lemma cutsOf_append (sp : SentenceSplitter) (a b : Text) :
    sp.cutsOf (a ++ b) = sp.cutsOf a ++ (sp.after a).cutsOf b := by
  induction a generalizing sp with
  | nil => rfl
  | cons c cs ih => simp [cutsOf, ih, List.append_assoc]

lemma Settled.after {sp : SentenceSplitter} (h : sp.Settled) (text : Text) : (sp.after text).Settled := by
  induction text generalizing sp with
  | nil => exact h
  | cons c cs ih => exact ih (h.pushChar c)

lemma Settled.push_emits {sp : SentenceSplitter} (h : sp.Settled) (text : Text) :
    (sp.push text).2 = emits (sp.cutsOf text) := by
  induction text generalizing sp with
  | nil => rfl
  | cons c cs ih =>
    have hread := pushChar_reads h c
    simp only [SentenceSplitter.push, cutsOf, emits_append]
    rw [hread.emitted, ih (h.pushChar c)]

/-- What has been cut off, followed by what is still in the buffer, is what has been read. -/
lemma Settled.pieces_cutsOf {sp : SentenceSplitter} (h : sp.Settled) (text : Text) :
    pieces (sp.cutsOf text) ++ (sp.after text).buf = sp.buf ++ text := by
  induction text generalizing sp with
  | nil => simp [cutsOf]
  | cons c cs ih =>
    have hread := pushChar_reads h c
    rw [cutsOf, pieces_append, List.append_assoc, after_cons, ih (h.pushChar c), hread.buf, ← List.append_assoc,
      pieces_cutsAt, List.append_assoc]
    rfl

lemma pushAll_eq (sp : SentenceSplitter) (texts : List Text) : sp.pushAll texts = sp.push texts.flatten := by
  induction texts generalizing sp with
  | nil => rfl
  | cons t ts ih =>
    rw [List.flatten_cons, push_append]
    simp only [pushAll, ih]
    rfl

lemma cutsOfAll_eq (sp : SentenceSplitter) (texts : List Text) : sp.cutsOfAll texts = sp.cutsOf texts.flatten := by
  induction texts generalizing sp with
  | nil => rfl
  | cons t ts ih => rw [List.flatten_cons, cutsOf_append, cutsOfAll, ih]

lemma flush_emits (sp : SentenceSplitter) : sp.flush.2 = emits sp.lastCut := by
  by_cases hbuf : sp.buf = [] <;> simp [flush, lastCut, hbuf, flushBuffer]

lemma pieces_lastCut (sp : SentenceSplitter) : pieces sp.lastCut = sp.buf := by
  by_cases hbuf : sp.buf = [] <;> simp [lastCut, hbuf]

lemma cuts_eq (cfg : SentenceSplitterConfig) (texts : List Text) :
    cuts cfg texts = cutsOf { cfg := cfg } texts.flatten ++ (after { cfg := cfg } texts.flatten).lastCut := by
  rw [cuts, cutsOfAll_eq, pushAll_eq]
  rfl

lemma split_eq_emits (cfg : SentenceSplitterConfig) (texts : List Text) : split cfg texts = emits (cuts cfg texts) := by
  rw [cuts_eq, emits_append, ← (Settled.new cfg).push_emits, ← flush_emits, split, pushAll_eq]
  rfl

lemma pieces_cuts (cfg : SentenceSplitterConfig) (texts : List Text) : pieces (cuts cfg texts) = texts.flatten := by
  rw [cuts_eq, pieces_append, pieces_lastCut]
  exact (Settled.new cfg).pieces_cutsOf _

/-! ### Sentences -/

/-- The bytes of `s` other than whitespace. -/
def withoutWhitespace (s : Text) : Text := s.filter fun c => !isWhitespace c

lemma withoutWhitespace_trimLeading (s : Text) : withoutWhitespace (trimLeading s) = withoutWhitespace s := by
  induction s with
  | nil => rfl
  | cons c s ih =>
    by_cases hc : isWhitespace c
    · simpa [trimLeading, withoutWhitespace, hc] using ih
    · simp [trimLeading, withoutWhitespace, hc]

lemma withoutWhitespace_emits (cuts : List Cut) :
    withoutWhitespace (emits cuts).flatten = withoutWhitespace (pieces cuts) := by
  induction cuts with
  | nil => rfl
  | cons k cuts ih =>
    have hone : withoutWhitespace (sentenceOf k.piece).flatten = withoutWhitespace k.piece := by
      rw [← withoutWhitespace_trimLeading k.piece]
      by_cases hnil : trimLeading k.piece = [] <;> simp [sentenceOf, hnil]
    rw [emits_cons, pieces_cons, List.flatten_append]
    simp only [withoutWhitespace, List.filter_append] at ih hone ⊢
    rw [ih, hone]

lemma mem_sentenceOf {s t : Text} (h : t ∈ sentenceOf s) : t = trimLeading s := by
  unfold sentenceOf at h
  split at h
  · simp at h
  · exact List.mem_singleton.1 h

lemma head_of_mem_sentenceOf {s t : Text} (h : t ∈ sentenceOf s) : t.head?.any isWhitespace = false := by
  rw [mem_sentenceOf h, trimLeading]
  cases hd : s.dropWhile isWhitespace with
  | nil => rfl
  | cons c r =>
    have hne : s.dropWhile isWhitespace ≠ [] := by simp [hd]
    have hc := List.head_dropWhile_not isWhitespace hne
    simpa [hd] using hc

/-- The bytes after which the text is cut before the stream ends. -/
def endsPiece (c : UInt8) : Bool := isTerminator c || isWhitespace c || c = 0x2C

lemma lt_of_endsPiece {c : UInt8} (h : endsPiece c) : c < 0x80 := by
  simp only [endsPiece, isTerminator, isDot, isWhitespace, Bool.or_eq_true, decide_eq_true_eq] at h
  rcases h with ((((rfl | rfl) | rfl) | (((rfl | rfl) | rfl) | rfl)) | rfl) <;> decide

/-- A piece that `push` cuts off ends with such a byte. -/
lemma Settled.getLast?_of_mem_cutsAt {sp : SentenceSplitter} (h : sp.Settled) {c : UInt8} {k : Cut}
    (hk : k ∈ sp.cutsAt c) : k.piece.getLast?.any endsPiece := by
  rcases List.mem_append.1 hk with hk | hk
  · by_cases hsplit : sp.splitsBefore c
    · rw [if_pos hsplit, List.mem_singleton] at hk
      simp only [splitsBefore, Bool.and_eq_true] at hsplit
      have hlast := h.last hsplit.1.1.1
      cases hb : sp.buf.getLast? with
      | none => simp [hb] at hlast
      | some x =>
        rw [hb] at hlast
        simp [hk, hb, endsPiece, show isTerminator x from hlast]
    · simp [hsplit] at hk
  · by_cases hflush : sp.flushesAfter c
    · rw [if_pos hflush, List.mem_singleton] at hk
      have hlast : (sp.tail c).getLast? = some c := by
        unfold tail
        split <;> simp
      simp only [flushesAfter, overlong, Bool.and_eq_true] at hflush
      have hblank := hflush.2.1.2
      rw [hk, hlast]
      rw [Bool.or_eq_true] at hblank
      rcases hblank with hb | hb <;> simp [endsPiece, hb]
    · simp [hflush] at hk

lemma Settled.getLast?_of_mem_cutsOf {sp : SentenceSplitter} (h : sp.Settled) {text : Text} {k : Cut}
    (hk : k ∈ sp.cutsOf text) : k.piece.getLast?.any endsPiece := by
  induction text generalizing sp with
  | nil => simp [cutsOf] at hk
  | cons c cs ih =>
    rcases List.mem_append.1 hk with hk | hk
    · exact h.getLast?_of_mem_cutsAt hk
    · exact ih (h.pushChar c) hk

lemma valid_pieces {cuts : List Cut} {rest : Text} (hends : ∀ k ∈ cuts, k.piece.getLast?.any endsPiece)
    (h : Utf8.Valid (pieces cuts ++ rest)) : (∀ k ∈ cuts, Utf8.Valid k.piece) ∧ Utf8.Valid rest := by
  induction cuts with
  | nil => exact ⟨by simp, h⟩
  | cons k cuts ih =>
    obtain ⟨x, hx, hends'⟩ := (Option.any_eq_true _ _).1 (hends k List.mem_cons_self)
    obtain ⟨init, hinit⟩ := List.getLast?_eq_some_iff.1 hx
    have hsplit : Utf8.Valid (init ++ x :: (pieces cuts ++ rest)) := by
      rw [pieces_cons, hinit] at h
      simpa [List.append_assoc] using h
    obtain ⟨hpiece, hrest⟩ := hsplit.cut (lt_of_endsPiece hends')
    obtain ⟨hall, hlast⟩ := ih (fun j hj => hends j (List.mem_cons_of_mem _ hj)) hrest
    refine ⟨fun j hj => ?_, hlast⟩
    rcases List.mem_cons.1 hj with rfl | hj
    · rw [hinit]
      exact hpiece
    · exact hall j hj

lemma valid_trimLeading {s : Text} (h : Utf8.Valid s) : Utf8.Valid (trimLeading s) := by
  induction s with
  | nil => exact h
  | cons c s ih =>
    by_cases hc : isWhitespace c
    · have hlt : c < 0x80 := lt_of_endsPiece (by simp [endsPiece, hc])
      have hs := (Utf8.Valid.cut (a := []) hlt h).2
      simpa [trimLeading, hc] using ih hs
    · simpa [trimLeading, hc] using h

lemma valid_of_mem_cuts {cfg : SentenceSplitterConfig} {texts : List Text} (h : Utf8.Valid texts.flatten) {k : Cut}
    (hk : k ∈ cuts cfg texts) : Utf8.Valid k.piece := by
  have hnew := Settled.new cfg
  rw [← show ([] : Text) ++ texts.flatten = texts.flatten from rfl] at h
  rw [← hnew.pieces_cutsOf texts.flatten] at h
  obtain ⟨hpieces, hrest⟩ := valid_pieces (fun k hk => hnew.getLast?_of_mem_cutsOf hk) h
  rw [cuts_eq] at hk
  rcases List.mem_append.1 hk with hk | hk
  · exact hpieces k hk
  · unfold lastCut at hk
    split at hk
    · simp at hk
    · rw [List.mem_singleton.1 hk]
      exact hrest

/-- The splitter loses and reorders nothing, however the text is cut into tokens. -/
theorem split_lossless (cfg : SentenceSplitterConfig) (texts : List Text) :
    (∀ texts' : List Text, texts'.flatten = texts.flatten → split cfg texts' = split cfg texts) ∧
      (∀ s ∈ split cfg texts, s ≠ [] ∧ s.head?.any isWhitespace = false) ∧
      withoutWhitespace (split cfg texts).flatten = withoutWhitespace texts.flatten ∧
      (Utf8.Valid texts.flatten → ∀ s ∈ split cfg texts, Utf8.Valid s) := by
  have hmem : ∀ s ∈ split cfg texts, ∃ k ∈ cuts cfg texts, s ∈ sentenceOf k.piece := by
    intro s hs
    rw [split_eq_emits] at hs
    exact List.mem_flatMap.1 hs
  refine ⟨fun texts' hsame => ?_, fun s hs => ?_, ?_, fun hvalid s hs => ?_⟩
  · rw [split, split, pushAll_eq, pushAll_eq, hsame]
  · obtain ⟨k, _, hk⟩ := hmem s hs
    exact ⟨sentenceOf_nonempty hk, head_of_mem_sentenceOf hk⟩
  · rw [split_eq_emits, withoutWhitespace_emits, pieces_cuts]
  · obtain ⟨k, hcut, hk⟩ := hmem s hs
    rw [mem_sentenceOf hk]
    exact valid_trimLeading (valid_of_mem_cuts hvalid hcut)

end SentenceSplitter

end Acva
