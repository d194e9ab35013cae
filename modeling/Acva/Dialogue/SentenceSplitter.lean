import Acva.Event.Event

/-!
# Sentence splitting

`SentenceSplitter`: token text in, sentences out. `push` reads one byte at a time; a terminator is
deferred until the next byte shows whether it ends a sentence, belongs to a number or continues a
run of dots.
-/

namespace Acva

structure SentenceSplitterConfig where
  maxSentenceChars : Nat := 600
  detectCodeFences : Bool := true
  deriving DecidableEq, Repr

inductive SplitterMode
  | normal
  | inCodeFence
  deriving DecidableEq, Repr

structure SentenceSplitter where
  cfg : SentenceSplitterConfig := {}
  buf : Text := []
  mode : SplitterMode := .normal
  charsSinceTerminator : Nat := 0
  pendingTermPos : Option Nat := none
  pendingDotRun : Nat := 0
  deriving DecidableEq, Repr

namespace SentenceSplitter

def kFenceOpen : Text := ascii "\x60\x60\x60"

def kAbbreviations : List Text :=
  ["dr", "mr", "mrs", "ms", "prof", "sr", "jr", "e.g", "i.e", "etc", "vs", "vol", "no", "fig",
    "approx", "st", "ave", "blvd", "rd", "u.s", "u.k", "u.s.a", "a.m", "p.m"].map ascii

def isLower (c : UInt8) : Bool := 0x61 ≤ c && c ≤ 0x7A
def isUpper (c : UInt8) : Bool := 0x41 ≤ c && c ≤ 0x5A
def isDigit (c : UInt8) : Bool := 0x30 ≤ c && c ≤ 0x39
def isDot (c : UInt8) : Bool := c = 0x2E
def isTerminator (c : UInt8) : Bool := isDot c || c = 0x21 || c = 0x3F
def isWhitespace (c : UInt8) : Bool := c = 0x20 || c = 0x09 || c = 0x0A || c = 0x0D
def toLower (c : UInt8) : UInt8 := if isUpper c then c + 0x20 else c

def trimLeading (s : Text) : Text := s.dropWhile isWhitespace

/-- The longest run of bytes with `p` that ends just before the last byte. -/
def lastWord (p : UInt8 → Bool) (buf : Text) : Text := (buf.dropLast.reverse.takeWhile p).reverse

def lastWordIsAbbreviation (sp : SentenceSplitter) : Bool :=
  sp.buf.getLast?.any isDot &&
    let word := lastWord (fun c => isLower c || isUpper c || isDot c || isDigit c) sp.buf
    word ≠ [] && kAbbreviations.contains (word.map toLower)

def bufferEndsWithListMarker (sp : SentenceSplitter) : Bool :=
  sp.buf.getLast?.any isDot &&
    let word := lastWord (fun c => isDigit c || isLower c || isUpper c) sp.buf
    let before := sp.buf.dropLast.take (sp.buf.length - 1 - word.length)
    1 ≤ word.length && word.length ≤ 3 && before.getLast?.all isWhitespace

def bufferEndsWithEllipsis (sp : SentenceSplitter) : Bool :=
  (ascii "...").isSuffixOf sp.buf || [0xE2, 0x80, 0xA6].isSuffixOf sp.buf

def bufferEndsWithDecimal (sp : SentenceSplitter) : Bool :=
  sp.buf.getLast?.any isDot && sp.buf.dropLast.getLast?.any isDigit

/-- The sentence that a piece of the buffer becomes, if anything is left of it. -/
def sentenceOf (s : Text) : List Text := if trimLeading s = [] then [] else [trimLeading s]

def flushBuffer (sp : SentenceSplitter) : SentenceSplitter × List Text :=
  ({ sp with buf := [], charsSinceTerminator := 0, pendingTermPos := none, pendingDotRun := 0 },
    sentenceOf sp.buf)

/-- Splits the buffer after the deferred terminator at `pos`. The dot run is left as it is. -/
def resolvePending (sp : SentenceSplitter) (pos : Nat) : SentenceSplitter × List Text :=
  let tail := sp.buf.drop (pos + 1)
  ({ sp with buf := tail, charsSinceTerminator := tail.length, pendingTermPos := none },
    sentenceOf (sp.buf.take (pos + 1)))

/-- The byte `c`, already appended, with no terminator deferred. -/
def pushSettled (sp : SentenceSplitter) (c : UInt8) : SentenceSplitter × List Text :=
  if isTerminator c then
    if sp.lastWordIsAbbreviation || sp.bufferEndsWithListMarker then
      ({ sp with pendingTermPos := none, pendingDotRun := 0 }, [])
    else if sp.bufferEndsWithDecimal then
      ({ sp with pendingTermPos := some (sp.buf.length - 1), pendingDotRun := 1 }, [])
    else if sp.bufferEndsWithEllipsis then
      ({ sp with pendingTermPos := none, pendingDotRun := 0 }, [])
    else
      ({ sp with pendingTermPos := some (sp.buf.length - 1), pendingDotRun := if isDot c then 1 else 0 }, [])
  else
    let sp := { sp with charsSinceTerminator := sp.charsSinceTerminator + 1 }
    if sp.charsSinceTerminator ≥ sp.cfg.maxSentenceChars ∧ (isWhitespace c || c = 0x2C) then sp.flushBuffer
    else (sp, [])

/-- Appends a byte; three backticks switch between prose and a code fence. -/
def appendByte (sp : SentenceSplitter) (c : UInt8) : SentenceSplitter :=
  { sp with
    buf := sp.buf ++ [c]
    mode :=
      if sp.cfg.detectCodeFences && kFenceOpen.isSuffixOf (sp.buf ++ [c]) then
        if sp.mode = .normal then .inCodeFence else .normal
      else sp.mode }

/-- The byte `c`, already appended, with a terminator deferred at `pos`. -/
def pushPending (sp : SentenceSplitter) (c : UInt8) (pos : Nat) : SentenceSplitter × List Text :=
  let dropPending :=
    { sp with pendingTermPos := none, pendingDotRun := 0, charsSinceTerminator := sp.charsSinceTerminator + 1 }
  if isDot c && (sp.buf[pos]?).any isDot then ({ sp with pendingDotRun := sp.pendingDotRun + 1 }, [])
  else if isDigit c then (dropPending, [])
  else if sp.pendingDotRun ≥ 2 then (dropPending, [])
  else
    let resolved := sp.resolvePending pos
    let settled := resolved.1.pushSettled c
    (settled.1, resolved.2 ++ settled.2)

/-- What the loop in `push` does once the byte is appended. -/
def pushAppended (sp : SentenceSplitter) (c : UInt8) : SentenceSplitter × List Text :=
  if sp.mode = .inCodeFence then ({ sp with charsSinceTerminator := sp.charsSinceTerminator + 1 }, [])
  else match sp.pendingTermPos with
    | none => sp.pushSettled c
    | some pos => sp.pushPending c pos

/-- The body of the loop in `push`. -/
def pushChar (sp : SentenceSplitter) (c : UInt8) : SentenceSplitter × List Text :=
  (sp.appendByte c).pushAppended c

def push (sp : SentenceSplitter) : Text → SentenceSplitter × List Text
  | [] => (sp, [])
  | c :: cs =>
    let one := sp.pushChar c
    let rest := one.1.push cs
    (rest.1, one.2 ++ rest.2)

def flush (sp : SentenceSplitter) : SentenceSplitter × List Text :=
  let sp := { sp with pendingTermPos := none, pendingDotRun := 0 }
  let flushed := if sp.buf = [] then (sp, []) else sp.flushBuffer
  ({ flushed.1 with charsSinceTerminator := 0 }, flushed.2)

/-! ### The deferred terminator -/

/-- Between two bytes the deferred terminator and the dots that continue it end the buffer; none is deferred in a code
fence. -/
structure Settled (sp : SentenceSplitter) : Prop where
  pending : ∀ pos, sp.pendingTermPos = some pos → ∃ head term dots, sp.buf = head ++ term :: dots ∧
    head.length = pos ∧ isTerminator term ∧ (∀ d ∈ dots, isDot d ∧ isDot term) ∧
      sp.pendingDotRun = dots.length + if isDot term then 1 else 0
  fence : sp.mode = .inCodeFence → sp.pendingTermPos = none

namespace Settled

variable {sp : SentenceSplitter}

lemma of_none (h : sp.pendingTermPos = none) : sp.Settled := ⟨fun pos hpos => by simp [h] at hpos, fun _ => h⟩

lemma new (cfg : SentenceSplitterConfig) : Settled { cfg := cfg } := of_none rfl

lemma normal (h : sp.Settled) (hp : sp.pendingTermPos.isSome) : sp.mode = .normal := by
  cases hm : sp.mode with
  | normal => rfl
  | inCodeFence =>
    rw [h.fence hm] at hp
    cases hp

lemma last (h : sp.Settled) (hp : sp.pendingTermPos.isSome) : sp.buf.getLast?.any isTerminator := by
  obtain ⟨pos, hpos⟩ := Option.isSome_iff_exists.mp hp
  obtain ⟨head, term, dots, hbuf, -, hterm, hdots, -⟩ := h.pending pos hpos
  rw [hbuf, List.getLast?_append, List.getLast?_cons, Option.some_or]
  cases hd : dots.getLast? with
  | none => simpa [hd] using hterm
  | some d => simp [isTerminator, (hdots d (List.mem_of_getLast? hd)).1]

lemma single (h : sp.Settled) {pos : Nat} (hpos : sp.pendingTermPos = some pos) (hrun : sp.pendingDotRun < 2) :
    pos + 1 = sp.buf.length := by
  obtain ⟨head, term, dots, hbuf, rfl, -, hdots, hcount⟩ := h.pending pos hpos
  cases dots with
  | nil => simp [hbuf]
  | cons d dots =>
    rw [if_pos (hdots d List.mem_cons_self).2, List.length_cons] at hcount
    omega

end Settled

lemma of_fence {s : Text} {c : UInt8} (h : kFenceOpen.isSuffixOf (s ++ [c])) :
    c = 0x60 ∧ ∃ t, s = t ++ [0x60, 0x60] := by
  obtain ⟨t, ht⟩ := List.isSuffixOf_iff_suffix.1 h
  have hs : t ++ [0x60, 0x60] ++ [0x60] = s ++ [c] := by
    rw [← ht, List.append_assoc]
    rfl
  obtain ⟨hleft, hright⟩ := List.append_inj' hs rfl
  exact ⟨(List.singleton_inj.1 hright).symm, t, hleft.symm⟩

/-- A deferred terminator keeps the next byte outside code: there is no place for a third backtick. -/
lemma Settled.mode_append {sp : SentenceSplitter} (h : sp.Settled) (hp : sp.pendingTermPos.isSome) (c : UInt8) :
    (sp.appendByte c).mode = .normal := by
  have hfence : ¬kFenceOpen.isSuffixOf (sp.buf ++ [c]) := by
    intro hf
    obtain ⟨_, t, ht⟩ := of_fence hf
    have hlast := h.last hp
    rw [ht] at hlast
    simp [isTerminator, isDot] at hlast
  simp [appendByte, hfence, h.normal hp]

/-- A terminator that has just come in is deferred at the end of the buffer, or no terminator is. -/
lemma settled_pushSettled {sp : SentenceSplitter} {c : UInt8} {before : Text} (hmode : sp.mode = .normal)
    (hbuf : sp.buf = before ++ [c]) (hnone : sp.pendingTermPos = none) : (sp.pushSettled c).1.Settled := by
  have hdefer : isTerminator c → ∀ sp' : SentenceSplitter, sp'.buf = sp.buf → sp'.mode = sp.mode →
      sp'.pendingTermPos = some (sp.buf.length - 1) → sp'.pendingDotRun = (if isDot c then 1 else 0) → sp'.Settled := by
    intro hc sp' hb hm hp hrun
    refine ⟨fun pos hpos => ⟨before, c, [], by rw [hb, hbuf], ?_, hc, by simp, by simp [hrun]⟩, fun hfence => ?_⟩
    · rw [hp, Option.some.injEq] at hpos
      rw [← hpos, hbuf, List.length_append, List.length_singleton, Nat.add_sub_cancel]
    · rw [hm, hmode] at hfence
      cases hfence
  unfold pushSettled
  split
  · rename_i hc
    split
    · exact .of_none rfl
    · split
      · rename_i hdecimal
        have hdot : isDot c := by simpa [bufferEndsWithDecimal, hbuf] using (Bool.and_eq_true_iff.mp hdecimal).1
        exact hdefer hc _ rfl rfl rfl (if_pos hdot).symm
      · split
        · exact .of_none rfl
        · exact hdefer hc _ rfl rfl rfl rfl
  · dsimp only
    split
    · exact .of_none rfl
    · exact .of_none hnone

lemma Settled.pushChar {sp : SentenceSplitter} (h : sp.Settled) (c : UInt8) : (sp.pushChar c).1.Settled := by
  unfold SentenceSplitter.pushChar pushAppended
  split
  · rename_i hfence
    cases hp : sp.pendingTermPos with
    | none => exact .of_none hp
    | some pos =>
      rw [h.mode_append (by simp [hp])] at hfence
      cases hfence
  · rename_i hmode
    have hnormal : (sp.appendByte c).mode = .normal := by
      cases hm : (sp.appendByte c).mode with
      | normal => rfl
      | inCodeFence => exact absurd hm hmode
    split
    · rename_i hnone
      exact settled_pushSettled hnormal rfl hnone
    · rename_i pos hpos
      obtain ⟨head, term, dots, hbuf, hlen, hterm, hdots, hrun⟩ := h.pending pos hpos
      unfold pushPending
      dsimp only
      split
      · -- a dot after dots
        rename_i hdot
        have hprev : (sp.appendByte c).buf[pos]? = some term := by
          show (sp.buf ++ [c])[pos]? = some term
          rw [hbuf, ← hlen]
          simp
        rw [hprev, Bool.and_eq_true] at hdot
        refine ⟨fun pos' hpos' => ⟨head, term, dots ++ [c], ?_, ?_, hterm, ?_, ?_⟩, fun hfence => absurd hfence hmode⟩
        · show sp.buf ++ [c] = _
          rw [hbuf]
          simp
        · have heq : some pos = some pos' := hpos.symm.trans hpos'
          rw [hlen, Option.some.inj heq]
        · intro d hd
          cases List.mem_append.mp hd with
          | inl hold => exact hdots d hold
          | inr hnew =>
            rw [List.mem_singleton.mp hnew]
            exact ⟨hdot.1, by simpa using hdot.2⟩
        · show sp.pendingDotRun + 1 = _
          rw [hrun, List.length_append, List.length_singleton]
          omega
      · split
        · exact .of_none rfl
        · split
          · exact .of_none rfl
          · -- the buffer is cut after the terminator; what is left ends with the byte
            have hcut : ((sp.appendByte c).resolvePending pos).1.buf = dots ++ [c] := by
              show (sp.buf ++ [c]).drop (pos + 1) = dots ++ [c]
              rw [hbuf, ← hlen]
              simp
            show (((sp.appendByte c).resolvePending pos).1.pushSettled c).1.Settled
            exact settled_pushSettled hnormal hcut rfl

lemma Settled.push {sp : SentenceSplitter} (h : sp.Settled) (text : Text) : (sp.push text).1.Settled := by
  induction text generalizing sp with
  | nil => exact h
  | cons c cs ih => exact ih (h.pushChar c)

/-! ### Emitted sentences are not empty -/

lemma sentenceOf_nonempty {s t : Text} (h : t ∈ sentenceOf s) : t ≠ [] := by
  unfold sentenceOf at h
  split at h
  · simp at h
  · rename_i hs
    rw [List.mem_singleton.1 h]
    exact hs

lemma pushSettled_nonempty {sp : SentenceSplitter} {c : UInt8} {t : Text} (h : t ∈ (sp.pushSettled c).2) :
    t ≠ [] := by
  unfold pushSettled at h
  split at h
  · repeat' split at h
    all_goals simp at h
  · dsimp only at h
    split at h
    · exact sentenceOf_nonempty h
    · simp at h

lemma pushPending_nonempty {sp : SentenceSplitter} {c : UInt8} {pos : Nat} {t : Text}
    (h : t ∈ (sp.pushPending c pos).2) : t ≠ [] := by
  simp only [pushPending] at h
  split at h
  · simp at h
  · split at h
    · simp at h
    · split at h
      · simp at h
      · rcases List.mem_append.1 h with h | h
        · exact sentenceOf_nonempty h
        · exact pushSettled_nonempty h

lemma pushChar_nonempty {sp : SentenceSplitter} {c : UInt8} {t : Text} (h : t ∈ (sp.pushChar c).2) : t ≠ [] := by
  simp only [pushChar, pushAppended] at h
  split at h
  · simp at h
  · split at h
    · exact pushSettled_nonempty h
    · exact pushPending_nonempty h

theorem push_nonempty {sp : SentenceSplitter} {text t : Text} (h : t ∈ (sp.push text).2) : t ≠ [] := by
  induction text generalizing sp with
  | nil => simp [push] at h
  | cons c cs ih =>
    rcases List.mem_append.1 h with h | h
    · exact pushChar_nonempty h
    · exact ih h

theorem flush_nonempty {sp : SentenceSplitter} {t : Text} (h : t ∈ sp.flush.2) : t ≠ [] := by
  simp only [flush] at h
  split at h
  · simp at h
  · exact sentenceOf_nonempty h

example : ((SentenceSplitter.push {} (ascii "Hello, world. How are you?")).2,
    (SentenceSplitter.push {} (ascii "Hello, world. How are you?")).1.flush.2) =
    ([ascii "Hello, world."], [ascii "How are you?"]) := by decide +kernel

end SentenceSplitter

end Acva
