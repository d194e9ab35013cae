import Acva.Dialogue.SentenceSplitter
import Acva.Lib.Runs
import Mathlib.Data.List.DropRight

/-!
# Indices of the sentence splitter

`push` once more, with every index and iterator of the source and `none` for one that is out of range. In the states
that the splitter reaches it is the same as `push`: the deferred terminator is where `pending_term_pos_` says, with
nothing but dots behind it.
-/

namespace Acva

namespace SentenceSplitter

/-! ### The source with its indices -/

/-- `a - b` of a `std::size_t` that does not wrap. -/
def sub? (a b : Nat) : Option Nat := if b ≤ a then some (a - b) else none

/-- `starts_with_at`, past its test of the lengths. -/
def startsWithAt (s : Text) (pos : Nat) : Text → Option Bool
  | [] => some true
  | n :: needle => do
    let c ← s[pos]?
    if c ≠ n then some false else startsWithAt s (pos + 1) needle

/-- `while (i > 0)`: back over the bytes with `p` that stand before `i`. -/
def scanBack (p : UInt8 → Bool) (buf : Text) : Nat → Option Nat
  | 0 => some 0
  | i + 1 => do
    let c ← buf[i]?
    if p c then scanBack p buf i else some (i + 1)

/-- `for (k = i; k < end; ++k)`. -/
def readRange (buf : Text) (i stop : Nat) : Option Text := (List.range' i (stop - i)).mapM fun k => buf[k]?

def lastWordIsAbbreviationAt (sp : SentenceSplitter) : Option Bool :=
  if sp.buf.length < 2 then some false
  else do
    let stop ← sub? sp.buf.length 1
    let back ← sp.buf[stop]?
    if !isDot back then some false
    else
      let i ← scanBack (fun c => isLower c || isUpper c || isDot c || isDigit c) sp.buf stop
      if i = stop then some false
      else
        let word ← readRange sp.buf i stop
        some (kAbbreviations.contains (word.map toLower))

def bufferEndsWithListMarkerAt (sp : SentenceSplitter) : Option Bool :=
  if sp.buf.length < 2 then some false
  else do
    let stop ← sub? sp.buf.length 1
    let back ← sp.buf[stop]?
    if !isDot back then some false
    else
      let i ← scanBack (fun c => isDigit c || isLower c || isUpper c) sp.buf stop
      if i = stop then some false
      else
        let len ← sub? stop i
        if len < 1 || len > 3 then some false
        else if i > 0 then
          let before ← sub? i 1
          let prev ← sp.buf[before]?
          some (isWhitespace prev)
        else some true

def bufferEndsWithEllipsisAt (sp : SentenceSplitter) : Option Bool :=
  if sp.buf.length ≥ 3 then do
    let third ← sub? sp.buf.length 3
    let second ← sub? sp.buf.length 2
    let first ← sub? sp.buf.length 1
    let a ← sp.buf[third]?
    let b ← sp.buf[second]?
    let d ← sp.buf[first]?
    some ((isDot d && isDot b && isDot a) || (a = 0xE2 && b = 0x80 && d = 0xA6))
  else some false

def bufferEndsWithDecimalAt (sp : SentenceSplitter) : Option Bool :=
  if sp.buf.length < 2 then some false
  else do
    let last ← sub? sp.buf.length 1
    let back ← sp.buf[last]?
    if !isDot back then some false
    else
      let before ← sub? sp.buf.length 2
      let c ← sp.buf[before]?
      some (isDigit c)

/-- The iterators `begin() + pos + 1` must not pass `end()`. -/
def resolvePendingAt (sp : SentenceSplitter) (pos : Nat) : Option (SentenceSplitter × List Text) :=
  if pos + 1 ≤ sp.buf.length then some (sp.resolvePending pos) else none

def pushSettledAt (sp : SentenceSplitter) (c : UInt8) : Option (SentenceSplitter × List Text) :=
  if isTerminator c then do
    let abbreviation ← sp.lastWordIsAbbreviationAt
    let marker ← if abbreviation then some true else sp.bufferEndsWithListMarkerAt
    if marker then some ({ sp with pendingTermPos := none, pendingDotRun := 0 }, [])
    else
      let last ← sub? sp.buf.length 1
      let decimal ← sp.bufferEndsWithDecimalAt
      if decimal then some ({ sp with pendingTermPos := some last, pendingDotRun := 1 }, [])
      else
        let ellipsis ← sp.bufferEndsWithEllipsisAt
        if ellipsis then some ({ sp with pendingTermPos := none, pendingDotRun := 0 }, [])
        else some ({ sp with pendingTermPos := some last, pendingDotRun := if isDot c then 1 else 0 }, [])
  else
    let sp := { sp with charsSinceTerminator := sp.charsSinceTerminator + 1 }
    if sp.charsSinceTerminator ≥ sp.cfg.maxSentenceChars ∧ (isWhitespace c || c = 0x2C) then some sp.flushBuffer
    else some (sp, [])

/-- The test for three backticks once the byte is appended. -/
def fenceAt (sp : SentenceSplitter) (c : UInt8) : Option Bool :=
  if sp.cfg.detectCodeFences && sp.buf.length + 1 ≥ kFenceOpen.length then do
    let pos ← sub? (sp.buf ++ [c]).length kFenceOpen.length
    startsWithAt (sp.buf ++ [c]) pos kFenceOpen
  else some false

def pushPendingAt (sp : SentenceSplitter) (c : UInt8) (pos : Nat) : Option (SentenceSplitter × List Text) := do
  let prevTerm ← sp.buf[pos]?
  let dropPending :=
    { sp with pendingTermPos := none, pendingDotRun := 0, charsSinceTerminator := sp.charsSinceTerminator + 1 }
  if isDot c && isDot prevTerm then some ({ sp with pendingDotRun := sp.pendingDotRun + 1 }, [])
  else if isDigit c then some (dropPending, [])
  else if sp.pendingDotRun ≥ 2 then some (dropPending, [])
  else
    let resolved ← sp.resolvePendingAt pos
    let settled ← resolved.1.pushSettledAt c
    some (settled.1, resolved.2 ++ settled.2)

/-- What the loop in `push` does once the byte is appended. -/
def pushAppendedAt (sp : SentenceSplitter) (c : UInt8) : Option (SentenceSplitter × List Text) :=
  if sp.mode = .inCodeFence then some ({ sp with charsSinceTerminator := sp.charsSinceTerminator + 1 }, [])
  else
    match sp.pendingTermPos with
    | none => sp.pushSettledAt c
    | some pos => sp.pushPendingAt c pos

/-- The body of the loop in `push`. -/
def pushCharAt (sp : SentenceSplitter) (c : UInt8) : Option (SentenceSplitter × List Text) := do
  let fence ← sp.fenceAt c
  let mode := if fence then (if sp.mode = .normal then .inCodeFence else .normal) else sp.mode
  ({ sp with buf := sp.buf ++ [c], mode := mode }).pushAppendedAt c

def pushAt (sp : SentenceSplitter) : Text → Option (SentenceSplitter × List Text)
  | [] => some (sp, [])
  | c :: cs => do
    let one ← sp.pushCharAt c
    let rest ← one.1.pushAt cs
    some (rest.1, one.2 ++ rest.2)

/-! ### No index is out of range -/

lemma sub?_eq {a b : Nat} (h : b ≤ a) : sub? a b = some (a - b) := if_pos h

lemma startsWithAt_eq {s needle : Text} {pos : Nat} (h : pos + needle.length ≤ s.length) :
    startsWithAt s pos needle = some (needle.isPrefixOf (s.drop pos)) := by
  induction needle generalizing pos with
  | nil => rfl
  | cons n needle ih =>
    rw [List.length_cons] at h
    have hpos : pos < s.length := by omega
    have hrest := ih (show pos + 1 + needle.length ≤ s.length by omega)
    rw [startsWithAt, List.getElem?_eq_getElem hpos, List.drop_eq_getElem_cons hpos]
    generalize s[pos] = c
    by_cases hc : c = n
    · simp [hc, hrest, List.isPrefixOf]
    · simp [hc, Ne.symm hc, List.isPrefixOf]

lemma startsWithAt_end {s needle : Text} (h : needle.length ≤ s.length) :
    startsWithAt s (s.length - needle.length) needle = some (needle.isSuffixOf s) := by
  rw [startsWithAt_eq (by omega)]
  congr 1
  rw [Bool.eq_iff_iff, List.isPrefixOf_iff_prefix, List.isSuffixOf_iff_suffix]
  have hlen : (s.drop (s.length - needle.length)).length = needle.length := by
    rw [List.length_drop]
    omega
  constructor
  · intro hpre
    rw [hpre.eq_of_length hlen.symm]
    exact List.drop_suffix _ _
  · intro hsuffix
    exact ⟨[], by rw [List.append_nil]; exact List.suffix_iff_eq_drop.mp hsuffix⟩

/-- The scan stops where the longest run of bytes with `p` begins. -/
lemma scanBack_eq (p : UInt8 → Bool) {buf : Text} {i : Nat} (h : i ≤ buf.length) :
    ∃ j, scanBack p buf i = some j ∧ j ≤ i ∧ (buf.take i).drop j = ((buf.take i).reverse.takeWhile p).reverse := by
  induction i with
  | zero => exact ⟨0, rfl, le_rfl, by simp⟩
  | succ i ih =>
    have hi : i < buf.length := by omega
    have htake : buf.take (i + 1) = buf.take i ++ [buf[i]] := List.take_succ_eq_append_getElem hi
    have hlen : (buf.take i).length = i := List.length_take_of_le (by omega)
    rw [scanBack, List.getElem?_eq_getElem hi, htake, List.reverse_append]
    simp only [Option.bind_eq_bind, Option.bind_some, List.reverse_singleton, List.singleton_append]
    cases hp : p buf[i] with
    | true =>
      obtain ⟨j, hscan, hle, hword⟩ := ih (by omega)
      refine ⟨j, by simpa using hscan, by omega, ?_⟩
      rw [List.takeWhile_cons_of_pos hp, List.reverse_cons, ← hword, List.drop_append_of_le_length (by omega)]
    | false =>
      refine ⟨i + 1, by simp, le_rfl, ?_⟩
      rw [List.takeWhile_cons_of_neg (by simp [hp])]
      apply List.drop_eq_nil_of_le
      rw [List.length_append, hlen]
      rfl

lemma readRange_eq {buf : Text} {i stop : Nat} (h : stop ≤ buf.length) (hle : i ≤ stop) :
    readRange buf i stop = some ((buf.take stop).drop i) := by
  unfold readRange
  obtain ⟨n, rfl⟩ := Nat.exists_eq_add_of_le hle
  rw [Nat.add_sub_cancel_left]
  clear hle
  induction n generalizing i with
  | zero => simp
  | succ n ih =>
    have hi : i < buf.length := by omega
    have hrest := ih (show i + 1 + n ≤ buf.length by omega)
    have hlt : i < (buf.take (i + (n + 1))).length := by
      rw [List.length_take]
      omega
    rw [List.range'_succ, List.mapM_cons, List.getElem?_eq_getElem hi, hrest, List.drop_eq_getElem_cons hlt,
      show i + 1 + n = i + (n + 1) by omega]
    simp

lemma scanBack_lastWord (p : UInt8 → Bool) {buf : Text} (h : buf.length - 1 < buf.length) :
    ∃ j, scanBack p buf (buf.length - 1) = some j ∧ j ≤ buf.length - 1 ∧
      readRange buf j (buf.length - 1) = some (lastWord p buf) ∧ (lastWord p buf).length = buf.length - 1 - j := by
  obtain ⟨j, hscan, hle, hword⟩ := scanBack_eq p h.le
  have hdrop : (buf.take (buf.length - 1)).drop j = lastWord p buf := by
    rw [hword, ← List.dropLast_eq_take]
    rfl
  refine ⟨j, hscan, hle, ?_, ?_⟩
  · rw [readRange_eq h.le hle, hdrop]
  · rw [← hdrop, List.length_drop, List.length_take, Nat.min_eq_left h.le]

lemma getLast?_eq {buf : Text} (h : buf.length - 1 < buf.length) : buf.getLast? = some buf[buf.length - 1] := by
  rw [List.getLast?_eq_getElem?, List.getElem?_eq_getElem h]

lemma lastWord_of_short (p : UInt8 → Bool) {buf : Text} (h : buf.length < 2) : lastWord p buf = [] := by
  have hnil : buf.dropLast = [] := by
    apply List.eq_nil_of_length_eq_zero
    rw [List.length_dropLast]
    omega
  simp [lastWord, hnil]

lemma lastWordIsAbbreviationAt_eq (sp : SentenceSplitter) :
    sp.lastWordIsAbbreviationAt = some sp.lastWordIsAbbreviation := by
  unfold lastWordIsAbbreviationAt lastWordIsAbbreviation
  split
  · rename_i hshort
    simp [lastWord_of_short _ hshort]
  · rename_i hlong
    have hlast : sp.buf.length - 1 < sp.buf.length := by omega
    obtain ⟨j, hscan, hle, hrange, hlen⟩ :=
      scanBack_lastWord (fun c => isLower c || isUpper c || isDot c || isDigit c) hlast
    rw [sub?_eq (by omega), getLast?_eq hlast]
    simp only [Option.bind_eq_bind, Option.bind_some, List.getElem?_eq_getElem hlast, Option.any_some, hscan, hrange]
    generalize lastWord _ sp.buf = word at hlen
    cases isDot sp.buf[sp.buf.length - 1] with
    | false => rfl
    | true =>
      cases word with
      | nil =>
        rw [List.length_nil] at hlen
        simp [show j = sp.buf.length - 1 by omega]
      | cons w word =>
        rw [List.length_cons] at hlen
        simp [show j ≠ sp.buf.length - 1 by omega]

lemma bufferEndsWithListMarkerAt_eq (sp : SentenceSplitter) :
    sp.bufferEndsWithListMarkerAt = some sp.bufferEndsWithListMarker := by
  unfold bufferEndsWithListMarkerAt bufferEndsWithListMarker
  split
  · rename_i hshort
    simp [lastWord_of_short _ hshort]
  · rename_i hlong
    have hlast : sp.buf.length - 1 < sp.buf.length := by omega
    obtain ⟨j, hscan, hle, -, hlen⟩ := scanBack_lastWord (fun c => isDigit c || isLower c || isUpper c) hlast
    have hbefore : sp.buf.dropLast.take (sp.buf.length - 1 - (sp.buf.length - 1 - j)) = sp.buf.take j := by
      rw [List.dropLast_eq_take, List.take_take]
      congr 1
      omega
    rw [sub?_eq (by omega), getLast?_eq hlast]
    simp only [Option.bind_eq_bind, Option.bind_some, List.getElem?_eq_getElem hlast, Option.any_some, hscan, hlen,
      hbefore]
    cases isDot sp.buf[sp.buf.length - 1] with
    | false => rfl
    | true =>
      by_cases hj : j = sp.buf.length - 1
      · simp [hj]
      · have hsome : ¬sp.buf.length - 1 - j < 1 := by omega
        simp only [Bool.not_true, Bool.false_eq_true, if_false, if_neg hj, sub?_eq hle, Option.bind_some]
        by_cases hlong : sp.buf.length - 1 - j > 3
        · simp [hlong, show ¬sp.buf.length - 1 - j ≤ 3 by omega]
        · cases j with
          | zero =>
            have hle : sp.buf.length - 1 ≤ 3 := by omega
            have hpos : 1 ≤ sp.buf.length - 1 := by omega
            have hne : sp.buf.length - 1 ≠ 0 := by omega
            simp [hle, hpos, hne]
          | succ j =>
            have hj : j < sp.buf.length := by omega
            rw [List.take_succ_eq_append_getElem hj, List.getLast?_append, List.getLast?_singleton, Option.some_or,
              sub?_eq (show 1 ≤ j + 1 by omega), Nat.add_sub_cancel]
            simp only [Option.bind_some, List.getElem?_eq_getElem hj, Option.all_some]
            simp [hlong, hsome, show sp.buf.length - 1 - (j + 1) ≤ 3 by omega,
              show 1 ≤ sp.buf.length - 1 - (j + 1) by omega]

lemma bufferEndsWithEllipsisAt_eq (sp : SentenceSplitter) :
    sp.bufferEndsWithEllipsisAt = some sp.bufferEndsWithEllipsis := by
  unfold bufferEndsWithEllipsisAt bufferEndsWithEllipsis
  split
  · rename_i hlong
    obtain ⟨a, b, d, hend⟩ : ∃ a b d, sp.buf.drop (sp.buf.length - 3) = [a, b, d] := by
      apply List.length_eq_three.mp
      rw [List.length_drop]
      omega
    have hbuf : sp.buf = sp.buf.take (sp.buf.length - 3) ++ [a, b, d] := by rw [← hend, List.take_append_drop]
    generalize sp.buf.take (sp.buf.length - 3) = front at hbuf
    have hsuffix : ∀ x y z : UInt8, [x, y, z].isSuffixOf (front ++ [a, b, d]) = (x = a && y = b && z = d) := by
      intro x y z
      rw [Bool.eq_iff_iff, List.isSuffixOf_iff_suffix, List.suffix_iff_eq_drop]
      simp [and_assoc]
    have hlen : (front ++ [a, b, d]).length = front.length + 3 := by simp
    have ha : (front ++ [a, b, d])[front.length]? = some a := by simp
    have hb : (front ++ [a, b, d])[front.length + 1]? = some b := by simp
    have hd : (front ++ [a, b, d])[front.length + 2]? = some d := by simp
    rw [hbuf, show ascii "..." = [0x2E, 0x2E, 0x2E] from rfl, hsuffix, hsuffix, hlen,
      sub?_eq (show 3 ≤ front.length + 3 by omega), sub?_eq (show 2 ≤ front.length + 3 by omega),
      sub?_eq (show 1 ≤ front.length + 3 by omega)]
    simp only [Option.bind_eq_bind, Option.bind_some, show front.length + 3 - 3 = front.length by omega,
      show front.length + 3 - 2 = front.length + 1 by omega, show front.length + 3 - 1 = front.length + 2 by omega,
      ha, hb, hd, isDot]
    rw [Option.some.injEq, Bool.eq_iff_iff]
    simp only [Bool.or_eq_true, Bool.and_eq_true, decide_eq_true_eq]
    constructor
    · rintro (⟨⟨hd, hb⟩, ha⟩ | ⟨⟨ha, hb⟩, hd⟩)
      · exact .inl ⟨⟨ha.symm, hb.symm⟩, hd.symm⟩
      · exact .inr ⟨⟨ha.symm, hb.symm⟩, hd.symm⟩
    · rintro (⟨⟨ha, hb⟩, hd⟩ | ⟨⟨ha, hb⟩, hd⟩)
      · exact .inl ⟨⟨hd.symm, hb.symm⟩, ha.symm⟩
      · exact .inr ⟨⟨ha.symm, hb.symm⟩, hd.symm⟩
  · rename_i hshort
    have hnot : ∀ x y z : UInt8, [x, y, z].isSuffixOf sp.buf = false := by
      intro x y z
      rw [Bool.eq_false_iff, ne_eq, List.isSuffixOf_iff_suffix]
      intro hsuffix
      have hle := hsuffix.length_le
      simp only [List.length_cons, List.length_nil] at hle
      omega
    rw [show ascii "..." = [0x2E, 0x2E, 0x2E] from rfl, hnot, hnot]
    rfl

lemma bufferEndsWithDecimalAt_eq (sp : SentenceSplitter) :
    sp.bufferEndsWithDecimalAt = some sp.bufferEndsWithDecimal := by
  unfold bufferEndsWithDecimalAt bufferEndsWithDecimal
  split
  · rename_i hshort
    have hnil : sp.buf.dropLast = [] := by
      apply List.eq_nil_of_length_eq_zero
      rw [List.length_dropLast]
      omega
    simp [hnil]
  · rename_i hlong
    have hlast : sp.buf.length - 1 < sp.buf.length := by omega
    have hbefore : sp.buf.length - 2 < sp.buf.length := by omega
    have hdrop : sp.buf.dropLast.getLast? = some sp.buf[sp.buf.length - 2] := by
      rw [List.getLast?_eq_getElem?, List.length_dropLast, List.getElem?_dropLast, if_pos (by omega),
        show sp.buf.length - 1 - 1 = sp.buf.length - 2 by omega, List.getElem?_eq_getElem hbefore]
    rw [sub?_eq (by omega), sub?_eq (by omega), getLast?_eq hlast, hdrop]
    simp only [Option.bind_eq_bind, Option.bind_some, List.getElem?_eq_getElem hlast, Option.any_some,
      List.getElem?_eq_getElem hbefore]
    cases isDot sp.buf[sp.buf.length - 1] <;> simp

/-- The byte is in the buffer, so that the last index is one. -/
lemma pushSettledAt_eq {sp : SentenceSplitter} (c : UInt8) (h : sp.buf ≠ []) :
    sp.pushSettledAt c = some (sp.pushSettled c) := by
  have hpos := List.length_pos_iff.mpr h
  unfold pushSettledAt pushSettled
  rw [lastWordIsAbbreviationAt_eq, bufferEndsWithListMarkerAt_eq, bufferEndsWithDecimalAt_eq,
    bufferEndsWithEllipsisAt_eq, sub?_eq (show 1 ≤ sp.buf.length by omega)]
  split
  · cases sp.lastWordIsAbbreviation with
    | true => rfl
    | false =>
      cases sp.bufferEndsWithListMarker with
      | true => rfl
      | false =>
        cases sp.bufferEndsWithDecimal with
        | true => rfl
        | false => cases sp.bufferEndsWithEllipsis <;> rfl
  · dsimp only
    split <;> rfl

lemma fenceAt_eq (sp : SentenceSplitter) (c : UInt8) :
    sp.fenceAt c = some (sp.cfg.detectCodeFences && kFenceOpen.isSuffixOf (sp.buf ++ [c])) := by
  have hlen : (sp.buf ++ [c]).length = sp.buf.length + 1 := by simp
  unfold fenceAt
  cases sp.cfg.detectCodeFences with
  | false => rfl
  | true =>
    by_cases hlong : kFenceOpen.length ≤ sp.buf.length + 1
    · rw [if_pos (by simpa using hlong), sub?_eq (by omega)]
      simp only [Option.bind_eq_bind, Option.bind_some, Bool.true_and]
      exact startsWithAt_end (by omega)
    · rw [if_neg (by simpa using hlong), Bool.true_and]
      congr 1
      symm
      rw [Bool.eq_false_iff, ne_eq, List.isSuffixOf_iff_suffix]
      intro hsuffix
      have hle := hsuffix.length_le
      omega

lemma pushPendingAt_eq {sp : SentenceSplitter} {c term : UInt8} {head dots : Text}
    (hbuf : sp.buf = head ++ term :: (dots ++ [c])) :
    sp.pushPendingAt c head.length = some (sp.pushPending c head.length) := by
  have hprev : sp.buf[head.length]? = some term := by
    rw [hbuf]
    simp
  have hfits : head.length + 1 ≤ sp.buf.length := by
    rw [hbuf]
    simp
  have htail : (sp.resolvePending head.length).1.buf ≠ [] := by
    show sp.buf.drop (head.length + 1) ≠ []
    rw [hbuf]
    simp
  unfold pushPendingAt pushPending
  rw [hprev, resolvePendingAt, if_pos hfits]
  simp only [Option.bind_eq_bind, Option.bind_some, Option.any_some, pushSettledAt_eq c htail]
  split
  · rfl
  · split
    · rfl
    · split <;> rfl

/-- In a state that keeps the invariant no index is out of range. -/
theorem pushCharAt_eq {sp : SentenceSplitter} (h : sp.Settled) (c : UInt8) :
    sp.pushCharAt c = some (sp.pushChar c) := by
  have happended : (sp.appendByte c).pushAppendedAt c = some ((sp.appendByte c).pushAppended c) := by
    have hbuf : (sp.appendByte c).buf = sp.buf ++ [c] := rfl
    have hsame : (sp.appendByte c).pendingTermPos = sp.pendingTermPos := rfl
    unfold pushAppendedAt pushAppended
    split
    · rfl
    · cases hpending : sp.pendingTermPos with
      | none =>
        rw [hsame, hpending]
        exact pushSettledAt_eq c (by simp [hbuf])
      | some pos =>
        obtain ⟨head, term, dots, hhead, rfl, -⟩ := h.pending pos hpending
        have hcut : (sp.appendByte c).buf = head ++ term :: (dots ++ [c]) := by simp [hbuf, hhead]
        rw [hsame, hpending]
        exact pushPendingAt_eq hcut
  unfold pushCharAt
  rw [fenceAt_eq]
  exact happended

theorem pushAt_eq {sp : SentenceSplitter} (h : sp.Settled) (text : Text) : sp.pushAt text = some (sp.push text) := by
  induction text generalizing sp with
  | nil => rfl
  | cons c cs ih =>
    rw [pushAt, pushCharAt_eq h c]
    simp only [Option.bind_eq_bind, Option.bind_some, ih (h.pushChar c)]
    rfl

/-! ### Every reachable state -/

def reset (sp : SentenceSplitter) : SentenceSplitter := { cfg := sp.cfg }

end SentenceSplitter

/-- A call of a member function. -/
inductive SplitterCall
  | push (text : Text)
  | flush
  | reset
  deriving DecidableEq, Repr

def SentenceSplitter.call (sp : SentenceSplitter) : SplitterCall → SentenceSplitter
  | .push text => (sp.push text).1
  | .flush => sp.flush.1
  | .reset => sp.reset

lemma SentenceSplitter.Settled.call {sp : SentenceSplitter} (h : sp.Settled) (call : SplitterCall) :
    (sp.call call).Settled := by
  cases call with
  | push text => exact h.push text
  | flush =>
    apply Settled.of_none
    show sp.flush.1.pendingTermPos = none
    unfold flush
    dsimp only
    split <;> rfl
  | reset => exact Settled.of_none rfl

/-- Between any two bytes of any sequence of calls a deferred terminator is a terminator at a valid index, in prose with
nothing but dots of its own run behind it, and whatever is pushed next computes no index or iterator out of range. -/
theorem splitter_representation (cfg : SentenceSplitterConfig) (calls : List SplitterCall) (before : Text) :
    let sp := ((Runs.exec SentenceSplitter.call { cfg := cfg } calls).push before).1
    (∀ pos, sp.pendingTermPos = some pos → ∃ term, sp.buf[pos]? = some term ∧ SentenceSplitter.isTerminator term ∧
        (sp.mode = .normal → ∀ i d, pos < i → sp.buf[i]? = some d →
          SentenceSplitter.isDot d ∧ SentenceSplitter.isDot term)) ∧
      ∀ text, sp.pushAt text = some (sp.push text) := by
  intro sp
  have hcalls : (Runs.exec SentenceSplitter.call { cfg := cfg } calls).Settled :=
    Runs.exec_invariant SentenceSplitter.Settled (fun _ call h => h.call call) (.of_none rfl) calls
  have h : sp.Settled := hcalls.push before
  refine ⟨fun pos hpos => ?_, SentenceSplitter.pushAt_eq h⟩
  obtain ⟨head, term, dots, hbuf, rfl, hterm, hdots, -⟩ := h.pending pos hpos
  refine ⟨term, by simp [hbuf], hterm, fun _ i d hlt hd => hdots d ?_⟩
  rw [hbuf, List.getElem?_append_right hlt.le, show i - head.length = (i - head.length - 1) + 1 by omega,
    List.getElem?_cons_succ] at hd
  exact List.mem_of_getElem? hd

end Acva
