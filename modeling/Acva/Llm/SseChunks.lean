import Acva.Llm.SseParser
import Mathlib.Data.List.Basic

/-!
# Chunks of a stream

What `SseParser` reports of a stream that comes in chunks. An event is reported when the blank line after it is in
the buffer, and the last one by `finish`; line by line the stream says the same however it was cut.
-/

namespace Acva

namespace SseParser

/-- One report after another; nothing is reported after the sentinel. -/
def andThen (x y : Bool × List SseCallback) : Bool × List SseCallback := if x.1 then x else (y.1, x.2 ++ y.2)

@[simp] lemma andThen_nil (y : Bool × List SseCallback) : andThen (false, []) y = y := rfl

lemma andThen_of_done {x : Bool × List SseCallback} (h : x.1 = true) (y : Bool × List SseCallback) :
    andThen x y = x := if_pos h

lemma andThen_of_open {x : Bool × List SseCallback} (h : x.1 = false) (y : Bool × List SseCallback) :
    andThen x y = (y.1, x.2 ++ y.2) := if_neg (by simp [h])

lemma andThen_assoc (x y z : Bool × List SseCallback) :
    andThen (andThen x y) z = andThen x (andThen y z) := by
  obtain ⟨xd, xs⟩ := x
  obtain ⟨yd, ys⟩ := y
  cases xd <;> cases yd <;> simp [andThen]

lemma emitEvents_cons (t : Text) (ts : List Text) :
    emitEvents (t :: ts) = andThen (emitEvent t) (emitEvents ts) := rfl

lemma emitLines_append (a b : List Text) : emitLines (a ++ b) = andThen (emitLines a) (emitLines b) := by
  induction a with
  | nil => rfl
  | cons line a ih =>
    simp only [List.cons_append, emitLines, ih]
    split
    · simp only [andThen]
      split <;> simp
    · split
      · split
        · rfl
        · simp only [andThen]
          split <;> simp
      · rfl

lemma lines_append (line a b : Text) : lines line (a ++ 0x0A :: b) = lines line a ++ lines [] b := by
  induction a generalizing line with
  | nil => simp [lines]
  | cons c a ih =>
    simp only [List.cons_append, lines]
    split
    · rw [ih, List.cons_append]
    · exact ih _

/-- The complete events and then the rest, with whatever follows it, say what the stream says line by line. -/
lemma emit_splitEvents (cur s t : Text) :
    andThen (emitEvents (splitEvents cur s).1) (emitLines (lines [] ((splitEvents cur s).2 ++ t))) =
      emitLines (lines [] (cur ++ s ++ t)) := by
  induction cur, s using splitEvents.induct with
  | case1 cur s ih =>
    have hblank : cur ++ 0x0A :: 0x0A :: s ++ t = cur ++ 0x0A :: ([] ++ 0x0A :: (s ++ t)) := by simp
    rw [splitEvents, emitEvents_cons, andThen_assoc, ih, hblank, lines_append, lines_append, emitLines_append,
      emitLines_append]
    rfl
  | case2 cur c s hc ih =>
    rw [splitEvents]
    · rw [ih]
      simp
    · exact hc
  | case3 cur =>
    rw [splitEvents]
    simp [emitEvents]

/-- The parser and what it reports when chunks come in one after the other. -/
def feedAll (p : SseParser) : List Text → SseParser × List SseCallback
  | [] => (p, [])
  | chunk :: chunks =>
    let r := p.feed chunk
    let rest := feedAll r.1 chunks
    (rest.1, r.2 ++ rest.2)

/-- All that is reported of a response. -/
def session (chunks : List Text) : List SseCallback :=
  let r := feedAll {} chunks
  r.2 ++ r.1.finish.2

lemma feedAll_of_done {p : SseParser} (h : p.doneSeen = true) (chunks : List Text) : feedAll p chunks = (p, []) := by
  induction chunks with
  | nil => rfl
  | cons chunk chunks ih =>
    have hfeed : p.feed chunk = (p, []) := if_pos h
    rw [feedAll, hfeed, ih]
    rfl

lemma finish_callbacks {p : SseParser} (h : p.doneSeen = false) : p.finish.2 = (emitLines (lines [] p.buffer)).2 := by
  unfold finish
  rw [if_neg (by simp [h])]
  split
  · rename_i hempty
    rw [hempty]
    rfl
  · rfl

lemma feedAll_callbacks {p : SseParser} (h : p.doneSeen = false) (chunks : List Text) :
    (feedAll p chunks).2 ++ (feedAll p chunks).1.finish.2 =
      (emitLines (lines [] (p.buffer ++ chunks.flatten))).2 := by
  induction chunks generalizing p with
  | nil =>
    rw [List.flatten_nil, List.append_nil]
    exact finish_callbacks h
  | cons chunk chunks ih =>
    have hsplit := emit_splitEvents [] (p.buffer ++ chunk) chunks.flatten
    rw [List.nil_append, List.append_assoc] at hsplit
    rw [List.flatten_cons, ← hsplit]
    simp only [feedAll, feed, h, Bool.false_eq_true, ↓reduceIte]
    cases hdone : (emitEvents (splitEvents [] (p.buffer ++ chunk)).1).1 with
    | true =>
      rw [feedAll_of_done rfl, andThen_of_done hdone]
      simp [finish]
    | false =>
      rw [List.append_assoc, ih rfl, andThen_of_open hdone]
      rfl

/-- Line by line the stream says what is reported of it. -/
theorem session_eq (chunks : List Text) : session chunks = (emitLines (lines [] chunks.flatten)).2 :=
  feedAll_callbacks rfl chunks

/-- The sentinel is reported once, and last. -/
structure Closes (r : Bool × List SseCallback) : Prop where
  opened : r.1 = false → .done ∉ r.2
  closed : r.1 = true → ∃ before, r.2 = before ++ [.done] ∧ .done ∉ before

lemma Closes.cons {r : Bool × List SseCallback} (h : Closes r) {c : SseCallback} (hc : c ≠ .done) :
    Closes (r.1, c :: r.2) := by
  refine ⟨fun hopen => ?_, fun hdone => ?_⟩
  · rw [List.mem_cons, not_or]
    exact ⟨hc.symm, h.opened hopen⟩
  · obtain ⟨before, hbefore, hnot⟩ := h.closed hdone
    refine ⟨c :: before, by simp only [hbefore, List.cons_append], ?_⟩
    rw [List.mem_cons, not_or]
    exact ⟨hc.symm, hnot⟩

lemma closes_emitLines (ls : List Text) : Closes (emitLines ls) := by
  induction ls with
  | nil => exact ⟨fun _ => by simp [emitLines], fun h => by simp [emitLines] at h⟩
  | cons line ls ih =>
    unfold emitLines
    split
    · exact ih.cons (by simp)
    · split
      · simp only
        split
        · exact ⟨fun h => by simp at h, fun _ => ⟨[], rfl, by simp⟩⟩
        · exact ih.cons (by simp)
      · exact ih

lemma Closes.last {r : Bool × List SseCallback} (h : Closes r) {before after : List SseCallback}
    (hsplit : r.2 = before ++ .done :: after) : after = [] := by
  have hmem : SseCallback.done ∈ r.2 := hsplit ▸ List.mem_append_right _ List.mem_cons_self
  cases hr : r.1 with
  | false => exact absurd hmem (h.opened hr)
  | true =>
    obtain ⟨calls, hcalls, hnot⟩ := h.closed hr
    rcases List.eq_nil_or_concat' after with rfl | ⟨rest, c, rfl⟩
    · rfl
    · rw [hcalls, ← List.cons_append, ← List.append_assoc] at hsplit
      obtain ⟨hbefore, _⟩ := List.append_inj' hsplit rfl
      exact absurd (hbefore ▸ List.mem_append_right _ List.mem_cons_self) hnot

lemma Closes.once {r : Bool × List SseCallback} (h : Closes r) : r.2.count .done ≤ 1 := by
  cases hr : r.1 with
  | false =>
    rw [List.count_eq_zero.2 (h.opened hr)]
    exact Nat.zero_le 1
  | true =>
    obtain ⟨calls, hcalls, hnot⟩ := h.closed hr
    rw [hcalls, List.count_append, List.count_eq_zero.2 hnot, List.count_singleton_self]

/-- However a stream is cut into chunks, the same is reported of it as when it comes in one piece. The end of the
stream is reported at most once, and nothing after it. -/
theorem session_chunks (chunks : List Text) :
    session chunks = session [chunks.flatten] ∧ (session chunks).count .done ≤ 1 ∧
      ∀ before after, session chunks = before ++ .done :: after → after = [] := by
  have hcloses := closes_emitLines (lines [] chunks.flatten)
  have hwhole : session [chunks.flatten] = session chunks := by
    rw [session_eq, session_eq, List.flatten_singleton]
  rw [session_eq chunks] at hwhole ⊢
  exact ⟨hwhole.symm, hcloses.once, fun _ _ hsplit => hcloses.last hsplit⟩

example : session [ascii "data: a\n", ascii "\ndata: [DO", ascii "NE]\n\n"] =
    [.data (ascii "a"), .done] := by decide

end SseParser

end Acva
