import Acva.Event.Event
import Acva.Lib.Runs

/-!
# Trace spans of turns

The subscriber opens a span at `LlmStarted` and ends it at the first event of its turn that it takes for the last.
`PlaybackFinished` is one: the playback engine sends it once for every sentence.
-/

namespace Acva

inductive SpanStatus
  | ok
  | error (message : Text)
  deriving DecidableEq, Repr

inductive SpanAction
  | opened (turn : TurnId)
  | ended (turn : TurnId) (status : SpanStatus)
  deriving DecidableEq, Repr

def SpanAction.turn : SpanAction → TurnId
  | .opened turn => turn
  | .ended turn _ => turn

/-- The turns whose span is in the map, and what the tracer was told so far. -/
structure SpanTable where
  spans : List TurnId := []
  log : List SpanAction := []
  deriving DecidableEq, Repr

namespace SpanTable

/-- A tracer that is not `active` hands out inactive spans, which are not kept. -/
def openSpanIfAbsent (active : Bool) (tbl : SpanTable) (turn : TurnId) : SpanTable :=
  if turn = kNoTurn then tbl
  else if turn ∈ tbl.spans then tbl
  else if ¬active then tbl
  else { spans := turn :: tbl.spans, log := tbl.log ++ [.opened turn] }

def closeSpan (tbl : SpanTable) (turn : TurnId) (status : SpanStatus) : SpanTable :=
  if turn = kNoTurn then tbl
  else if turn ∉ tbl.spans then tbl
  else { spans := tbl.spans.filter (· ≠ turn), log := tbl.log ++ [.ended turn status] }

def onEvent (active : Bool) (tbl : SpanTable) : Event → SpanTable
  | .llmStarted turn => tbl.openSpanIfAbsent active turn
  | .playbackFinished e => tbl.closeSpan e.turn .ok
  | .userInterrupted e => tbl.closeSpan e.turn (.error (ascii "interrupted"))
  | .llmFinished e => if e.cancelled then tbl.closeSpan e.turn (.error (ascii "llm_cancelled")) else tbl
  | _ => tbl

end SpanTable

/-! ### The answer of a turn -/

/-- The events of the turn that belong to its answer or end it. -/
def Event.ofAnswer (t : TurnId) : Event → Bool
  | .llmStarted turn => turn = t
  | .llmSentence e => e.turn = t
  | .llmFinished e => e.turn = t
  | .playbackFinished e => e.turn = t
  | .userInterrupted e => e.turn = t
  | _ => false

def Event.isLlmSentence : Event → Bool
  | .llmSentence _ => true
  | _ => false

def Event.isPlaybackFinished : Event → Bool
  | .playbackFinished _ => true
  | _ => false

/-- An `LlmFinished` that does not say `cancelled`. -/
def Event.isCompletion : Event → Bool
  | .llmFinished e => !e.cancelled
  | _ => false

lemma Event.answer_cases {e : Event} (h : e.isLlmSentence ∨ e.isCompletion ∨ e.isPlaybackFinished) :
    (∃ x, e = .llmSentence x) ∨ (∃ x, e = .llmFinished x ∧ x.cancelled = false) ∨ ∃ x, e = .playbackFinished x := by
  cases e with
  | llmSentence x => exact .inl ⟨x, rfl⟩
  | llmFinished x => exact .inr (.inl ⟨x, rfl, by simpa [isLlmSentence, isCompletion, isPlaybackFinished] using h⟩)
  | playbackFinished x => exact .inr (.inr ⟨x, rfl⟩)
  | _ => rcases h with h | h | h <;> cases h

/-- Among the events there is the answer of the turn, played to the end: the start, `n` sentences, the end of the
generation and `n` ends of playback. Events of other turns, and of other kinds, stand anywhere between them. -/
structure Answered (t : TurnId) (n : Nat) (es : List Event) : Prop where
  turn : t ≠ kNoTurn
  sentences : 1 ≤ n
  events : ∃ rest, es.filter (Event.ofAnswer t) = .llmStarted t :: rest ∧
    (∀ e ∈ rest, e.isLlmSentence ∨ e.isCompletion ∨ e.isPlaybackFinished) ∧
    rest.countP Event.isLlmSentence = n ∧ rest.countP Event.isCompletion = 1 ∧ rest.countP Event.isPlaybackFinished = n

/-- The span of the turn is opened once and ended once, with status ok, and it is open as long as the turn has begun
and an end of playback is still to come. -/
def SpanCovers (active : Bool) (t : TurnId) (es : List Event) : Prop :=
  (Runs.exec (SpanTable.onEvent active) {} es).log.filter (fun a => a.turn = t) = [.opened t, .ended t .ok] ∧
    ∀ before after, es = before ++ after → .llmStarted t ∈ before →
      (∃ e ∈ after, e.ofAnswer t ∧ e.isPlaybackFinished) →
      t ∈ (Runs.exec (SpanTable.onEvent active) {} before).spans

namespace SpanTable

/-! ### The table seen from one turn -/

/-- Whether the span of the turn is open, and what happened to it. -/
def view (t : TurnId) (tbl : SpanTable) : Bool × List SpanAction :=
  (decide (t ∈ tbl.spans), tbl.log.filter fun a => a.turn = t)

def endView (t : TurnId) (v : Bool × List SpanAction) (status : SpanStatus) : Bool × List SpanAction :=
  if v.1 then (false, v.2 ++ [.ended t status]) else v

def viewStep (active : Bool) (t : TurnId) (v : Bool × List SpanAction) : Event → Bool × List SpanAction
  | .llmStarted _ => if v.1 || !active then v else (true, v.2 ++ [.opened t])
  | .playbackFinished _ => endView t v .ok
  | .userInterrupted _ => endView t v (.error (ascii "interrupted"))
  | .llmFinished e => if e.cancelled then endView t v (.error (ascii "llm_cancelled")) else v
  | _ => v

variable {active : Bool} {t : TurnId}

lemma view_open_of_ne (tbl : SpanTable) {turn : TurnId} (h : turn ≠ t) :
    (tbl.openSpanIfAbsent active turn).view t = tbl.view t := by
  unfold openSpanIfAbsent
  split_ifs
  · rfl
  · rfl
  · simp [view, SpanAction.turn, h, Ne.symm h]
  · rfl

lemma view_close_of_ne (tbl : SpanTable) {turn : TurnId} (status : SpanStatus) (h : turn ≠ t) :
    (tbl.closeSpan turn status).view t = tbl.view t := by
  unfold closeSpan
  split_ifs
  · rfl
  · simp [view, SpanAction.turn, h, Ne.symm h]
  · rfl

lemma view_open (ht : t ≠ kNoTurn) (tbl : SpanTable) :
    (tbl.openSpanIfAbsent active t).view t = viewStep active t (tbl.view t) (.llmStarted t) := by
  by_cases hopen : t ∈ tbl.spans
  · simp [openSpanIfAbsent, ht, hopen, view, viewStep]
  · cases active <;> simp [openSpanIfAbsent, ht, hopen, view, viewStep, SpanAction.turn]

lemma view_close (ht : t ≠ kNoTurn) (tbl : SpanTable) (status : SpanStatus) :
    (tbl.closeSpan t status).view t = endView t (tbl.view t) status := by
  by_cases hopen : t ∈ tbl.spans
  · simp [closeSpan, ht, hopen, view, endView, SpanAction.turn]
  · simp [closeSpan, ht, hopen, view, endView]

/-- An event of another turn leaves the span of this one alone, and one of this turn needs no more than its view. -/
lemma view_onEvent (ht : t ≠ kNoTurn) (tbl : SpanTable) (e : Event) :
    (tbl.onEvent active e).view t = if e.ofAnswer t then viewStep active t (tbl.view t) e else tbl.view t := by
  cases e with
  | llmStarted turn =>
    by_cases h : turn = t
    · simpa [Event.ofAnswer, onEvent, h] using view_open ht tbl
    · simpa [Event.ofAnswer, onEvent, h] using view_open_of_ne tbl h
  | playbackFinished e =>
    by_cases h : e.turn = t
    · simpa [Event.ofAnswer, onEvent, h, viewStep] using view_close ht tbl .ok
    · simpa [Event.ofAnswer, onEvent, h] using view_close_of_ne tbl .ok h
  | userInterrupted e =>
    by_cases h : e.turn = t
    · simpa [Event.ofAnswer, onEvent, h, viewStep] using view_close ht tbl (.error (ascii "interrupted"))
    · simpa [Event.ofAnswer, onEvent, h] using view_close_of_ne tbl (.error (ascii "interrupted")) h
  | llmFinished e =>
    by_cases h : e.turn = t
    · cases hc : e.cancelled with
      | false => simp [Event.ofAnswer, onEvent, h, viewStep, hc]
      | true =>
        simpa [Event.ofAnswer, onEvent, h, viewStep, hc] using view_close ht tbl (.error (ascii "llm_cancelled"))
    · cases hc : e.cancelled with
      | false => simp [Event.ofAnswer, onEvent, h, hc]
      | true => simpa [Event.ofAnswer, onEvent, h, hc] using view_close_of_ne tbl (.error (ascii "llm_cancelled")) h
  | llmSentence e => simp [Event.ofAnswer, onEvent, viewStep]
  | _ => rfl

lemma view_exec (ht : t ≠ kNoTurn) (tbl : SpanTable) (es : List Event) :
    (Runs.exec (onEvent active) tbl es).view t =
      Runs.exec (viewStep active t) (tbl.view t) (es.filter (Event.ofAnswer t)) := by
  induction es generalizing tbl with
  | nil => rfl
  | cons e es ih =>
    rw [Runs.exec_cons, ih, view_onEvent ht]
    cases he : e.ofAnswer t with
    | false => rw [List.filter_cons_of_neg (by simp [he])]; simp
    | true => rw [List.filter_cons_of_pos he]; simp

lemma exec_viewStep_closed (log : List SpanAction) {rest : List Event}
    (hrest : ∀ e ∈ rest, e.isLlmSentence ∨ e.isCompletion ∨ e.isPlaybackFinished) :
    Runs.exec (viewStep active t) (false, log) rest = (false, log) := by
  induction rest with
  | nil => rfl
  | cons e rest ih =>
    have hstep : viewStep active t (false, log) e = (false, log) := by
      rcases Event.answer_cases (hrest e List.mem_cons_self) with ⟨x, rfl⟩ | ⟨x, rfl, hx⟩ | ⟨x, rfl⟩
      · rfl
      · simp [viewStep, hx]
      · rfl
    rw [Runs.exec_cons, hstep]
    exact ih fun e he => hrest e (List.mem_cons_of_mem _ he)

/-- After the start the first end of playback ends the span, and what follows finds none. -/
lemma exec_viewStep (log : List SpanAction) {rest : List Event}
    (hrest : ∀ e ∈ rest, e.isLlmSentence ∨ e.isCompletion ∨ e.isPlaybackFinished) :
    Runs.exec (viewStep active t) (true, log) rest =
      if rest.countP Event.isPlaybackFinished = 0 then (true, log) else (false, log ++ [.ended t .ok]) := by
  induction rest with
  | nil => rfl
  | cons e rest ih =>
    have htail : ∀ e ∈ rest, e.isLlmSentence ∨ e.isCompletion ∨ e.isPlaybackFinished :=
      fun e he => hrest e (List.mem_cons_of_mem _ he)
    rcases Event.answer_cases (hrest e List.mem_cons_self) with ⟨x, rfl⟩ | ⟨x, rfl, hx⟩ | ⟨x, rfl⟩
    · exact ih htail
    · have hstep : viewStep active t (true, log) (.llmFinished x) = (true, log) := by simp [viewStep, hx]
      rw [Runs.exec_cons, hstep]
      exact ih htail
    · rw [List.countP_cons_of_pos rfl, if_neg (Nat.succ_ne_zero _)]
      exact exec_viewStep_closed _ htail

/-- Where the events of the turn so far are its start and a part of the rest. -/
lemma view_answered (ht : t ≠ kNoTurn) {es rest : List Event}
    (hes : es.filter (Event.ofAnswer t) = .llmStarted t :: rest)
    (hrest : ∀ e ∈ rest, e.isLlmSentence ∨ e.isCompletion ∨ e.isPlaybackFinished) :
    (Runs.exec (onEvent true) {} es).view t =
      if rest.countP Event.isPlaybackFinished = 0 then (true, [.opened t])
      else (false, [.opened t, .ended t .ok]) := by
  rw [view_exec ht, hes, Runs.exec_cons]
  exact exec_viewStep [.opened t] hrest

lemma log_inactive (es : List Event) : (Runs.exec (onEvent false) {} es).spans = [] ∧
    (Runs.exec (onEvent false) {} es).log = [] := by
  apply Runs.exec_invariant (fun tbl : SpanTable => tbl.spans = [] ∧ tbl.log = [])
  · rintro ⟨spans, log⟩ e ⟨hspans, hlog⟩
    subst hspans hlog
    cases e with
    | llmStarted turn => simp [onEvent, openSpanIfAbsent]
    | playbackFinished e => simp [onEvent, closeSpan]
    | userInterrupted e => simp [onEvent, closeSpan]
    | llmFinished e => simp [onEvent, closeSpan]
    | _ => exact ⟨rfl, rfl⟩
  · exact ⟨rfl, rfl⟩

end SpanTable

/-- Of two items that meet `p` one stands before the other. -/
lemma exists_split_of_two_le_countP {α : Type*} {p : α → Bool} {l : List α} (h : 2 ≤ l.countP p) :
    ∃ front x back, l = front ++ x :: back ∧ p x ∧ 0 < back.countP p := by
  induction l with
  | nil => simp at h
  | cons y l ih =>
    by_cases hy : p y
    · rw [List.countP_cons_of_pos hy] at h
      exact ⟨[], y, l, rfl, hy, by omega⟩
    · rw [List.countP_cons_of_neg hy] at h
      obtain ⟨front, x, back, rfl, hx, hback⟩ := ih h
      exact ⟨y :: front, x, back, rfl, hx, hback⟩

/-- The span of a turn covers its answer exactly if the tracer is active and the answer is one sentence. -/
theorem turnSpan_covers_iff {t : TurnId} {n : Nat} {es : List Event} (h : Answered t n es) (active : Bool) :
    SpanCovers active t es ↔ active = true ∧ n = 1 := by
  obtain ⟨rest, hes, hrest, -, -, hcount⟩ := h.events
  have hpos := h.sentences
  constructor
  · rintro ⟨hlog, hopen⟩
    have hactive : active = true := by
      cases active with
      | true => rfl
      | false =>
        rw [(SpanTable.log_inactive es).2] at hlog
        simp at hlog
    subst hactive
    refine ⟨rfl, ?_⟩
    by_contra hne
    -- the first of two ends of playback ends the span
    have htwo : 2 ≤ rest.countP Event.isPlaybackFinished := by omega
    obtain ⟨front, x, back, rfl, hx, hback⟩ := exists_split_of_two_le_countP htwo
    have hsplit : es.filter (Event.ofAnswer t) = (.llmStarted t :: (front ++ [x])) ++ back := by
      rw [hes]
      simp
    obtain ⟨before, after, rfl, hbefore, hafter⟩ := List.filter_eq_append_iff.mp hsplit
    have hstarted : Event.llmStarted t ∈ before := by
      have hmem : Event.llmStarted t ∈ before.filter (Event.ofAnswer t) := by
        rw [hbefore]
        exact List.mem_cons_self ..
      exact (List.mem_filter.mp hmem).1
    obtain ⟨y, hy, hplayed⟩ := List.countP_pos_iff.mp hback
    rw [← hafter] at hy
    obtain ⟨hmem, hturn⟩ := List.mem_filter.mp hy
    have hstill := hopen before after rfl hstarted ⟨y, hmem, hturn, hplayed⟩
    have hview := SpanTable.view_answered h.turn hbefore fun e he => hrest e (by simp at he ⊢; tauto)
    have hended : (front ++ [x]).countP Event.isPlaybackFinished ≠ 0 := by simp [List.countP_append, hx]
    rw [if_neg hended] at hview
    have hclosed := congrArg Prod.fst hview
    simp only [SpanTable.view, decide_eq_false_iff_not] at hclosed
    exact hclosed hstill
  · rintro ⟨rfl, rfl⟩
    constructor
    · have hview := SpanTable.view_answered h.turn hes hrest
      rw [if_neg (by omega)] at hview
      exact congrArg Prod.snd hview
    · rintro before after rfl hstarted ⟨e, he, hturn, hplayed⟩
      rw [List.filter_append] at hes
      cases hbefore : before.filter (Event.ofAnswer t) with
      | nil =>
        have hmem : Event.llmStarted t ∈ before.filter (Event.ofAnswer t) :=
          List.mem_filter.mpr ⟨hstarted, by simp [Event.ofAnswer]⟩
        rw [hbefore] at hmem
        cases hmem
      | cons x front =>
        rw [hbefore, List.cons_append, List.cons.injEq] at hes
        obtain ⟨rfl, rfl⟩ := hes
        have hlater : 0 < (after.filter (Event.ofAnswer t)).countP Event.isPlaybackFinished :=
          List.countP_pos_iff.mpr ⟨e, List.mem_filter.mpr ⟨he, hturn⟩, hplayed⟩
        rw [List.countP_append] at hcount
        have hview := SpanTable.view_answered h.turn hbefore fun e he => hrest e (List.mem_append_left _ he)
        rw [if_pos (by omega)] at hview
        have hopen := congrArg Prod.fst hview
        simpa [SpanTable.view] using hopen

/-- One sentence of turn 1, with a turn 2 on the way. -/
theorem turnSpan_covers_one_sentence :
    let es : List Event := [.llmStarted 1, .llmStarted 2, .llmSentence { turn := 1 }, .llmFinished { turn := 1 },
      .playbackFinished { turn := 2 }, .playbackFinished { turn := 1 }]
    SpanCovers true 1 es := by
  intro es
  have hanswered : Answered 1 1 es :=
    ⟨by decide, le_rfl, [.llmSentence { turn := 1 }, .llmFinished { turn := 1 }, .playbackFinished { turn := 1 }],
      by decide, by decide, by decide, by decide, by decide⟩
  exact (turnSpan_covers_iff hanswered true).mpr ⟨rfl, rfl⟩

/-- Of two sentences the first one that has been played ends the span. -/
theorem turnSpan_ends_after_first_sentence :
    let before : List Event := [.llmStarted 1, .llmSentence { turn := 1, seq := 0 },
      .llmSentence { turn := 1, seq := 1 }, .llmFinished { turn := 1 }, .playbackFinished { turn := 1, seq := 0 }]
    let es := before ++ [.playbackFinished { turn := 1, seq := 1 }]
    Answered 1 2 es ∧ (Runs.exec (SpanTable.onEvent true) {} before).spans = [] ∧ ¬SpanCovers true 1 es := by
  intro before es
  have hspans : (Runs.exec (SpanTable.onEvent true) {} before).spans = [] := by decide
  refine ⟨⟨by decide, by decide, es.tail, by decide, by decide, by decide, by decide, by decide⟩, hspans, ?_⟩
  rintro ⟨-, hopen⟩
  have hstill := hopen before _ rfl (by decide)
    ⟨.playbackFinished { turn := 1, seq := 1 }, by decide, by decide, by decide⟩
  rw [hspans] at hstill
  cases hstill

end Acva
