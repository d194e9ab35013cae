import Acva.Dialogue.Manager

/-!
# Steps of the manager

What each step of the manager's two threads can do. In the middle of an answer, what the I/O thread
still has to say is a function of its stage, and only a read adds to it.
-/

namespace Acva

/-! ### The cap on sentences -/

namespace Generation

variable {g : Generation} {cap : UInt32}

lemma atBackstop_of_le (h : cap = 0 ∨ g.seq ≤ cap) : g.atBackstop cap = false := by
  rw [Generation.atBackstop, Bool.and_eq_false_iff]
  rcases h with rfl | h
  · exact .inl (by decide)
  · by_cases hpos : capBackstop cap > 0
    · right
      simp only [decide_eq_false_iff_not, UInt32.not_le, ge_iff_le]
      have hcap : cap > 0 := by
        by_contra hzero
        simp [capBackstop, hzero] at hpos
      simp only [capBackstop, hcap, if_true] at hpos ⊢
      rw [gt_iff_lt, UInt32.lt_iff_toNat_lt] at hpos
      rw [UInt32.le_iff_toNat_le] at h
      rw [UInt32.lt_iff_toNat_lt]
      have hlt := cap.toNat_lt
      rw [UInt32.toNat_add] at hpos ⊢
      simp only [UInt32.toNat_zero, UInt32.toNat_one] at hpos ⊢
      omega
    · exact .inl (by simpa using hpos)

lemma next_le_of_lt {seq : SequenceNo} (h : seq < cap) : seq + 1 ≤ cap := by
  have hlt := cap.toNat_lt
  rw [UInt32.lt_iff_toNat_lt] at h
  rw [UInt32.le_iff_toNat_le, UInt32.toNat_add, UInt32.toNat_one]
  omega

/-- Below the cap a sentence is published, and the one that reaches it makes the cap pending. -/
lemma emit_below (s : Text) (hstate : g.capState = .none) (h : cap = 0 ∨ g.seq < cap) :
    g.emit cap s =
      ⟨{ g with seq := g.seq + 1, capState := if cap ≠ 0 ∧ g.seq + 1 = cap then .pending else .none },
        [g.sentence s], false⟩ := by
  have hback : g.atBackstop cap = false := atBackstop_of_le (h.imp_right UInt32.le_of_lt)
  have hreaches : (cap > 0 ∧ g.seq + 1 ≥ cap) ↔ cap ≠ 0 ∧ g.seq + 1 = cap := by
    rw [gt_iff_lt, UInt32.pos_iff_ne_zero]
    exact and_congr_right fun hne =>
      ⟨fun hge => UInt32.le_antisymm (next_le_of_lt (h.resolve_left hne)) hge, fun heq => UInt32.le_of_eq heq.symm⟩
  rw [Generation.emit, hback, if_neg Bool.false_ne_true, hstate]
  by_cases hlast : cap ≠ 0 ∧ g.seq + 1 = cap
  · rw [if_pos hlast, if_pos ⟨rfl, hreaches.mpr hlast⟩]
  · rw [if_neg hlast, if_neg fun hall => hlast (hreaches.mp hall.2), if_neg (by decide), ← hstate]

/-- The sentence that was in flight at the cap is published, and the stream is cancelled. -/
lemma emit_at_cap (s : Text) (hstate : g.capState = .pending) (hseq : g.seq = cap) :
    g.emit cap s = ⟨{ g with seq := g.seq + 1, capState := .cancelled }, [g.sentence s], true⟩ := by
  have hback : g.atBackstop cap = false := atBackstop_of_le (.inr (UInt32.le_of_eq hseq))
  simp [Generation.emit, hback, hstate]

end Generation

/-! ### What is left to say -/

namespace Generation

variable (cap : UInt32)

/-- The loop of `on_token`, with the sentences it publishes. -/
def sayEmitted : Generation → List Text → Generation × List Event
  | g, [] => (g, [])
  | g, s :: ss =>
    let r := g.emit cap s
    let rest := if r.cancel then (r.next, []) else sayEmitted r.next ss
    (rest.1, r.said ++ rest.2)

/-- `on_token` for each delta. -/
def sayDeltas : Generation → List Text → Generation × List Event
  | g, [] => (g, [])
  | g, d :: ds =>
    let g := { g with tokensGenerated := g.tokensGenerated + 1 }
    if g.capState = .cancelled then sayDeltas g ds
    else
      let r := g.splitter.push d
      let one := sayEmitted cap { g with splitter := r.1 } r.2
      let rest := sayDeltas one.1 ds
      (rest.1, one.2 ++ rest.2)

/-- The loop of `on_finished`. -/
def sayFlushed : Generation → List Text → List Event
  | _, [] => []
  | g, s :: ss => if g.atBackstop cap then [] else g.sentence s :: sayFlushed { g with seq := g.seq + 1 } ss

def sayRest (g : Generation) : List Event :=
  sayFlushed cap { g with splitter := g.splitter.flush.1 } g.splitter.flush.2

/-- `parser.finish()`, then `on_finished`. -/
def sayFinish (contentOf : Text → Option Text) (g : Generation) : List Event :=
  let r := g.parser.finish
  let said := sayDeltas cap { g with parser := r.1 } (deltasOf contentOf r.2)
  said.2 ++ said.1.sayRest cap

end Generation

/-- The sentences that are published if nothing more is read. -/
def IoStage.unsaid (cap : UInt32) (contentOf : Text → Option Text) : IoStage → List Event
  | .performing g => g.sayFinish cap contentOf
  | .delivering g deltas ended =>
    let said := g.sayDeltas cap deltas
    said.2 ++ if ended then said.1.sayRest cap else said.1.sayFinish cap contentOf
  | .emitting g _ emitted deltas ended =>
    let one := g.sayEmitted cap emitted
    let said := one.1.sayDeltas cap deltas
    one.2 ++ (said.2 ++ if ended then said.1.sayRest cap else said.1.sayFinish cap contentOf)
  | .flushing g emitted _ => g.sayFlushed cap emitted
  | _ => []

/-- The turn of the answer that is being generated. -/
def IoStage.answering? : IoStage → Option TurnContext
  | .submitting ctx _ => some ctx
  | .performing g | .delivering g _ _ | .emitting g _ _ _ _ | .flushing g _ _ => some g.ctx
  | _ => none

/-- The turn whose answer has its id but is not started. -/
def IoStage.preparing? : IoStage → Option TurnContext
  | .chosen _ ctx | .adopted _ ctx => some ctx
  | _ => none

/-- The turn that an event starts or says a sentence of. -/
def Event.speaksFor : Event → Option TurnId
  | .llmStarted turn => some turn
  | .llmSentence e => some e.turn
  | _ => none

/-- The events that start a turn or say a sentence. -/
def spoken (es : List Event) : List Event := es.filter fun e => e.speaksFor.isSome

@[simp] lemma spoken_nil : spoken [] = [] := rfl

/-- What a step of the I/O thread does while it answers turn `c`. -/
structure AnswerStep (cap : UInt32) (contentOf : Text → Option Text) (w w' : ManagerWorld)
    (a : IoAction) (c : TurnContext) (evs : List Event) : Prop where
  stage : w'.manager.io.answering? = some c ∨ w'.manager.io = .returning
  active : w'.manager.active = w.manager.active
  pending : w'.manager.pending = w.manager.pending
  turns : w'.turns = w.turns ∨ ∃ r, w'.turns = w.turns.cancel r
  bus : w'.bus = w.bus ++ evs
  speaker : ∀ e ∈ evs, ∀ t, e.speaksFor = some t → t = c.id
  said : ((∃ bytes, a = .read bytes) → w.isCancelled c.token) →
    spoken evs ++ w'.manager.io.unsaid cap contentOf = w.manager.io.unsaid cap contentOf

section AnswerStep

variable {cfg : ManagerConfig} {contentOf : Text → Option Text} {w : ManagerWorld} {a : IoAction}

/-- A step that publishes nothing and only moves to the stage `io`. -/
lemma AnswerStep.silent {c : TurnContext} {cap : UInt32} {io : IoStage} (hstage : io.answering? = some c)
    (hsaid : ((∃ bytes, a = .read bytes) → w.isCancelled c.token) →
      io.unsaid cap contentOf = w.manager.io.unsaid cap contentOf) :
    AnswerStep cap contentOf w (w.setIo io) a c [] :=
  ⟨.inl hstage, rfl, rfl, .inl rfl, (List.append_nil _).symm, by simp, hsaid⟩

lemma AnswerStep.endTransfer {g : Generation} (hio : w.manager.io = .performing g) :
    AnswerStep cfg.maxAssistantSentences contentOf w (w.endTransfer contentOf g) a g.ctx [] := by
  refine .silent rfl fun _ => ?_
  simp [hio, IoStage.unsaid, Generation.sayFinish]

lemma AnswerStep.onFinished {g : Generation} {finish : Option LlmFinished}
    (hsaid : w.manager.io.unsaid cfg.maxAssistantSentences contentOf = g.sayRest cfg.maxAssistantSentences) :
    AnswerStep cfg.maxAssistantSentences contentOf w (w.onFinished g finish) a g.ctx [] := by
  refine .silent rfl fun _ => ?_
  rw [hsaid]
  rfl

lemma sayFinish_new (ctx : TurnContext) (lang : Text) (cap : UInt32) :
    (ManagerWorld.newGeneration cfg ctx lang).sayFinish cap contentOf = [] := rfl

lemma sayRest_new (ctx : TurnContext) (lang : Text) (cap : UInt32) :
    (ManagerWorld.newGeneration cfg ctx lang).sayRest cap = [] := rfl

lemma AnswerStep.deliver {g : Generation} {deltas : List Text} {ended : Bool}
    (hio : w.manager.io = .delivering g deltas ended) :
    AnswerStep cfg.maxAssistantSentences contentOf w (w.deliver g deltas ended) a g.ctx [] := by
  cases deltas with
  | nil =>
    cases ended with
    | true => exact .onFinished (by simp [hio, IoStage.unsaid, Generation.sayDeltas])
    | false => exact .silent rfl (by simp [hio, IoStage.unsaid, Generation.sayDeltas])
  | cons d ds =>
    by_cases hc : g.capState = .cancelled
    · simp only [ManagerWorld.deliver, hc, if_true]
      exact .silent rfl (by simp [hio, IoStage.unsaid, Generation.sayDeltas, hc])
    · simp only [ManagerWorld.deliver, hc, if_false]
      exact .silent rfl (by simp [hio, IoStage.unsaid, Generation.sayDeltas, hc, List.append_assoc])

lemma emit_ctx (cap : UInt32) (g : Generation) (s : Text) : (g.emit cap s).next.ctx = g.ctx := by
  simp only [Generation.emit]
  split
  · rfl
  · split
    · rfl
    · split <;> rfl

lemma emit_said (cap : UInt32) (g : Generation) (s : Text) :
    (g.emit cap s).said = [] ∨ (g.emit cap s).said = [g.sentence s] := by
  simp only [Generation.emit]
  split
  · exact .inl rfl
  · split
    · exact .inr rfl
    · split <;> exact .inr rfl

lemma spoken_sentence (g : Generation) (s : Text) : spoken [g.sentence s] = [g.sentence s] := rfl

lemma sentence_speaksFor (g : Generation) (s : Text) : (g.sentence s).speaksFor = some g.ctx.id := rfl

lemma AnswerStep.onTokenLoop {g : Generation} {delta : Text} {emitted deltas : List Text} {ended : Bool}
    (hio : w.manager.io = .emitting g delta emitted deltas ended) :
    ∃ evs, AnswerStep cfg.maxAssistantSentences contentOf w
      (w.onTokenLoop cfg g delta emitted deltas ended) a g.ctx evs := by
  cases emitted with
  | nil =>
    refine ⟨_, .inl rfl, rfl, rfl, .inl rfl, rfl, ?_, fun _ => ?_⟩
    · by_cases hc : g.capState = .cancelled <;> simp [hc, Event.speaksFor]
    · by_cases hc : g.capState = .cancelled <;>
        simp [ManagerWorld.onTokenLoop, hio, hc, IoStage.unsaid, Generation.sayEmitted, spoken, Event.speaksFor]
  | cons s ss =>
    have hsaid := emit_said cfg.maxAssistantSentences g s
    refine ⟨(g.emit cfg.maxAssistantSentences s).said, .inl ?_, ?_, ?_, ?_, ?_, ?_, fun _ => ?_⟩
    · simp [ManagerWorld.onTokenLoop, IoStage.answering?, emit_ctx]
    · simp [ManagerWorld.onTokenLoop]
    · simp [ManagerWorld.onTokenLoop]
    · exact ManagerWorld.cancelToken_turns (w.publish _) _
    · simp [ManagerWorld.onTokenLoop]
    · rcases hsaid with h | h <;> simp [h, sentence_speaksFor, eq_comm]
    · have hspoken : spoken (g.emit cfg.maxAssistantSentences s).said =
          (g.emit cfg.maxAssistantSentences s).said := by
        rcases hsaid with h | h <;> simp [h, spoken_sentence]
      by_cases hx : (g.emit cfg.maxAssistantSentences s).cancel <;>
        simp [ManagerWorld.onTokenLoop, hio, IoStage.unsaid, Generation.sayEmitted, hspoken, hx]

lemma AnswerStep.flushLoop {g : Generation} {emitted : List Text} {finish : Option LlmFinished}
    (hio : w.manager.io = .flushing g emitted finish) :
    ∃ evs, AnswerStep cfg.maxAssistantSentences contentOf w (w.flushLoop cfg g emitted finish) a g.ctx evs := by
  cases emitted with
  | nil =>
    refine ⟨_, .inr rfl, rfl, rfl, .inl rfl, rfl, ?_, fun _ => ?_⟩
    · cases finish <;> simp [Event.speaksFor]
    · cases finish <;>
        simp [ManagerWorld.flushLoop, hio, IoStage.unsaid, Generation.sayFlushed, spoken, Event.speaksFor]
  | cons s ss =>
    by_cases hb : g.atBackstop cfg.maxAssistantSentences
    · simp only [ManagerWorld.flushLoop, hb, if_true]
      exact ⟨[], .silent rfl (by simp [hio, IoStage.unsaid, Generation.sayFlushed, hb])⟩
    · simp only [ManagerWorld.flushLoop, hb]
      refine ⟨[g.sentence s], .inl rfl, rfl, rfl, .inl rfl, rfl, ?_, fun _ => ?_⟩
      · simp [sentence_speaksFor, eq_comm]
      · simp [hio, IoStage.unsaid, Generation.sayFlushed, hb, spoken_sentence]

/-- Every step of the I/O thread in the middle of an answer. -/
theorem answerStep (cfg : ManagerConfig) (contentOf : Text → Option Text) (a : IoAction) {c : TurnContext}
    (hc : w.manager.io.answering? = some c) :
    ∃ evs, AnswerStep cfg.maxAssistantSentences contentOf w (w.ioStep cfg contentOf a) a c evs := by
  have same : AnswerStep cfg.maxAssistantSentences contentOf w w a c [] :=
    ⟨.inl hc, rfl, rfl, .inl rfl, (List.append_nil _).symm, by simp, fun _ => rfl⟩
  unfold ManagerWorld.ioStep
  split
  · rename_i h; simp [h, IoStage.answering?] at hc
  · rename_i h; simp [h, IoStage.answering?] at hc
  · rename_i h; simp [h, IoStage.answering?] at hc
  · rename_i h; simp [h, IoStage.answering?] at hc
  · rename_i ctx lang ok hio
    obtain rfl : ctx = c := by simpa [hio, IoStage.answering?] using hc
    cases ok with
    | true => exact ⟨[], .silent rfl fun _ => by simp [hio, IoStage.unsaid, sayFinish_new]⟩
    | false => exact ⟨[], .onFinished (by simp [hio, IoStage.unsaid, sayRest_new])⟩
  · rename_i g bytes hio
    obtain rfl : g.ctx = c := by simpa [hio, IoStage.answering?] using hc
    unfold ManagerWorld.curlWrite
    by_cases hx : w.isCancelled g.ctx.token
    · rw [if_pos hx]
      exact ⟨[], .endTransfer hio⟩
    · rw [if_neg hx]
      exact ⟨[], .silent rfl fun h => absurd (h ⟨bytes, rfl⟩) hx⟩
  · rename_i g hio
    obtain rfl : g.ctx = c := by simpa [hio, IoStage.answering?] using hc
    split
    · exact ⟨[], .endTransfer hio⟩
    · exact ⟨[], same⟩
  · rename_i g hio
    obtain rfl : g.ctx = c := by simpa [hio, IoStage.answering?] using hc
    exact ⟨[], .endTransfer hio⟩
  · rename_i g deltas ended hio
    obtain rfl : g.ctx = c := by simpa [hio, IoStage.answering?] using hc
    exact ⟨[], .deliver hio⟩
  · rename_i g delta emitted deltas ended hio
    obtain rfl : g.ctx = c := by simpa [hio, IoStage.answering?] using hc
    exact AnswerStep.onTokenLoop hio
  · rename_i g emitted finish hio
    obtain rfl : g.ctx = c := by simpa [hio, IoStage.answering?] using hc
    exact AnswerStep.flushLoop hio
  · rename_i h; simp [h, IoStage.answering?] at hc
  · exact ⟨[], same⟩

end AnswerStep

/-! ### Steps of either thread -/

/-- The bus thread handles an event, the I/O thread takes a step, or another component mints. -/
inductive ManagerAction
  | bus (now : Time) (gateOpen : Bool) (e : Event)
  | io (a : IoAction)
  | mint (now : Time)
  deriving DecidableEq, Repr

def ManagerWorld.step (cfg : ManagerConfig) (contentOf : Text → Option Text) (w : ManagerWorld) :
    ManagerAction → ManagerWorld
  | .bus now gateOpen e => w.onEvent cfg now gateOpen e
  | .io a => w.ioStep cfg contentOf a
  | .mint now => { w with turns := (w.turns.mint now).2 }

namespace ManagerAction

/-- The turn that the action cancels by name. -/
def cancelled : ManagerAction → Option TurnId
  | .bus _ _ (.userInterrupted e) => some e.turn
  | .bus _ _ (.cancelGeneration turn) => some turn
  | _ => none

/-- The action puts a transcript into the pending slot. -/
def admits (cfg : ManagerConfig) : ManagerAction → Bool
  | .bus _ gateOpen (.finalTranscript e) => !ManagerWorld.tooShort cfg e && gateOpen
  | _ => false

/-- The action moves the pending transcript to the I/O thread. -/
def takes (w : ManagerWorld) (a : ManagerAction) : Bool :=
  w.manager.io = .waiting && a = .io .advance && w.manager.pending.isSome

/-- The turn id that the action fixes for the transcript taken. -/
def chosen (w : ManagerWorld) (a : ManagerAction) : Option TurnId :=
  match w.manager.io, a with
  | .taken _, .io (.choose provided _) => some (if provided ≠ kNoTurn then provided else w.turns.next)
  | _, _ => none

end ManagerAction

namespace ManagerWorld

lemma isCancelled_of_turns {w w' : ManagerWorld} {token : Option TokenRef}
    (h : w'.turns = w.turns ∨ ∃ r, w'.turns = w.turns.cancel r) (hc : w.isCancelled token) :
    w'.isCancelled token := by
  rcases h with h | ⟨r, h⟩
  · simpa [ManagerWorld.isCancelled, h] using hc
  · cases token with
    | none => simp [ManagerWorld.isCancelled] at hc
    | some x =>
      have hx : w.turns.tokens.isCancelled x = true := hc
      simp [ManagerWorld.isCancelled, h, TurnFactory.cancel, hx]

lemma next_of_turns {w w' : ManagerWorld} (h : w'.turns = w.turns ∨ ∃ r, w'.turns = w.turns.cancel r) :
    w'.turns.next = w.turns.next := by
  rcases h with h | ⟨r, h⟩ <;> simp [h]

/-- The bus thread publishes only interruptions and changes only the slot and a token. -/
lemma onEvent_effect (cfg : ManagerConfig) (w : ManagerWorld) (now : Time) (gateOpen : Bool) (e : Event) :
    let w' := w.onEvent cfg now gateOpen e
    w'.manager.io = w.manager.io ∧ w'.manager.active = w.manager.active ∧
      (w'.turns = w.turns ∨ ∃ r, w'.turns = w.turns.cancel r) ∧
      ∃ evs, w'.bus = w.bus ++ evs ∧ ∀ x ∈ evs, ∃ u, x = .userInterrupted u := by
  have hcancel : ∀ target, let w' := w.cancelActive target
      w'.manager.io = w.manager.io ∧ w'.manager.active = w.manager.active ∧
        (w'.turns = w.turns ∨ ∃ r, w'.turns = w.turns.cancel r) ∧
        ∃ evs, w'.bus = w.bus ++ evs ∧ ∀ x ∈ evs, ∃ u, x = .userInterrupted u := by
    intro target
    exact ⟨by simp, by simp, w.cancelActive_turns target, [], by simp⟩
  cases e with
  | finalTranscript ft =>
    simp only [ManagerWorld.onEvent]
    split
    · exact ⟨rfl, rfl, .inl rfl, _, rfl, by simp⟩
    · split
      · exact ⟨rfl, rfl, .inl rfl, _, rfl, by simp⟩
      · exact ⟨rfl, rfl, .inl rfl, [], by simp [ManagerWorld.enqueueTurn]⟩
  | userInterrupted u => exact hcancel u.turn
  | cancelGeneration t => exact hcancel t
  | _ => exact ⟨rfl, rfl, .inl rfl, [], by simp [ManagerWorld.onEvent]⟩

lemma cancelled_of_named (cfg : ManagerConfig) (w : ManagerWorld) (now : Time) (gateOpen : Bool) (e : Event)
    (hvalid : w.manager.active.valid)
    (hnamed : (ManagerAction.bus now gateOpen e).cancelled = some w.manager.active.id) :
    (w.onEvent cfg now gateOpen e).isCancelled w.manager.active.token := by
  have hcancel : (w.cancelActive w.manager.active.id).isCancelled w.manager.active.token := by
    obtain ⟨r, hr⟩ : ∃ r, w.manager.active.token = some r := by
      simp only [TurnContext.valid, Bool.and_eq_true] at hvalid
      exact Option.isSome_iff_exists.1 hvalid.2
    simp [cancelActive, hvalid, hr, ManagerWorld.cancelToken, ManagerWorld.isCancelled,
      TurnFactory.cancel]
  cases e with
  | userInterrupted u =>
    have hu : u.turn = w.manager.active.id := by simpa [ManagerAction.cancelled] using hnamed
    simpa [ManagerWorld.onEvent, hu] using hcancel
  | cancelGeneration t =>
    have ht : t = w.manager.active.id := by simpa [ManagerAction.cancelled] using hnamed
    simpa [ManagerWorld.onEvent, ht] using hcancel
  | _ => simp [ManagerAction.cancelled] at hnamed

lemma ioStep_next (cfg : ManagerConfig) (contentOf : Text → Option Text) (w : ManagerWorld) (b : IoAction)
    (h : (ManagerAction.io b).chosen w = none) : (w.ioStep cfg contentOf b).turns.next = w.turns.next := by
  cases hc : w.manager.io.answering? with
  | some c =>
    obtain ⟨_, hs⟩ := answerStep cfg contentOf b hc
    exact next_of_turns hs.turns
  | none =>
    cases hio : w.manager.io with
    | waiting => cases b <;> cases hp : w.manager.pending <;> simp [ioStep, hio, hp]
    | taken job => cases b <;> simp [ManagerAction.chosen, hio] at h <;> simp [ioStep, hio]
    | chosen job ctx => cases b <;> simp [ioStep, hio]
    | adopted job ctx => cases b <;> simp [ioStep, hio, startGeneration]
    | returning => cases b <;> simp [ioStep, hio]
    | _ => simp [hio, IoStage.answering?] at hc

end ManagerWorld

end Acva
