import Acva.Dialogue.TtsTokens
import Acva.System.TurnIds

/-!
# Discarding an utterance

The machine, the manager, the TTS bridge and its playback queue together. A transcript that the manager
rejects becomes a `UserInterrupted` with the transcript's turn, and every component handles it: the
machine interrupts the turn under way whatever the event names, the manager takes turn 0 for any turn,
and the bridge cancels what is in flight and clears the queue.
-/

namespace Acva

/-! ### Tokens of the machine and of the manager -/

def FsmAction.event? : FsmAction → Option Event
  | .published e => some e
  | _ => none

namespace FsmWorld

/-- The events published between two states of the machine. -/
def publishedSince (w w' : FsmWorld) : List Event := (w'.log.drop w.log.length).filterMap FsmAction.event?

/-- `handle_user_interrupted` while a turn is under way: the turn stays, its token is cancelled and the
cancellation is published under its id. -/
lemma handleUserInterrupted_effect (w : FsmWorld) (now : Time)
    (h : ¬(w.fsm.state = .listening ∨ w.fsm.state = .idle)) :
    (w.handleUserInterrupted now).fsm.active = w.fsm.active ∧
      (w.handleUserInterrupted now).turns =
        (match w.fsm.active.token with
          | some r => w.turns.cancel r
          | none => w.turns) ∧
      publishedSince w (w.handleUserInterrupted now) = [.cancelGeneration w.fsm.active.id] := by
  simp only [handleUserInterrupted, h, if_false]
  split
  · refine ⟨rfl, rfl, ?_⟩
    by_cases hs : w.fsm.state = .interrupted <;>
      simp [publishedSince, transition, act, hs, FsmAction.event?]
  · refine ⟨rfl, rfl, ?_⟩
    by_cases hs : w.fsm.state = .interrupted <;>
      simp [publishedSince, transition, act, hs, FsmAction.event?]

lemma handleUserInterrupted_ignored (w : FsmWorld) (now : Time)
    (h : w.fsm.state = .listening ∨ w.fsm.state = .idle) : w.handleUserInterrupted now = w := by
  simp only [handleUserInterrupted, h, if_true]

lemma token_after (w : FsmWorld) (now : Time) (e : Event) :
    ((w.onEvent now e).fsm.active.token = w.fsm.active.token ∧
        (w.onEvent now e).turns.tokens.next = w.turns.tokens.next) ∨
      ((w.onEvent now e).fsm.active.token = some w.turns.tokens.next ∧
        (w.onEvent now e).turns.tokens.next = w.turns.tokens.next + 1) := by
  cases e with
  | speechStarted e =>
    simp only [onEvent, handleSpeechStarted]
    split
    · exact .inr ⟨rfl, rfl⟩
    · exact .inl ⟨rfl, rfl⟩
  | userInterrupted e =>
    left
    rw [onEvent]
    by_cases hs : w.fsm.state = .listening ∨ w.fsm.state = .idle
    · rw [handleUserInterrupted_ignored w now hs]
      exact ⟨rfl, rfl⟩
    · obtain ⟨hactive, hturns, _⟩ := handleUserInterrupted_effect w now hs
      rw [hactive, hturns]
      cases w.fsm.active.token <;> exact ⟨rfl, rfl⟩
  | playbackFinished e =>
    left
    simp only [onEvent, handlePlaybackFinished]
    split
    · exact ⟨rfl, rfl⟩
    · split <;> exact ⟨rfl, rfl⟩
  | llmFinished e =>
    left
    simp only [onEvent, handleLlmFinished]
    split
    · exact ⟨rfl, rfl⟩
    · split <;> exact ⟨rfl, rfl⟩
  | llmSentence e =>
    left
    simp only [onEvent, handleLlmSentence]
    split <;> exact ⟨rfl, rfl⟩
  | speechEnded e =>
    left
    simp only [onEvent, handleSpeechEnded]
    split <;> exact ⟨rfl, rfl⟩
  | finalTranscript e =>
    left
    simp only [onEvent, handleFinalTranscript]
    split <;> exact ⟨rfl, rfl⟩
  | _ => exact .inl ⟨rfl, rfl⟩

end FsmWorld

namespace ManagerWorld

/-- The turns whose tokens the manager holds. -/
def contexts (w : ManagerWorld) : List TurnContext := w.manager.active :: w.manager.io.preparing?.toList

/-- A token that the manager holds in `w'` it holds in `w` or is newer than `w`. -/
def TokensFrom (w w' : ManagerWorld) : Prop :=
  w.turns.tokens.next ≤ w'.turns.tokens.next ∧
    ∀ c ∈ w'.contexts, ∀ x, c.token = some x →
      (∃ d ∈ w.contexts, d.token = some x) ∨ w.turns.tokens.next ≤ x ∧ x < w'.turns.tokens.next

lemma TokensFrom.of_contexts {w w' : ManagerWorld} (hnext : w'.turns.tokens.next = w.turns.tokens.next)
    (hcontexts : ∀ c ∈ w'.contexts, c.token = none ∨ c ∈ w.contexts) : TokensFrom w w' := by
  refine ⟨Nat.le_of_eq hnext.symm, fun c hc x hx => .inl ?_⟩
  rcases hcontexts c hc with hnone | hold
  · rw [hnone] at hx
    cases hx
  · exact ⟨c, hold, hx⟩

lemma TokensFrom.answering (cfg : ManagerConfig) (contentOf : Text → Option Text) {w : ManagerWorld} (a : IoAction)
    {c : TurnContext} (hc : w.manager.io.answering? = some c) : TokensFrom w (w.ioStep cfg contentOf a) := by
  obtain ⟨_, hs⟩ := answerStep cfg contentOf a hc
  apply TokensFrom.of_contexts
  · rcases hs.turns with heq | ⟨r, heq⟩
    · rw [heq]
    · rw [heq]
      rfl
  · intro d hd
    have hprep : (w.ioStep cfg contentOf a).manager.io.preparing? = none := by
      rcases hs.stage with h | h
      · cases hio : (w.ioStep cfg contentOf a).manager.io <;>
          simp [hio, IoStage.answering?, IoStage.preparing?] at h ⊢
      · rw [h]
        rfl
    simp only [contexts, hprep, Option.toList_none, List.mem_singleton] at hd
    exact .inr (by rw [hd, hs.active]; exact List.mem_cons_self)

lemma TokensFrom.choosing (w : ManagerWorld) (job : FinalTranscript) (provided : TurnId) (now : Time) :
    TokensFrom w (w.chooseTurn job provided now) := by
  have hactive : w.manager.active ∈ w.contexts := List.mem_cons_self
  simp only [chooseTurn]
  split <;>
  · refine ⟨Nat.le_succ _, fun c hc x hx => ?_⟩
    simp only [contexts, setIo_manager, IoStage.preparing?, Option.toList_some, List.mem_cons,
      List.not_mem_nil, or_false] at hc
    rcases hc with rfl | rfl
    · exact .inl ⟨_, hactive, hx⟩
    · obtain rfl : w.turns.tokens.next = x := Option.some.inj hx
      exact .inr ⟨Nat.le_refl _, Nat.lt_succ_self _⟩

lemma tokensFrom_ioStep (cfg : ManagerConfig) (contentOf : Text → Option Text) (w : ManagerWorld) (a : IoAction) :
    TokensFrom w (w.ioStep cfg contentOf a) := by
  have hself : TokensFrom w w := .of_contexts rfl fun c hc => .inr hc
  cases hc : w.manager.io.answering? with
  | some c => exact .answering cfg contentOf a hc
  | none =>
    cases hio : w.manager.io with
    | waiting =>
      cases a with
      | advance =>
        cases hp : w.manager.pending with
        | none => simpa [ioStep, hio, hp] using hself
        | some job =>
          refine .of_contexts ?_ fun d hd => .inr ?_
          · simp [ioStep, hio, hp]
          · simpa [ioStep, hio, hp, contexts, IoStage.preparing?] using hd
      | _ => simpa [ioStep, hio] using hself
    | taken job =>
      cases a with
      | choose provided now => simpa only [ioStep, hio] using TokensFrom.choosing w job provided now
      | _ => simpa [ioStep, hio] using hself
    | chosen job ctx =>
      cases a with
      | advance =>
        refine .of_contexts ?_ fun d hd => .inr ?_
        · simp [ioStep, hio]
        · simp [ioStep, hio, contexts, IoStage.preparing?] at hd ⊢
          exact .inr hd
      | _ => simpa [ioStep, hio] using hself
    | adopted job ctx =>
      cases a with
      | advance =>
        refine .of_contexts ?_ fun d hd => .inr ?_
        · simp [ioStep, hio, startGeneration]
        · simp [ioStep, hio, startGeneration, contexts, IoStage.preparing?] at hd ⊢
          exact .inl hd
      | _ => simpa [ioStep, hio] using hself
    | returning =>
      cases a with
      | advance =>
        refine .of_contexts ?_ fun d hd => .inl ?_
        · simp [ioStep, hio]
        · simp [ioStep, hio, contexts, IoStage.preparing?] at hd
          simp [hd]
      | _ => simpa [ioStep, hio] using hself
    | _ => simp [hio, IoStage.answering?] at hc

end ManagerWorld

/-- The machine's token is not one of the manager's. -/
structure DialogueWorld.Apart (s : DialogueWorld) : Prop where
  shared : s.manager.turns = s.fsm.turns
  machine : ∀ x, s.fsm.fsm.active.token = some x → x < s.fsm.turns.tokens.next
  manager : ∀ c ∈ s.manager.contexts, ∀ x, c.token = some x →
    x < s.fsm.turns.tokens.next ∧ s.fsm.fsm.active.token ≠ some x

lemma DialogueWorld.Apart.step {s : DialogueWorld} (h : s.Apart) (cfg : DialogueConfig)
    (contentOf : Text → Option Text) (a : DialogueAction) : (s.step cfg contentOf a).Apart := by
  cases a with
  | fsm now e =>
    rcases s.fsm.token_after now e with ⟨htoken, hnext⟩ | ⟨htoken, hnext⟩
    · refine ⟨rfl, fun x hx => ?_, fun c hc x hx => ?_⟩
      · exact hnext ▸ h.machine x (htoken ▸ hx)
      · obtain ⟨hlt, hne⟩ := h.manager c hc x hx
        exact ⟨hnext ▸ hlt, fun hfsm => hne (htoken ▸ hfsm)⟩
    · refine ⟨rfl, fun x hx => ?_, fun c hc x hx => ?_⟩
      · obtain rfl : s.fsm.turns.tokens.next = x := Option.some.inj (htoken.symm.trans hx)
        exact hnext ▸ Nat.lt_succ_self _
      · obtain ⟨hlt, _⟩ := h.manager c hc x hx
        refine ⟨hnext ▸ Nat.lt_succ_of_lt hlt, fun hfsm => ?_⟩
        exact absurd (Option.some.inj (htoken.symm.trans hfsm)) (Nat.ne_of_gt hlt)
  | detector now aec => exact ⟨h.shared, h.machine, h.manager⟩
  | manager now gateOpen e =>
    obtain ⟨hio, hactive, hturns, _⟩ := s.manager.onEvent_effect cfg.manager now gateOpen e
    have hnext : (s.manager.onEvent cfg.manager now gateOpen e).turns.tokens.next = s.fsm.turns.tokens.next := by
      rw [← h.shared]
      rcases hturns with heq | ⟨r, heq⟩
      · rw [heq]
      · rw [heq]
        rfl
    refine ⟨rfl, fun x hx => hnext ▸ h.machine x hx, fun c hc x hx => ?_⟩
    have hold : c ∈ s.manager.contexts := by
      have hcontexts : (s.manager.onEvent cfg.manager now gateOpen e).contexts = s.manager.contexts := by
        simp only [ManagerWorld.contexts, hio, hactive]
      exact hcontexts ▸ hc
    exact ⟨hnext ▸ (h.manager c hold x hx).1, (h.manager c hold x hx).2⟩
  | io a =>
    obtain ⟨hle, hnew⟩ := s.manager.tokensFrom_ioStep cfg.manager contentOf (a.provide s.fsm.fsm.active.id)
    rw [h.shared] at hle hnew
    refine ⟨rfl, fun x hx => Nat.lt_of_lt_of_le (h.machine x hx) hle, fun c hc x hx => ?_⟩
    rcases hnew c hc x hx with ⟨d, hd, hdx⟩ | ⟨hge, hlt⟩
    · obtain ⟨hlt, hne⟩ := h.manager d hd x hdx
      exact ⟨Nat.lt_of_lt_of_le hlt hle, hne⟩
    · refine ⟨hlt, fun hfsm => ?_⟩
      exact absurd (h.machine x hfsm) (Nat.not_lt.mpr hge)

/-! ### The joint state -/

structure JointWorld where
  dialogue : DialogueWorld
  tts : TtsBridge := {}

inductive JointAction
  | dialogue (a : DialogueAction)
  | tts (a : TtsAction)
  deriving DecidableEq, Repr

structure JointConfig where
  dialogue : DialogueConfig := {}
  deviceRate : UInt32 := 48000
  deriving DecidableEq, Repr

namespace JointWorld

variable (cfg : JointConfig) (contentOf : Text → Option Text)

def step (s : JointWorld) : JointAction → JointWorld
  | .dialogue a => { s with dialogue := s.dialogue.step cfg.dialogue contentOf a }
  | .tts a => { s with tts := s.tts.step cfg.deviceRate a }

def started (now : Time) (queue : PlaybackQueue) : JointWorld :=
  { dialogue := .started now, tts := { queue := queue } }

/-- Every component handles the interruption, and the manager what the machine publishes on it. -/
def interrupted (s : JointWorld) (now : Time) (gateOpen : Bool) (e : UserInterrupted) : JointWorld :=
  let d := s.dialogue.step cfg.dialogue contentOf (.fsm now (.userInterrupted e))
  { dialogue := (.userInterrupted e :: s.dialogue.fsm.publishedSince d.fsm).foldl
      (fun d e => d.step cfg.dialogue contentOf (.manager now gateOpen e)) d
    tts := s.tts.interrupt e }

/-- The manager handles the transcript and the components what it publishes on it. -/
def discard (s : JointWorld) (now : Time) (gateOpen : Bool) (e : FinalTranscript) : JointWorld :=
  let s' := s.step cfg contentOf (.dialogue (.manager now gateOpen (.finalTranscript e)))
  (s'.dialogue.manager.bus.drop s.dialogue.manager.bus.length).foldl (fun s e => match e with
    | .userInterrupted e => s.interrupted cfg contentOf now gateOpen e
    | _ => s) s'

end JointWorld

/-- The manager does not answer the transcript: it is too short or the pipeline gate is closed. -/
def rejects (cfg : ManagerConfig) (gateOpen : Bool) (e : FinalTranscript) : Bool :=
  ManagerWorld.tooShort cfg e || !gateOpen

/-- Between `s` and `s'` no turn but `t` lost its answer, a sentence or audio. -/
structure JointWorld.Spares (t : TurnId) (s s' : JointWorld) : Prop where
  answer : s.dialogue.manager.manager.active.valid → s.dialogue.manager.manager.active.id ≠ t →
    s'.dialogue.manager.isCancelled s.dialogue.manager.manager.active.token →
    s.dialogue.manager.isCancelled s.dialogue.manager.manager.active.token
  pending : ∀ j ∈ s.tts.pending, j.sentence.turn ≠ t → j ∈ s'.tts.pending
  sentences : ∀ j, s.tts.Holds j → j.sentence.turn ≠ t → s'.tts.isCancelled j → s.tts.isCancelled j
  audio : ∀ c ∈ s.tts.queue.q, c.turn ≠ t → c ∈ s'.tts.queue.q

/-- An interruption under `t` finds nothing of another turn: the answer under way is `t`'s, cancelled
already or out of reach (the event names a turn, and the machine's turn is over or another one); the
token in flight is cancelled already or carried by no sentence of another turn; and only `t` has
audio in the queue. -/
structure JointWorld.Alone (t : TurnId) (s : JointWorld) : Prop where
  answer : s.dialogue.manager.manager.active.valid → s.dialogue.manager.manager.active.id ≠ t →
    ¬s.dialogue.manager.isCancelled s.dialogue.manager.manager.active.token →
    t ≠ kNoTurn ∧ ((s.dialogue.fsm.fsm.state = .listening ∨ s.dialogue.fsm.fsm.state = .idle) ∨
      s.dialogue.fsm.fsm.active.id ≠ kNoTurn ∧
        s.dialogue.fsm.fsm.active.id ≠ s.dialogue.manager.manager.active.id)
  sentences : ∀ x, s.tts.inFlight = some x → ¬s.tts.heap.isCancelled x →
    ∀ j, s.tts.Holds j → j.sentence.turn ≠ t → j.cancel ≠ x
  audio : ∀ c ∈ s.tts.queue.q, c.turn = t

/-! ### What an interruption reaches -/

lemma ManagerWorld.cancelActive_isCancelled (w : ManagerWorld) (target : TurnId) (hvalid : w.manager.active.valid) :
    ((w.cancelActive target).isCancelled w.manager.active.token ↔
      w.isCancelled w.manager.active.token ∨ target = kNoTurn ∨ target = w.manager.active.id) ∧
      (w.cancelActive target).manager.active = w.manager.active := by
  obtain ⟨x, hx⟩ : ∃ x, w.manager.active.token = some x := by
    simp only [TurnContext.valid, Bool.and_eq_true] at hvalid
    exact Option.isSome_iff_exists.1 hvalid.2
  by_cases htarget : target ≠ kNoTurn ∧ target ≠ w.manager.active.id
  · simp [cancelActive, hvalid, htarget]
  · have hreach : target = kNoTurn ∨ target = w.manager.active.id := by
      rwa [ne_eq, ne_eq, ← not_or, not_not] at htarget
    simp [cancelActive, hvalid, htarget, hreach, hx, cancelToken, isCancelled, TurnFactory.cancel]

lemma TurnFactory.isCancelled_cancel_ne (f : TurnFactory) {r x : TokenRef} (h : x ≠ r) :
    (f.cancel r).tokens.isCancelled x = f.tokens.isCancelled x := by
  simp [TurnFactory.cancel, h]

namespace JointWorld

variable (cfg : JointConfig) (contentOf : Text → Option Text) {s : JointWorld}

/-- The answer under way is cancelled by an interruption without a turn, under its own turn, or through
the machine when its turn is the answered one. -/
lemma interrupted_answer (h : s.dialogue.Apart) (now : Time) (gateOpen : Bool) (e : UserInterrupted)
    (hvalid : s.dialogue.manager.manager.active.valid) :
    (s.interrupted cfg contentOf now gateOpen e).dialogue.manager.isCancelled
        s.dialogue.manager.manager.active.token ↔
      s.dialogue.manager.isCancelled s.dialogue.manager.manager.active.token ∨
      (e.turn = kNoTurn ∨ e.turn = s.dialogue.manager.manager.active.id) ∨
      ¬(s.dialogue.fsm.fsm.state = .listening ∨ s.dialogue.fsm.fsm.state = .idle) ∧
        (s.dialogue.fsm.fsm.active.id = kNoTurn ∨
          s.dialogue.fsm.fsm.active.id = s.dialogue.manager.manager.active.id) := by
  obtain ⟨x, hx⟩ : ∃ x, s.dialogue.manager.manager.active.token = some x := by
    simp only [TurnContext.valid, Bool.and_eq_true] at hvalid
    exact Option.isSome_iff_exists.1 hvalid.2
  -- the manager as the machine leaves it
  generalize hw : { s.dialogue.manager with
    turns := (s.dialogue.fsm.handleUserInterrupted now).turns } = w
  have hactive : w.manager = s.dialogue.manager.manager := by rw [← hw]
  have hsame : w.isCancelled (some x) = s.dialogue.manager.isCancelled (some x) := by
    rw [← hw]
    simp only [ManagerWorld.isCancelled, Option.any_some, h.shared]
    by_cases hstate : s.dialogue.fsm.fsm.state = .listening ∨ s.dialogue.fsm.fsm.state = .idle
    · rw [FsmWorld.handleUserInterrupted_ignored _ _ hstate]
    · obtain ⟨_, hturns, _⟩ := FsmWorld.handleUserInterrupted_effect s.dialogue.fsm now hstate
      rw [hturns]
      cases htoken : s.dialogue.fsm.fsm.active.token with
      | none => rfl
      | some r =>
        have hne := (h.manager _ List.mem_cons_self x hx).2
        refine TurnFactory.isCancelled_cancel_ne _ fun heq => hne ?_
        rw [htoken, heq]
  have hvalid' : w.manager.active.valid := hactive ▸ hvalid
  obtain ⟨hui, hkeep⟩ := w.cancelActive_isCancelled e.turn hvalid'
  have hrun : (s.interrupted cfg contentOf now gateOpen e).dialogue.manager =
      (if s.dialogue.fsm.fsm.state = .listening ∨ s.dialogue.fsm.fsm.state = .idle then w.cancelActive e.turn
        else (w.cancelActive e.turn).cancelActive s.dialogue.fsm.fsm.active.id) := by
    have hfsm : (s.dialogue.step cfg.dialogue contentOf (.fsm now (.userInterrupted e))).fsm =
        s.dialogue.fsm.handleUserInterrupted now := rfl
    by_cases hstate : s.dialogue.fsm.fsm.state = .listening ∨ s.dialogue.fsm.fsm.state = .idle
    · have hpub : s.dialogue.fsm.publishedSince (s.dialogue.fsm.handleUserInterrupted now) = [] := by
        rw [FsmWorld.handleUserInterrupted_ignored _ _ hstate]
        simp [FsmWorld.publishedSince]
      rw [if_pos hstate, ← hw]
      simp only [interrupted, hfsm, hpub]
      rfl
    · obtain ⟨_, _, hpub⟩ := FsmWorld.handleUserInterrupted_effect s.dialogue.fsm now hstate
      rw [if_neg hstate, ← hw]
      simp only [interrupted, hfsm, hpub]
      rfl
  rw [hrun]
  by_cases hstate : s.dialogue.fsm.fsm.state = .listening ∨ s.dialogue.fsm.fsm.state = .idle
  · rw [if_pos hstate]
    rw [hactive, hx, hsame] at hui
    rw [hx, hui]
    simp [hstate]
  · rw [if_neg hstate]
    have hkept : (w.cancelActive e.turn).manager.active = s.dialogue.manager.manager.active := by rw [hkeep, hactive]
    obtain ⟨hcg, _⟩ := (w.cancelActive e.turn).cancelActive_isCancelled s.dialogue.fsm.fsm.active.id
      (hkept ▸ hvalid)
    rw [hkept, hx] at hcg
    rw [hactive, hx, hsame] at hui
    rw [hx, hcg, hui]
    simp [hstate, or_assoc]

/-- Rejecting a transcript changes nothing but the counter and the bus before the interruption. -/
lemma discard_eq (h : s.dialogue.Apart) (now : Time) (gateOpen : Bool) (e : FinalTranscript)
    (hrej : rejects cfg.dialogue.manager gateOpen e) :
    ∃ s' : JointWorld, s.discard cfg contentOf now gateOpen e =
        s'.interrupted cfg contentOf now gateOpen { turn := e.turn, ts := now } ∧
      s'.tts = s.tts ∧ s'.dialogue.fsm = s.dialogue.fsm ∧
      s'.dialogue.manager.manager.active = s.dialogue.manager.manager.active ∧
      s'.dialogue.manager.turns = s.dialogue.manager.turns ∧ s'.dialogue.Apart := by
  refine ⟨s.step cfg contentOf (.dialogue (.manager now gateOpen (.finalTranscript e))), ?_, rfl, ?_⟩
  · have hbus : (s.step cfg contentOf (.dialogue (.manager now gateOpen (.finalTranscript e)))).dialogue.manager.bus =
        s.dialogue.manager.bus ++ [.userInterrupted { turn := e.turn, ts := now }] := by
      simp only [rejects, Bool.or_eq_true, Bool.not_eq_true'] at hrej
      simp only [step, DialogueWorld.step, DialogueWorld.withManager, ManagerWorld.onEvent]
      by_cases hshort : ManagerWorld.tooShort cfg.dialogue.manager e = true
      · rw [if_pos hshort]
        rfl
      · rw [if_neg hshort, if_pos (by simp [hrej.resolve_left hshort])]
        rfl
    simp only [discard, hbus, List.drop_left]
    rfl
  · have happart := h.step cfg.dialogue contentOf (.manager now gateOpen (.finalTranscript e))
    have hkeep : ∀ w : ManagerWorld, w.turns = s.dialogue.manager.turns →
        (s.dialogue.withManager w).fsm = s.dialogue.fsm := by
      intro w hw
      simp only [DialogueWorld.withManager, hw, h.shared]
    have hactive : (s.dialogue.manager.onEvent cfg.dialogue.manager now gateOpen (.finalTranscript e)).manager.active =
          s.dialogue.manager.manager.active ∧
        (s.dialogue.manager.onEvent cfg.dialogue.manager now gateOpen (.finalTranscript e)).turns =
          s.dialogue.manager.turns := by
      simp only [ManagerWorld.onEvent]
      split
      · exact ⟨rfl, rfl⟩
      · split <;> exact ⟨rfl, rfl⟩
    exact ⟨hkeep _ hactive.2, hactive.1, hactive.2, happart⟩

lemma interrupted_spares_iff (happart : s.dialogue.Apart) (howned : s.tts.Owned) (hidle : s.tts.bus = .idle)
    (now : Time) (gateOpen : Bool) (e : UserInterrupted) :
    Spares e.turn s (s.interrupted cfg contentOf now gateOpen e) ↔ s.Alone e.turn := by
  have hanswer := interrupted_answer cfg contentOf happart now gateOpen e
  obtain ⟨hpending, hqueue, hheap⟩ := s.tts.interrupt_spec hidle e
  have htts : (s.interrupted cfg contentOf now gateOpen e).tts = s.tts.interrupt e := rfl
  constructor
  · intro h
    refine ⟨fun hvalid hne hlive => ?_, fun x hx hlive j hj hturn hjx => ?_, fun c hc => ?_⟩
    · have hspared := fun hc => hlive (h.answer hvalid hne hc)
      rw [hanswer hvalid] at hspared
      obtain ⟨_, hnamed, hfar⟩ := (not_or.trans (and_congr_right fun _ => not_or)).1 hspared
      refine ⟨fun hnone => hnamed (.inl hnone), ?_⟩
      by_cases hresting : s.dialogue.fsm.fsm.state = .listening ∨ s.dialogue.fsm.fsm.state = .idle
      · exact .inl hresting
      · exact .inr ⟨fun hnone => hfar ⟨hresting, .inl hnone⟩, fun hsame => hfar ⟨hresting, .inr hsame⟩⟩
    · apply hlive
      have hnew : (s.interrupted cfg contentOf now gateOpen e).tts.isCancelled j := by
        rw [htts, TtsBridge.isCancelled, hheap _ (howned.allocated j hj), hjx]
        exact .inr (.inr hx)
      exact hjx ▸ h.sentences j hj hturn hnew
    · by_contra hturn
      have hkept := h.audio c hc hturn
      rw [htts, hqueue] at hkept
      cases hkept
  · intro h
    refine ⟨fun hvalid hne hcan => ?_, fun j hj hturn => ?_, fun j hj hturn hcan => ?_, fun c hc hturn => ?_⟩
    · rw [hanswer hvalid] at hcan
      by_contra hlive
      obtain ⟨hnamed, hfar⟩ := h.answer hvalid hne hlive
      rcases hcan with hcan | (hnone | hsame) | ⟨hactive, hreach⟩
      · exact hlive hcan
      · exact hnamed hnone
      · exact hne hsame.symm
      · obtain ⟨hnotnone, hother⟩ := hfar.resolve_left hactive
        exact hreach.elim hnotnone hother
    · rw [htts, hpending]
      exact List.mem_filter.mpr ⟨hj, by simpa using hturn⟩
    · rw [htts, TtsBridge.isCancelled, hheap _ (howned.allocated j hj)] at hcan
      rcases hcan with hcan | htoken | hflight
      · exact hcan
      · exact absurd (howned.owner j e.turn hj htoken) hturn
      · by_contra hlive
        exact h.sentences j.cancel hflight hlive j hj hturn rfl
    · exact absurd (h.audio c hc) hturn

/-- In every joint state, discarding a rejected transcript leaves the other turns alone if and only if the
interruption finds nothing of them. -/
theorem discard_spares_iff (cfg : JointConfig) (contentOf : Text → Option Text) (start : Time)
    (queue : PlaybackQueue) (as : List JointAction) (now : Time) (gateOpen : Bool) (e : FinalTranscript)
    (hrej : rejects cfg.dialogue.manager gateOpen e)
    (hidle : (Runs.exec (JointWorld.step cfg contentOf) (started start queue) as).tts.bus = .idle) :
    let s := Runs.exec (JointWorld.step cfg contentOf) (started start queue) as
    Spares e.turn s (s.discard cfg contentOf now gateOpen e) ↔ s.Alone e.turn := by
  intro s
  have hinv : s.dialogue.Apart ∧ s.tts.Owned := by
    refine Runs.exec_invariant (fun s : JointWorld => s.dialogue.Apart ∧ s.tts.Owned) ?_ ?_ as
    · rintro s a ⟨happart, howned⟩
      cases a with
      | dialogue a => exact ⟨happart.step cfg.dialogue contentOf a, howned⟩
      | tts a => exact ⟨happart, howned.step cfg.deviceRate a⟩
    · refine ⟨⟨rfl, fun x hx => ?_, fun c hc x hx => ?_⟩, ⟨?_, ?_, ?_, ?_⟩⟩
      · cases hx
      · obtain rfl : c = {} := by
          simpa [started, DialogueWorld.started, ManagerWorld.contexts, IoStage.preparing?] using hc
        cases hx
      · rintro j (hj | hj) <;> cases hj
      · intro t x hx
        cases hx
      · rintro j t (hj | hj) <;> cases hj
      · intro t u x hx
        cases hx
  obtain ⟨s', heq, htts, hfsm, hactive, hturns, happart⟩ :=
    discard_eq cfg contentOf hinv.1 now gateOpen e hrej
  have hiff := interrupted_spares_iff cfg contentOf happart (htts ▸ hinv.2)
    (htts ▸ hidle) now gateOpen { turn := e.turn, ts := now }
  have hcancelled : ∀ token, s'.dialogue.manager.isCancelled token = s.dialogue.manager.isCancelled token := by
    intro token
    simp only [ManagerWorld.isCancelled, hturns]
  rw [heq]
  constructor
  · intro h
    obtain ⟨hanswer, hsentences, haudio⟩ := hiff.mp
      ⟨by rw [hactive, hcancelled]; exact h.answer, by rw [htts]; exact h.pending, by rw [htts]; exact h.sentences,
        by rw [htts]; exact h.audio⟩
    rw [hactive, hcancelled, hfsm] at hanswer
    rw [htts] at hsentences haudio
    exact ⟨hanswer, hsentences, haudio⟩
  · intro h
    obtain ⟨hanswer, hpending, hsentences, haudio⟩ := hiff.mpr
      ⟨by rw [hactive, hcancelled, hfsm]; exact h.answer, by rw [htts]; exact h.sentences, by rw [htts]; exact h.audio⟩
    rw [hactive, hcancelled] at hanswer
    rw [htts] at hpending hsentences haudio
    exact ⟨hanswer, hpending, hsentences, haudio⟩

/-- A cough while a sentence of turn 1 waits and nothing is answered, in flight or queued. -/
theorem cough_spares_waiting_sentence :
    let s := Runs.exec (JointWorld.step {} some) (started 0 {})
      [.tts (.bus (.llmStarted 1)), .tts (.bus (.llmSentence { turn := 1 }))]
    s.tts.pending.length = 1 ∧ Spares kNoTurn s (s.discard {} some 0 true {}) := by
  refine ⟨by decide, (discard_spares_iff {} some 0 {} _ 0 true {} (by decide) rfl).mpr ⟨?_, ?_, ?_⟩⟩
  · intro hvalid
    cases hvalid
  · intro x hx
    cases hx
  · intro c hc
    cases hc

/-- Turn 1 is answered and spoken up to the first chunk of its first sentence. -/
def answering : List JointAction :=
  [.dialogue (.fsm 0 (.speechStarted {})), .dialogue (.fsm 0 (.speechEnded {})),
    .dialogue (.fsm 0 (.finalTranscript { text := ascii "hello" })),
    .dialogue (.manager 0 true (.finalTranscript { text := ascii "hello" })), .dialogue (.io .advance),
    .dialogue (.io (.choose 0 0)), .dialogue (.io .advance), .dialogue (.io .advance), .tts (.bus (.llmStarted 1)),
    .dialogue (.io (.curlInit true)), .dialogue (.io (.read (ascii "data: Hi there. More\n\n"))),
    .dialogue (.io .advance), .dialogue (.io .advance), .dialogue (.fsm 0 (.llmSentence { turn := 1 })),
    .tts (.bus (.llmSentence { turn := 1 })), .tts (.io .advance), .tts (.io .advance),
    .tts (.io (.onFormat 48000)), .tts (.io (.onAudio [1] [])), .tts (.io .advance)]

/-- A cough during the answer: its transcript, two letters without a turn, is too short. Discarding it
cancels the answer and the sentence of turn 1 and clears its audio. -/
theorem cough_interrupts_answer :
    let s := Runs.exec (JointWorld.step {} some) (started 0 {}) answering
    let s' := s.discard {} some 0 true { text := ascii "ah" }
    s.dialogue.manager.manager.active.id = 1 ∧
      s.dialogue.manager.isCancelled s.dialogue.manager.manager.active.token = false ∧
      s'.dialogue.manager.isCancelled s.dialogue.manager.manager.active.token = true ∧
      s.tts.io.job?.map (fun j => (j.sentence.turn, s.tts.isCancelled j, s'.tts.isCancelled j)) =
        some (1, false, true) ∧
      s.tts.queue.q = [{ turn := 1, samples := [1] }] ∧ s'.tts.queue.q = [] ∧ ¬Spares kNoTurn s s' := by
  refine ⟨by decide +kernel, by decide +kernel, by decide +kernel, by decide +kernel, by decide +kernel,
    by decide +kernel, fun h => ?_⟩
  exact absurd (h.answer (by decide +kernel) (by decide +kernel) (by decide +kernel)) (by decide +kernel)

end JointWorld

end Acva
