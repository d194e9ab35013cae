import Acva.Dialogue.Turn
import Acva.Lib.Runs

/-!
# The dialogue state machine

`Fsm::on_event` and its seven handlers. A handler reads and writes the machine's fields, mints
from the shared `TurnFactory` and acts on the outside through the bus and its two observers;
these actions are kept in order in `log`.
-/

namespace Acva

inductive State
  | idle
  | listening
  | userSpeaking
  | transcribing
  | thinking
  | speaking
  | completed
  | interrupted
  deriving DecidableEq, Repr

inductive TurnOutcome
  | notStarted
  | generating
  | speaking
  | interrupted
  | completed
  | discarded
  deriving DecidableEq, Repr

/-- The string passed to the turn-outcome observer. -/
inductive OutcomeLabel
  | completed
  | interrupted
  | discarded
  deriving DecidableEq, Repr

structure Fsm where
  state : State := .idle
  active : TurnContext := {}
  outcome : TurnOutcome := .notStarted
  sentencesPlayed : UInt32 := 0
  sentencesReceived : UInt32 := 0
  llmFinishedSeen : Bool := false
  turnsCompleted : Nat := 0
  turnsInterrupted : Nat := 0
  turnsDiscarded : Nat := 0
  enteredSpeakingAt : Time := 0
  deriving DecidableEq, Repr

/-- What a handler does outside the machine: `turns_.mint()`, the two observers, `bus_.publish`. -/
inductive FsmAction
  | minted (turn : TurnId)
  | outcome (label : OutcomeLabel)
  | stateChanged (prev next : State)
  | published (e : Event)
  deriving DecidableEq, Repr

/-- The machine with the turn factory it shares and the actions it has taken. -/
structure FsmWorld where
  fsm : Fsm := {}
  turns : TurnFactory := {}
  log : List FsmAction := []
  deriving DecidableEq, Repr

namespace FsmWorld

def act (w : FsmWorld) (a : FsmAction) : FsmWorld := { w with log := w.log ++ [a] }

def transition (w : FsmWorld) (now : Time) (next : State) : FsmWorld :=
  let prev := w.fsm.state
  { w with
    fsm := { w.fsm with
      state := next
      enteredSpeakingAt :=
        if prev ≠ .speaking ∧ next = .speaking then now else w.fsm.enteredSpeakingAt }
    log := if prev = next then w.log else w.log ++ [.stateChanged prev next] }

def handleSpeechStarted (w : FsmWorld) (now : Time) : FsmWorld :=
  let current := w.fsm.state
  if current = .listening ∨ current = .completed ∨ current = .interrupted then
    let (ctx, turns) := w.turns.mint now
    let fsm := { w.fsm with active := ctx, outcome := .notStarted, sentencesPlayed := 0,
                            sentencesReceived := 0, llmFinishedSeen := false }
    (({ w with fsm := fsm, turns := turns }).act (.minted ctx.id)).transition now .userSpeaking
  else w

def handleSpeechEnded (w : FsmWorld) (now : Time) : FsmWorld :=
  if w.fsm.state = .userSpeaking then w.transition now .transcribing else w

def handleFinalTranscript (w : FsmWorld) (now : Time) : FsmWorld :=
  if w.fsm.state = .transcribing then
    ({ w with fsm := { w.fsm with outcome := .generating } }).transition now .thinking
  else w

def handleLlmSentence (w : FsmWorld) (now : Time) : FsmWorld :=
  let w := { w with fsm := { w.fsm with sentencesReceived := w.fsm.sentencesReceived + 1 } }
  if w.fsm.state = .thinking then
    ({ w with fsm := { w.fsm with outcome := .speaking } }).transition now .speaking
  else w

/-- The turn is over: count it, tell the observer, pass through `Completed` to `Listening`. -/
def complete (w : FsmWorld) (now : Time) : FsmWorld :=
  let fsm := { w.fsm with outcome := .completed, turnsCompleted := w.fsm.turnsCompleted + 1 }
  ((({ w with fsm := fsm }).act (.outcome .completed)).transition now .completed).transition now .listening

def handleLlmFinished (w : FsmWorld) (now : Time) : FsmWorld :=
  let w := { w with fsm := { w.fsm with llmFinishedSeen := true } }
  if w.fsm.state = .thinking ∧ w.fsm.sentencesReceived = 0 then w.complete now
  else if w.fsm.state = .speaking ∧ w.fsm.sentencesPlayed = w.fsm.sentencesReceived then w.complete now
  else w

def handlePlaybackFinished (w : FsmWorld) (now : Time) (e : SentenceRef) : FsmWorld :=
  if e.turn ≠ w.fsm.active.id then w
  else
    let w := { w with fsm := { w.fsm with sentencesPlayed := w.fsm.sentencesPlayed + 1 } }
    if w.fsm.state = .speaking ∧ w.fsm.llmFinishedSeen ∧
        w.fsm.sentencesPlayed = w.fsm.sentencesReceived then w.complete now
    else w

/-- The barge-in cascade. The turn field of the event only goes into a log line. -/
def handleUserInterrupted (w : FsmWorld) (now : Time) : FsmWorld :=
  let old := w.fsm.active
  let alreadyPlayed := decide (w.fsm.sentencesPlayed ≥ 1)
  if w.fsm.state = .listening ∨ w.fsm.state = .idle then w
  else
    let turns := match old.token with
      | some r => w.turns.cancel r
      | none => w.turns
    let w := ({ w with turns := turns }).act (.published (.cancelGeneration old.id))
    let w :=
      if alreadyPlayed then
        ({ w with fsm := { w.fsm with outcome := .interrupted,
                                      turnsInterrupted := w.fsm.turnsInterrupted + 1 } }).act
          (.outcome .interrupted)
      else
        ({ w with fsm := { w.fsm with outcome := .discarded,
                                      turnsDiscarded := w.fsm.turnsDiscarded + 1 } }).act
          (.outcome .discarded)
    (w.transition now .interrupted).transition now .listening

def onEvent (w : FsmWorld) (now : Time) : Event → FsmWorld
  | .speechStarted _ => w.handleSpeechStarted now
  | .speechEnded _ => w.handleSpeechEnded now
  | .finalTranscript _ => w.handleFinalTranscript now
  | .llmSentence _ => w.handleLlmSentence now
  | .llmFinished _ => w.handleLlmFinished now
  | .playbackFinished e => w.handlePlaybackFinished now e
  | .userInterrupted _ => w.handleUserInterrupted now
  | _ => w

/-- `Fsm::start()`. -/
def start (w : FsmWorld) (now : Time) : FsmWorld := w.transition now .listening

@[simp] lemma act_fsm (w : FsmWorld) (a : FsmAction) : (w.act a).fsm = w.fsm := rfl

@[simp] lemma act_turns (w : FsmWorld) (a : FsmAction) : (w.act a).turns = w.turns := rfl

@[simp] lemma transition_turns (w : FsmWorld) (now : Time) (s : State) :
    (w.transition now s).turns = w.turns := rfl

@[simp] lemma transition_fsm (w : FsmWorld) (now : Time) (s : State) : (w.transition now s).fsm =
    { w.fsm with
      state := s
      enteredSpeakingAt :=
        if w.fsm.state ≠ .speaking ∧ s = .speaking then now else w.fsm.enteredSpeakingAt } := rfl

end FsmWorld

/-! ### The turn an event mints, keeps or closes -/

/-- The states in which a turn is under way. -/
def State.isActive : State → Bool
  | .userSpeaking | .transcribing | .thinking | .speaking => true
  | _ => false

/-- The number of turns counted under a label. -/
def Fsm.counted (f : Fsm) : OutcomeLabel → Nat
  | .completed => f.turnsCompleted
  | .interrupted => f.turnsInterrupted
  | .discarded => f.turnsDiscarded

/-- `e` reports that a sentence of turn `t` has been played. -/
def Event.isPlaybackOf (t : TurnId) : Event → Bool
  | .playbackFinished e => e.turn = t
  | _ => false

/-- The actions that bear on the life of turns. -/
def turnActions (log : List FsmAction) : List FsmAction :=
  log.filter fun a => match a with
    | .minted _ | .outcome _ => true
    | _ => false

/-- Everything an event can do to the turn under way. -/
inductive TurnStep (w w' : FsmWorld) (e : Event) : Prop
  | mint (before : w.fsm.state = .listening ∨ w.fsm.state = .completed ∨ w.fsm.state = .interrupted)
      (after : w'.fsm.state = .userSpeaking) (id : w'.fsm.active.id = w.turns.next)
      (next : w'.turns.next = w.turns.next + 1) (played : w'.fsm.sentencesPlayed = 0)
      (counted : w'.fsm.counted = w.fsm.counted)
      (log : turnActions w'.log = turnActions w.log ++ [.minted w.turns.next])
      (event : ∃ ev, e = .speechStarted ev)
  | keep (state : w'.fsm.state = w.fsm.state ∨ w.fsm.state.isActive ∧ w'.fsm.state.isActive)
      (active : w'.fsm.active = w.fsm.active) (next : w'.turns.next = w.turns.next)
      (played : w'.fsm.sentencesPlayed =
        w.fsm.sentencesPlayed + if e.isPlaybackOf w.fsm.active.id then 1 else 0)
      (counted : w'.fsm.counted = w.fsm.counted) (log : turnActions w'.log = turnActions w.log)
  | close (o : OutcomeLabel) (before : w.fsm.state ≠ .listening ∧ w.fsm.state ≠ .idle)
      (after : w'.fsm.state = .listening) (active : w'.fsm.active = w.fsm.active)
      (next : w'.turns.next = w.turns.next)
      (counted : w'.fsm.counted = fun o' => w.fsm.counted o' + if o' = o then 1 else 0)
      (log : turnActions w'.log = turnActions w.log ++ [.outcome o])

@[simp] lemma turnActions_act (w : FsmWorld) (a : FsmAction) :
    turnActions (w.act a).log = turnActions w.log ++ turnActions [a] := by
  simp [turnActions, FsmWorld.act]

@[simp] lemma turnActions_transition (w : FsmWorld) (now : Time) (s : State) :
    turnActions (w.transition now s).log = turnActions w.log := by
  by_cases h : w.fsm.state = s <;> simp [turnActions, FsmWorld.transition, h]

lemma turnActions_singleton (a : FsmAction) :
    turnActions [a] = match a with | .minted _ | .outcome _ => [a] | _ => [] := by
  cases a <;> rfl

/-- `complete` closes the turn, whatever the machine recorded just before. -/
lemma TurnStep.of_complete {w v : FsmWorld} {e : Event} (now : Time)
    (hs : w.fsm.state ≠ .listening ∧ w.fsm.state ≠ .idle) (hactive : v.fsm.active = w.fsm.active)
    (hturns : v.turns = w.turns) (hcount : v.fsm.counted = w.fsm.counted) (hlog : v.log = w.log) :
    TurnStep w (v.complete now) e := by
  refine .close .completed hs (by simp [FsmWorld.complete]) (by simp [FsmWorld.complete, hactive])
    (by simp [FsmWorld.complete, hturns]) ?_ (by simp [FsmWorld.complete, turnActions_singleton, hlog])
  funext o
  rw [← hcount]
  cases o <;> simp [FsmWorld.complete, Fsm.counted]

lemma TurnStep.handleSpeechStarted (w : FsmWorld) (now : Time) (e : SpeechStarted) :
    TurnStep w (w.handleSpeechStarted now) (.speechStarted e) := by
  unfold FsmWorld.handleSpeechStarted
  by_cases hs : w.fsm.state = .listening ∨ w.fsm.state = .completed ∨ w.fsm.state = .interrupted
  · simp only [hs, if_true]
    refine .mint hs ?_ ?_ ?_ ?_ (funext fun o => ?_) ?_ ⟨e, rfl⟩
    · simp
    · simp
    · simp
    · simp
    · cases o <;> simp [Fsm.counted]
    · simp [turnActions_singleton]
  · rw [if_neg hs]
    exact .keep (.inl rfl) rfl rfl (by simp [Event.isPlaybackOf]) rfl rfl

lemma TurnStep.handleUserInterrupted (w : FsmWorld) (now : Time) (e : UserInterrupted) :
    TurnStep w (w.handleUserInterrupted now) (.userInterrupted e) := by
  simp only [FsmWorld.handleUserInterrupted]
  by_cases hs : w.fsm.state = .listening ∨ w.fsm.state = .idle
  · simp only [hs, if_true]
    exact .keep (.inl rfl) rfl rfl (by simp [Event.isPlaybackOf]) rfl rfl
  · simp only [hs, if_false]
    have hnext : (match w.fsm.active.token with
        | some r => w.turns.cancel r
        | none => w.turns).next = w.turns.next := by
      cases w.fsm.active.token <;> rfl
    rw [not_or] at hs
    by_cases hp : w.fsm.sentencesPlayed ≥ 1
    · refine .close .interrupted hs ?_ ?_ ?_ (funext fun o => ?_) ?_
      · simp [hp]
      · simp [hp]
      · simpa [hp] using hnext
      · cases o <;> simp [hp, Fsm.counted]
      · simp [hp, turnActions_singleton]
    · refine .close .discarded hs ?_ ?_ ?_ (funext fun o => ?_) ?_
      · simp [hp]
      · simp [hp]
      · simpa [hp] using hnext
      · cases o <;> simp [hp, Fsm.counted]
      · simp [hp, turnActions_singleton]

theorem turnStep (w : FsmWorld) (now : Time) (e : Event) : TurnStep w (w.onEvent now e) e := by
  have same : ∀ e : Event, (∀ t, e.isPlaybackOf t = false) → TurnStep w w e := fun e he =>
    .keep (.inl rfl) rfl rfl (by simp [he]) rfl rfl
  cases e with
  | speechStarted e => exact .handleSpeechStarted w now e
  | speechEnded e =>
    simp only [FsmWorld.onEvent, FsmWorld.handleSpeechEnded]
    split
    · rename_i hs
      exact .keep (.inr (by simp [hs, State.isActive])) rfl rfl (by simp [Event.isPlaybackOf]) rfl
        (by simp)
    · exact same _ (fun _ => rfl)
  | finalTranscript e =>
    simp only [FsmWorld.onEvent, FsmWorld.handleFinalTranscript]
    split
    · rename_i hs
      exact .keep (.inr (by simp [hs, State.isActive])) rfl rfl (by simp [Event.isPlaybackOf]) rfl
        (by simp)
    · exact same _ (fun _ => rfl)
  | llmSentence e =>
    simp only [FsmWorld.onEvent, FsmWorld.handleLlmSentence]
    split
    · rename_i hs
      exact .keep (.inr (by simp [hs, State.isActive])) rfl rfl (by simp [Event.isPlaybackOf]) rfl
        (by simp)
    · exact .keep (.inl rfl) rfl rfl (by simp [Event.isPlaybackOf]) rfl rfl
  | llmFinished e =>
    simp only [FsmWorld.onEvent, FsmWorld.handleLlmFinished]
    split
    · rename_i hs
      exact .of_complete now (by simp [hs.1]) rfl rfl rfl rfl
    · split
      · rename_i hs
        exact .of_complete now (by simp [hs.1]) rfl rfl rfl rfl
      · exact .keep (.inl rfl) rfl rfl (by simp [Event.isPlaybackOf]) rfl rfl
  | playbackFinished e =>
    simp only [FsmWorld.onEvent, FsmWorld.handlePlaybackFinished]
    by_cases ht : e.turn = w.fsm.active.id
    · simp only [ht, ne_eq, not_true_eq_false, if_false]
      split
      · rename_i hs
        exact .of_complete now (by simp [hs.1]) rfl rfl rfl rfl
      · exact .keep (.inl rfl) rfl rfl (by simp [Event.isPlaybackOf, ht]) rfl rfl
    · rw [if_pos ht]
      exact .keep (.inl rfl) rfl rfl (by simp [Event.isPlaybackOf, ht]) rfl rfl
  | userInterrupted e => exact .handleUserInterrupted w now e
  | _ => exact same _ (fun _ => rfl)

/-- The machine answers the event by minting a turn. -/
def Fsm.mintsOn (f : Fsm) : Event → Bool
  | .speechStarted _ => f.state = .listening || f.state = .completed || f.state = .interrupted
  | _ => false

lemma FsmWorld.turn_after (w : FsmWorld) (now : Time) (e : Event) :
    (w.fsm.mintsOn e = true ∧ (w.onEvent now e).fsm.active.id = w.turns.next ∧
        (w.onEvent now e).turns.next = w.turns.next + 1) ∨
      (w.fsm.mintsOn e = false ∧ (w.onEvent now e).fsm.active = w.fsm.active ∧
        (w.onEvent now e).turns.next = w.turns.next) := by
  have hmint : ∀ ev : SpeechStarted, e = .speechStarted ev → (w.fsm.mintsOn e = true ↔
      w.fsm.state = .listening ∨ w.fsm.state = .completed ∨ w.fsm.state = .interrupted) := by
    rintro ev rfl
    simp [Fsm.mintsOn, or_assoc]
  cases hm : w.fsm.mintsOn e with
  | true =>
    obtain ⟨ev, rfl⟩ : ∃ ev, e = .speechStarted ev := by
      cases e <;> simp [Fsm.mintsOn] at hm ⊢
    exact .inl ⟨rfl, by simp [onEvent, handleSpeechStarted, (hmint ev rfl).1 hm]⟩
  | false =>
    refine .inr ⟨rfl, ?_⟩
    cases turnStep w now e with
    | mint before _ _ _ _ _ _ event =>
      obtain ⟨ev, he⟩ := event
      simp [(hmint ev he).2 before] at hm
    | keep _ active next _ _ _ => exact ⟨active, next⟩
    | close _ _ _ active next _ _ => exact ⟨active, next⟩

end Acva
