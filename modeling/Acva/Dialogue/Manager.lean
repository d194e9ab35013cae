import Acva.Dialogue.SentenceSplitter
import Acva.Dialogue.Turn
import Acva.Lib.Runs
import Acva.Llm.SseParser

/-!
# The dialogue manager

`Manager` has two threads. The bus thread admits transcripts into a one-place slot and cancels the
active turn; the I/O thread takes a transcript, fixes its turn id and streams the answer with
`LlmClient::submit`, whose callbacks cut it into sentences. A step of the I/O thread is the code
between two points at which the bus thread can be observed or can interfere.
-/

namespace Acva

structure ManagerConfig where
  minRealUtteranceChars : UInt32 := 3
  fallbackLanguage : Text := ascii "en"
  maxAssistantSentences : UInt32 := 6
  sentenceSplitter : SentenceSplitterConfig := {}
  deriving DecidableEq, Repr

/-- Code points of `s` other than ASCII blanks and controls; `skip` bytes belong to the last one. -/
def visibleCharsFrom (skip : Nat) : Text → Nat
  | [] => 0
  | b :: s =>
    if 0 < skip then visibleCharsFrom (skip - 1) s
    else if b < 0x80 then (if b > 0x20 && b ≠ 0x7F then 1 else 0) + visibleCharsFrom 0 s
    else
      let step := if b &&& 0xE0 = 0xC0 then 2 else if b &&& 0xF0 = 0xE0 then 3 else 4
      1 + visibleCharsFrom (step - 1) s

def normalisedVisibleChars (s : Text) : Nat := visibleCharsFrom 0 s

inductive CapState
  | none
  | pending
  | cancelled
  deriving DecidableEq, Repr

/-- The locals of `run_one` and `submit` while an answer is generated. -/
structure Generation where
  ctx : TurnContext
  lang : Text
  splitter : SentenceSplitter
  parser : SseParser := {}
  seq : SequenceNo := 0
  capState : CapState := .none
  tokensGenerated : Nat := 0
  deriving DecidableEq, Repr

/-- Where the I/O thread is. Lists are what a loop of the source still has to go through; `ended`
says that `curl_easy_perform` has returned and the payloads come from `parser.finish()`. -/
inductive IoStage
  | waiting
  | taken (job : FinalTranscript)
  | chosen (job : FinalTranscript) (ctx : TurnContext)
  | adopted (job : FinalTranscript) (ctx : TurnContext)
  | submitting (ctx : TurnContext) (lang : Text)
  | performing (g : Generation)
  | delivering (g : Generation) (deltas : List Text) (ended : Bool)
  | emitting (g : Generation) (delta : Text) (emitted deltas : List Text) (ended : Bool)
  | flushing (g : Generation) (emitted : List Text) (finish : Option LlmFinished)
  | returning
  deriving DecidableEq, Repr

structure Manager where
  pending : Option FinalTranscript := none
  active : TurnContext := {}
  gatedTurns : Nat := 0
  io : IoStage := .waiting
  deriving DecidableEq, Repr

/-- The manager with the turn factory it shares, the variable its turn-started hook stores to and
the events that it and its client have published. -/
structure ManagerWorld where
  manager : Manager := {}
  turns : TurnFactory := {}
  playbackActiveTurn : TurnId := kNoTurn
  bus : List Event := []
  deriving DecidableEq, Repr

/-! ### The cap on sentences -/

/-- `cap_backstop`, in the 32 bits of a sequence number. -/
def capBackstop (cap : UInt32) : SequenceNo := if cap > 0 then cap + 1 else 0

/-- One past the cap: nothing more is published. -/
def Generation.atBackstop (cap : UInt32) (g : Generation) : Bool :=
  capBackstop cap > 0 && g.seq ≥ capBackstop cap

/-- The event for a sentence with the current sequence number. -/
def Generation.sentence (g : Generation) (s : Text) : Event :=
  .llmSentence { turn := g.ctx.id, seq := g.seq, text := s, lang := g.lang }

/-- What the loop body of `on_token` does with a sentence; `cancel` is `request_cancel` and `break`. -/
structure Emission where
  next : Generation
  said : List Event
  cancel : Bool
  deriving DecidableEq, Repr

def Generation.emit (cap : UInt32) (g : Generation) (s : Text) : Emission :=
  if g.atBackstop cap then ⟨{ g with capState := .cancelled }, [], true⟩
  else if g.capState = .none ∧ cap > 0 ∧ g.seq + 1 ≥ cap then
    ⟨{ g with seq := g.seq + 1, capState := .pending }, [g.sentence s], false⟩
  else if g.capState = .pending then
    ⟨{ g with seq := g.seq + 1, capState := .cancelled }, [g.sentence s], true⟩
  else ⟨{ g with seq := g.seq + 1 }, [g.sentence s], false⟩

namespace ManagerWorld

def setIo (w : ManagerWorld) (io : IoStage) : ManagerWorld := { w with manager := { w.manager with io := io } }

def publish (w : ManagerWorld) (es : List Event) : ManagerWorld := { w with bus := w.bus ++ es }

/-- `token->cancel()`, if there is a token. -/
def cancelToken (w : ManagerWorld) (token : Option TokenRef) : ManagerWorld :=
  match token with
  | some r => { w with turns := w.turns.cancel r }
  | none => w

def isCancelled (w : ManagerWorld) (token : Option TokenRef) : Bool := token.any w.turns.tokens.isCancelled

/-! ### The bus thread -/

def cancelActive (w : ManagerWorld) (target : TurnId) : ManagerWorld :=
  if ¬w.manager.active.valid then w
  else if target ≠ kNoTurn ∧ target ≠ w.manager.active.id then w
  else w.cancelToken w.manager.active.token

def enqueueTurn (w : ManagerWorld) (e : FinalTranscript) : ManagerWorld :=
  { w with manager := { w.manager with pending := some e } }

/-- The short-utterance filter. -/
def tooShort (cfg : ManagerConfig) (e : FinalTranscript) : Bool :=
  cfg.minRealUtteranceChars > 0 && normalisedVisibleChars e.text < cfg.minRealUtteranceChars.toNat

def onEvent (cfg : ManagerConfig) (w : ManagerWorld) (now : Time) (gateOpen : Bool) : Event → ManagerWorld
  | .finalTranscript e =>
    if tooShort cfg e then w.publish [.userInterrupted { turn := e.turn, ts := now }]
    else if ¬gateOpen then
      ({ w with manager := { w.manager with gatedTurns := w.manager.gatedTurns + 1 } }).publish
        [.userInterrupted { turn := e.turn, ts := now }]
    else w.enqueueTurn e
  | .userInterrupted e => w.cancelActive e.turn
  | .cancelGeneration turn => w.cancelActive turn
  | _ => w

end ManagerWorld

/-! ### The I/O thread -/

/-- What the rest of the system decides for the I/O thread: the turn provider's answer, whether
curl hands out a handle, the bytes it reads, its progress calls and the end of the transfer. -/
inductive IoAction
  | advance
  | choose (provided : TurnId) (now : Time)
  | curlInit (ok : Bool)
  | read (bytes : Text)
  | progress
  | transferEnd
  deriving DecidableEq, Repr

/-- The texts that `on_data` hands to `on_token`: `contentOf` is the JSON reader's answer for the
first choice's delta, and empty or missing contents are skipped. -/
def deltasOf (contentOf : Text → Option Text) (cs : List SseCallback) : List Text :=
  ((SseParser.payloads cs).filterMap contentOf).filter (· ≠ [])

namespace ManagerWorld

variable (cfg : ManagerConfig) (contentOf : Text → Option Text)

/-- `curl_easy_perform` returns and `parser.finish()` reports what is left. -/
def endTransfer (w : ManagerWorld) (g : Generation) : ManagerWorld :=
  let r := g.parser.finish
  w.setIo (.delivering { g with parser := r.1 } (deltasOf contentOf r.2) true)

/-- `curl_write`. -/
def curlWrite (w : ManagerWorld) (g : Generation) (bytes : Text) : ManagerWorld :=
  if w.isCancelled g.ctx.token then w.endTransfer contentOf g
  else
    let r := g.parser.feed bytes
    w.setIo (.delivering { g with parser := r.1 } (deltasOf contentOf r.2) false)

/-- `on_finished`: the splitter is flushed. -/
def onFinished (w : ManagerWorld) (g : Generation) (finish : Option LlmFinished) : ManagerWorld :=
  let r := g.splitter.flush
  w.setIo (.flushing { g with splitter := r.1 } r.2 finish)

/-- The next payload of the parser, or what follows the last one. -/
def deliver (w : ManagerWorld) (g : Generation) (deltas : List Text) (ended : Bool) : ManagerWorld :=
  match deltas with
  | d :: ds =>
    let g := { g with tokensGenerated := g.tokensGenerated + 1 }
    if g.capState = .cancelled then w.setIo (.delivering g ds ended)
    else
      let r := g.splitter.push d
      w.setIo (.emitting { g with splitter := r.1 } d r.2 ds ended)
  | [] =>
    if ended then
      w.onFinished g (some { turn := g.ctx.id, cancelled := w.isCancelled g.ctx.token,
                             tokensGenerated := g.tokensGenerated })
    else w.setIo (.performing g)

/-- The loop of `on_token`, and the `LlmToken` after it. -/
def onTokenLoop (w : ManagerWorld) (g : Generation) (delta : Text) (emitted deltas : List Text)
    (ended : Bool) : ManagerWorld :=
  match emitted with
  | s :: ss =>
    let r := g.emit cfg.maxAssistantSentences s
    ((w.publish r.said).cancelToken (if r.cancel then g.ctx.token else none)).setIo
      (.emitting r.next delta (if r.cancel then [] else ss) deltas ended)
  | [] =>
    (w.publish (if g.capState = .cancelled then [] else [.llmToken g.ctx.id delta])).setIo
      (.delivering g deltas ended)

/-- The loop of `on_finished`, and `LlmFinished` after it if the transfer was made. -/
def flushLoop (w : ManagerWorld) (g : Generation) (emitted : List Text) (finish : Option LlmFinished) :
    ManagerWorld :=
  match emitted with
  | s :: ss =>
    if g.atBackstop cfg.maxAssistantSentences then w.setIo (.flushing g [] finish)
    else (w.publish [g.sentence s]).setIo (.flushing { g with seq := g.seq + 1 } ss finish)
  | [] =>
    (w.publish (finish.toList.map .llmFinished)).setIo .returning

/-- The turn id of `run_one`: adopted if the provider has one, else minted. -/
def chooseTurn (w : ManagerWorld) (job : FinalTranscript) (provided : TurnId) (now : Time) : ManagerWorld :=
  let (ctx, turns) := if provided ≠ kNoTurn then w.turns.adopt provided now else w.turns.mint now
  ({ w with turns := turns }).setIo (.chosen job ctx)

/-- The turn-started hook, then `LlmStarted`. -/
def startGeneration (w : ManagerWorld) (job : FinalTranscript) (ctx : TurnContext) : ManagerWorld :=
  (({ w with playbackActiveTurn := ctx.id }).publish [.llmStarted ctx.id]).setIo
    (.submitting ctx (if job.lang = [] then cfg.fallbackLanguage else job.lang))

/-- The locals that `run_one` and `submit` set up before the transfer. -/
def newGeneration (ctx : TurnContext) (lang : Text) : Generation :=
  { ctx := ctx, lang := lang, splitter := { cfg := cfg.sentenceSplitter } }

def ioStep (w : ManagerWorld) (a : IoAction) : ManagerWorld :=
  match w.manager.io, a with
  | .waiting, .advance =>
    match w.manager.pending with
    | some job => { w with manager := { w.manager with pending := none, io := .taken job } }
    | none => w
  | .taken job, .choose provided now => w.chooseTurn job provided now
  | .chosen job ctx, .advance => { w with manager := { w.manager with active := ctx, io := .adopted job ctx } }
  | .adopted job ctx, .advance => w.startGeneration cfg job ctx
  | .submitting ctx lang, .curlInit ok =>
    if ok then w.setIo (.performing (newGeneration cfg ctx lang))
    else w.onFinished (newGeneration cfg ctx lang) none
  | .performing g, .read bytes => w.curlWrite contentOf g bytes
  | .performing g, .progress => if w.isCancelled g.ctx.token then w.endTransfer contentOf g else w
  | .performing g, .transferEnd => w.endTransfer contentOf g
  | .delivering g deltas ended, .advance => w.deliver g deltas ended
  | .emitting g delta emitted deltas ended, .advance => w.onTokenLoop cfg g delta emitted deltas ended
  | .flushing g emitted finish, .advance => w.flushLoop cfg g emitted finish
  | .returning, .advance => { w with manager := { w.manager with active := {}, io := .waiting } }
  | _, _ => w

@[simp] lemma setIo_manager (w : ManagerWorld) (io : IoStage) :
    (w.setIo io).manager = { w.manager with io := io } := rfl

@[simp] lemma setIo_turns (w : ManagerWorld) (io : IoStage) : (w.setIo io).turns = w.turns := rfl

@[simp] lemma setIo_bus (w : ManagerWorld) (io : IoStage) : (w.setIo io).bus = w.bus := rfl

@[simp] lemma publish_manager (w : ManagerWorld) (es : List Event) : (w.publish es).manager = w.manager := rfl

@[simp] lemma publish_turns (w : ManagerWorld) (es : List Event) : (w.publish es).turns = w.turns := rfl

@[simp] lemma publish_bus (w : ManagerWorld) (es : List Event) : (w.publish es).bus = w.bus ++ es := rfl

@[simp] lemma cancelToken_manager (w : ManagerWorld) (token : Option TokenRef) :
    (w.cancelToken token).manager = w.manager := by
  cases token <;> rfl

@[simp] lemma cancelToken_bus (w : ManagerWorld) (token : Option TokenRef) :
    (w.cancelToken token).bus = w.bus := by
  cases token <;> rfl

lemma cancelToken_turns (w : ManagerWorld) (token : Option TokenRef) :
    (w.cancelToken token).turns = w.turns ∨ ∃ r, (w.cancelToken token).turns = w.turns.cancel r := by
  cases token with
  | none => exact .inl rfl
  | some r => exact .inr ⟨r, rfl⟩

lemma cancelActive_cases (w : ManagerWorld) (target : TurnId) :
    w.cancelActive target = w ∨ w.cancelActive target = w.cancelToken w.manager.active.token := by
  unfold cancelActive
  split
  · exact .inl rfl
  · split
    · exact .inl rfl
    · exact .inr rfl

@[simp] lemma cancelActive_manager (w : ManagerWorld) (target : TurnId) :
    (w.cancelActive target).manager = w.manager := by
  rcases w.cancelActive_cases target with h | h <;> simp [h]

@[simp] lemma cancelActive_bus (w : ManagerWorld) (target : TurnId) : (w.cancelActive target).bus = w.bus := by
  rcases w.cancelActive_cases target with h | h <;> simp [h]

lemma cancelActive_turns (w : ManagerWorld) (target : TurnId) :
    (w.cancelActive target).turns = w.turns ∨ ∃ r, (w.cancelActive target).turns = w.turns.cancel r := by
  rcases w.cancelActive_cases target with h | h
  · exact .inl (by rw [h])
  · rw [h]
    exact w.cancelToken_turns _

end ManagerWorld

end Acva
