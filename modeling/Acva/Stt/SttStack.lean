import Acva.Event.Event

/-!
# Speech to text

The two ways of `SttStack`. The request/response client is given one slice after the other by a worker;
what curl, the server and the JSON reader make of a request is an input. The realtime client follows
one utterance at a time and matches the server's messages to it by the item id. Callbacks are named by
the utterance for which they were made.
-/

namespace Acva

structure SttConfig where
  baseUrl : Text := ascii "http://127.0.0.1:8000/v1"
  model : Text := ascii "whisper"
  language : Text := []
  deriving DecidableEq, Repr

/-- A call of one of the callbacks of an utterance. The text of an error only reaches the log. -/
inductive SttCallback
  | onPartial (e : PartialTranscript)
  | onFinal (e : FinalTranscript)
  | onError
  deriving DecidableEq, Repr

/-! ### Requests and responses -/

structure SttRequest where
  turn : TurnId := kNoTurn
  slice : Option AudioSlice := none
  langHint : Text := []
  deriving DecidableEq, Repr

/-- `OpenAiSttClient::submit`; `response` is the text that came back, if the request succeeded. -/
def submitTranscription (cfg : SttConfig) (req : SttRequest) (response : Option Text) : SttCallback :=
  if cfg.baseUrl = [] ∨ cfg.model = [] ∨ req.slice = none then .onError
  else match response with
    | none => .onError
    | some text => .onFinal { turn := req.turn, text := text, lang := req.langHint }

/-- The subscriber's request for a finished utterance. -/
def requestFor (cfg : SttConfig) (e : UtteranceReady) : Option SttRequest :=
  e.slice.map fun slice => { turn := e.turn, slice := some slice, langHint := cfg.language }

/-! ### The realtime client -/

inductive RealtimeState
  | idle
  | connecting
  | configuring
  | ready
  | failed
  | closed
  deriving DecidableEq, Repr

inductive ClientMessage
  | clear
  | append (pcm : List Int16)
  | commit
  deriving DecidableEq, Repr

/-- The server's events, as far as the dispatcher knows them, after the JSON reader. -/
inductive ServerEvent
  | sessionUpdated
  | committed (itemId : Text)
  | delta (itemId delta : Text)
  | completed (itemId transcript : Text) (language : Option Text)
  | error
  | other
  deriving DecidableEq, Repr

structure RealtimeSttClient where
  language : Text := []
  state : RealtimeState := .idle
  hasChannel : Bool := true
  active : Bool := false
  activeTurn : TurnId := kNoTurn
  activeCancelled : Bool := false
  activeCb : Option Nat := none
  activeItemId : Text := []
  partialText : Text := []
  partialSeq : SequenceNo := 0
  hasResampler : Bool := false
  sent : List ClientMessage := []
  deriving DecidableEq, Repr

namespace RealtimeSttClient

def clearActive (c : RealtimeSttClient) : RealtimeSttClient :=
  { c with active := false, activeTurn := kNoTurn, activeItemId := [], partialText := [], partialSeq := 0,
           activeCb := none, activeCancelled := false, hasResampler := false }

def send (c : RealtimeSttClient) (ms : List ClientMessage) : RealtimeSttClient :=
  if c.hasChannel then { c with sent := c.sent ++ ms } else c

/-- `begin_utterance` with a fresh token. -/
def beginUtterance (c : RealtimeSttClient) (turn : TurnId) (utterance : Nat) :
    RealtimeSttClient × List (Nat × SttCallback) :=
  if c.state ≠ .ready then (c, [(utterance, .onError)])
  else
    (({ c.clearActive with active := true, activeTurn := turn, activeCb := some utterance,
                           hasResampler := true }).send [.clear], [])

/-- `pcm` is what the resampler gives for the samples. -/
def pushAudio (c : RealtimeSttClient) (pcm : List Int16) : RealtimeSttClient :=
  if ¬c.active ∨ ¬c.hasResampler ∨ c.activeCancelled ∨ pcm = [] then c else c.send [.append pcm]

/-- `tail` is what was left inside the resampler. -/
def endUtterance (c : RealtimeSttClient) (tail : List Int16) : RealtimeSttClient :=
  if ¬c.active ∨ ¬c.hasResampler then c
  else ({ c with hasResampler := false }).send (if tail = [] then [.commit] else [.append tail, .commit])

def onCommitted (c : RealtimeSttClient) (itemId : Text) : RealtimeSttClient :=
  if c.active then { c with activeItemId := itemId } else c

def onPartial (c : RealtimeSttClient) (itemId delta : Text) : RealtimeSttClient × List (Nat × SttCallback) :=
  if ¬c.active ∨ itemId ≠ c.activeItemId ∨ c.activeCancelled then (c, [])
  else
    let text := c.partialText ++ delta
    let seq := c.partialSeq + 1
    ({ c with partialText := text, partialSeq := seq },
      c.activeCb.toList.map fun u =>
        (u, .onPartial { turn := c.activeTurn, text := text, stablePrefixLen := text.length, seq := seq }))

def onFinal (c : RealtimeSttClient) (itemId transcript : Text) (language : Option Text) :
    RealtimeSttClient × List (Nat × SttCallback) :=
  if ¬c.active ∨ itemId ≠ c.activeItemId then (c, [])
  else if c.activeCancelled then (c.clearActive, [])
  else
    let lang := if language.getD [] = [] then c.language else language.getD []
    (c.clearActive, c.activeCb.toList.map fun u =>
      (u, .onFinal { turn := c.activeTurn, text := transcript, lang := lang }))

def onServerError (c : RealtimeSttClient) : RealtimeSttClient × List (Nat × SttCallback) :=
  if c.active then (c.clearActive, c.activeCb.toList.map fun u => (u, .onError)) else (c, [])

/-- `realtime::dispatch` with the client's callbacks. -/
def dispatch (c : RealtimeSttClient) : ServerEvent → RealtimeSttClient × List (Nat × SttCallback)
  | .sessionUpdated => (if c.state = .configuring then { c with state := .ready } else c, [])
  | .committed itemId => (if itemId = [] then c else c.onCommitted itemId, [])
  | .delta itemId delta => if itemId = [] ∨ delta = [] then (c, []) else c.onPartial itemId delta
  | .completed itemId transcript language => if itemId = [] then (c, []) else c.onFinal itemId transcript language
  | .error => c.onServerError
  | .other => (c, [])

end RealtimeSttClient

end Acva
