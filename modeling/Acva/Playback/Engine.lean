import Acva.Event.BoundedQueue
import Acva.Playback.Queue

/-!
# The playback engine

`render_into` fills a device buffer from the playback queue. The cursor is a chunk and a position in
it; a consumed chunk that ends a sentence posts a `PlaybackFinished` for the publisher thread. A new
turn starts to play only when enough of it is queued.
-/

namespace Acva

def kPostboxCapacity : Nat := 256

/-- The audio callback's state with the queue it drains and the counters it bumps. `loopback` holds the
blocks handed to the loopback sink, if one is installed. -/
structure PlaybackEngine where
  prefillTargetSamples : Nat := 0
  current : AudioChunk := {}
  pos : Nat := 0
  primedTurn : TurnId := kNoTurn
  postbox : BoundedQueue SentenceRef := { capacity := kPostboxCapacity, policy := .dropOldest }
  queue : PlaybackQueue := {}
  loopback : Option (List (List Int16)) := none
  underruns : Nat := 0
  framesPlayed : Nat := 0
  chunksPlayed : Nat := 0
  prefillSilenceFrames : Nat := 0
  deriving DecidableEq, Repr

/-- The constructor's derivation of the prefill threshold. -/
def prefillTarget (prefillMs sampleRateHz : UInt32) : Nat := prefillMs.toNat * sampleRateHz.toNat / 1000

namespace PlaybackEngine

/-- The cursor stands at the end of its chunk. -/
def exhausted (e : PlaybackEngine) : Bool := e.pos ≥ e.current.samples.length

/-- Accounts for the consumed chunk and empties the cursor. -/
def finishCurrent (e : PlaybackEngine) : PlaybackEngine :=
  if e.current.turn = kNoTurn then e
  else
    { e with
      chunksPlayed := if e.current.samples = [] then e.chunksPlayed else e.chunksPlayed + 1
      postbox := if e.current.endOfSentence then e.postbox.post e.current.ref else e.postbox
      current := {}
      pos := 0 }

/-- The prefill gate holds the turn back. -/
def gated (e : PlaybackEngine) (active : TurnId) : Bool :=
  e.prefillTargetSamples > 0 && active ≠ kNoTurn && e.primedTurn ≠ active &&
    e.queue.pendingSamplesFor active < e.prefillTargetSamples

/-- What the gate leaves behind when it lets the turn through. -/
def prime (e : PlaybackEngine) (active : TurnId) : PlaybackEngine :=
  if e.prefillTargetSamples > 0 ∧ active ≠ kNoTurn then { e with primedTurn := active } else e

/-- A new chunk under the cursor, or nothing if the rest of the buffer is silence. -/
def refill (e : PlaybackEngine) (active : TurnId) (rem : Nat) : PlaybackEngine × Bool :=
  if e.gated active then ({ e with prefillSilenceFrames := e.prefillSilenceFrames + rem }, false)
  else
    match (e.prime active).queue.dequeueActive active with
    | (q, none) => ({ e.prime active with queue := q, underruns := e.underruns + 1 }, false)
    | (q, some c) => ({ e.prime active with queue := q, current := c, pos := 0 }, true)

/-- The head of the loop: the chunk under the cursor has samples left, or it is replaced. -/
def next (e : PlaybackEngine) (active : TurnId) (rem : Nat) : PlaybackEngine × Bool :=
  if e.exhausted then e.finishCurrent.refill active rem else (e, true)

/-- The samples under the cursor that fit. -/
def block (e : PlaybackEngine) (rem : Nat) : List Int16 := (e.current.samples.drop e.pos).take rem

def advance (e : PlaybackEngine) (rem : Nat) : PlaybackEngine := { e with pos := e.pos + (e.block rem).length }

/-- The loop of `render_into` with `rem` samples to go: the engine, the real samples and whether the
buffer was filled. An empty chunk gives an empty block, which is the loop's `continue`. Every iteration
takes a chunk or writes a sample, and `fuel` bounds what is left of both. -/
def renderLoop (active : TurnId) : Nat → PlaybackEngine → Nat → PlaybackEngine × List Int16 × Bool
  | _, e, 0 => (e, [], true)
  | 0, e, _ + 1 => (e, [], false)
  | fuel + 1, e, rem + 1 =>
    let n := e.next active (rem + 1)
    if n.2 then
      let r := renderLoop active fuel (n.1.advance (rem + 1)) (rem + 1 - (n.1.block (rem + 1)).length)
      (r.1, n.1.block (rem + 1) ++ r.2.1, r.2.2)
    else (n.1, [], false)

/-- `render_into` and the buffer it writes; a buffer that was not filled ends in silence, and the counter
and the loopback sink see only filled ones. -/
def renderInto (e : PlaybackEngine) (active : TurnId) (frames : Nat) : PlaybackEngine × List Int16 :=
  let r := renderLoop active (frames + e.queue.q.length + 1) e frames
  if r.2.2 then
    ({ r.1 with framesPlayed := r.1.framesPlayed + frames, loopback := r.1.loopback.map (· ++ [r.2.1]) }, r.2.1)
  else (r.1, r.2.1 ++ List.replicate (frames - r.2.1.length) 0)

end PlaybackEngine

/-- The engine with the events its publisher thread has relayed. -/
structure PlaybackWorld where
  engine : PlaybackEngine := {}
  published : List SentenceRef := []
  deriving DecidableEq, Repr

/-- A callback, after which the publisher drains the postbox. -/
def PlaybackWorld.render (active : TurnId) (w : PlaybackWorld) (frames : Nat) : PlaybackWorld :=
  let e := (w.engine.renderInto active frames).1
  { engine := { e with postbox := e.postbox.drain.2 }
    published := w.published ++ e.postbox.drain.1 }

end Acva
