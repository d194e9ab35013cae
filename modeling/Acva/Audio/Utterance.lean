import Acva.Audio.Endpointer

/-!
# The utterance buffer

`UtteranceBuffer`: a rolling pre-buffer while nobody speaks, the samples of the utterance while somebody
does, and the slice that is cut from them at its end. Sizes are computed in 64 unsigned bits. Which of
the slices handed out are still held by a consumer is an input.
-/

namespace Acva

/-- `static_cast<std::size_t>`. -/
def toSize (n : Int) : Nat := (n % 2 ^ 64).toNat

/-- The number of samples in the duration, in the arithmetic of `std::size_t`. -/
def samplesIn (sampleRate : UInt32) (d : Milliseconds) : Nat := sampleRate.toNat * toSize d % 2 ^ 64 / 1000

/-- `std::chrono::milliseconds` as a distance of times. -/
def Milliseconds.toTime (d : Milliseconds) : Time := d * 1000000

/-- `duration_cast<milliseconds>`. -/
def millisecondsBetween (since now : Time) : Milliseconds := (now - since).tdiv 1000000

structure UtteranceBuffer where
  sampleRate : UInt32 := 16000
  prePaddingMs : Milliseconds := 300
  postPaddingMs : Milliseconds := 100
  maxDurationMs : Milliseconds := 60000
  maxInFlight : Nat := 3
  preBuffer : List Int16 := []
  recording : Bool := false
  activeSamples : List Int16 := []
  activeStartedAt : Time := 0
  activeSpeechStartedAt : Time := 0
  inFlight : List Nat := []
  nextSlice : Nat := 0
  drops : Nat := 0
  deriving DecidableEq, Repr

namespace UtteranceBuffer

def prePadCapacity (u : UtteranceBuffer) : Nat := samplesIn u.sampleRate u.prePaddingMs

/-- The last `n` elements. -/
def lastOf {α : Type*} (n : Nat) (l : List α) : List α := l.drop (l.length - n)

def append (u : UtteranceBuffer) (samples : List Int16) : UtteranceBuffer :=
  if samples = [] then u
  else if u.recording then
    let active := u.activeSamples ++ samples
    let cap := samplesIn u.sampleRate u.maxDurationMs
    if cap > 0 ∧ active.length > cap then
      { u with
        activeSamples := active.drop (active.length - cap)
        activeStartedAt := u.activeStartedAt +
          Milliseconds.toTime (((active.length - cap : Nat) : Int) * 1000 / u.sampleRate.toNat) }
    else { u with activeSamples := active }
  else { u with preBuffer := lastOf u.prePadCapacity (u.preBuffer ++ samples) }

def onSpeechStarted (u : UtteranceBuffer) (prePadStart speechStartedAt : Time) : UtteranceBuffer :=
  { u with
    recording := true
    activeSpeechStartedAt := speechStartedAt
    activeStartedAt := prePadStart
    activeSamples := u.preBuffer
    preBuffer := [] }

/-- The slices tracked after one more: those that nobody holds are pruned, and the oldest makes room. -/
def track (u : UtteranceBuffer) (released : List Nat) : UtteranceBuffer :=
  let live := u.inFlight.filter (· ∉ released)
  if live.length ≥ u.maxInFlight then
    { u with inFlight := live.tail ++ [u.nextSlice], nextSlice := u.nextSlice + 1, drops := u.drops + 1 }
  else { u with inFlight := live ++ [u.nextSlice], nextSlice := u.nextSlice + 1 }

def onSpeechEnded (u : UtteranceBuffer) (speechEndedAt : Time) (released : List Nat) :
    UtteranceBuffer × Option AudioSlice :=
  if ¬u.recording then (u, none)
  else
    let activeDur := millisecondsBetween u.activeStartedAt speechEndedAt + u.postPaddingMs
    let target := samplesIn u.sampleRate activeDur
    let samples := if target > 0 ∧ u.activeSamples.length > target then u.activeSamples.take target else u.activeSamples
    (({ u with activeSamples := [], recording := false }).track released,
      some { samples := samples, sampleRate := u.sampleRate.toNat, startedAt := u.activeStartedAt,
             endedAt := speechEndedAt })

def abortActive (u : UtteranceBuffer) : UtteranceBuffer :=
  if ¬u.recording then u
  else { u with activeSamples := [], recording := false, activeStartedAt := 0, activeSpeechStartedAt := 0 }

end UtteranceBuffer

end Acva
