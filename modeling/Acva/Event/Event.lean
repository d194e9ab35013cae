import Mathlib.Algebra.Ring.Int.Defs
import Mathlib.Algebra.Ring.Nat
import Mathlib.Tactic.Common

/-!
# Events on the control bus

The alternatives of `event::Event` with the fields that a modelled function reads or writes.
Strings are byte lists. A turn id and the other 64-bit counters are natural numbers; 32-bit
counters keep their width, because a run can exhaust them.
-/

namespace Acva

/-- `std::string`: a sequence of bytes. -/
abbrev Text := List UInt8

/-- The bytes of an ASCII literal. -/
def ascii (s : String) : Text := s.toList.map fun c => c.toNat.toUInt8

/-- Nanoseconds since the `steady_clock` epoch. -/
abbrev Time := Int

abbrev TurnId := Nat

/-- The turn id that stands for no turn. -/
def kNoTurn : TurnId := 0

abbrev SequenceNo := UInt32

/-- `audio::AudioSlice`: one assembled utterance. -/
structure AudioSlice where
  samples : List Int16
  sampleRate : Nat
  startedAt : Time
  endedAt : Time
  deriving DecidableEq, Repr

structure SpeechStarted where
  turn : TurnId := kNoTurn
  ts : Time := 0
  deriving DecidableEq, Repr

structure SpeechEnded where
  turn : TurnId := kNoTurn
  ts : Time := 0
  deriving DecidableEq, Repr

structure UtteranceReady where
  turn : TurnId := kNoTurn
  slice : Option AudioSlice := none
  deriving DecidableEq, Repr

structure PartialTranscript where
  turn : TurnId := kNoTurn
  text : Text := []
  lang : Text := []
  stablePrefixLen : Nat := 0
  seq : SequenceNo := 0
  deriving DecidableEq, Repr

structure FinalTranscript where
  turn : TurnId := kNoTurn
  text : Text := []
  lang : Text := []
  deriving DecidableEq, Repr

structure LlmSentence where
  turn : TurnId := kNoTurn
  seq : SequenceNo := 0
  text : Text := []
  lang : Text := []
  deriving DecidableEq, Repr

structure LlmFinished where
  turn : TurnId := kNoTurn
  cancelled : Bool := false
  tokensGenerated : Nat := 0
  deriving DecidableEq, Repr

/-- The `(turn, seq)` pair that the TTS and playback events carry. -/
structure SentenceRef where
  turn : TurnId := kNoTurn
  seq : SequenceNo := 0
  deriving DecidableEq, Repr

structure UserInterrupted where
  turn : TurnId := kNoTurn
  ts : Time := 0
  deriving DecidableEq, Repr

inductive HealthState
  | unknown
  | healthy
  | degraded
  | unhealthy
  deriving DecidableEq, Repr

/-- Everything that flows on the control bus. -/
inductive Event
  | speechStarted (e : SpeechStarted)
  | speechEnded (e : SpeechEnded)
  | utteranceReady (e : UtteranceReady)
  | partialTranscript (e : PartialTranscript)
  | finalTranscript (e : FinalTranscript)
  | llmStarted (turn : TurnId)
  | llmToken (turn : TurnId) (token : Text)
  | llmSentence (e : LlmSentence)
  | llmFinished (e : LlmFinished)
  | ttsStarted (e : SentenceRef)
  | ttsAudioChunk (e : SentenceRef) (bytes : Nat)
  | ttsFinished (e : SentenceRef)
  | playbackStarted (e : SentenceRef)
  | playbackFinished (e : SentenceRef)
  | userInterrupted (e : UserInterrupted)
  | cancelGeneration (turn : TurnId)
  | pause
  | resume
  | errorEvent (component message : Text)
  | healthChanged (service : Text) (state : HealthState) (detail : Text)
  deriving DecidableEq, Repr

end Acva
