import Acva.Event.Event

/-!
# The configuration

The sections of `config::Config` with the fields that loading, validation, reloading or another modelled component
reads or writes. A default is the source's, and a fractional default is the exact value of the literal in its type.
-/

namespace Acva

namespace Config

/-- The value of a `float` or a `double`; both zeros are `0`. -/
inductive Number
  | nan
  | negInf
  | finite (q : Rat)
  | posInf
  deriving DecidableEq, Repr

namespace Number

instance (n : Nat) : OfNat Number n := ⟨finite n⟩

/-- `==` of the language: a NaN equals nothing. -/
def eq (x y : Number) : Bool := decide (x ≠ nan) && decide (x = y)

def lt : Number → Number → Bool
  | nan, _ => false
  | _, nan => false
  | finite a, finite b => decide (a < b)
  | negInf, y => decide (y ≠ negInf)
  | finite _, y => decide (y = posInf)
  | posInf, _ => false

def le (x y : Number) : Bool := x.lt y || x.eq y

lemma eq_of_eq {x y : Number} (h : x.eq y = true) : x = y := by
  simp only [eq, Bool.and_eq_true, decide_eq_true_eq] at h
  exact h.2

lemma eq_self_iff (x : Number) : x.eq x = true ↔ x ≠ nan := by simp [eq]

end Number

/-- `std::map<std::string, α>`: iterated in the order of its keys. -/
abbrev Dict (α : Type) := Std.ExtTreeMap Text α compare

instance {α : Type} [DecidableEq α] : DecidableEq (Dict α) :=
  inferInstanceAs (DecidableEq (Std.ExtTreeMap Text α compare))

structure LoggingConfig where
  level : Text := ascii "info"
  sink : Text := ascii "stderr"
  filePath : Option Text := none
  dirPath : Option Text := none
  deriving DecidableEq

structure ControlConfig where
  bind : Text := ascii "127.0.0.1"
  port : UInt16 := 9876
  deriving DecidableEq

structure PipelineConfig where
  fakeDriverEnabled : Bool := false
  fakeSentencesPerTurn : UInt32 := 3
  fakeBargeInProbability : Number := 0
  deriving DecidableEq

structure ServiceHealthConfig where
  healthUrl : Text := []
  probeIntervalHealthyMs : UInt32 := 5000
  probeIntervalDegradedMs : UInt32 := 1000
  degradedMaxFailures : UInt32 := 3
  deriving DecidableEq

structure LlmConfig where
  baseUrl : Text := ascii "http://127.0.0.1:8081/v1"
  model : Text := ascii "qwen2.5-7b-instruct"
  temperature : Number := .finite (mkRat 3152519739159347 4503599627370496)
  topP : Number := 1
  repeatPenalty : Number := 1
  maxTokens : UInt32 := 400
  maxPromptTokens : UInt32 := 3000
  health : ServiceHealthConfig := {}
  deriving DecidableEq

structure SttConfig where
  baseUrl : Text := []
  model : Text := []
  requestTimeoutSeconds : UInt32 := 30
  language : Text := ascii "en"
  streaming : Bool := true
  health : ServiceHealthConfig := {}
  deriving DecidableEq

structure TtsVoice where
  modelId : Text
  voiceId : Text
  deriving DecidableEq

structure TtsConfig where
  health : ServiceHealthConfig := {}
  baseUrl : Text := []
  voices : Dict Text := ∅
  voicesResolved : Dict TtsVoice := ∅
  fallbackLang : Text := ascii "en"
  requestTimeoutSeconds : UInt32 := 10
  tempoWpm : UInt32 := 200
  deriving DecidableEq

structure SupervisorConfig where
  probeTimeoutMs : UInt32 := 3000
  stuckThresholdSeconds : UInt32 := 90
  autoRestartOnStuck : Bool := false
  deriving DecidableEq

structure MemoryConfig where
  dbPath : Text := []
  recentTurnsN : UInt32 := 10
  summaryTrigger : Text := ascii "turns"
  factsPolicy : Text := ascii "conservative"
  deriving DecidableEq

structure DialogueConfig where
  maxAssistantSentences : UInt32 := 6
  maxAssistantTokens : UInt32 := 400
  maxTtsQueueSentences : UInt32 := 3
  fallbackLanguage : Text := ascii "en"
  systemPrompts : Dict Text := ∅
  maxSentenceChars : UInt32 := 600
  deriving DecidableEq

structure WakeWordConfig where
  enabled : Bool := false
  modelPaths : List Text := []
  threshold : Number := .finite (mkRat 5033165 8388608)
  followupWindowMs : UInt32 := 8000
  deriving DecidableEq

structure AudioConfig where
  outputDevice : Text := ascii "default"
  inputDevice : Text := ascii "default"
  captureEnabled : Bool := false
  sampleRateHz : UInt32 := 48000
  bufferFrames : UInt32 := 480
  loopbackRingSeconds : UInt32 := 2
  wakeWord : WakeWordConfig := {}
  testInputWav : Text := []
  testInputRateMultiplier : Number := 1
  deriving DecidableEq

structure VadConfig where
  modelPath : Text := []
  onsetThreshold : Number := .finite (mkRat 1 2)
  offsetThreshold : Number := .finite (mkRat 11744051 33554432)
  minSpeechMs : UInt32 := 200
  hangoverMs : UInt32 := 600
  deriving DecidableEq

structure UtteranceConfig where
  maxInFlight : UInt32 := 3
  maxDurationMs : UInt32 := 60000
  deriving DecidableEq

structure ApmConfig where
  initialDelayEstimateMs : UInt32 := 50
  maxDelayMs : UInt32 := 250
  deriving DecidableEq

structure BargeInConfig where
  minAecErleDb : Number := 15
  minVadProbability : Number := .finite (mkRat 5033165 8388608)
  deriving DecidableEq

structure TtsModelEntry where
  id : Text := []
  voice : Text := []
  deriving DecidableEq

/-- The catalogs that a field can name a model of: the id of an STT model, the entry of a TTS model, the file of a
VAD or wake-word model. -/
structure ModelsConfig where
  stt : Dict Text := ∅
  tts : Dict TtsModelEntry := ∅
  vad : Dict Text := ∅
  wakeWord : Dict Text := ∅
  deriving DecidableEq

structure PersonalityLlmOverride where
  temperature : Option Number := none
  topP : Option Number := none
  repeatPenalty : Option Number := none
  deriving DecidableEq

structure PersonalityDialogueOverride where
  maxAssistantSentences : Option UInt32 := none
  maxAssistantTokens : Option UInt32 := none
  maxSentenceChars : Option UInt32 := none
  deriving DecidableEq

structure PersonalityWakeWordOverride where
  modelPaths : List Text := []
  threshold : Option Number := none
  deriving DecidableEq

structure Personality where
  systemPrompts : Dict Text := ∅
  voices : Dict Text := ∅
  tempoWpm : Option UInt32 := none
  llm : PersonalityLlmOverride := {}
  dialogue : PersonalityDialogueOverride := {}
  wakeWord : PersonalityWakeWordOverride := {}
  deriving DecidableEq

end Config

structure Config where
  models : Config.ModelsConfig := {}
  logging : Config.LoggingConfig := {}
  control : Config.ControlConfig := {}
  pipeline : Config.PipelineConfig := {}
  llm : Config.LlmConfig := {}
  stt : Config.SttConfig := {}
  tts : Config.TtsConfig := {}
  supervisor : Config.SupervisorConfig := {}
  memory : Config.MemoryConfig := {}
  dialogue : Config.DialogueConfig := {}
  audio : Config.AudioConfig := {}
  vad : Config.VadConfig := {}
  utterance : Config.UtteranceConfig := {}
  apm : Config.ApmConfig := {}
  bargeIn : Config.BargeInConfig := {}
  personalities : Config.Dict Config.Personality := ∅
  activePersonality : Text := []
  deriving DecidableEq

end Acva
