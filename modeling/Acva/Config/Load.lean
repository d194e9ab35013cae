import Acva.Config.Config

/-!
# Loading a configuration

`load_from_string` parses, resolves the aliases and validates. The parser is a library function and stays a
parameter. `validate` is a sequence of checks of which the first that fails gives the message.
-/

namespace Acva

/-- The bytes of a literal. -/
def utf8 (s : String) : Text := s.toUTF8.toList

/-- The environment variables that the code reads. -/
inductive EnvVar
  | xdgDataHome
  | xdgConfigHome
  | home
  deriving DecidableEq, Repr

/-- What the process sees of its surroundings: its environment, the files that can be opened, and
`std::filesystem::exists`. -/
structure Host where
  env : EnvVar → Option Text
  readFile : Text → Option Text
  fileExists : Text → Bool

/-- `glz::read_yaml` into a fresh `Config`, with the text of its error. -/
abbrev YamlReader := Text → Except Text Config

namespace Config

/-! ### Aliases -/

/-- The fields of a personality replace those of the configuration; the entries of its maps are added key by key. -/
def overlay (cfg : Config) (p : Personality) : Config :=
  { cfg with
    dialogue := { cfg.dialogue with
      systemPrompts := cfg.dialogue.systemPrompts ∪ p.systemPrompts
      maxAssistantSentences := p.dialogue.maxAssistantSentences.getD cfg.dialogue.maxAssistantSentences
      maxAssistantTokens := p.dialogue.maxAssistantTokens.getD cfg.dialogue.maxAssistantTokens
      maxSentenceChars := p.dialogue.maxSentenceChars.getD cfg.dialogue.maxSentenceChars }
    tts := { cfg.tts with
      voices := cfg.tts.voices ∪ p.voices
      tempoWpm := p.tempoWpm.getD cfg.tts.tempoWpm }
    llm := { cfg.llm with
      temperature := p.llm.temperature.getD cfg.llm.temperature
      topP := p.llm.topP.getD cfg.llm.topP
      repeatPenalty := p.llm.repeatPenalty.getD cfg.llm.repeatPenalty }
    audio := { cfg.audio with wakeWord := { cfg.audio.wakeWord with
      modelPaths := if p.wakeWord.modelPaths ≠ [] then p.wakeWord.modelPaths else cfg.audio.wakeWord.modelPaths
      threshold := p.wakeWord.threshold.getD cfg.audio.wakeWord.threshold } } }

def applyActivePersonality (cfg : Config) : Config :=
  if cfg.activePersonality = [] then cfg
  else match cfg.personalities[cfg.activePersonality]? with
    | none => cfg
    | some p => cfg.overlay p

/-- An alias of a catalog of files stands for the file in the directory of the catalog. -/
def resolveFile (catalog : Dict Text) (directory : String) (name : Text) : Text :=
  match catalog[name]? with
  | none => name
  | some file => ascii directory ++ file

/-- A voice that no entry of the catalog gives is left out, and `validate` reports it. -/
def resolveVoices (cfg : Config) : Dict TtsVoice :=
  cfg.tts.voices.filterMap fun _ name => cfg.models.tts[name]?.map fun entry => ⟨entry.id, entry.voice⟩

def resolveAliases (cfg : Config) : Config :=
  let cfg := cfg.applyActivePersonality
  { cfg with
    stt := { cfg.stt with model := cfg.models.stt[cfg.stt.model]?.getD cfg.stt.model }
    vad := { cfg.vad with modelPath := resolveFile cfg.models.vad "models/silero/" cfg.vad.modelPath }
    tts := { cfg.tts with voicesResolved := cfg.resolveVoices }
    audio := { cfg.audio with wakeWord := { cfg.audio.wakeWord with
      modelPaths := cfg.audio.wakeWord.modelPaths.map (resolveFile cfg.models.wakeWord "models/wake_word/") } } }

/-! ### Validation -/

/-- A check with the message it gives when it fails. -/
structure Check where
  fails : Bool
  message : Text

/-- The first failing check. -/
def firstError (checks : List Check) : Option Text := (checks.find? Check.fails).map Check.message

/-- The family `if (field == 0) return "config: <field>: must be > 0"`. -/
def positive (field : String) (value : UInt32) : Check :=
  ⟨value == 0, ascii "config: " ++ ascii field ++ ascii ": must be > 0"⟩

/-- The family `if (field < lo || field > hi)`. -/
def within (field bounds : String) (lo hi value : Number) : Check :=
  ⟨value.lt lo || hi.lt value, ascii "config: " ++ ascii field ++ ascii ": must be in " ++ ascii bounds⟩

def validLogLevels : List Text := ["trace", "debug", "info", "warn", "error", "critical", "off"].map ascii

def validSinks : List Text := ["stderr", "journal", "file", "dir"].map ascii

def summaryTriggers : List Text := ["turns", "tokens", "idle", "hybrid"].map ascii

def factsPolicies : List Text := ["conservative", "moderate", "aggressive", "manual_only"].map ascii

/-- `url.find("://") != npos`. -/
def hasScheme (url : Text) : Bool := url.tails.any (ascii "://").isPrefixOf

/-- The knobs of a probe are checked if it has a URL. -/
def healthChecks (service : String) (h : ServiceHealthConfig) : List Check :=
  if h.healthUrl = [] then []
  else
    [positive (service ++ ".health.probe_interval_healthy_ms") h.probeIntervalHealthyMs,
     positive (service ++ ".health.probe_interval_degraded_ms") h.probeIntervalDegradedMs,
     positive (service ++ ".health.degraded_max_failures") h.degradedMaxFailures]

def sttChecks (cfg : Config) : List Check :=
  if cfg.stt.baseUrl = [] then []
  else
    [⟨!hasScheme cfg.stt.baseUrl, ascii "config: stt.base_url: must include scheme (http://...)"⟩,
     ⟨decide (cfg.stt.model = []), ascii "config: stt.model: required when stt.base_url is set"⟩,
     positive "stt.request_timeout_seconds" cfg.stt.requestTimeoutSeconds]

/-- One turn of the loop over `tts.voices`. -/
def voiceChecks (cfg : Config) (voice : Text × Text) : List Check :=
  let (lang, name) := voice
  let resolved := cfg.tts.voicesResolved[lang]?
  [⟨decide (name = []),
      ascii "config: tts.voices[" ++ lang ++ ascii "]: alias name required (e.g. en-amy, ru-irina)"⟩,
   ⟨resolved.isNone, ascii "config: tts.voices[" ++ lang ++ ascii "]: unknown alias '" ++ name ++
      utf8 "' — register it under models.tts or pick a configured one"⟩,
   ⟨resolved.any fun v => decide (v.modelId = [] ∨ v.voiceId = []),
      ascii "config: models.tts[" ++ name ++ ascii "]: id + voice required"⟩]

/-- The checks before the one that looks for the test recording. -/
def earlyChecks (cfg : Config) : List Check :=
  [⟨!validLogLevels.contains cfg.logging.level,
      ascii "config: logging.level: invalid value '" ++ cfg.logging.level ++ ascii "'"⟩,
   ⟨!validSinks.contains cfg.logging.sink,
      ascii "config: logging.sink: invalid value '" ++ cfg.logging.sink ++ ascii "'"⟩,
   ⟨decide (cfg.logging.sink = ascii "file") && cfg.logging.filePath.isNone,
      ascii "config: logging.sink='file' requires logging.file_path"⟩,
   ⟨decide (cfg.logging.sink = ascii "dir") && cfg.logging.dirPath.isNone,
      ascii "config: logging.sink='dir' requires logging.dir_path"⟩,
   ⟨cfg.control.port == 0, ascii "config: control.port: must be non-zero"⟩,
   within "pipeline.fake_barge_in_probability" "[0, 1]" 0 1 cfg.pipeline.fakeBargeInProbability,
   positive "pipeline.fake_sentences_per_turn" cfg.pipeline.fakeSentencesPerTurn,
   within "llm.temperature" "[0, 2]" 0 2 cfg.llm.temperature,
   ⟨cfg.llm.topP.le 0 || Number.lt 1 cfg.llm.topP, ascii "config: llm.top_p: must be in (0, 1]"⟩,
   within "llm.repeat_penalty" "[0, 2]" 0 2 cfg.llm.repeatPenalty,
   positive "llm.max_tokens" cfg.llm.maxTokens,
   positive "llm.max_prompt_tokens" cfg.llm.maxPromptTokens,
   positive "memory.recent_turns_n" cfg.memory.recentTurnsN,
   ⟨!summaryTriggers.contains cfg.memory.summaryTrigger,
      ascii "config: memory.summary.trigger: must be one of turns|tokens|idle|hybrid"⟩,
   ⟨!factsPolicies.contains cfg.memory.factsPolicy,
      ascii "config: memory.facts.policy: must be conservative|moderate|aggressive|manual_only"⟩,
   positive "dialogue.max_assistant_sentences" cfg.dialogue.maxAssistantSentences] ++
  healthChecks "llm" cfg.llm.health ++ healthChecks "stt" cfg.stt.health ++ healthChecks "tts" cfg.tts.health ++
  [positive "supervisor.probe_timeout_ms" cfg.supervisor.probeTimeoutMs,
   ⟨!cfg.dialogue.systemPrompts.isEmpty && !cfg.dialogue.systemPrompts.contains cfg.dialogue.fallbackLanguage,
      ascii "config: dialogue.system_prompts: must contain an entry for the fallback_language ('" ++
        cfg.dialogue.fallbackLanguage ++ ascii "')"⟩,
   positive "tts.request_timeout_seconds" cfg.tts.requestTimeoutSeconds,
   ⟨cfg.tts.tempoWpm != 0 && decide (cfg.tts.tempoWpm < 50 ∨ cfg.tts.tempoWpm > 400),
      ascii "config: tts.tempo_wpm: must be 0 or in [50, 400]"⟩] ++
  sttChecks cfg ++
  [⟨!cfg.tts.voices.isEmpty && decide (cfg.tts.baseUrl = []),
      ascii "config: tts.base_url: must be set when tts.voices is non-empty"⟩,
   ⟨decide (cfg.tts.baseUrl ≠ []) && !hasScheme cfg.tts.baseUrl,
      ascii "config: tts.base_url: must include scheme (http://...)"⟩] ++
  cfg.tts.voices.toList.flatMap (voiceChecks cfg) ++
  [⟨!cfg.tts.voices.isEmpty && !cfg.tts.voices.contains cfg.tts.fallbackLang,
      ascii "config: tts.fallback_lang ('" ++ cfg.tts.fallbackLang ++ ascii "') must match one of tts.voices keys"⟩,
   positive "audio.sample_rate_hz" cfg.audio.sampleRateHz,
   positive "audio.buffer_frames" cfg.audio.bufferFrames]

def testInputCheck (host : Host) (cfg : Config) : Check :=
  ⟨decide (cfg.audio.testInputWav ≠ []) && !host.fileExists cfg.audio.testInputWav,
    ascii "config: audio.test_input_wav: file not found: " ++ cfg.audio.testInputWav⟩

def lateChecks (cfg : Config) : List Check :=
  [⟨cfg.audio.testInputRateMultiplier.le 0, ascii "config: audio.test_input_rate_multiplier: must be > 0"⟩,
   positive "dialogue.max_tts_queue_sentences" cfg.dialogue.maxTtsQueueSentences,
   within "vad.onset_threshold" "[0, 1]" 0 1 cfg.vad.onsetThreshold,
   within "vad.offset_threshold" "[0, 1]" 0 1 cfg.vad.offsetThreshold,
   ⟨cfg.vad.onsetThreshold.lt cfg.vad.offsetThreshold,
      ascii "config: vad.offset_threshold must be <= vad.onset_threshold (otherwise the hysteresis band collapses)"⟩,
   positive "vad.min_speech_ms" cfg.vad.minSpeechMs,
   positive "vad.hangover_ms" cfg.vad.hangoverMs,
   positive "utterance.max_in_flight" cfg.utterance.maxInFlight,
   positive "utterance.max_duration_ms" cfg.utterance.maxDurationMs,
   positive "audio.loopback.ring_seconds" cfg.audio.loopbackRingSeconds,
   positive "apm.max_delay_ms" cfg.apm.maxDelayMs,
   ⟨decide (cfg.apm.initialDelayEstimateMs > cfg.apm.maxDelayMs),
      ascii "config: apm.initial_delay_estimate_ms must be <= apm.max_delay_ms"⟩,
   ⟨cfg.bargeIn.minAecErleDb.lt 0, ascii "config: barge_in.min_aec_erle_db: must be >= 0"⟩,
   within "barge_in.min_vad_probability" "[0, 1]" 0 1 cfg.bargeIn.minVadProbability,
   ⟨decide (cfg.activePersonality ≠ []) && !cfg.personalities.contains cfg.activePersonality,
      ascii "config: active_personality: '" ++ cfg.activePersonality ++
        utf8 "' is not a key in personalities — pick one of the configured presets, or leave active_personality empty"⟩]

def validate (host : Host) (cfg : Config) : Option Text :=
  firstError (earlyChecks cfg ++ testInputCheck host cfg :: lateChecks cfg)

/-! ### Loading -/

def loadFromString (readYaml : YamlReader) (host : Host) (yaml : Text) : Except Text Config :=
  match readYaml yaml with
  | .error message => .error (ascii "config: parse error: " ++ message)
  | .ok parsed =>
    let cfg := parsed.resolveAliases
    match validate host cfg with
    | some message => .error message
    | none => .ok cfg

def loadFromFile (readYaml : YamlReader) (host : Host) (path : Text) : Except Text Config :=
  match host.readFile path with
  | none => .error (ascii "config: cannot open file: " ++ path)
  | some text => loadFromString readYaml host text

lemma firstError_eq_none {checks : List Check} : firstError checks = none ↔ ∀ c ∈ checks, c.fails = false := by
  simp [firstError]

lemma testInputCheck_fails {host : Host} {cfg : Config} : (testInputCheck host cfg).fails = false ↔
    cfg.audio.testInputWav ≠ [] → host.fileExists cfg.audio.testInputWav = true := by
  simp [testInputCheck, Decidable.imp_iff_not_or]

/-- The test recording is all that validation looks for outside the configuration. -/
lemma validate_eq_none_of {host host' : Host} {cfg : Config} (h : validate host cfg = none) :
    validate host' cfg = none ↔ (cfg.audio.testInputWav ≠ [] → host'.fileExists cfg.audio.testInputWav = true) := by
  unfold validate at h ⊢
  rw [firstError_eq_none] at h ⊢
  simp only [List.mem_append, List.mem_cons] at h ⊢
  constructor
  · intro h'
    exact testInputCheck_fails.mp (h' _ (.inr (.inl rfl)))
  · rintro hwav c (hc | rfl | hc)
    · exact h c (.inl hc)
    · exact testInputCheck_fails.mpr hwav
    · exact h c (.inr (.inr hc))

lemma loadFromFile_eq_ok {readYaml : YamlReader} {host : Host} {path : Text} {cfg : Config} :
    loadFromFile readYaml host path = .ok cfg ↔ ∃ text parsed, host.readFile path = some text ∧
      readYaml text = .ok parsed ∧ parsed.resolveAliases = cfg ∧ validate host cfg = none := by
  unfold loadFromFile loadFromString
  constructor
  · intro h
    cases hfile : host.readFile path with
    | none => simp [hfile] at h
    | some text =>
      cases hparse : readYaml text with
      | error message => simp [hfile, hparse] at h
      | ok parsed =>
        cases hvalid : validate host parsed.resolveAliases with
        | some message => simp [hfile, hparse, hvalid] at h
        | none =>
          simp only [hfile, hparse, hvalid, Except.ok.injEq] at h
          exact ⟨text, parsed, rfl, hparse, h, h ▸ hvalid⟩
  · rintro ⟨text, parsed, hfile, hparse, rfl, hvalid⟩
    simp [hfile, hparse, hvalid]

end Config

end Acva
