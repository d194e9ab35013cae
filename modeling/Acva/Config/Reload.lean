import Acva.Config.Paths
import Mathlib.Data.List.Basic

/-!
# Reloading the configuration

`ConfigReloader::reload` loads the file again and compares it with the live configuration, field by field. The live
configuration is the one that `load_and_resolve_config` made at start-up, with its paths rewritten; the file is
compared as it was read.
-/

namespace Acva

/-- The fields that a reload can change. -/
inductive HotField
  | llmTemperature
  | llmMaxTokens
  | dialogueMaxAssistantSentences
  | dialogueMaxTtsQueueSentences
  | vadOnsetThreshold
  | vadOffsetThreshold
  | vadHangoverMs
  | ttsTempoWpm
  | loggingLevel
  | audioWakeWordThreshold
  deriving DecidableEq, Repr

/-- The fields whose change takes a restart. -/
inductive RestartField
  | llmBaseUrl
  | llmModel
  | sttBaseUrl
  | sttModel
  | sttStreaming
  | sttLanguage
  | ttsBaseUrl
  | ttsVoices
  | ttsFallbackLang
  | memoryDbPath
  | vadModelPath
  | audioInputDevice
  | audioOutputDevice
  | audioCaptureEnabled
  | audioSampleRateHz
  | audioBufferFrames
  | audioWakeWordEnabled
  | audioWakeWordModelPaths
  | audioWakeWordFollowupWindowMs
  | controlBind
  | controlPort
  | activePersonality
  | loggingSink
  | loggingFilePath
  | loggingDirPath
  deriving DecidableEq, Repr

namespace HotField

/-- The catalog, in the order of its checks. -/
def all : List HotField :=
  [llmTemperature, llmMaxTokens, dialogueMaxAssistantSentences, dialogueMaxTtsQueueSentences, vadOnsetThreshold,
   vadOffsetThreshold, vadHangoverMs, ttsTempoWpm, loggingLevel, audioWakeWordThreshold]

/-- The name of the field in a diff. -/
def path : HotField → Text
  | llmTemperature => ascii "llm.temperature"
  | llmMaxTokens => ascii "llm.max_tokens"
  | dialogueMaxAssistantSentences => ascii "dialogue.max_assistant_sentences"
  | dialogueMaxTtsQueueSentences => ascii "dialogue.max_tts_queue_sentences"
  | vadOnsetThreshold => ascii "vad.onset_threshold"
  | vadOffsetThreshold => ascii "vad.offset_threshold"
  | vadHangoverMs => ascii "vad.hangover_ms"
  | ttsTempoWpm => ascii "tts.tempo_wpm"
  | loggingLevel => ascii "logging.level"
  | audioWakeWordThreshold => ascii "audio.wake_word.threshold"

/-- `cur.f != cand.f`. -/
def changed (cur cand : Config) : HotField → Bool
  | llmTemperature => !cur.llm.temperature.eq cand.llm.temperature
  | llmMaxTokens => cur.llm.maxTokens != cand.llm.maxTokens
  | dialogueMaxAssistantSentences => cur.dialogue.maxAssistantSentences != cand.dialogue.maxAssistantSentences
  | dialogueMaxTtsQueueSentences => cur.dialogue.maxTtsQueueSentences != cand.dialogue.maxTtsQueueSentences
  | vadOnsetThreshold => !cur.vad.onsetThreshold.eq cand.vad.onsetThreshold
  | vadOffsetThreshold => !cur.vad.offsetThreshold.eq cand.vad.offsetThreshold
  | vadHangoverMs => cur.vad.hangoverMs != cand.vad.hangoverMs
  | ttsTempoWpm => cur.tts.tempoWpm != cand.tts.tempoWpm
  | loggingLevel => cur.logging.level != cand.logging.level
  | audioWakeWordThreshold => !cur.audio.wakeWord.threshold.eq cand.audio.wakeWord.threshold

/-- `live.f = cand.f`. -/
def copy (cand live : Config) : HotField → Config
  | llmTemperature => { live with llm := { live.llm with temperature := cand.llm.temperature } }
  | llmMaxTokens => { live with llm := { live.llm with maxTokens := cand.llm.maxTokens } }
  | dialogueMaxAssistantSentences =>
    { live with dialogue := { live.dialogue with maxAssistantSentences := cand.dialogue.maxAssistantSentences } }
  | dialogueMaxTtsQueueSentences =>
    { live with dialogue := { live.dialogue with maxTtsQueueSentences := cand.dialogue.maxTtsQueueSentences } }
  | vadOnsetThreshold => { live with vad := { live.vad with onsetThreshold := cand.vad.onsetThreshold } }
  | vadOffsetThreshold => { live with vad := { live.vad with offsetThreshold := cand.vad.offsetThreshold } }
  | vadHangoverMs => { live with vad := { live.vad with hangoverMs := cand.vad.hangoverMs } }
  | ttsTempoWpm => { live with tts := { live.tts with tempoWpm := cand.tts.tempoWpm } }
  | loggingLevel => { live with logging := { live.logging with level := cand.logging.level } }
  | audioWakeWordThreshold =>
    { live with audio := { live.audio with wakeWord := { live.audio.wakeWord with
      threshold := cand.audio.wakeWord.threshold } } }

end HotField

namespace RestartField

def all : List RestartField :=
  [llmBaseUrl, llmModel, sttBaseUrl, sttModel, sttStreaming, sttLanguage, ttsBaseUrl, ttsVoices, ttsFallbackLang,
   memoryDbPath, vadModelPath, audioInputDevice, audioOutputDevice, audioCaptureEnabled, audioSampleRateHz,
   audioBufferFrames, audioWakeWordEnabled, audioWakeWordModelPaths, audioWakeWordFollowupWindowMs, controlBind,
   controlPort, activePersonality, loggingSink, loggingFilePath, loggingDirPath]

def path : RestartField → Text
  | llmBaseUrl => ascii "llm.base_url"
  | llmModel => ascii "llm.model"
  | sttBaseUrl => ascii "stt.base_url"
  | sttModel => ascii "stt.model"
  | sttStreaming => ascii "stt.streaming"
  | sttLanguage => ascii "stt.language"
  | ttsBaseUrl => ascii "tts.base_url"
  | ttsVoices => ascii "tts.voices"
  | ttsFallbackLang => ascii "tts.fallback_lang"
  | memoryDbPath => ascii "memory.db_path"
  | vadModelPath => ascii "vad.model_path"
  | audioInputDevice => ascii "audio.input_device"
  | audioOutputDevice => ascii "audio.output_device"
  | audioCaptureEnabled => ascii "audio.capture_enabled"
  | audioSampleRateHz => ascii "audio.sample_rate_hz"
  | audioBufferFrames => ascii "audio.buffer_frames"
  | audioWakeWordEnabled => ascii "audio.wake_word.enabled"
  | audioWakeWordModelPaths => ascii "audio.wake_word.model_paths"
  | audioWakeWordFollowupWindowMs => ascii "audio.wake_word.followup_window_ms"
  | controlBind => ascii "control.bind"
  | controlPort => ascii "control.port"
  | activePersonality => ascii "active_personality"
  | loggingSink => ascii "logging.sink"
  | loggingFilePath => ascii "logging.file_path"
  | loggingDirPath => ascii "logging.dir_path"

def changed (cur cand : Config) : RestartField → Bool
  | llmBaseUrl => cur.llm.baseUrl != cand.llm.baseUrl
  | llmModel => cur.llm.model != cand.llm.model
  | sttBaseUrl => cur.stt.baseUrl != cand.stt.baseUrl
  | sttModel => cur.stt.model != cand.stt.model
  | sttStreaming => cur.stt.streaming != cand.stt.streaming
  | sttLanguage => cur.stt.language != cand.stt.language
  | ttsBaseUrl => cur.tts.baseUrl != cand.tts.baseUrl
  | ttsVoices => decide (cur.tts.voices ≠ cand.tts.voices)
  | ttsFallbackLang => cur.tts.fallbackLang != cand.tts.fallbackLang
  | memoryDbPath => cur.memory.dbPath != cand.memory.dbPath
  | vadModelPath => cur.vad.modelPath != cand.vad.modelPath
  | audioInputDevice => cur.audio.inputDevice != cand.audio.inputDevice
  | audioOutputDevice => cur.audio.outputDevice != cand.audio.outputDevice
  | audioCaptureEnabled => cur.audio.captureEnabled != cand.audio.captureEnabled
  | audioSampleRateHz => cur.audio.sampleRateHz != cand.audio.sampleRateHz
  | audioBufferFrames => cur.audio.bufferFrames != cand.audio.bufferFrames
  | audioWakeWordEnabled => cur.audio.wakeWord.enabled != cand.audio.wakeWord.enabled
  | audioWakeWordModelPaths => cur.audio.wakeWord.modelPaths != cand.audio.wakeWord.modelPaths
  | audioWakeWordFollowupWindowMs => cur.audio.wakeWord.followupWindowMs != cand.audio.wakeWord.followupWindowMs
  | controlBind => cur.control.bind != cand.control.bind
  | controlPort => cur.control.port != cand.control.port
  | activePersonality => cur.activePersonality != cand.activePersonality
  | loggingSink => cur.logging.sink != cand.logging.sink
  | loggingFilePath => cur.logging.filePath != cand.logging.filePath
  | loggingDirPath => cur.logging.dirPath != cand.logging.dirPath

lemma mem_all (f : RestartField) : f ∈ all := by cases f <;> decide

end RestartField

structure ReloadDiff where
  changedHot : List HotField := []
  changedRestart : List RestartField := []
  deriving DecidableEq, Repr

def ReloadDiff.okToApply (d : ReloadDiff) : Bool := d.changedRestart.isEmpty

namespace Config

/-- `diff_one` and `dedupe`, which keeps the first of equal names. -/
def diffConfigs (current candidate : Config) : ReloadDiff where
  changedHot := (HotField.all.filter (HotField.changed current candidate)).eraseDups
  changedRestart := (RestartField.all.filter (RestartField.changed current candidate)).eraseDups

def applyHotFields (live candidate : Config) (diff : ReloadDiff) : Config :=
  diff.changedHot.foldl (HotField.copy candidate) live

end Config

inductive ReloadResult
  | ok (diff : ReloadDiff)
  | rejected (diff : ReloadDiff)
  | parseError (message : Text)
  deriving DecidableEq, Repr

/-- The live configuration and the file to read. The callbacks only see the outcome. -/
structure ConfigReloader where
  live : Config
  path : Text

def ConfigReloader.reload (readYaml : YamlReader) (host : Host) (r : ConfigReloader) :
    ReloadResult × ConfigReloader :=
  match Config.loadFromFile readYaml host r.path with
  | .error message => (.parseError message, r)
  | .ok candidate =>
    match Config.validate host candidate with
    | some message => (.parseError message, r)
    | none =>
      let d := Config.diffConfigs r.live candidate
      if d.okToApply then (.ok d, { r with live := Config.applyHotFields r.live candidate d })
      else (.rejected d, r)

/-! ### The diff -/

lemma eraseDups_of_nodup {α : Type} [BEq α] [LawfulBEq α] {l : List α} (h : l.Nodup) : l.eraseDups = l := by
  induction l with
  | nil => rfl
  | cons a l ih =>
    rw [List.nodup_cons] at h
    have hkeep : l.filter (fun b => !b == a) = l := by
      apply List.filter_eq_self.mpr
      intro b hb
      have hne : b ≠ a := fun heq => h.1 (heq ▸ hb)
      simp [hne]
    rw [List.eraseDups_cons, hkeep, ih h.2]

namespace Config

/-- The catalogs name no field twice, so nothing is dropped. -/
lemma diffConfigs_eq (current candidate : Config) : diffConfigs current candidate =
    ⟨HotField.all.filter (HotField.changed current candidate),
      RestartField.all.filter (RestartField.changed current candidate)⟩ := by
  unfold diffConfigs
  rw [eraseDups_of_nodup ((by decide : HotField.all.Nodup).filter _),
    eraseDups_of_nodup ((by decide : RestartField.all.Nodup).filter _)]

end Config

namespace HotField

lemma mem_all (f : HotField) : f ∈ all := by cases f <;> decide

lemma changed_copy (cand live : Config) {f g : HotField} (h : g ≠ f) :
    changed (copy cand live f) cand g = changed live cand g := by
  cases f <;> cases g <;> first | rfl | exact absurd rfl h

lemma copy_self (cfg : Config) (f : HotField) : copy cfg cfg f = cfg := by cases f <;> rfl

lemma copy_of_not_changed {cand live : Config} {f : HotField} (h : changed live cand f = false) :
    copy cand live f = live := by
  cases f with
  | llmTemperature | vadOnsetThreshold | vadOffsetThreshold | audioWakeWordThreshold =>
    have heq := Config.Number.eq_of_eq (by simpa [changed] using h)
    simp [copy, ← heq]
  | _ =>
    simp only [changed, bne_eq_false_iff_eq] at h
    simp [copy, ← h]

end HotField

namespace Config

/-- The configuration with all hot fields of another. -/
def withHot (cfg cand : Config) : Config := HotField.all.foldl (HotField.copy cand) cfg

/-- The fields that an application passes over are those whose assignment does nothing. -/
lemma foldl_copy_filter (cand live : Config) {fields : List HotField} (hnodup : fields.Nodup) {cur : Config}
    (hcur : ∀ f ∈ fields, HotField.changed cur cand f = HotField.changed live cand f) :
    (fields.filter (HotField.changed live cand)).foldl (HotField.copy cand) cur =
      fields.foldl (HotField.copy cand) cur := by
  induction fields generalizing cur with
  | nil => rfl
  | cons f fields ih =>
    rw [List.nodup_cons] at hnodup
    have hf := hcur f (by simp)
    by_cases hchanged : HotField.changed live cand f = true
    · rw [List.filter_cons_of_pos hchanged, List.foldl_cons, List.foldl_cons]
      apply ih hnodup.2
      intro g hg
      have hne : g ≠ f := fun heq => hnodup.1 (heq ▸ hg)
      rw [HotField.changed_copy cand cur hne]
      exact hcur g (by simp [hg])
    · rw [List.filter_cons_of_neg hchanged, List.foldl_cons,
        HotField.copy_of_not_changed (hf.trans (by simpa using hchanged))]
      apply ih hnodup.2
      intro g hg
      exact hcur g (by simp [hg])

lemma applyHotFields_diffConfigs (live candidate : Config) :
    applyHotFields live candidate (diffConfigs live candidate) = live.withHot candidate := by
  rw [diffConfigs_eq]
  exact foldl_copy_filter candidate live (by decide) (fun _ _ => rfl)

lemma withHot_self (cfg : Config) : cfg.withHot cfg = cfg := by
  unfold withHot
  induction HotField.all with
  | nil => rfl
  | cons f fields ih => rw [List.foldl_cons, HotField.copy_self, ih]

/-- No hot field of the configuration is a NaN, which differs from itself. -/
structure NumbersDefined (cfg : Config) : Prop where
  temperature : cfg.llm.temperature ≠ .nan
  onset : cfg.vad.onsetThreshold ≠ .nan
  offset : cfg.vad.offsetThreshold ≠ .nan
  wakeWord : cfg.audio.wakeWord.threshold ≠ .nan

lemma changed_self_iff (cfg : Config) :
    (∀ f, HotField.changed cfg cfg f = false) ↔ cfg.NumbersDefined := by
  constructor
  · intro h
    have htemperature := h .llmTemperature
    have honset := h .vadOnsetThreshold
    have hoffset := h .vadOffsetThreshold
    have hwake := h .audioWakeWordThreshold
    simp only [HotField.changed, Bool.not_eq_false', Number.eq_self_iff] at htemperature honset hoffset hwake
    exact ⟨htemperature, honset, hoffset, hwake⟩
  · intro h f
    cases f with
    | llmTemperature => simpa [HotField.changed, Number.eq_self_iff] using h.temperature
    | vadOnsetThreshold => simpa [HotField.changed, Number.eq_self_iff] using h.onset
    | vadOffsetThreshold => simpa [HotField.changed, Number.eq_self_iff] using h.offset
    | audioWakeWordThreshold => simpa [HotField.changed, Number.eq_self_iff] using h.wakeWord
    | _ => simp [HotField.changed]

/-! ### The live configuration and the file -/

/-- The paths in the configuration are such that start-up leaves them alone. -/
structure PathsSettled (host : Host) (cfg : Config) : Prop where
  database : cfg.memory.dbPath ≠ [] ∧ (Path.isAbsolute cfg.memory.dbPath = true ∨ host.xdgDataHome = [])
  vad : if cfg.vad.modelPath = [] then
      host.fileExists (host.resolveDataPath [] (ascii "models/silero/silero_vad.onnx")) = false
    else Path.isAbsolute cfg.vad.modelPath = true ∨ host.xdgDataHome = []
  wakeWord : ∀ p ∈ cfg.audio.wakeWord.modelPaths, p = [] ∨ Path.isAbsolute p = true

lemma map_resolveWakeWord_eq_self_iff (host : Host) (paths : List Text) :
    paths.map host.resolveWakeWord = paths ↔ ∀ p ∈ paths, p = [] ∨ Path.isAbsolute p = true := by
  simp only [← host.resolveWakeWord_eq_self_iff]
  induction paths with
  | nil => simp
  | cons p paths ih => simp [ih]

lemma restart_unchanged_iff (host : Host) (stdinMode : Bool) (cfg : Config) :
    (∀ f, RestartField.changed (cfg.resolvePaths host stdinMode) cfg f = false) ↔ cfg.PathsSettled host := by
  constructor
  · intro h
    have hdb := h .memoryDbPath
    have hvad := h .vadModelPath
    have hwake := h .audioWakeWordModelPaths
    simp only [RestartField.changed, resolvePaths, bne_eq_false_iff_eq] at hdb hvad hwake
    exact ⟨(host.resolveDataPath_eq_self_iff (by decide)).mp hdb, (host.resolveVadModel_eq_self_iff _).mp hvad,
      (map_resolveWakeWord_eq_self_iff host _).mp hwake⟩
  · intro h f
    cases f with
    | memoryDbPath =>
      have hdb : host.resolveDataPath cfg.memory.dbPath (ascii "acva.db") = cfg.memory.dbPath :=
        (host.resolveDataPath_eq_self_iff (by decide)).mpr h.database
      simp [RestartField.changed, resolvePaths, hdb]
    | vadModelPath =>
      have hvad := (host.resolveVadModel_eq_self_iff _).mpr h.vad
      simp [RestartField.changed, resolvePaths, hvad]
    | audioWakeWordModelPaths =>
      have hwake := (map_resolveWakeWord_eq_self_iff host _).mpr h.wakeWord
      simp [RestartField.changed, resolvePaths, hwake]
    | _ => simp [RestartField.changed, resolvePaths]

lemma hot_changed_resolvePaths (host : Host) (stdinMode : Bool) (cfg cand : Config) :
    HotField.changed (cfg.resolvePaths host stdinMode) cand = HotField.changed cfg cand := by
  funext f
  cases f <;> rfl

lemma restart_changed_copy (cur cand live : Config) (f : RestartField) (g : HotField) :
    RestartField.changed cur (HotField.copy cand live g) f = RestartField.changed cur live f := by
  cases g <;> cases f <;> rfl

lemma restart_changed_withHot (cur cand cfg : Config) (f : RestartField) :
    RestartField.changed cur (cfg.withHot cand) f = RestartField.changed cur cfg f := by
  unfold withHot
  induction HotField.all generalizing cfg with
  | nil => rfl
  | cons g fields ih => rw [List.foldl_cons, ih, restart_changed_copy]

/-- The hot fields in which the candidate differs: those whose assignment changes the configuration. -/
def hotEdits (cfg cand : Config) : List HotField := HotField.all.filter fun f => decide (HotField.copy cand cfg f ≠ cfg)

/-- Without NaNs in the configuration, the comparison of the diff is that of the values. -/
lemma NumbersDefined.changed_eq {cfg : Config} (h : cfg.NumbersDefined) (cand : Config) (f : HotField) :
    HotField.changed cfg cand f = decide (HotField.copy cand cfg f ≠ cfg) := by
  by_cases hchanged : HotField.changed cfg cand f = false
  · rw [hchanged, HotField.copy_of_not_changed hchanged]
    simp
  · have htrue : HotField.changed cfg cand f = true := by simpa using hchanged
    have hself := (changed_self_iff cfg).mpr h f
    have hcopy : HotField.copy cand cfg f ≠ cfg := by
      intro heq
      -- the two configurations have the value of the field in common, and it is not a NaN
      have hvalue : HotField.changed cfg cand f = HotField.changed cfg (HotField.copy cand cfg f) f := by
        cases f <;> rfl
      rw [heq, hself] at hvalue
      exact hchanged hvalue
    rw [htrue]
    simp [hcopy]

end Config

namespace ConfigReloader

open Config

lemma reload_of_load {readYaml : YamlReader} {host : Host} {r : ConfigReloader} {cand : Config}
    (hload : loadFromFile readYaml host r.path = .ok cand) : r.reload readYaml host =
      if (diffConfigs r.live cand).okToApply then
        (.ok (diffConfigs r.live cand), { r with live := r.live.withHot cand })
      else (.rejected (diffConfigs r.live cand), r) := by
  obtain ⟨text, parsed, hfile, hparse, halias, hvalid⟩ := loadFromFile_eq_ok.mp hload
  unfold reload
  simp only [hload, hvalid, applyHotFields_diffConfigs]

/-- Every edit of hot fields that still loads is accepted, and changes exactly the fields edited. -/
def HotEditsAccepted (readYaml : YamlReader) (loaded : LoadedConfig) (cfg : Config) : Prop :=
  ∀ host cand, loadFromFile readYaml host loaded.configPath = .ok cand → cfg.withHot cand = cand →
    ConfigReloader.reload readYaml host ⟨loaded.cfg, loaded.configPath⟩ =
      (.ok ⟨cfg.hotEdits cand, []⟩, ⟨loaded.cfg.withHot cand, loaded.configPath⟩)

lemma hotEditsAccepted_of_settled (readYaml : YamlReader) (host : Host) (stdinMode : Bool) (path : Text)
    {cfg : Config} (hpaths : cfg.PathsSettled host) (hnumbers : cfg.NumbersDefined) :
    HotEditsAccepted readYaml ⟨cfg.resolvePaths host stdinMode, path⟩ cfg := by
  intro host' cand hload hedit
  have hrestart : RestartField.all.filter (RestartField.changed (cfg.resolvePaths host stdinMode) cand) = [] := by
    apply List.filter_eq_nil_iff.mpr
    intro f _
    rw [← hedit, restart_changed_withHot, (restart_unchanged_iff host stdinMode cfg).mpr hpaths f]
    simp
  have hhot : HotField.all.filter (HotField.changed (cfg.resolvePaths host stdinMode) cand) = cfg.hotEdits cand := by
    rw [hot_changed_resolvePaths]
    apply List.filter_congr
    intro f _
    exact hnumbers.changed_eq cand f
  have hdiff : diffConfigs (cfg.resolvePaths host stdinMode) cand = ⟨cfg.hotEdits cand, []⟩ := by
    rw [diffConfigs_eq, hhot, hrestart]
  rw [reload_of_load hload]
  simp [hdiff, ReloadDiff.okToApply]

lemma hotEdits_self (cfg : Config) : cfg.hotEdits cfg = [] := by
  apply List.filter_eq_nil_iff.mpr
  intro f _
  simp [HotField.copy_self]

/-- The file read again loads as before, unless it is refused for the test recording it names. -/
lemma load_again {readYaml : YamlReader} {host host' : Host} {path : Text} {cfg : Config}
    (hload : loadFromFile readYaml host path = .ok cfg) (hsame : host'.readFile path = host.readFile path) :
    if cfg.audio.testInputWav ≠ [] → host'.fileExists cfg.audio.testInputWav = true then
      loadFromFile readYaml host' path = .ok cfg
    else ∃ message, loadFromFile readYaml host' path = .error message := by
  obtain ⟨text, parsed, hfile, hparse, halias, hvalid⟩ := loadFromFile_eq_ok.mp hload
  have hfile' := hsame.trans hfile
  by_cases hwav : cfg.audio.testInputWav ≠ [] → host'.fileExists cfg.audio.testInputWav = true
  · rw [if_pos hwav]
    exact loadFromFile_eq_ok.mpr ⟨text, parsed, hfile', hparse, halias, (validate_eq_none_of hvalid).mpr hwav⟩
  · rw [if_neg hwav]
    obtain ⟨message, hmessage⟩ := Option.ne_none_iff_exists'.mp (mt (validate_eq_none_of hvalid).mp hwav)
    exact ⟨message, by simp [loadFromFile, loadFromString, hfile', hparse, halias, hmessage]⟩

lemma diffConfigs_resolvePaths_iff (host : Host) (stdinMode : Bool) (cfg : Config) :
    diffConfigs (cfg.resolvePaths host stdinMode) cfg = {} ↔ cfg.PathsSettled host ∧ cfg.NumbersDefined := by
  rw [diffConfigs_eq, hot_changed_resolvePaths, ReloadDiff.mk.injEq, List.filter_eq_nil_iff, List.filter_eq_nil_iff,
    ← restart_unchanged_iff host stdinMode cfg, ← changed_self_iff, and_comm]
  simp only [Bool.not_eq_true, HotField.mem_all, RestartField.mem_all, forall_const]

lemma loadAndResolveConfig_eq_ok {readYaml : YamlReader} {host : Host} {cli : Text} {stdinMode : Bool}
    {loaded : LoadedConfig} (h : loadAndResolveConfig readYaml host cli stdinMode = .ok loaded) :
    ∃ cfg, loadFromFile readYaml host loaded.configPath = .ok cfg ∧ loaded.cfg = cfg.resolvePaths host stdinMode := by
  unfold loadAndResolveConfig at h
  cases hpath : host.resolveConfigPath cli with
  | error message => simp [hpath] at h
  | ok path =>
    cases hload : loadFromFile readYaml host path with
    | error message => simp [hpath, hload] at h
    | ok cfg =>
      simp only [hpath, hload, Except.ok.injEq] at h
      exact ⟨cfg, by rw [← h, hload], by rw [← h]⟩

/-- After a start, reloading the unchanged file changes nothing, and edits of hot fields are accepted, exactly if
the paths in the file are such that start-up left them alone, no hot field is a NaN and the test recording that the
file names is still there. -/
theorem reload_unchanged_iff {readYaml : YamlReader} {host : Host} {cli : Text} {stdinMode : Bool}
    {loaded : LoadedConfig} (hstart : loadAndResolveConfig readYaml host cli stdinMode = .ok loaded) {host' : Host}
    (hsame : host'.readFile loaded.configPath = host.readFile loaded.configPath) :
    ∃ cfg, loadFromFile readYaml host loaded.configPath = .ok cfg ∧
      (((ConfigReloader.reload readYaml host' ⟨loaded.cfg, loaded.configPath⟩).1 = .ok {} ∧
          HotEditsAccepted readYaml loaded cfg) ↔
        cfg.PathsSettled host ∧ cfg.NumbersDefined ∧
          (cfg.audio.testInputWav ≠ [] → host'.fileExists cfg.audio.testInputWav = true)) := by
  obtain ⟨cfg, hload, hcfg⟩ := loadAndResolveConfig_eq_ok hstart
  refine ⟨cfg, hload, ?_⟩
  have hagain := load_again hload hsame
  by_cases hwav : cfg.audio.testInputWav ≠ [] → host'.fileExists cfg.audio.testInputWav = true
  · rw [if_pos hwav] at hagain
    constructor
    · rintro ⟨hok, -⟩
      rw [reload_of_load hagain, hcfg] at hok
      have hdiff : diffConfigs (cfg.resolvePaths host stdinMode) cfg = {} := by
        split at hok
        · simpa using hok
        · simp at hok
      obtain ⟨hpaths, hnumbers⟩ := (diffConfigs_resolvePaths_iff host stdinMode cfg).mp hdiff
      exact ⟨hpaths, hnumbers, hwav⟩
    · rintro ⟨hpaths, hnumbers, -⟩
      have haccepted : HotEditsAccepted readYaml loaded cfg := by
        have h := hotEditsAccepted_of_settled readYaml host stdinMode loaded.configPath hpaths hnumbers
        rw [← hcfg] at h
        exact h
      refine ⟨?_, haccepted⟩
      rw [haccepted host' cfg hagain cfg.withHot_self, hotEdits_self]
  · rw [if_neg hwav] at hagain
    obtain ⟨message, hrefused⟩ := hagain
    constructor
    · rintro ⟨hok, -⟩
      simp [reload, hrefused] at hok
    · rintro ⟨-, -, hthere⟩
      exact absurd hthere hwav

/-- A host with a home directory and one file, the configuration. -/
def homeHost (text : Text) : Host where
  env name := if name = .home then some (ascii "/home/user") else none
  readFile path := if path = ascii "acva.yaml" then some text else none
  fileExists _ := false

/-- A reader that knows one text. -/
def readsAs (text : Text) (cfg : Config) : YamlReader := fun t => if t = text then .ok cfg else .error []

lemma homeHost_loadFromFile {text : Text} {cfg : Config}
    (hvalid : validate (homeHost text) cfg.resolveAliases = none) :
    loadFromFile (readsAs text cfg) (homeHost text) (ascii "acva.yaml") = .ok cfg.resolveAliases :=
  loadFromFile_eq_ok.mpr ⟨text, cfg, by simp [homeHost], by simp [readsAs], rfl, hvalid⟩

lemma homeHost_load {text : Text} {cfg : Config} (hvalid : validate (homeHost text) cfg.resolveAliases = none) :
    loadAndResolveConfig (readsAs text cfg) (homeHost text) (ascii "acva.yaml") false =
      .ok ⟨cfg.resolveAliases.resolvePaths (homeHost text) false, ascii "acva.yaml"⟩ := by
  have hpath : (homeHost text).resolveConfigPath (ascii "acva.yaml") = .ok (ascii "acva.yaml") := by
    rw [Host.resolveConfigPath, if_pos (by decide)]
  simp only [loadAndResolveConfig, hpath, homeHost_loadFromFile hvalid]

def absoluteDb : Config := { memory := { dbPath := ascii "/srv/acva.db" } }

def absoluteDbText : Text := ascii "memory:\n  db_path: /srv/acva.db\n"

theorem absolute_db_reloads :
    ∃ loaded, loadAndResolveConfig (readsAs absoluteDbText absoluteDb) (homeHost absoluteDbText) (ascii "acva.yaml")
        false = .ok loaded ∧
      (ConfigReloader.reload (readsAs absoluteDbText absoluteDb) (homeHost absoluteDbText)
        ⟨loaded.cfg, loaded.configPath⟩).1 = .ok {} := by
  have hvalid : validate (homeHost absoluteDbText) absoluteDb.resolveAliases = none := by decide +kernel
  have hstart := homeHost_load hvalid
  refine ⟨_, hstart, ?_⟩
  obtain ⟨cfg, hload, hiff⟩ := reload_unchanged_iff hstart rfl
  have hcfg : absoluteDb.resolveAliases = cfg :=
    Except.ok.inj ((homeHost_loadFromFile hvalid).symm.trans hload)
  have halias : absoluteDb.resolveAliases = absoluteDb := by decide +kernel
  rw [← hcfg, halias] at hiff
  exact (hiff.mpr ⟨⟨by decide, by decide, by decide⟩, ⟨by decide, by decide, by decide, by decide⟩, by decide⟩).1

/-- The default: no path for the database. Start-up puts one in, and the file never agrees with it again. -/
def emptyDbText : Text := ascii "memory:\n  db_path: ''\n"

theorem empty_db_refuses_reload :
    ∃ loaded, loadAndResolveConfig (readsAs emptyDbText {}) (homeHost emptyDbText) (ascii "acva.yaml") false =
        .ok loaded ∧
      (ConfigReloader.reload (readsAs emptyDbText {}) (homeHost emptyDbText) ⟨loaded.cfg, loaded.configPath⟩).1 =
        .rejected ⟨[], [.memoryDbPath]⟩ := by
  have hvalid : validate (homeHost emptyDbText) (resolveAliases {}) = none := by decide +kernel
  exact ⟨_, homeHost_load hvalid, by decide +kernel⟩

end ConfigReloader

end Acva
