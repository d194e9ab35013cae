import Acva.Config.Reload

/-!
# The names of the hot fields

`diff_one` and `apply_hot_fields` are two tables that only the names of the fields connect. Both are here with their
names, and they agree with the enumeration of the fields.
-/

namespace Acva

inductive ReloadClass
  | hot
  | restart
  deriving DecidableEq, Repr

/-- The diff as the source has it. -/
structure NamedDiff where
  changedHot : List Text := []
  changedRestart : List Text := []
  deriving DecidableEq, Repr

inductive NamedResult
  | ok (diff : NamedDiff)
  | rejected (diff : NamedDiff)
  | parseError (message : Text)
  deriving DecidableEq, Repr

/-- The fields of a diff by their names. -/
def ReloadDiff.named (d : ReloadDiff) : NamedDiff :=
  ⟨d.changedHot.map HotField.path, d.changedRestart.map RestartField.path⟩

def ReloadResult.named : ReloadResult → NamedResult
  | .ok diff => .ok diff.named
  | .rejected diff => .rejected diff.named
  | .parseError message => .parseError message

namespace NamedDiff

def okToApply (d : NamedDiff) : Bool := d.changedRestart.isEmpty

def check (out : NamedDiff) (changed : Bool) (path : Text) (cls : ReloadClass) : NamedDiff :=
  if changed then
    match cls with
    | .hot => { out with changedHot := out.changedHot ++ [path] }
    | .restart => { out with changedRestart := out.changedRestart ++ [path] }
  else out

/-- The checks of `diff_one`, in their order. -/
def checks (cur cand : Config) : List (Bool × Text × ReloadClass) :=
  [(!cur.llm.temperature.eq cand.llm.temperature, ascii "llm.temperature", .hot),
   (cur.llm.maxTokens != cand.llm.maxTokens, ascii "llm.max_tokens", .hot),
   (cur.dialogue.maxAssistantSentences != cand.dialogue.maxAssistantSentences,
    ascii "dialogue.max_assistant_sentences", .hot),
   (cur.dialogue.maxTtsQueueSentences != cand.dialogue.maxTtsQueueSentences,
    ascii "dialogue.max_tts_queue_sentences", .hot),
   (!cur.vad.onsetThreshold.eq cand.vad.onsetThreshold, ascii "vad.onset_threshold", .hot),
   (!cur.vad.offsetThreshold.eq cand.vad.offsetThreshold, ascii "vad.offset_threshold", .hot),
   (cur.vad.hangoverMs != cand.vad.hangoverMs, ascii "vad.hangover_ms", .hot),
   (cur.tts.tempoWpm != cand.tts.tempoWpm, ascii "tts.tempo_wpm", .hot),
   (cur.logging.level != cand.logging.level, ascii "logging.level", .hot),
   (!cur.audio.wakeWord.threshold.eq cand.audio.wakeWord.threshold, ascii "audio.wake_word.threshold", .hot),
   (cur.llm.baseUrl != cand.llm.baseUrl, ascii "llm.base_url", .restart),
   (cur.llm.model != cand.llm.model, ascii "llm.model", .restart),
   (cur.stt.baseUrl != cand.stt.baseUrl, ascii "stt.base_url", .restart),
   (cur.stt.model != cand.stt.model, ascii "stt.model", .restart),
   (cur.stt.streaming != cand.stt.streaming, ascii "stt.streaming", .restart),
   (cur.stt.language != cand.stt.language, ascii "stt.language", .restart),
   (cur.tts.baseUrl != cand.tts.baseUrl, ascii "tts.base_url", .restart),
   (decide (cur.tts.voices ≠ cand.tts.voices), ascii "tts.voices", .restart),
   (cur.tts.fallbackLang != cand.tts.fallbackLang, ascii "tts.fallback_lang", .restart),
   (cur.memory.dbPath != cand.memory.dbPath, ascii "memory.db_path", .restart),
   (cur.vad.modelPath != cand.vad.modelPath, ascii "vad.model_path", .restart),
   (cur.audio.inputDevice != cand.audio.inputDevice, ascii "audio.input_device", .restart),
   (cur.audio.outputDevice != cand.audio.outputDevice, ascii "audio.output_device", .restart),
   (cur.audio.captureEnabled != cand.audio.captureEnabled, ascii "audio.capture_enabled", .restart),
   (cur.audio.sampleRateHz != cand.audio.sampleRateHz, ascii "audio.sample_rate_hz", .restart),
   (cur.audio.bufferFrames != cand.audio.bufferFrames, ascii "audio.buffer_frames", .restart),
   (cur.audio.wakeWord.enabled != cand.audio.wakeWord.enabled, ascii "audio.wake_word.enabled", .restart),
   (cur.audio.wakeWord.modelPaths != cand.audio.wakeWord.modelPaths, ascii "audio.wake_word.model_paths", .restart),
   (cur.audio.wakeWord.followupWindowMs != cand.audio.wakeWord.followupWindowMs,
    ascii "audio.wake_word.followup_window_ms", .restart),
   (cur.control.bind != cand.control.bind, ascii "control.bind", .restart),
   (cur.control.port != cand.control.port, ascii "control.port", .restart),
   (cur.activePersonality != cand.activePersonality, ascii "active_personality", .restart),
   (cur.logging.sink != cand.logging.sink, ascii "logging.sink", .restart),
   (cur.logging.filePath != cand.logging.filePath, ascii "logging.file_path", .restart),
   (cur.logging.dirPath != cand.logging.dirPath, ascii "logging.dir_path", .restart)]

def diffOne (cur cand : Config) : NamedDiff :=
  (checks cur cand).foldl (fun out c => out.check c.1 c.2.1 c.2.2) {}

/-- The first of equal names stays. -/
def dedupe (v : List Text) : List Text := v.foldl (fun out s => if out.any (· == s) then out else out ++ [s]) []

def diffConfigs (current candidate : Config) : NamedDiff :=
  let d := diffOne current candidate
  { changedHot := dedupe d.changedHot, changedRestart := dedupe d.changedRestart }

/-- One turn of the loop of `apply_hot_fields`; an unknown name is ignored. -/
def assign (candidate live : Config) (f : Text) : Config :=
  if f = ascii "llm.temperature" then { live with llm := { live.llm with temperature := candidate.llm.temperature } }
  else if f = ascii "llm.max_tokens" then { live with llm := { live.llm with maxTokens := candidate.llm.maxTokens } }
  else if f = ascii "dialogue.max_assistant_sentences" then
    { live with dialogue := { live.dialogue with maxAssistantSentences := candidate.dialogue.maxAssistantSentences } }
  else if f = ascii "dialogue.max_tts_queue_sentences" then
    { live with dialogue := { live.dialogue with maxTtsQueueSentences := candidate.dialogue.maxTtsQueueSentences } }
  else if f = ascii "vad.onset_threshold" then
    { live with vad := { live.vad with onsetThreshold := candidate.vad.onsetThreshold } }
  else if f = ascii "vad.offset_threshold" then
    { live with vad := { live.vad with offsetThreshold := candidate.vad.offsetThreshold } }
  else if f = ascii "vad.hangover_ms" then
    { live with vad := { live.vad with hangoverMs := candidate.vad.hangoverMs } }
  else if f = ascii "tts.tempo_wpm" then { live with tts := { live.tts with tempoWpm := candidate.tts.tempoWpm } }
  else if f = ascii "logging.level" then { live with logging := { live.logging with level := candidate.logging.level } }
  else if f = ascii "audio.wake_word.threshold" then
    { live with audio := { live.audio with wakeWord := { live.audio.wakeWord with
      threshold := candidate.audio.wakeWord.threshold } } }
  else live

def applyHotFields (live candidate : Config) (diff : NamedDiff) : Config :=
  diff.changedHot.foldl (assign candidate) live

end NamedDiff

/-- `ConfigReloader::reload`. -/
def ConfigReloader.reloadNamed (readYaml : YamlReader) (host : Host) (r : ConfigReloader) :
    NamedResult × ConfigReloader :=
  match Config.loadFromFile readYaml host r.path with
  | .error message => (.parseError message, r)
  | .ok candidate =>
    match Config.validate host candidate with
    | some message => (.parseError message, r)
    | none =>
      let d := NamedDiff.diffConfigs r.live candidate
      if d.okToApply then (.ok d, { r with live := NamedDiff.applyHotFields r.live candidate d })
      else (.rejected d, r)

namespace NamedDiff

lemma checks_eq (cur cand : Config) : checks cur cand =
    HotField.all.map (fun f => (f.changed cur cand, f.path, .hot)) ++
      RestartField.all.map (fun f => (f.changed cur cand, f.path, .restart)) := rfl

lemma assign_path (cand live : Config) (f : HotField) : assign cand live f.path = HotField.copy cand live f := by
  cases f <;> rfl

lemma foldl_check {α : Type} (cls : ReloadClass) (changed : α → Bool) (path : α → Text) (fields : List α)
    (out : NamedDiff) :
    (fields.map fun f => (changed f, path f, cls)).foldl (fun out c => out.check c.1 c.2.1 c.2.2) out =
      match cls with
      | .hot => { out with changedHot := out.changedHot ++ (fields.filter changed).map path }
      | .restart => { out with changedRestart := out.changedRestart ++ (fields.filter changed).map path } := by
  induction fields generalizing out with
  | nil => cases cls <;> simp
  | cons f fields ih =>
    rw [List.map_cons, List.foldl_cons, ih]
    cases cls with
    | hot => cases hchanged : changed f <;> simp [check, hchanged]
    | restart => cases hchanged : changed f <;> simp [check, hchanged]

lemma diffOne_eq (cur cand : Config) : diffOne cur cand =
    ⟨(HotField.all.filter (HotField.changed cur cand)).map HotField.path,
      (RestartField.all.filter (RestartField.changed cur cand)).map RestartField.path⟩ := by
  rw [diffOne, checks_eq, List.foldl_append, foldl_check .hot (HotField.changed cur cand),
    foldl_check .restart (RestartField.changed cur cand)]
  simp

lemma dedupe_of_nodup {v : List Text} (h : v.Nodup) : dedupe v = v := by
  have hloop : ∀ (v out : List Text), (out ++ v).Nodup →
      v.foldl (fun out s => if out.any (· == s) then out else out ++ [s]) out = out ++ v := by
    intro v
    induction v with
    | nil => exact fun out _ => (List.append_nil out).symm
    | cons s v ih =>
      intro out hnodup
      have hnew : s ∉ out := fun hs => (List.nodup_append.mp hnodup).2.2 s hs s List.mem_cons_self rfl
      have hany : out.any (· == s) = false := by
        rw [List.any_eq_false]
        intro t ht heq
        exact hnew (eq_of_beq heq ▸ ht)
      rw [List.foldl_cons, hany, if_neg Bool.false_ne_true, ih (out ++ [s]) (by simpa using hnodup)]
      simp
  exact hloop v [] h

/-- No name stands for two fields, so nothing is dropped. -/
lemma diffConfigs_eq (cur cand : Config) : diffConfigs cur cand = (Config.diffConfigs cur cand).named := by
  have hhot : (HotField.all.map HotField.path).Nodup := by decide +kernel
  have hrestart : (RestartField.all.map RestartField.path).Nodup := by decide +kernel
  rw [Config.diffConfigs_eq, diffConfigs, diffOne_eq]
  simp only [ReloadDiff.named]
  rw [dedupe_of_nodup (hhot.sublist (List.filter_sublist.map _)),
    dedupe_of_nodup (hrestart.sublist (List.filter_sublist.map _))]

lemma applyHotFields_eq (live cand : Config) :
    applyHotFields live cand (diffConfigs live cand) = live.withHot cand := by
  rw [← Config.applyHotFields_diffConfigs, diffConfigs_eq, applyHotFields, ReloadDiff.named, List.foldl_map,
    Config.applyHotFields]
  exact congrArg (fun copy => List.foldl copy live _) (funext₂ fun live f => assign_path cand live f)

end NamedDiff

namespace Config

/-- The candidate's value in each hot field, and the old one in all others. -/
def takesHot (live cand : Config) : Config :=
  { live with
    llm := { live.llm with temperature := cand.llm.temperature, maxTokens := cand.llm.maxTokens }
    dialogue := { live.dialogue with
      maxAssistantSentences := cand.dialogue.maxAssistantSentences
      maxTtsQueueSentences := cand.dialogue.maxTtsQueueSentences }
    vad := { live.vad with
      onsetThreshold := cand.vad.onsetThreshold
      offsetThreshold := cand.vad.offsetThreshold
      hangoverMs := cand.vad.hangoverMs }
    tts := { live.tts with tempoWpm := cand.tts.tempoWpm }
    logging := { live.logging with level := cand.logging.level }
    audio := { live.audio with wakeWord := { live.audio.wakeWord with threshold := cand.audio.wakeWord.threshold } } }

lemma withHot_eq (live cand : Config) : live.withHot cand = live.takesHot cand := by
  simp only [withHot, HotField.all, List.foldl_cons, List.foldl_nil, HotField.copy, takesHot]

/-- The hot fields are applied and nothing else, and then there is nothing more to apply. -/
def AppliesHot (live cand : Config) : Prop :=
  let applied := NamedDiff.applyHotFields live cand (NamedDiff.diffConfigs live cand)
  applied = live.takesHot cand ∧ (NamedDiff.diffConfigs applied cand).changedHot = []

/-- A reload that does not succeed leaves the live configuration alone. -/
def KeepsLive (live : Config) : Prop :=
  ∀ (readYaml : YamlReader) (host : Host) (path : Text),
    let r := ConfigReloader.reloadNamed readYaml host ⟨live, path⟩
    (∃ diff, r.1 = .rejected diff) ∨ (∃ message, r.1 = .parseError message) → r.2.live = live

lemma changed_takesHot (live cand : Config) (f : HotField) :
    HotField.changed (live.takesHot cand) cand f = HotField.changed cand cand f := by
  cases f <;> rfl

lemma appliesHot_iff (live cand : Config) : live.AppliesHot cand ↔ cand.NumbersDefined := by
  have happlied : NamedDiff.applyHotFields live cand (NamedDiff.diffConfigs live cand) = live.takesHot cand :=
    (NamedDiff.applyHotFields_eq live cand).trans (withHot_eq live cand)
  simp only [AppliesHot]
  rw [happlied, NamedDiff.diffConfigs_eq, ReloadDiff.named, List.map_eq_nil_iff, diffConfigs_eq, List.filter_eq_nil_iff,
    ← changed_self_iff]
  simp only [changed_takesHot, Bool.not_eq_true, HotField.mem_all, forall_const, true_and]

lemma keepsLive (live : Config) : live.KeepsLive := by
  intro readYaml host path
  simp only [ConfigReloader.reloadNamed]
  split
  · exact fun _ => rfl
  · split
    · exact fun _ => rfl
    · split
      · rintro (⟨diff, h⟩ | ⟨message, h⟩)
        · simp at h
        · simp at h
      · exact fun _ => rfl

end Config

namespace ConfigReloader

open Config

lemma reloadNamed_eq (readYaml : YamlReader) (host : Host) (r : ConfigReloader) :
    r.reloadNamed readYaml host = ((r.reload readYaml host).1.named, (r.reload readYaml host).2) := by
  cases hload : loadFromFile readYaml host r.path with
  | error message =>
    simp only [reloadNamed, reload, hload]
    rfl
  | ok cand =>
    cases hvalid : validate host cand with
    | some message =>
      simp only [reloadNamed, reload, hload, hvalid]
      rfl
    | none =>
      have hok : (diffConfigs r.live cand).named.okToApply = (diffConfigs r.live cand).okToApply := by
        simp only [NamedDiff.okToApply, ReloadDiff.okToApply, ReloadDiff.named, List.isEmpty_map]
      simp only [reloadNamed, reload, hload, hvalid, NamedDiff.applyHotFields_eq, applyHotFields_diffConfigs]
      simp only [NamedDiff.diffConfigs_eq, hok]
      split <;> rfl

/-- A reload applies exactly the hot fields, and nothing if it fails; after it there is no hot change left exactly if
no hot field of the candidate is a NaN. -/
theorem hot_reload_iff (live cand : Config) : live.AppliesHot cand ∧ live.KeepsLive ↔ cand.NumbersDefined := by
  rw [appliesHot_iff]
  exact and_iff_left (keepsLive live)

def nanTemperature : Config := { llm := { temperature := .nan } }

def nanTemperatureText : Text := ascii "llm:\n  temperature: .nan\n"

/-- Validation lets a NaN pass, and each reload of the same file reports it as changed. -/
theorem nan_reloads_again :
    let reload := reloadNamed (readsAs nanTemperatureText nanTemperature) (homeHost nanTemperatureText)
    let r := reload ⟨{}, ascii "acva.yaml"⟩
    r.1 = .ok ⟨[ascii "llm.temperature"], []⟩ ∧ (reload r.2).1 = .ok ⟨[ascii "llm.temperature"], []⟩ ∧
      ¬AppliesHot {} nanTemperature := by
  have hvalid : validate (homeHost nanTemperatureText) nanTemperature.resolveAliases = none := by decide +kernel
  have halias : nanTemperature.resolveAliases = nanTemperature := by decide +kernel
  have hload := homeHost_loadFromFile hvalid
  rw [halias] at hload
  have hreload : ∀ live : Config, diffConfigs live nanTemperature = ⟨[.llmTemperature], []⟩ →
      reloadNamed (readsAs nanTemperatureText nanTemperature) (homeHost nanTemperatureText)
          ⟨live, ascii "acva.yaml"⟩ =
        (.ok ⟨[ascii "llm.temperature"], []⟩, ⟨live.withHot nanTemperature, ascii "acva.yaml"⟩) := by
    intro live hdiff
    rw [reloadNamed_eq, reload_of_load (r := ⟨live, ascii "acva.yaml"⟩) hload, hdiff]
    rfl
  have hfirst := hreload {} (by decide +kernel)
  have hsecond := hreload (withHot {} nanTemperature) (by decide +kernel)
  refine ⟨by rw [hfirst], by rw [hfirst, hsecond], ?_⟩
  rw [appliesHot_iff]
  exact fun h => h.temperature rfl

end ConfigReloader

end Acva
