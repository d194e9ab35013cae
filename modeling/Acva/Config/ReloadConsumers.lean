import Acva.Audio.Endpointer
import Acva.Config.Reload
import Acva.Lib.Mirrors
import Acva.Log.JsonSink

/-!
# The components behind a reload

`ReloadSetup` hands an accepted reload on to three components that keep values of their own: the logger, the endpointer
and the wake-word detector. `main` registers their callbacks one after the other while the control server already takes
reloads, and the capture stack is built from the live configuration before its two components are registered.
-/

namespace Acva

/-! ### The level of the logger -/

namespace Log

def parseLevel (level : Text) : Level :=
  if level = ascii "trace" then .trace
  else if level = ascii "debug" then .debug
  else if level = ascii "info" then .info
  else if level = ascii "warn" then .warn
  else if level = ascii "error" then .err
  else if level = ascii "critical" then .critical
  else if level = ascii "off" then .off
  else .info

def isKnownLevel (level : Text) : Bool :=
  level == ascii "trace" || level == ascii "debug" || level == ascii "info" || level == ascii "warn" ||
    level == ascii "error" || level == ascii "critical" || level == ascii "off"

/-- `log::set_level`: an unknown level leaves the threshold as it was. -/
def setLevel (current : Level) (level : Text) : Level := if isKnownLevel level then parseLevel level else current

lemma isKnownLevel_of_validate {host : Host} {cfg : Config} (h : Config.validate host cfg = none) :
    isKnownLevel cfg.logging.level = true := by
  unfold Config.validate at h
  rw [Config.firstError_eq_none] at h
  have hcheck := h _ (List.mem_append_left _ (List.mem_cons_self ..))
  have hmem : cfg.logging.level ∈ Config.validLogLevels := by simpa using hcheck
  simp only [Config.validLogLevels, List.map_cons, List.map_nil, List.mem_cons, List.not_mem_nil, or_false] at hmem
  simp only [isKnownLevel, Bool.or_eq_true, beq_iff_eq]
  tauto

end Log

/-! ### The components -/

/-- `EndpointerConfig` of the running endpointer, whose thresholds can be any floats. -/
structure EndpointerSettings where
  onsetThreshold : Config.Number := .finite (mkRat 1 2)
  offsetThreshold : Config.Number := .finite (mkRat 11744051 33554432)
  minSpeechMs : Milliseconds := 200
  hangoverMs : Milliseconds := 600
  deriving DecidableEq

namespace EndpointerSettings

def updateThresholds (own cfg : EndpointerSettings) : EndpointerSettings :=
  { own with
    onsetThreshold := cfg.onsetThreshold
    offsetThreshold := cfg.offsetThreshold
    hangoverMs := cfg.hangoverMs }

/-- What a reload can change. -/
def thresholds (e : EndpointerSettings) : Config.Number × Config.Number × Milliseconds :=
  (e.onsetThreshold, e.offsetThreshold, e.hangoverMs)

/-- The settings of an endpointer whose thresholds are finite. -/
def ofConfig (cfg : EndpointerConfig) : EndpointerSettings :=
  ⟨.finite cfg.onsetThreshold, .finite cfg.offsetThreshold, cfg.minSpeechMs, cfg.hangoverMs⟩

lemma ofConfig_updateThresholds (p : Endpointer) (cfg : EndpointerConfig) :
    ofConfig (p.updateThresholds cfg).cfg = (ofConfig p.cfg).updateThresholds (ofConfig cfg) := rfl

end EndpointerSettings

namespace Config

/-- The thresholds of the endpointer, as the capture stack and the callback read them. -/
def thresholds (cfg : Config) : Number × Number × Milliseconds :=
  (cfg.vad.onsetThreshold, cfg.vad.offsetThreshold, cfg.vad.hangoverMs.toNat)

/-- The part of `AudioPipeline::Config` that the endpointer keeps. -/
def endpointer (cfg : Config) : EndpointerSettings where
  onsetThreshold := cfg.vad.onsetThreshold
  offsetThreshold := cfg.vad.offsetThreshold
  minSpeechMs := cfg.vad.minSpeechMs.toNat
  hangoverMs := cfg.vad.hangoverMs.toNat

end Config

/-- The callbacks by their labels. -/
inductive ReloadCallback
  | log
  | endpointer
  | wakeWord
  deriving DecidableEq, Repr

/-- The components are there once the capture stack is built, if capture is enabled. -/
structure ReloadSetup where
  reloader : ConfigReloader
  callbacks : List ReloadCallback := []
  level : Log.Level
  endpointer : Option EndpointerSettings := none
  wakeWord : Option Config.Number := none

def HotField.isVad : HotField → Bool
  | vadOnsetThreshold | vadOffsetThreshold | vadHangoverMs => true
  | _ => false

namespace ReloadSetup

/-- One callback of an accepted reload. -/
def runCallback (live : Config) (diff : ReloadDiff) (s : ReloadSetup) : ReloadCallback → ReloadSetup
  | .log =>
    diff.changedHot.foldl (fun s f =>
      if f = .loggingLevel then { s with level := Log.setLevel s.level live.logging.level } else s) s
  | .endpointer =>
    let any := diff.changedHot.any HotField.isVad
    if !any then s
    else
      let ec : EndpointerSettings :=
        { onsetThreshold := live.vad.onsetThreshold
          offsetThreshold := live.vad.offsetThreshold
          hangoverMs := live.vad.hangoverMs.toNat }
      { s with endpointer := s.endpointer.map (·.updateThresholds ec) }
  | .wakeWord =>
    diff.changedHot.foldl (fun s f =>
      if f = .audioWakeWordThreshold then { s with wakeWord := s.wakeWord.map fun _ => live.audio.wakeWord.threshold }
      else s) s

/-- `ConfigReloader::reload` with its callbacks, on the files as they are then. -/
def reload (readYaml : YamlReader) (s : ReloadSetup) (host : Host) : ReloadSetup :=
  let r := s.reloader.reload readYaml host
  match r.1 with
  | .ok diff => s.callbacks.foldl (runCallback r.2.live diff) { s with reloader := r.2 }
  | _ => { s with reloader := r.2 }

def registerCallback (s : ReloadSetup) (c : ReloadCallback) : ReloadSetup := { s with callbacks := s.callbacks ++ [c] }

/-- `log::init` and `register_log_callback`. -/
def init (loaded : LoadedConfig) : ReloadSetup :=
  registerCallback
    { reloader := ⟨loaded.cfg, loaded.configPath⟩, level := Log.parseLevel loaded.cfg.logging.level } .log

/-- `build_capture_stack`, which reads the live configuration. -/
def buildCaptureStack (s : ReloadSetup) : ReloadSetup :=
  if !s.reloader.live.audio.captureEnabled then s
  else
    { s with
      endpointer := some s.reloader.live.endpointer
      wakeWord := some s.reloader.live.audio.wakeWord.threshold }

def registerEndpointerCallback (s : ReloadSetup) : ReloadSetup :=
  if s.endpointer.isNone then s else s.registerCallback .endpointer

def registerWakeWordCallback (s : ReloadSetup) : ReloadSetup :=
  if s.wakeWord.isNone then s else s.registerCallback .wakeWord

section Registration

variable (s : ReloadSetup)

@[simp] lemma init_callbacks (loaded : LoadedConfig) : (init loaded).callbacks = [.log] := rfl

@[simp] lemma registerEndpointerCallback_reloader : s.registerEndpointerCallback.reloader = s.reloader := by
  unfold registerEndpointerCallback
  split <;> rfl

@[simp] lemma registerEndpointerCallback_level : s.registerEndpointerCallback.level = s.level := by
  unfold registerEndpointerCallback
  split <;> rfl

@[simp] lemma registerEndpointerCallback_endpointer : s.registerEndpointerCallback.endpointer = s.endpointer := by
  unfold registerEndpointerCallback
  split <;> rfl

@[simp] lemma registerEndpointerCallback_wakeWord : s.registerEndpointerCallback.wakeWord = s.wakeWord := by
  unfold registerEndpointerCallback
  split <;> rfl

lemma registerEndpointerCallback_callbacks : s.registerEndpointerCallback.callbacks =
    if s.endpointer.isNone then s.callbacks else s.callbacks ++ [.endpointer] := by
  unfold registerEndpointerCallback
  split <;> rfl

@[simp] lemma registerWakeWordCallback_reloader : s.registerWakeWordCallback.reloader = s.reloader := by
  unfold registerWakeWordCallback
  split <;> rfl

@[simp] lemma registerWakeWordCallback_level : s.registerWakeWordCallback.level = s.level := by
  unfold registerWakeWordCallback
  split <;> rfl

@[simp] lemma registerWakeWordCallback_endpointer : s.registerWakeWordCallback.endpointer = s.endpointer := by
  unfold registerWakeWordCallback
  split <;> rfl

@[simp] lemma registerWakeWordCallback_wakeWord : s.registerWakeWordCallback.wakeWord = s.wakeWord := by
  unfold registerWakeWordCallback
  split <;> rfl

lemma registerWakeWordCallback_callbacks : s.registerWakeWordCallback.callbacks =
    if s.wakeWord.isNone then s.callbacks else s.callbacks ++ [.wakeWord] := by
  unfold registerWakeWordCallback
  split <;> rfl

end Registration

end ReloadSetup

/-! ### What a reload does to the components -/

/-- The reload was accepted and changed such a field. -/
def ReloadResult.touches (touched : HotField → Bool) : ReloadResult → Bool
  | .ok diff => diff.changedHot.any touched
  | _ => false

namespace ConfigReloader

/-- The reloads one after the other: the live configuration after each, and whether it was accepted with a change of
such a field. -/
def changes (readYaml : YamlReader) (touched : HotField → Bool) :
    ConfigReloader → List Host → List (Mirrors.Change Config)
  | _, [] => []
  | r, host :: hosts =>
    let next := r.reload readYaml host
    ⟨next.2.live, next.1.touches touched⟩ :: changes readYaml touched next.2 hosts

variable {readYaml : YamlReader} {r r' : ConfigReloader} {host : Host}

/-- A reload takes the hot fields of a valid file over, or it leaves the live configuration as it was. -/
lemma reload_cases (readYaml : YamlReader) (r : ConfigReloader) (host : Host) :
    (∃ cand, Config.validate host cand = none ∧
      r.reload readYaml host = (.ok (Config.diffConfigs r.live cand), { r with live := r.live.withHot cand })) ∨
    ((∀ diff, (r.reload readYaml host).1 ≠ .ok diff) ∧ (r.reload readYaml host).2 = r) := by
  cases hload : Config.loadFromFile readYaml host r.path with
  | error message =>
    right
    simp [reload, hload]
  | ok cand =>
    rw [reload_of_load hload]
    split
    · obtain ⟨text, parsed, hfile, hparse, halias, hvalid⟩ := Config.loadFromFile_eq_ok.mp hload
      exact .inl ⟨cand, hvalid, rfl⟩
    · right
      simp

/-- A view that depends on such fields alone stays when none of them is changed. -/
lemma quiet_changes {β : Type} {view : Config → β} {touched : HotField → Bool}
    (hview : ∀ live cand : Config, (∀ f, touched f = true → HotField.changed live cand f = false) →
      view (live.withHot cand) = view live) (r : ConfigReloader) (hosts : List Host) :
    Mirrors.Quiet view r.live (changes readYaml touched r hosts) := by
  induction hosts generalizing r with
  | nil => trivial
  | cons host hosts ih =>
    refine ⟨?_, ih _⟩
    rcases reload_cases readYaml r host with ⟨cand, hvalid, hok⟩ | ⟨hrefused, hkept⟩
    · intro htold
      simp only [hok, ReloadResult.touches, Config.diffConfigs_eq, List.any_filter, List.any_eq_false] at htold ⊢
      apply hview
      intro f hf
      simpa [hf] using htold f f.mem_all
    · intro _
      exact congrArg (fun r => view r.live) hkept

end ConfigReloader

namespace ReloadSetup

lemma foldl_named {β : Type} {work : β → β} (hwork : ∀ b, work (work b) = work b) (name : HotField)
    (fields : List HotField) (b : β) :
    fields.foldl (fun b f => if f = name then work b else b) b = if name ∈ fields then work b else b := by
  induction fields generalizing b with
  | nil => rfl
  | cons f fields ih =>
    rw [List.foldl_cons, ih]
    by_cases hf : f = name
    · simp [hf, hwork]
    · simp [hf, Ne.symm hf]

variable {s : ReloadSetup} {live : Config} {diff : ReloadDiff}

lemma runCallback_log : runCallback live diff s .log =
    if .loggingLevel ∈ diff.changedHot then { s with level := Log.setLevel s.level live.logging.level } else s := by
  apply foldl_named
  intro s
  simp only [Log.setLevel]
  split <;> rfl

lemma runCallback_wakeWord : runCallback live diff s .wakeWord =
    if .audioWakeWordThreshold ∈ diff.changedHot then
      { s with wakeWord := s.wakeWord.map fun _ => live.audio.wakeWord.threshold }
    else s := by
  apply foldl_named
  intro s
  simp [Function.comp_def]

lemma runCallback_endpointer : runCallback live diff s .endpointer =
    if diff.changedHot.any HotField.isVad then
      { s with endpointer := s.endpointer.map (·.updateThresholds live.endpointer) }
    else s := by
  simp only [runCallback]
  cases diff.changedHot.any HotField.isVad <;> rfl

/-- The reloads, one after the other. -/
def reloads (readYaml : YamlReader) (s : ReloadSetup) (hosts : List Host) : ReloadSetup :=
  hosts.foldl (reload readYaml) s

/-- A component whose value `get` reads: its callback copies `view` of the live configuration when such a field has
changed, and nothing else in a reload writes it. -/
structure Shows {β : Type} (c : ReloadCallback) (touched : HotField → Bool) (view : Config → β)
    (get : ReloadSetup → Option β) : Prop where
  own : ∀ (live : Config) diff s, Log.isKnownLevel live.logging.level = true →
    get (runCallback live diff s c) = if diff.changedHot.any touched then (get s).map fun _ => view live else get s
  other : ∀ live diff s c', c' ≠ c → get (runCallback live diff s c') = get s
  kept : ∀ s r cs, get { s with reloader := r, callbacks := cs } = get s
  quiet : ∀ live cand : Config, (∀ f, touched f = true → HotField.changed live cand f = false) →
    view (live.withHot cand) = view live

lemma shows_level : Shows .log (· = .loggingLevel) (fun cfg => Log.parseLevel cfg.logging.level)
    (fun s => some s.level) where
  own live diff s hknown := by
    rw [runCallback_log]
    by_cases hmem : HotField.loggingLevel ∈ diff.changedHot <;> simp [hmem, Log.setLevel, hknown]
  other live diff s c' hne := by
    cases c' with
    | log => exact absurd rfl hne
    | endpointer =>
      rw [runCallback_endpointer]
      split <;> rfl
    | wakeWord =>
      rw [runCallback_wakeWord]
      split <;> rfl
  kept _ _ _ := rfl
  quiet live cand h := by
    have hsame := h .loggingLevel (by simp)
    simp only [HotField.changed, bne_eq_false_iff_eq] at hsame
    exact congrArg Log.parseLevel hsame.symm

lemma shows_thresholds : Shows .endpointer HotField.isVad Config.thresholds
    (fun s => s.endpointer.map EndpointerSettings.thresholds) where
  own live diff s _ := by
    rw [runCallback_endpointer]
    split
    · simp only [Option.map_map]
      rfl
    · rfl
  other live diff s c' hne := by
    cases c' with
    | log =>
      rw [runCallback_log]
      split <;> rfl
    | endpointer => exact absurd rfl hne
    | wakeWord =>
      rw [runCallback_wakeWord]
      split <;> rfl
  kept _ _ _ := rfl
  quiet live cand h := by
    have honset := Config.Number.eq_of_eq (by simpa [HotField.changed] using h .vadOnsetThreshold rfl)
    have hoffset := Config.Number.eq_of_eq (by simpa [HotField.changed] using h .vadOffsetThreshold rfl)
    have hhangover := h .vadHangoverMs rfl
    simp only [HotField.changed, bne_eq_false_iff_eq] at hhangover
    simp only [Config.thresholds, honset, hoffset, hhangover]
    rfl

lemma shows_wakeWord : Shows .wakeWord (· = .audioWakeWordThreshold) (fun cfg => cfg.audio.wakeWord.threshold)
    ReloadSetup.wakeWord where
  own live diff s _ := by
    rw [runCallback_wakeWord]
    by_cases hmem : HotField.audioWakeWordThreshold ∈ diff.changedHot <;> simp [hmem]
  other live diff s c' hne := by
    cases c' with
    | log =>
      rw [runCallback_log]
      split <;> rfl
    | endpointer =>
      rw [runCallback_endpointer]
      split <;> rfl
    | wakeWord => exact absurd rfl hne
  kept _ _ _ := rfl
  quiet live cand h := by
    have hsame := h .audioWakeWordThreshold (by simp)
    simp only [HotField.changed, Bool.not_eq_false'] at hsame
    exact (Config.Number.eq_of_eq hsame).symm

variable {β : Type} {c : ReloadCallback} {touched : HotField → Bool} {view : Config → β}
  {get : ReloadSetup → Option β}

lemma runCallback_kept (live : Config) (diff : ReloadDiff) (s : ReloadSetup) (c : ReloadCallback) :
    (runCallback live diff s c).reloader = s.reloader ∧ (runCallback live diff s c).callbacks = s.callbacks ∧
      (runCallback live diff s c).endpointer.map (·.minSpeechMs) = s.endpointer.map (·.minSpeechMs) := by
  cases c with
  | log =>
    rw [runCallback_log]
    split <;> exact ⟨rfl, rfl, rfl⟩
  | endpointer =>
    rw [runCallback_endpointer]
    split
    · exact ⟨rfl, rfl, by simp only [Option.map_map]; rfl⟩
    · exact ⟨rfl, rfl, rfl⟩
  | wakeWord =>
    rw [runCallback_wakeWord]
    split <;> exact ⟨rfl, rfl, rfl⟩

lemma runCallbacks_kept (live : Config) (diff : ReloadDiff) (s : ReloadSetup) (cs : List ReloadCallback) :
    (cs.foldl (runCallback live diff) s).reloader = s.reloader ∧
      (cs.foldl (runCallback live diff) s).callbacks = s.callbacks ∧
      (cs.foldl (runCallback live diff) s).endpointer.map (·.minSpeechMs) = s.endpointer.map (·.minSpeechMs) := by
  induction cs generalizing s with
  | nil => exact ⟨rfl, rfl, rfl⟩
  | cons c cs ih =>
    obtain ⟨hreloader, hcallbacks, hspeech⟩ := runCallback_kept live diff s c
    obtain ⟨ihreloader, ihcallbacks, ihspeech⟩ := ih (runCallback live diff s c)
    exact ⟨ihreloader.trans hreloader, ihcallbacks.trans hcallbacks, ihspeech.trans hspeech⟩

lemma Shows.runCallbacks (h : Shows c touched view get) (hknown : Log.isKnownLevel live.logging.level = true)
    (s : ReloadSetup) (cs : List ReloadCallback) :
    get (cs.foldl (runCallback live diff) s) =
      if c ∈ cs ∧ diff.changedHot.any touched then (get s).map fun _ => view live else get s := by
  induction cs generalizing s with
  | nil => simp
  | cons c' cs ih =>
    rw [List.foldl_cons, ih]
    by_cases hc : c' = c
    · subst hc
      rw [h.own live diff s hknown]
      by_cases htold : diff.changedHot.any touched = true <;> simp [htold, Function.comp_def]
    · rw [h.other live diff s c' hc]
      simp [Ne.symm hc]

lemma Shows.reload_spec (readYaml : YamlReader) (h : Shows c touched view get) (s : ReloadSetup) (host : Host) :
    (reload readYaml s host).reloader = (s.reloader.reload readYaml host).2 ∧
    (reload readYaml s host).callbacks = s.callbacks ∧
    (reload readYaml s host).endpointer.map (·.minSpeechMs) = s.endpointer.map (·.minSpeechMs) ∧
    get (reload readYaml s host) =
      if c ∈ s.callbacks ∧ (s.reloader.reload readYaml host).1.touches touched then
        (get s).map fun _ => view (s.reloader.reload readYaml host).2.live
      else get s := by
  rcases ConfigReloader.reload_cases readYaml s.reloader host with ⟨cand, hvalid, hok⟩ | ⟨hrefused, hkept⟩
  · have hknown : Log.isKnownLevel (s.reloader.live.withHot cand).logging.level = true :=
      @Log.isKnownLevel_of_validate host cand hvalid
    obtain ⟨hreloader, hcallbacks, hspeech⟩ := runCallbacks_kept (s.reloader.live.withHot cand)
      (Config.diffConfigs s.reloader.live cand)
      { s with reloader := { s.reloader with live := s.reloader.live.withHot cand } } s.callbacks
    unfold ReloadSetup.reload
    rw [hok]
    refine ⟨hreloader, hcallbacks, hspeech, ?_⟩
    dsimp only
    rw [h.runCallbacks hknown]
    simp only [h.kept s _ s.callbacks, ReloadResult.touches]
    rfl
  · have hsame : ReloadSetup.reload readYaml s host = { s with reloader := (s.reloader.reload readYaml host).2 } := by
      unfold ReloadSetup.reload
      cases hresult : (s.reloader.reload readYaml host).1 with
      | ok diff => exact absurd hresult (hrefused diff)
      | rejected diff => simp [hresult]
      | parseError message => simp [hresult]
    have htouches : (s.reloader.reload readYaml host).1.touches touched = false := by
      cases hresult : (s.reloader.reload readYaml host).1 with
      | ok diff => exact absurd hresult (hrefused diff)
      | rejected diff => rfl
      | parseError message => rfl
    rw [hsame]
    refine ⟨rfl, rfl, rfl, ?_⟩
    simpa [htouches] using h.kept s _ s.callbacks

lemma reloads_kept (readYaml : YamlReader) (s : ReloadSetup) (hosts : List Host) :
    (reloads readYaml s hosts).callbacks = s.callbacks ∧
    (reloads readYaml s hosts).endpointer.map (·.minSpeechMs) = s.endpointer.map (·.minSpeechMs) ∧
    (reloads readYaml s hosts).reloader.live.vad.minSpeechMs = s.reloader.live.vad.minSpeechMs := by
  induction hosts generalizing s with
  | nil => exact ⟨rfl, rfl, rfl⟩
  | cons host hosts ih =>
    obtain ⟨hcallbacks, hspeech, hlive⟩ := ih (reload readYaml s host)
    obtain ⟨hreloader, hcallbacks', hspeech', -⟩ := shows_level.reload_spec readYaml s host
    rw [hreloader] at hlive
    refine ⟨hcallbacks.trans hcallbacks', hspeech.trans hspeech', hlive.trans ?_⟩
    rcases ConfigReloader.reload_cases readYaml s.reloader host with ⟨cand, hvalid, hok⟩ | ⟨hrefused, hkept⟩
    · rw [hok]
      rfl
    · rw [hkept]

lemma Shows.reloads_unregistered (readYaml : YamlReader) (h : Shows c touched view get) {s : ReloadSetup}
    (hc : c ∉ s.callbacks) (hosts : List Host) : get (reloads readYaml s hosts) = get s := by
  induction hosts generalizing s with
  | nil => rfl
  | cons host hosts ih =>
    obtain ⟨-, hcallbacks, -, hget⟩ := h.reload_spec readYaml s host
    have hc' : c ∉ (reload readYaml s host).callbacks := by rwa [hcallbacks]
    exact (ih hc').trans (by simpa [hc] using hget)

lemma Shows.reloads_eq (readYaml : YamlReader) (h : Shows c touched view get) {s : ReloadSetup} {m : β}
    (hc : c ∈ s.callbacks) (hget : get s = some m) (hosts : List Host) :
    ∃ p, (s.reloader.changes readYaml touched hosts).foldl (Mirrors.follow view) (s.reloader.live, m) = p ∧
      (reloads readYaml s hosts).reloader.live = p.1 ∧ get (reloads readYaml s hosts) = some p.2 := by
  induction hosts generalizing s m with
  | nil => exact ⟨_, rfl, rfl, hget⟩
  | cons host hosts ih =>
    obtain ⟨hreloader, hcallbacks, -, hget'⟩ := h.reload_spec readYaml s host
    have hc' : c ∈ (ReloadSetup.reload readYaml s host).callbacks := by rwa [hcallbacks]
    have hnext : get (ReloadSetup.reload readYaml s host) =
        some (if (s.reloader.reload readYaml host).1.touches touched then
          view (s.reloader.reload readYaml host).2.live else m) := by
      rw [hget', hget]
      by_cases htold : (s.reloader.reload readYaml host).1.touches touched = true <;> simp [hc, htold]
    obtain ⟨p, hp, hlive, hshown⟩ := ih hc' hnext
    rw [hreloader] at hp
    exact ⟨p, hp, hlive, hshown⟩

/-- A component shows the live configuration exactly when it did so when it was registered, or when a reload that was
accepted since then changed one of its fields. -/
lemma Shows.reloads_iff (readYaml : YamlReader) (h : Shows c touched view get) {s : ReloadSetup} {m : β}
    (hc : c ∈ s.callbacks) (hget : get s = some m) (hosts : List Host) :
    get (reloads readYaml s hosts) = some (view (reloads readYaml s hosts).reloader.live) ↔
      m = view s.reloader.live ∨ ∃ d ∈ s.reloader.changes readYaml touched hosts, d.told = true := by
  obtain ⟨p, hp, hlive, hshown⟩ := h.reloads_eq readYaml hc hget hosts
  rw [hlive, hshown, Option.some.injEq, ← hp]
  exact Mirrors.follows_iff (ConfigReloader.quiet_changes h.quiet s.reloader hosts)

end ReloadSetup

/-- The requests to reload, each with the files as they are then, by the step of `main` that they precede. -/
structure Uptime where
  beforeCapture : List Host := []
  beforeEndpointer : List Host := []
  beforeWakeWord : List Host := []
  after : List Host := []

namespace Uptime

open ReloadSetup

variable (readYaml : YamlReader) (loaded : LoadedConfig) (u : Uptime)

/-- When the capture stack has just been built. -/
def built : ReloadSetup := (reloads readYaml (init loaded) u.beforeCapture).buildCaptureStack

/-- When the endpointer has just been registered. -/
def withEndpointer : ReloadSetup :=
  (reloads readYaml (u.built readYaml loaded) u.beforeEndpointer).registerEndpointerCallback

/-- When the wake-word detector has just been registered. -/
def withWakeWord : ReloadSetup :=
  (reloads readYaml (u.withEndpointer readYaml loaded) u.beforeWakeWord).registerWakeWordCallback

def running : ReloadSetup := reloads readYaml (u.withWakeWord readYaml loaded) u.after

/-! ### Through the boot -/

variable {readYaml loaded u}

/-- The logger is registered, and has the level of the live configuration. -/
def LevelShown (s : ReloadSetup) : Prop :=
  .log ∈ s.callbacks ∧ s.level = Log.parseLevel s.reloader.live.logging.level

lemma LevelShown.reloads (readYaml : YamlReader) {s : ReloadSetup} (h : LevelShown s) (hosts : List Host) :
    LevelShown (ReloadSetup.reloads readYaml s hosts) := by
  refine ⟨?_, ?_⟩
  · rw [(reloads_kept readYaml s hosts).1]
    exact h.1
  · exact Option.some.inj ((shows_level.reloads_iff readYaml h.1 rfl hosts).mpr (.inl h.2))

lemma levelShown_running : LevelShown (u.running readYaml loaded) := by
  have hbuilt : LevelShown (u.built readYaml loaded) := by
    have hinit : LevelShown (init loaded) := ⟨by simp, rfl⟩
    unfold built buildCaptureStack
    split <;> exact hinit.reloads readYaml u.beforeCapture
  have hendpointer : LevelShown (u.withEndpointer readYaml loaded) := by
    obtain ⟨hlog, hlevel⟩ := hbuilt.reloads readYaml u.beforeEndpointer
    refine ⟨?_, by simpa [withEndpointer] using hlevel⟩
    rw [withEndpointer, registerEndpointerCallback_callbacks]
    split <;> simp [hlog]
  have hwakeWord : LevelShown (u.withWakeWord readYaml loaded) := by
    obtain ⟨hlog, hlevel⟩ := hendpointer.reloads readYaml u.beforeWakeWord
    refine ⟨?_, by simpa [withWakeWord] using hlevel⟩
    rw [withWakeWord, registerWakeWordCallback_callbacks]
    split <;> simp [hlog]
  exact hwakeWord.reloads readYaml u.after

/-- With capture enabled, both components start from the live configuration of that moment; else there are none. -/
lemma built_cases : (u.built readYaml loaded).callbacks = [.log] ∧
    (((u.built readYaml loaded).endpointer = none ∧ (u.built readYaml loaded).wakeWord = none) ∨
      ((u.built readYaml loaded).endpointer = some (u.built readYaml loaded).reloader.live.endpointer ∧
        (u.built readYaml loaded).wakeWord =
          some (u.built readYaml loaded).reloader.live.audio.wakeWord.threshold)) := by
  have hcallbacks : (reloads readYaml (init loaded) u.beforeCapture).callbacks = [.log] := (reloads_kept _ _ _).1
  have hendpointer : (reloads readYaml (init loaded) u.beforeCapture).endpointer = none := by
    have hkept := shows_thresholds.reloads_unregistered readYaml (s := init loaded) (by simp) u.beforeCapture
    exact Option.map_eq_none_iff.mp hkept
  have hwakeWord : (reloads readYaml (init loaded) u.beforeCapture).wakeWord = none :=
    shows_wakeWord.reloads_unregistered readYaml (by simp) u.beforeCapture
  unfold built buildCaptureStack
  split
  · exact ⟨hcallbacks, .inl ⟨hendpointer, hwakeWord⟩⟩
  · exact ⟨hcallbacks, .inr ⟨rfl, rfl⟩⟩

/-- Until it is registered, the endpointer keeps the thresholds it was built with. -/
lemma withEndpointer_spec :
    (u.withEndpointer readYaml loaded).endpointer.map EndpointerSettings.thresholds =
      (u.built readYaml loaded).endpointer.map EndpointerSettings.thresholds ∧
    (u.withEndpointer readYaml loaded).wakeWord = (u.built readYaml loaded).wakeWord ∧
    (u.withEndpointer readYaml loaded).callbacks =
      if (u.built readYaml loaded).endpointer.isNone then [.log] else [.log, .endpointer] := by
  obtain ⟨hcallbacks, -⟩ := @built_cases readYaml loaded u
  have hendpointer := shows_thresholds.reloads_unregistered readYaml
    (show .endpointer ∉ (u.built readYaml loaded).callbacks by simp [hcallbacks]) u.beforeEndpointer
  have hwakeWord := shows_wakeWord.reloads_unregistered readYaml
    (show .wakeWord ∉ (u.built readYaml loaded).callbacks by simp [hcallbacks]) u.beforeEndpointer
  have hnone := congrArg Option.isNone hendpointer
  simp only [Option.isNone_map] at hnone
  refine ⟨by simpa [withEndpointer] using hendpointer, by simpa [withEndpointer] using hwakeWord, ?_⟩
  rw [withEndpointer, registerEndpointerCallback_callbacks, (reloads_kept _ _ _).1, hcallbacks, hnone]
  rfl

/-- Until it is registered, the wake-word detector keeps the threshold it was built with. -/
lemma withWakeWord_spec :
    (u.withWakeWord readYaml loaded).wakeWord = (u.built readYaml loaded).wakeWord ∧
    (u.withWakeWord readYaml loaded).callbacks = (u.withEndpointer readYaml loaded).callbacks ++
      if (u.built readYaml loaded).wakeWord.isNone then [] else [.wakeWord] := by
  obtain ⟨-, hbuilt, hcallbacks⟩ := @withEndpointer_spec readYaml loaded u
  have hwakeWord := shows_wakeWord.reloads_unregistered readYaml
    (show .wakeWord ∉ (u.withEndpointer readYaml loaded).callbacks by rw [hcallbacks]; split <;> simp)
    u.beforeWakeWord
  refine ⟨by simpa [withWakeWord] using hwakeWord.trans hbuilt, ?_⟩
  rw [withWakeWord, registerWakeWordCallback_callbacks, (reloads_kept _ _ _).1, hwakeWord, hbuilt]
  split <;> simp

/-- The setting of the endpointer that no reload changes is the one of the live configuration. -/
def SpeechShown (s : ReloadSetup) : Prop :=
  ∀ e, s.endpointer = some e → e.minSpeechMs = s.reloader.live.vad.minSpeechMs.toNat

lemma SpeechShown.reloads (readYaml : YamlReader) {s : ReloadSetup} (h : SpeechShown s) (hosts : List Host) :
    SpeechShown (ReloadSetup.reloads readYaml s hosts) := by
  obtain ⟨-, hspeech, hlive⟩ := reloads_kept readYaml s hosts
  intro e he
  rw [he, Option.map_some] at hspeech
  obtain ⟨own, hown, hsame⟩ := Option.map_eq_some_iff.mp hspeech.symm
  rw [hlive, ← hsame]
  exact h own hown

lemma speechShown_running : SpeechShown (u.running readYaml loaded) := by
  have hbuilt : SpeechShown (u.built readYaml loaded) := by
    obtain ⟨-, ⟨hnone, -⟩ | ⟨hsome, -⟩⟩ := @built_cases readYaml loaded u
    · simp [SpeechShown, hnone]
    · intro e he
      rw [hsome, Option.some.injEq] at he
      rw [← he]
      rfl
  have hendpointer : SpeechShown (u.withEndpointer readYaml loaded) := by
    simpa [SpeechShown, withEndpointer] using hbuilt.reloads readYaml u.beforeEndpointer
  have hwakeWord : SpeechShown (u.withWakeWord readYaml loaded) := by
    simpa [SpeechShown, withWakeWord] using hendpointer.reloads readYaml u.beforeWakeWord
  exact hwakeWord.reloads readYaml u.after

/-- The thresholds of the running endpointer follow the live configuration unless a reload slipped in before its
registration and none has touched a threshold since. -/
lemma thresholds_running {e : EndpointerSettings} (he : (u.running readYaml loaded).endpointer = some e) :
    e.thresholds = (u.running readYaml loaded).reloader.live.thresholds ↔
      (u.built readYaml loaded).reloader.live.thresholds =
        (u.withEndpointer readYaml loaded).reloader.live.thresholds ∨
      (∃ d ∈ (u.withEndpointer readYaml loaded).reloader.changes readYaml HotField.isVad u.beforeWakeWord, d.told) ∨
      ∃ d ∈ (u.withWakeWord readYaml loaded).reloader.changes readYaml HotField.isVad u.after, d.told := by
  obtain ⟨hkept, -, hcallbacks⟩ := @withEndpointer_spec readYaml loaded u
  obtain ⟨-, hcallbacks'⟩ := @withWakeWord_spec readYaml loaded u
  obtain ⟨-, ⟨hnone, hnoWakeWord⟩ | ⟨hsome, -⟩⟩ := @built_cases readYaml loaded u
  · -- nothing was built, so there is no endpointer to look at
    rw [hnone] at hkept hcallbacks
    rw [hcallbacks, hnoWakeWord] at hcallbacks'
    have hbetween := shows_thresholds.reloads_unregistered readYaml
      (show .endpointer ∉ (u.withEndpointer readYaml loaded).callbacks by simp [hcallbacks]) u.beforeWakeWord
    have hafter := shows_thresholds.reloads_unregistered readYaml
      (show .endpointer ∉ (u.withWakeWord readYaml loaded).callbacks by simp [hcallbacks']) u.after
    have hrunning : (u.running readYaml loaded).endpointer.map EndpointerSettings.thresholds = none := by
      rw [running, hafter, withWakeWord, registerWakeWordCallback_endpointer, hbetween, hkept]
      rfl
    simp [he] at hrunning
  · rw [hsome] at hkept hcallbacks
    have hregistered : .endpointer ∈ (u.withEndpointer readYaml loaded).callbacks := by simp [hcallbacks]
    have hregistered' : .endpointer ∈ (u.withWakeWord readYaml loaded).callbacks := by
      rw [hcallbacks']
      exact List.mem_append_left _ hregistered
    obtain ⟨p, -, hlive, hshown⟩ := shows_thresholds.reloads_eq readYaml hregistered hkept u.beforeWakeWord
    have hbetween := shows_thresholds.reloads_iff readYaml hregistered hkept u.beforeWakeWord
    rw [hshown, hlive, Option.some.injEq] at hbetween
    have hstart : (u.withWakeWord readYaml loaded).endpointer.map EndpointerSettings.thresholds = some p.2 := by
      simpa [withWakeWord] using hshown
    have hlive' : (u.withWakeWord readYaml loaded).reloader.live = p.1 := by simpa [withWakeWord] using hlive
    have hafter := shows_thresholds.reloads_iff readYaml hregistered' hstart u.after
    rw [hlive', hbetween, or_assoc] at hafter
    rw [← Option.some.injEq, ← Option.map_some, ← he]
    exact hafter

/-- The threshold of the wake-word detector likewise, which is registered last. -/
lemma wakeWord_running {t : Config.Number} (ht : (u.running readYaml loaded).wakeWord = some t) :
    t = (u.running readYaml loaded).reloader.live.audio.wakeWord.threshold ↔
      (u.built readYaml loaded).reloader.live.audio.wakeWord.threshold =
        (u.withWakeWord readYaml loaded).reloader.live.audio.wakeWord.threshold ∨
      ∃ d ∈ (u.withWakeWord readYaml loaded).reloader.changes readYaml (· = .audioWakeWordThreshold) u.after,
        d.told := by
  obtain ⟨-, -, hcallbacks⟩ := @withEndpointer_spec readYaml loaded u
  obtain ⟨hkept, hcallbacks'⟩ := @withWakeWord_spec readYaml loaded u
  obtain ⟨-, ⟨hnone, hnoWakeWord⟩ | ⟨hsome, hwakeWord⟩⟩ := @built_cases readYaml loaded u
  · rw [hcallbacks, hnone, hnoWakeWord] at hcallbacks'
    have hafter := shows_wakeWord.reloads_unregistered readYaml
      (show .wakeWord ∉ (u.withWakeWord readYaml loaded).callbacks by simp [hcallbacks']) u.after
    rw [running, hafter, hkept, hnoWakeWord] at ht
    cases ht
  · rw [hwakeWord] at hkept hcallbacks'
    have hregistered : .wakeWord ∈ (u.withWakeWord readYaml loaded).callbacks := by simp [hcallbacks']
    have hafter := shows_wakeWord.reloads_iff readYaml hregistered hkept u.after
    rw [← Option.some.injEq, ← ht]
    exact hafter

/-- Whenever reloads come and whatever the files then say, the logger has the live level. The endpointer has the live
thresholds except when a reload between its construction and its registration changed them and no later reload has
changed one, and so has the wake-word detector. -/
theorem components_follow_live (readYaml : YamlReader) (loaded : LoadedConfig) (u : Uptime) :
    let s := u.running readYaml loaded
    s.level = Log.parseLevel s.reloader.live.logging.level ∧
    (∀ e, s.endpointer = some e →
      e.minSpeechMs = s.reloader.live.vad.minSpeechMs.toNat ∧
      (e.thresholds = s.reloader.live.thresholds ↔
        (u.built readYaml loaded).reloader.live.thresholds =
          (u.withEndpointer readYaml loaded).reloader.live.thresholds ∨
        (∃ d ∈ (u.withEndpointer readYaml loaded).reloader.changes readYaml HotField.isVad u.beforeWakeWord,
          d.told) ∨
        ∃ d ∈ (u.withWakeWord readYaml loaded).reloader.changes readYaml HotField.isVad u.after, d.told)) ∧
    (∀ t, s.wakeWord = some t →
      (t = s.reloader.live.audio.wakeWord.threshold ↔
        (u.built readYaml loaded).reloader.live.audio.wakeWord.threshold =
          (u.withWakeWord readYaml loaded).reloader.live.audio.wakeWord.threshold ∨
        ∃ d ∈ (u.withWakeWord readYaml loaded).reloader.changes readYaml (· = .audioWakeWordThreshold) u.after,
          d.told)) := by
  refine ⟨levelShown_running.2, ?_, ?_⟩
  · intro e he
    exact ⟨speechShown_running e he, thresholds_running he⟩
  · intro t ht
    exact wakeWord_running ht

end Uptime

end Acva
