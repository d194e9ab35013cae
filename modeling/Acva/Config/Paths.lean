import Acva.Config.Load

/-!
# Paths and the configuration at start-up

The XDG directories, the two path resolvers and `load_and_resolve_config`, which loads the configuration and rewrites
the paths in it. A path is its native text. The directories that `resolve_data_path` creates are left out: the only
path that is looked for afterwards is a file below one of them.
-/

namespace Acva

namespace Path

/-- The separator. -/
def slash : UInt8 := 0x2F

def isAbsolute (p : Text) : Bool := decide (p.head? = some slash)

/-- A path that does not end in a separator has a file name. -/
def hasFilename (p : Text) : Bool := decide (p ≠ [] ∧ p.getLast? ≠ some slash)

/-- For a relative path. -/
def hasParentPath (p : Text) : Bool := decide (slash ∈ p)

/-- `operator/`. -/
def append (p q : Text) : Text :=
  if isAbsolute q then q
  else if hasFilename p then p ++ slash :: q
  else p ++ q

lemma append_of_relative (p : Text) {q : Text} (h : isAbsolute q = false) :
    append p q = if hasFilename p then p ++ slash :: q else p ++ q := by
  simp [append, h]

lemma append_ne_nil (p : Text) {q : Text} (h : q ≠ []) : append p q ≠ [] := by
  unfold append
  split
  · exact h
  · split <;> simp [h]

lemma length_lt_append {p q : Text} (hp : p ≠ []) (h : isAbsolute q = false) : q.length < (append p q).length := by
  have hlength := List.length_pos_iff.mpr hp
  rw [append_of_relative p h]
  split
  · simp
    omega
  · simp
    omega

lemma isAbsolute_append {p q : Text} (hp : p ≠ []) (h : isAbsolute q = false) :
    isAbsolute (append p q) = isAbsolute p := by
  rw [append_of_relative p h]
  cases p with
  | nil => exact absurd rfl hp
  | cons c p => split <;> simp [isAbsolute]

end Path

namespace Host

/-- A variable that is set to the empty text counts as unset. -/
def getenvPath (host : Host) (name : EnvVar) : Text := (host.env name).getD []

def xdgDataHome (host : Host) : Text :=
  if host.getenvPath .xdgDataHome ≠ [] then host.getenvPath .xdgDataHome
  else if host.getenvPath .home = [] then []
  else Path.append (Path.append (host.getenvPath .home) (ascii ".local")) (ascii "share")

def xdgConfigHome (host : Host) : Text :=
  if host.getenvPath .xdgConfigHome ≠ [] then host.getenvPath .xdgConfigHome
  else if host.getenvPath .home = [] then []
  else Path.append (host.getenvPath .home) (ascii ".config")

/-- `root / "acva" / p`. -/
def dataPath (host : Host) (p : Text) : Text := Path.append (Path.append host.xdgDataHome (ascii "acva")) p

def resolveDataPath (host : Host) (input defaultFilename : Text) : Text :=
  if input = [] then
    if host.xdgDataHome = [] then defaultFilename else host.dataPath defaultFilename
  else if Path.isAbsolute input then input
  else if host.xdgDataHome = [] then input
  else host.dataPath input

lemma dataPath_ne_nil (host : Host) {p : Text} (h : p ≠ []) : host.dataPath p ≠ [] := Path.append_ne_nil _ h

lemma length_lt_dataPath (host : Host) {p : Text} (h : Path.isAbsolute p = false) :
    p.length < (host.dataPath p).length :=
  Path.length_lt_append (Path.append_ne_nil _ (by decide)) h

lemma dataPath_ne_self (host : Host) {p : Text} (h : Path.isAbsolute p = false) : host.dataPath p ≠ p := by
  intro heq
  have hlength := host.length_lt_dataPath h
  rw [heq] at hlength
  omega

/-- Resolution leaves a path alone if it is absolute, or if there is no data directory. -/
lemma resolveDataPath_eq_self_iff (host : Host) {input defaultFilename : Text} (hdefault : defaultFilename ≠ []) :
    host.resolveDataPath input defaultFilename = input ↔
      input ≠ [] ∧ (Path.isAbsolute input = true ∨ host.xdgDataHome = []) := by
  unfold resolveDataPath
  by_cases hinput : input = []
  · simp only [hinput, if_true]
    by_cases hroot : host.xdgDataHome = []
    · simp [hroot, hdefault]
    · simp [hroot, host.dataPath_ne_nil hdefault]
  · by_cases habsolute : Path.isAbsolute input = true
    · simp [hinput, habsolute]
    · have hfalse : Path.isAbsolute input = false := by simpa using habsolute
      by_cases hroot : host.xdgDataHome = []
      · simp [hinput, hfalse, hroot]
      · simp [hinput, hfalse, hroot, host.dataPath_ne_self hfalse]

/-- The places where a configuration is looked for. -/
def configCandidates (host : Host) : List Text :=
  [if host.xdgConfigHome = [] then []
    else Path.append (Path.append host.xdgConfigHome (ascii "acva")) (ascii "default.yaml"),
   ascii "config/default.yaml", ascii "/etc/acva/default.yaml"]

def resolveConfigPath (host : Host) (cli : Text) : Except Text Text :=
  if cli ≠ [] then .ok cli
  else match host.configCandidates.find? fun c => decide (c ≠ []) && host.fileExists c with
    | some path => .ok path
    | none => .error (ascii "config: no config file found; tried " ++
        (ascii ", ").intercalate (host.configCandidates.filter (· ≠ [])) ++
        utf8 " — pass --config PATH or place a default.yaml in one of those locations")

/-- The resolution of the VAD model: without a path, the installed model is taken if there is one. -/
def resolveVadModel (host : Host) (modelPath : Text) : Text :=
  if modelPath = [] then
    let resolved := host.resolveDataPath [] (ascii "models/silero/silero_vad.onnx")
    if host.fileExists resolved then resolved else []
  else host.resolveDataPath modelPath (ascii "silero/silero_vad.onnx")

/-- The resolution of a wake-word model: a bare file name is looked up in the models directory. -/
def resolveWakeWord (host : Host) (path : Text) : Text :=
  if path = [] then path
  else if Path.isAbsolute path then path
  else if Path.hasParentPath path then host.dataPath path
  else host.dataPath (Path.append (ascii "models/wake_word") path)

lemma resolveVadModel_eq_self_iff (host : Host) (modelPath : Text) : host.resolveVadModel modelPath = modelPath ↔
    if modelPath = [] then
      host.fileExists (host.resolveDataPath [] (ascii "models/silero/silero_vad.onnx")) = false
    else Path.isAbsolute modelPath = true ∨ host.xdgDataHome = [] := by
  unfold resolveVadModel
  by_cases hpath : modelPath = []
  · have hne : host.resolveDataPath [] (ascii "models/silero/silero_vad.onnx") ≠ [] := by
      rw [ne_eq, host.resolveDataPath_eq_self_iff (by decide)]
      simp
    simp [hpath, hne]
  · rw [if_neg hpath, if_neg hpath, host.resolveDataPath_eq_self_iff (by decide)]
    simp [hpath]

lemma resolveWakeWord_eq_self_iff (host : Host) (path : Text) :
    host.resolveWakeWord path = path ↔ path = [] ∨ Path.isAbsolute path = true := by
  unfold resolveWakeWord
  by_cases hpath : path = []
  · simp [hpath]
  by_cases habsolute : Path.isAbsolute path = true
  · simp [habsolute]
  have hrelative : Path.isAbsolute path = false := by simpa using habsolute
  rw [if_neg hpath, if_neg habsolute]
  have hneither : ¬(path = [] ∨ Path.isAbsolute path = true) := by simp [hpath, hrelative]
  rw [iff_false_intro hneither, iff_false]
  by_cases hparent : Path.hasParentPath path = true
  · rw [if_pos hparent]
    exact host.dataPath_ne_self hrelative
  · rw [if_neg hparent]
    have hbare : path.length < (Path.append (ascii "models/wake_word") path).length :=
      Path.length_lt_append (by decide) hrelative
    have hmodels : Path.isAbsolute (Path.append (ascii "models/wake_word") path) = false :=
      Path.isAbsolute_append (by decide) hrelative
    intro heq
    have hlength := host.length_lt_dataPath hmodels
    rw [heq] at hlength
    omega

end Host

/-- `LoadedConfig`: the configuration with its paths resolved, and the file it came from. -/
structure LoadedConfig where
  cfg : Config
  configPath : Text

namespace Config

/-- The rewriting of the paths, after `--stdin` has turned the synthetic driver off. -/
def resolvePaths (host : Host) (stdinMode : Bool) (cfg : Config) : Config :=
  { cfg with
    pipeline := { cfg.pipeline with fakeDriverEnabled := !stdinMode && cfg.pipeline.fakeDriverEnabled }
    memory := { cfg.memory with dbPath := host.resolveDataPath cfg.memory.dbPath (ascii "acva.db") }
    vad := { cfg.vad with modelPath := host.resolveVadModel cfg.vad.modelPath }
    audio := { cfg.audio with wakeWord := { cfg.audio.wakeWord with
      modelPaths := cfg.audio.wakeWord.modelPaths.map host.resolveWakeWord } } }

def loadAndResolveConfig (readYaml : YamlReader) (host : Host) (cliConfigPath : Text) (stdinMode : Bool) :
    Except Text LoadedConfig :=
  match host.resolveConfigPath cliConfigPath with
  | .error message => .error message
  | .ok path =>
    match loadFromFile readYaml host path with
    | .error message => .error message
    | .ok cfg => .ok ⟨cfg.resolvePaths host stdinMode, path⟩

end Config

end Acva
