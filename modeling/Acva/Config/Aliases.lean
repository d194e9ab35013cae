import Acva.Config.Load

/-!
# Resolving the aliases twice

`resolve_aliases` replaces names by what the catalogs give for them, after the active personality has put its own names
in. A result may be a name of the catalog again.
-/

namespace Acva

namespace Config

/-- The personality that `apply_active_personality` finds. -/
def persona (cfg : Config) : Option Personality :=
  if cfg.activePersonality = [] then none else cfg.personalities[cfg.activePersonality]?

/-- An id that the catalog gives for the name is not an alias of another id. -/
def ModelSettled (catalog : Dict Text) (name : Text) : Prop :=
  ∀ id ∈ catalog[name]?, ∀ other ∈ catalog[id]?, other = id

/-- The same for the path of a file. -/
def FileSettled (catalog : Dict Text) (directory : String) (name : Text) : Prop :=
  ∀ file ∈ catalog[name]?, ∀ other ∈ catalog[ascii directory ++ file]?, other = file

/-- No result of a lookup stands for something else. The wake words of a personality are put in again each time. -/
structure AliasesSettled (cfg : Config) : Prop where
  stt : ModelSettled cfg.models.stt cfg.stt.model
  vad : FileSettled cfg.models.vad "models/silero/" cfg.vad.modelPath
  wakeWord : (∀ p ∈ cfg.persona, p.wakeWord.modelPaths = []) → ∀ name ∈ cfg.audio.wakeWord.modelPaths,
    FileSettled cfg.models.wakeWord "models/wake_word/" name

lemma applyActivePersonality_eq (cfg : Config) :
    cfg.applyActivePersonality = (cfg.persona.map cfg.overlay).getD cfg := by
  unfold applyActivePersonality persona
  split
  · rfl
  · split
    · rename_i hnone
      rw [hnone]
      rfl
    · rename_i p hsome
      rw [hsome]
      rfl

lemma modelSettled_iff (catalog : Dict Text) (name : Text) :
    ModelSettled catalog name ↔
      catalog[catalog[name]?.getD name]?.getD (catalog[name]?.getD name) = catalog[name]?.getD name := by
  unfold ModelSettled
  cases hname : catalog[name]? with
  | none => simp [hname]
  | some id =>
    cases hid : catalog[id]? with
    | none => simp [hid]
    | some other => simp [hid]

lemma fileSettled_iff (catalog : Dict Text) (directory : String) (name : Text) :
    FileSettled catalog directory name ↔
      resolveFile catalog directory (resolveFile catalog directory name) = resolveFile catalog directory name := by
  unfold FileSettled resolveFile
  cases hname : catalog[name]? with
  | none => simp [hname]
  | some file =>
    cases hfile : catalog[ascii directory ++ file]? with
    | none => simp [hfile]
    | some other => simp [hfile]

lemma union_union {α : Type} (a b : Dict α) : a ∪ b ∪ b = a ∪ b := by
  apply Std.ExtTreeMap.ext_getElem?
  intro k
  rw [Std.ExtTreeMap.getElem?_union, Std.ExtTreeMap.getElem?_union]
  cases b[k]? <;> rfl

lemma getD_getD {α : Type} (o : Option α) (a : α) : o.getD (o.getD a) = o.getD a := by
  cases o <;> rfl

/-- The wake words after the catalog has been asked for each. -/
def wakeWords (catalog : Dict Text) (names : List Text) : List Text :=
  names.map (resolveFile catalog "models/wake_word/")

lemma persona_resolveAliases (cfg : Config) : cfg.resolveAliases.persona = cfg.persona := by
  have hactive : cfg.resolveAliases.activePersonality = cfg.activePersonality ∧
      cfg.resolveAliases.personalities = cfg.personalities := by
    unfold resolveAliases
    rw [applyActivePersonality_eq]
    cases cfg.persona <;> exact ⟨rfl, rfl⟩
  rw [persona, hactive.1, hactive.2, persona]

/-- What a second resolution does: the catalogs are asked again, the personality changes only its wake words back. -/
lemma resolveAliases_resolveAliases (cfg : Config) :
    cfg.resolveAliases.resolveAliases =
      let r := cfg.resolveAliases
      { r with
        stt := { r.stt with model := r.models.stt[r.stt.model]?.getD r.stt.model }
        vad := { r.vad with modelPath := resolveFile r.models.vad "models/silero/" r.vad.modelPath }
        audio := { r.audio with wakeWord := { r.audio.wakeWord with
          modelPaths := if ∀ p ∈ cfg.persona, p.wakeWord.modelPaths = [] then
              wakeWords r.models.wakeWord r.audio.wakeWord.modelPaths
            else r.audio.wakeWord.modelPaths } } } := by
  rw [resolveAliases, applyActivePersonality_eq, persona_resolveAliases]
  unfold resolveAliases
  rw [applyActivePersonality_eq]
  cases hp : cfg.persona with
  | none => simp [wakeWords, resolveVoices]
  | some p =>
    by_cases hpaths : p.wakeWord.modelPaths = []
    · simp [overlay, hpaths, wakeWords, resolveVoices, union_union, getD_getD]
    · simp [overlay, hpaths, resolveVoices, union_union, getD_getD]

lemma models_resolveAliases (cfg : Config) : cfg.resolveAliases.models = cfg.models := by
  unfold resolveAliases
  rw [applyActivePersonality_eq]
  cases cfg.persona <;> rfl

lemma sttModel_resolveAliases (cfg : Config) :
    cfg.resolveAliases.stt.model = cfg.models.stt[cfg.stt.model]?.getD cfg.stt.model := by
  unfold resolveAliases
  rw [applyActivePersonality_eq]
  cases cfg.persona <;> rfl

lemma vadPath_resolveAliases (cfg : Config) :
    cfg.resolveAliases.vad.modelPath = resolveFile cfg.models.vad "models/silero/" cfg.vad.modelPath := by
  unfold resolveAliases
  rw [applyActivePersonality_eq]
  cases cfg.persona <;> rfl

lemma wakePaths_resolveAliases {cfg : Config} (hnone : ∀ p ∈ cfg.persona, p.wakeWord.modelPaths = []) :
    cfg.resolveAliases.audio.wakeWord.modelPaths =
      wakeWords cfg.models.wakeWord cfg.audio.wakeWord.modelPaths := by
  unfold resolveAliases
  rw [applyActivePersonality_eq]
  cases hp : cfg.persona with
  | none => rfl
  | some p => simp [overlay, hnone p hp, wakeWords]

/-- Asking the catalog for each wake word again changes nothing when no result is an alias of something else. -/
lemma wakeWords_wakeWords_iff (catalog : Dict Text) (names : List Text) :
    wakeWords catalog (wakeWords catalog names) = wakeWords catalog names ↔
      ∀ name ∈ names, FileSettled catalog "models/wake_word/" name := by
  unfold wakeWords
  rw [List.map_map, List.map_inj_left]
  apply forall₂_congr
  intro name _
  rw [fileSettled_iff, Function.comp_apply]

lemma aliasesSettled_of_idempotent {cfg : Config} (heq : cfg.resolveAliases.resolveAliases = cfg.resolveAliases) :
    cfg.AliasesSettled := by
  rw [resolveAliases_resolveAliases] at heq
  refine ⟨?_, ?_, ?_⟩
  · rw [modelSettled_iff, ← sttModel_resolveAliases, ← models_resolveAliases]
    exact congrArg (fun c => c.stt.model) heq
  · rw [fileSettled_iff, ← vadPath_resolveAliases, ← models_resolveAliases]
    exact congrArg (fun c => c.vad.modelPath) heq
  · intro hnone
    have hwords := congrArg (fun c => c.audio.wakeWord.modelPaths) heq
    simp only [if_pos hnone] at hwords
    rw [wakePaths_resolveAliases hnone, models_resolveAliases] at hwords
    exact (wakeWords_wakeWords_iff _ _).mp hwords

lemma AliasesSettled.idempotent {cfg : Config} (h : cfg.AliasesSettled) :
    cfg.resolveAliases.resolveAliases = cfg.resolveAliases := by
  have hstt := (modelSettled_iff _ _).mp h.stt
  rw [← sttModel_resolveAliases, ← models_resolveAliases] at hstt
  have hvad := (fileSettled_iff _ _ _).mp h.vad
  rw [← vadPath_resolveAliases, ← models_resolveAliases] at hvad
  rw [resolveAliases_resolveAliases]
  dsimp only
  rw [hstt, hvad]
  split
  · rename_i hnone
    have hwords := (wakeWords_wakeWords_iff _ _).mpr (h.wakeWord hnone)
    rw [← wakePaths_resolveAliases hnone, ← models_resolveAliases] at hwords
    rw [hwords]
  · rfl

/-- Resolving the aliases of a configuration a second time changes nothing exactly when no result of a lookup stands in
its catalog for something else. -/
theorem resolveAliases_idempotent_iff (cfg : Config) :
    cfg.resolveAliases.resolveAliases = cfg.resolveAliases ↔ cfg.AliasesSettled := by
  constructor
  · intro heq
    exact aliasesSettled_of_idempotent heq
  · intro h
    exact h.idempotent

/-- The catalog gives the id of a second entry for the first one. -/
def chainedAliases : Config :=
  { stt := { model := ascii "a" }
    models := { stt := {(ascii "a", ascii "b"), (ascii "b", ascii "c")} } }

theorem resolveAliases_not_idempotent :
    ¬ ∀ cfg : Config, cfg.resolveAliases.resolveAliases = cfg.resolveAliases := by
  intro h
  have hstt := (aliasesSettled_of_idempotent (h chainedAliases)).stt
  have hbad := hstt (ascii "b") (by decide) (ascii "c") (by decide)
  exact absurd hbad (by decide)

end Config

end Acva
