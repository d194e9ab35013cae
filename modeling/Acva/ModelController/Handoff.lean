import Acva.ModelController.StatusWire

/-!
# Handing over the model at start-up

`run_model_controller_handoff` asks the sidecar which file is loaded, and asks it to load the one of the configuration
if that is another. Other requests and the load in progress take their steps in between. A strict start-up goes on only
after an answer that it could rely on.
-/

namespace Acva.ModelController

/-- The settings that the hand-over reads. -/
structure HandoffConfig where
  modelControllerUrl : Text
  modelFile : Text
  strictStartup : Bool
  deriving DecidableEq, Repr

inductive BootStage
  | asking
  | posting
  | waiting
  | returned (ok : Bool)
  deriving DecidableEq, Repr

/-- The start-up and the sidecar. `relied`: the sidecar as it was when it gave the answer with which the hand-over
ended. -/
structure Handoff where
  sidecar : Sidecar
  stage : BootStage
  relied : Option Sidecar := none
  deriving DecidableEq, Repr

/-- The sidecar gets on or serves another client, the request for the status is answered or not, the request for the
load arrives, or no answer to that one comes. -/
inductive HandoffAction
  | sidecar (a : Action)
  | status (code : Option Nat)
  | noStatus
  | load
  | lost
  deriving DecidableEq, Repr

def LoadStage.file : LoadStage → Option Text
  | .idle => none
  | .rewriting file | .composing file | .polling file => some file

namespace Handoff

variable (nameLen : Text → Nat) (unmarshal : Text → LoadBody) (cfg : HandoffConfig)

def begin (s : Sidecar) : Handoff where
  sidecar := s
  stage := if cfg.modelControllerUrl = [] ∨ cfg.modelFile = [] then .returned true else .asking

/-- The load has failed; a tolerant start-up goes on. -/
def fail (h : Handoff) : Handoff := { h with stage := .returned (!cfg.strictStartup) }

/-- The answer to the load is the last one that the sidecar has given. -/
def hear (h : Handoff) : Handoff :=
  match h.sidecar.answers.getLast? with
  | some ⟨_, .ok _, _, _⟩ => { h with stage := .returned true, relied := some h.sidecar }
  | some ⟨_, .error _ _, _, _⟩ => h.fail cfg
  | none => h

def step (h : Handoff) (a : HandoffAction) : Handoff :=
  match h.stage, a with
  | .waiting, .sidecar a =>
    let h := { h with sidecar := h.sidecar.step nameLen a }
    if h.sidecar.stage = .idle then h.hear cfg else h
  | _, .sidecar a => { h with sidecar := h.sidecar.step nameLen a }
  | .asking, .status code =>
    let s := h.sidecar.step nameLen (.status code)
    if (parseStatus (writeStatus s.state)).loadedFile = cfg.modelFile then
      { sidecar := s, stage := .returned true, relied := some s }
    else { h with sidecar := s, stage := .posting }
  | .asking, .noStatus => { h with stage := .posting }
  | .posting, .load =>
    let s := h.sidecar.post (unmarshal (loadBody cfg.modelFile))
    if s.answers = h.sidecar.answers then { h with sidecar := s, stage := .waiting }
    else { h with sidecar := s }.hear cfg
  | .posting, .lost | .waiting, .lost => h.fail cfg
  | _, _ => h

/-- Every request meets the condition of the sidecar, and its status is relied on only if no load of another file has
got past its rewrite since the last success. -/
def Tracked (h : Handoff) : HandoffAction → Prop
  | .sidecar a => h.sidecar.Tracked a
  | .status _ => h.stage = .asking → h.sidecar.state.loadedFile = cfg.modelFile → h.sidecar.strayed = false
  | .load => h.stage = .posting → h.sidecar.Tracked (.post (unmarshal (loadBody cfg.modelFile)))
  | .noStatus | .lost => True

instance (h : Handoff) (a : HandoffAction) : Decidable (h.Tracked unmarshal cfg a) :=
  match a with
  | .sidecar a => inferInstanceAs (Decidable (h.sidecar.Tracked a))
  | .status _ =>
    inferInstanceAs (Decidable (h.stage = .asking → h.sidecar.state.loadedFile = cfg.modelFile →
      h.sidecar.strayed = false))
  | .load =>
    inferInstanceAs (Decidable (h.stage = .posting → h.sidecar.Tracked (.post (unmarshal (loadBody cfg.modelFile)))))
  | .noStatus | .lost => isTrue trivial

end Handoff

/-! ### The load of the start-up -/

namespace Sidecar

variable {s : Sidecar}

lemma post_file (s : Sidecar) {f : Text} (hf : f ≠ []) :
    ((s.post (.file f)).answers = s.answers ∧ (s.post (.file f)).stage.file = some f) ∨
      ∃ a, (s.post (.file f)).answers = s.answers ++ [a] ∧
        ∀ status, a.response = .ok status → s.loading = false ∧ s.cached f = true ∧ (s.post (.file f)).state = s.state ∧
          (s.post (.file f)).strayed = s.strayed := by
  unfold Sidecar.post
  dsimp only
  rw [if_neg hf]
  split
  · exact .inr ⟨_, rfl, by simp⟩
  · rename_i hloading
    split
    · rename_i hcached
      exact .inr ⟨_, rfl, fun _ _ => ⟨by simpa using hloading, hcached, rfl, rfl⟩⟩
    · exact .inl ⟨rfl, rfl⟩

/-- The flag is up while there is a load. -/
def Busy (s : Sidecar) : Prop := s.loading = s.stage.file.isSome

lemma Busy.post (h : s.Busy) (body : LoadBody) : (s.post body).Busy := by
  cases body with
  | unreadable err => exact h
  | malformed err => exact h
  | file file =>
    unfold Sidecar.post
    dsimp only
    split_ifs
    · exact h
    · exact h
    · exact h
    · rfl

lemma Busy.step (h : s.Busy) (nameLen : Text → Nat) (a : Action) : (s.step nameLen a).Busy := by
  have hpost : ∀ body, a = .post body → (s.step nameLen a).Busy := by
    rintro body rfl
    exact h.post body
  -- the other actions leave the flag and the stage alone, or change both
  cases hstage : s.stage with
  | idle =>
    cases a with
    | post body => exact hpost body rfl
    | _ => simpa [Sidecar.step, hstage, Busy] using h
  | rewriting file =>
    cases a with
    | post body => exact hpost body rfl
    | rewrite err =>
      cases err with
      | none => simpa [Sidecar.step, hstage, Busy, LoadStage.file] using h
      | some err => simp [Sidecar.step, hstage, Busy, Sidecar.fail, Sidecar.answer, LoadStage.file]
    | _ => simpa [Sidecar.step, hstage, Busy] using h
  | composing file =>
    cases a with
    | post body => exact hpost body rfl
    | compose recreated err =>
      cases err with
      | none => simpa [Sidecar.step, hstage, Busy, LoadStage.file] using h
      | some err => simp [Sidecar.step, hstage, Busy, Sidecar.fail, Sidecar.answer, LoadStage.file]
    | _ => simpa [Sidecar.step, hstage, Busy] using h
  | polling file =>
    cases a with
    | post body => exact hpost body rfl
    | poll code =>
      by_cases hcode : code = some 200
      · simp [Sidecar.step, hstage, hcode, Busy, Sidecar.succeed, Sidecar.answer, LoadStage.file]
      · simpa [Sidecar.step, hstage, hcode, Busy] using h
    | done => simp [Sidecar.step, hstage, Busy, Sidecar.fail, Sidecar.answer, LoadStage.file]
    | expired => simp [Sidecar.step, hstage, Busy, Sidecar.fail, Sidecar.answer, LoadStage.file]
    | _ => simpa [Sidecar.step, hstage, Busy] using h

/-- How a step can end a load: with an error, or with the file in the cache. -/
def Ends (s : Sidecar) (f : Text) : Prop :=
  s.stage = .idle ∧ ∃ answer, s.answers.getLast? = some answer ∧
    ∀ status, answer.response = .ok status → s.state.loadedFile = f ∧ s.strayed = false

lemma ends_fail (s : Sidecar) (f : Text) (code : Nat) (message : Text) : (s.fail f code message).Ends f :=
  ⟨rfl, ⟨f, .error code message, s.env, s.created⟩, by simp [Sidecar.fail, Sidecar.answer], nofun⟩

lemma ends_succeed (s : Sidecar) (f : Text) : (s.succeed f).Ends f :=
  ⟨rfl, _, List.getLast?_concat, fun _ _ => ⟨rfl, rfl⟩⟩

lemma step_load {f : Text} (hbusy : s.Busy) (hf : s.stage.file = some f) (nameLen : Text → Nat) (a : Action) :
    (s.step nameLen a).stage.file = some f ∨ (s.step nameLen a).Ends f := by
  have hpost : ∀ body, a = .post body → (s.step nameLen a).stage.file = some f := by
    rintro body rfl
    have hloading : s.loading = true := by rw [hbusy, hf]; rfl
    have hstep : s.step nameLen (.post body) = s.post body := by unfold Sidecar.step; split <;> simp_all
    rw [hstep]
    cases body with
    | unreadable err => exact hf
    | malformed err => exact hf
    | file file =>
      by_cases hempty : file = []
      · simpa [Sidecar.post, Sidecar.answer, hempty] using hf
      · simpa [Sidecar.post, Sidecar.answer, hempty, hloading] using hf
  -- an action that the load does not wait for
  have quiet : (s.step nameLen a).stage = s.stage → (s.step nameLen a).stage.file = some f := fun hs => by rw [hs, hf]
  cases hstage : s.stage with
  | idle => simp [hstage, LoadStage.file] at hf
  | rewriting file =>
    obtain rfl : file = f := by simpa [hstage, LoadStage.file] using hf
    cases a with
    | post body => exact .inl (hpost body rfl)
    | rewrite err =>
      cases err with
      | none => exact .inl (by simp [Sidecar.step, hstage, LoadStage.file])
      | some err => simpa only [Sidecar.step, hstage] using .inr (ends_fail s file 500 _)
    | _ => exact .inl (quiet (by simp [Sidecar.step, hstage]))
  | composing file =>
    obtain rfl : file = f := by simpa [hstage, LoadStage.file] using hf
    cases a with
    | post body => exact .inl (hpost body rfl)
    | compose recreated err =>
      cases err with
      | none => exact .inl (by simp [Sidecar.step, hstage, LoadStage.file])
      | some err => simpa only [Sidecar.step, hstage] using .inr (ends_fail _ file 500 _)
    | _ => exact .inl (quiet (by simp [Sidecar.step, hstage]))
  | polling file =>
    obtain rfl : file = f := by simpa [hstage, LoadStage.file] using hf
    cases a with
    | post body => exact .inl (hpost body rfl)
    | poll code =>
      by_cases hcode : code = some 200
      · simpa only [Sidecar.step, hstage, hcode, if_true] using .inr (ends_succeed s file)
      · exact .inl (quiet (by simp [Sidecar.step, hstage, hcode]))
    | done => simpa only [Sidecar.step, hstage] using .inr (ends_fail s file 504 _)
    | expired => simpa only [Sidecar.step, hstage] using .inr (ends_fail s file 504 _)
    | _ => exact .inl (quiet (by simp [Sidecar.step, hstage]))

end Sidecar

/-! ### What the start-up relies on -/

namespace Handoff

variable {nameLen : Text → Nat} {unmarshal : Text → LoadBody} {cfg : HandoffConfig} {h : Handoff}

/-- The sidecar is sound, its load is that of the waiting start-up, and what was relied on was true. -/
structure Kept (cfg : HandoffConfig) (h : Handoff) : Prop where
  sound : h.sidecar.Sound
  busy : h.sidecar.Busy
  waiting : h.stage = .waiting → h.sidecar.stage.file = some cfg.modelFile
  relied : ∀ s, h.relied = some s →
    s.state.loadedFile = cfg.modelFile ∧ EnvNames s.env cfg.modelFile ∧ EnvNames s.created cfg.modelFile
  served : h.stage = .returned true → cfg.strictStartup = true → h.relied.isSome

lemma deployed_of_cached {s : Sidecar} {f : Text} (hs : s.Sound) (hf : f ≠ []) (hloaded : s.state.loadedFile = f)
    (hstrayed : s.strayed = false) : s.state.loadedFile = f ∧ EnvNames s.env f ∧ EnvNames s.created f := by
  subst hloaded
  exact ⟨rfl, hs.cached hstrayed hf⟩

lemma Kept.fail (hk : h.Kept cfg) : (h.fail cfg).Kept cfg where
  sound := hk.sound
  busy := hk.busy
  waiting := nofun
  relied := hk.relied
  served hstage hstrict := by simp [Handoff.fail, hstrict] at hstage

lemma Kept.hear (hk : h.Kept cfg) {s : Sidecar} {stage : BootStage} (hsound : s.Sound) (hbusy : s.Busy)
    (hf : cfg.modelFile ≠ [])
    {answer : Answer} (hlast : s.answers.getLast? = some answer)
    (hok : ∀ status, answer.response = .ok status → s.state.loadedFile = cfg.modelFile ∧ s.strayed = false) :
    (hear cfg { sidecar := s, stage := stage, relied := h.relied }).Kept cfg := by
  obtain ⟨file, response, env, created⟩ := answer
  cases response with
  | error code message =>
    simp only [Handoff.hear, hlast, Handoff.fail]
    refine ⟨hsound, hbusy, nofun, hk.relied, fun hstage hstrict => ?_⟩
    simp [hstrict] at hstage
  | ok status =>
    obtain ⟨hloaded, hstrayed⟩ := hok status rfl
    simp only [Handoff.hear, hlast]
    refine ⟨hsound, hbusy, nofun, fun s' hs' => ?_, fun _ _ => rfl⟩
    obtain rfl := Option.some.inj hs'
    exact deployed_of_cached hsound hf hloaded hstrayed

lemma kept_begin {s : Sidecar} (hsound : s.Sound) (hbusy : s.Busy) (hurl : cfg.modelControllerUrl ≠ [])
    (hf : cfg.modelFile ≠ []) : (begin cfg s).Kept cfg := by
  have hstage : (begin cfg s).stage = .asking := by simp [begin, hurl, hf]
  refine ⟨hsound, hbusy, ?_, nofun, ?_⟩
  · simp [hstage]
  · simp [hstage]

lemma Kept.other (hk : h.Kept cfg) {s : Sidecar} (hsound : s.Sound) (hbusy : s.Busy) (hstage : h.stage ≠ .waiting) :
    Kept cfg { h with sidecar := s } :=
  ⟨hsound, hbusy, fun hwaiting => absurd hwaiting hstage, hk.relied, hk.served⟩

lemma Kept.wait (hk : h.Kept cfg) (hstage : h.stage = .waiting) {a : Action} (htracked : h.sidecar.Tracked a)
    (hf : cfg.modelFile ≠ []) : (h.step nameLen unmarshal cfg (.sidecar a)).Kept cfg := by
  have hsound := hk.sound.step nameLen htracked
  have hbusy := hk.busy.step nameLen a
  simp only [Handoff.step, hstage]
  rcases Sidecar.step_load hk.busy (hk.waiting hstage) nameLen a with hload | ⟨hidle, answer, hlast, hok⟩
  · have hnot : (h.sidecar.step nameLen a).stage ≠ .idle := by
      intro hidle
      simp [hidle, LoadStage.file] at hload
    rw [if_neg hnot]
    exact ⟨hsound, hbusy, fun _ => hload, hk.relied, nofun⟩
  · rw [if_pos hidle]
    exact hk.hear hsound hbusy hf hlast hok

lemma Kept.ask (hk : h.Kept cfg) (hstage : h.stage = .asking) (code : Option Nat) (hf : cfg.modelFile ≠ [])
    (hsafe : cfg.modelFile.all htmlSafe)
    (hclean : h.sidecar.state.loadedFile = cfg.modelFile → h.sidecar.strayed = false) :
    (h.step nameLen unmarshal cfg (.status code)).Kept cfg := by
  have hstep : h.sidecar.step nameLen (.status code) =
    { h.sidecar with state := h.sidecar.state.refreshHealth code } := by
    unfold Sidecar.step
    split <;> simp_all
  have hsound : (h.sidecar.step nameLen (.status code)).Sound := hk.sound.step nameLen (by trivial)
  have hbusy := hk.busy.step nameLen (.status code)
  simp only [Handoff.step, hstage]
  split
  · rename_i hread
    rw [parseStatus_writeStatus, takeWhile_appendString_iff (no_backslash_of_safe hsafe)] at hread
    have hloaded : h.sidecar.state.loadedFile = cfg.modelFile := by simpa [hstep, Status.refreshHealth] using hread
    refine ⟨hsound, hbusy, fun hwaiting => (by cases hwaiting), fun s hs => ?_, fun _ _ => rfl⟩
    obtain rfl := Option.some.inj hs
    exact deployed_of_cached hsound hf hread (by simpa [hstep] using hclean hloaded)
  · exact ⟨hsound, hbusy, fun hwaiting => (by cases hwaiting), hk.relied, fun hreturned => by cases hreturned⟩

lemma Kept.post (hk : h.Kept cfg) (hstage : h.stage = .posting) (hun : Unmarshals unmarshal) (hf : cfg.modelFile ≠ [])
    (hsafe : cfg.modelFile.all htmlSafe) (htracked : h.sidecar.Tracked (.post (unmarshal (loadBody cfg.modelFile)))) :
    (h.step nameLen unmarshal cfg .load).Kept cfg := by
  have hbody : unmarshal (loadBody cfg.modelFile) = .file cfg.modelFile :=
    hun _ _ (isText_loadBody (isPlain_of_htmlSafe hsafe))
  have hsound := hk.sound.post htracked
  have hbusy := hk.busy.post (unmarshal (loadBody cfg.modelFile))
  simp only [Handoff.step, hstage]
  rw [hbody] at hsound hbusy htracked ⊢
  rcases Sidecar.post_file h.sidecar hf with ⟨hsame, hload⟩ | ⟨answer, hanswers, hok⟩
  · rw [if_pos hsame]
    exact ⟨hsound, hbusy, fun _ => hload, hk.relied, nofun⟩
  · rw [if_neg (by simp [hanswers])]
    refine hk.hear hsound hbusy hf (by rw [hanswers]; exact List.getLast?_concat) fun status hstatus => ?_
    obtain ⟨hidle, hcached, hstate, hstrayed⟩ := hok status hstatus
    have huse := htracked hf hidle
    rw [if_pos hcached] at huse
    rw [hstate, hstrayed]
    simp only [Sidecar.cached, Bool.and_eq_true, decide_eq_true_eq] at hcached
    exact ⟨hcached.1, huse⟩

lemma Kept.step (hk : h.Kept cfg) (hun : Unmarshals unmarshal) (hf : cfg.modelFile ≠ [])
    (hsafe : cfg.modelFile.all htmlSafe) {a : HandoffAction} (htracked : h.Tracked unmarshal cfg a) :
    (h.step nameLen unmarshal cfg a).Kept cfg := by
  cases a with
  | sidecar a =>
    by_cases hstage : h.stage = .waiting
    · exact hk.wait hstage htracked hf
    · have hstep : h.step nameLen unmarshal cfg (.sidecar a) = { h with sidecar := h.sidecar.step nameLen a } := by
        unfold Handoff.step
        split <;> simp_all
      rw [hstep]
      exact hk.other (hk.sound.step nameLen htracked) (hk.busy.step nameLen a) hstage
  | status code =>
    by_cases hstage : h.stage = .asking
    · exact hk.ask hstage code hf hsafe (htracked hstage)
    · have hstep : h.step nameLen unmarshal cfg (.status code) = h := by
        unfold Handoff.step
        split <;> simp_all
      rw [hstep]
      exact hk
  | noStatus =>
    cases hstage : h.stage with
    | asking =>
      simp only [Handoff.step, hstage]
      exact ⟨hk.sound, hk.busy, nofun, hk.relied, nofun⟩
    | _ => simpa only [Handoff.step, hstage] using hk
  | load =>
    by_cases hstage : h.stage = .posting
    · exact hk.post hstage hun hf hsafe (htracked hstage)
    · have hstep : h.step nameLen unmarshal cfg .load = h := by
        unfold Handoff.step
        split <;> simp_all
      rw [hstep]
      exact hk
  | lost =>
    cases hstage : h.stage with
    | posting | waiting => simpa only [Handoff.step, hstage] using hk.fail
    | _ => simpa only [Handoff.step, hstage] using hk

/-- A strict start-up that goes on has seen the sidecar with the file of the configuration, in its cache, in the env
file and in the one that the container was last created with. -/
theorem strict_handoff_deployed (hun : Unmarshals unmarshal) (hstrict : cfg.strictStartup = true)
    (hurl : cfg.modelControllerUrl ≠ []) (hf : cfg.modelFile ≠ []) (hsafe : cfg.modelFile.all htmlSafe)
    {env created : Option Text} (hcreated : ∀ f, EnvNames env f → EnvNames created f) (code : Option Nat)
    {actions : List HandoffAction}
    (h : Runs.Along (step nameLen unmarshal cfg) (Tracked unmarshal cfg)
      (begin cfg (Sidecar.start env created code)) actions)
    (hreturned : (Runs.exec (step nameLen unmarshal cfg) (begin cfg (Sidecar.start env created code)) actions).stage =
      .returned true) :
    ∃ s, (Runs.exec (step nameLen unmarshal cfg) (begin cfg (Sidecar.start env created code)) actions).relied = some s ∧
      s.state.loadedFile = cfg.modelFile ∧ EnvNames s.env cfg.modelFile ∧ EnvNames s.created cfg.modelFile := by
  have hbegin := kept_begin (Sidecar.sound_start hcreated code) (by rfl) hurl hf
  have hkept := h.invariant (Kept cfg) (fun _ _ hk ha => hk.step hun hf hsafe ha) hbegin
  obtain ⟨s, hs⟩ := Option.isSome_iff_exists.1 (hkept.served hreturned hstrict)
  exact ⟨s, hs, hkept.relied s hs⟩

/-- Another client asks for a third file while the start-up waits, and is refused. -/
theorem strict_handoff_of_second_file :
    let cfg : HandoffConfig := ⟨ascii "http://127.0.0.1:9877", ascii "b.gguf", true⟩
    let env := some (ascii "ACVA_LLM_MODEL=a.gguf\n")
    ∃ s, (Runs.exec (step (fun _ => 0) readLoad cfg) (begin cfg (Sidecar.start env env (some 200)))
        [.status (some 200), .load, .sidecar (.rewrite none), .sidecar (.post (.file (ascii "c.gguf"))),
         .sidecar (.compose true none), .sidecar (.poll none), .sidecar (.poll (some 200))]).relied = some s ∧
      s.state.loadedFile = ascii "b.gguf" ∧ EnvNames s.env (ascii "b.gguf") ∧ EnvNames s.created (ascii "b.gguf") := by
  intro cfg env
  exact strict_handoff_deployed unmarshals_readLoad rfl (by decide) (by decide) (by decide) (fun _ h => h) (some 200)
    (by decide +kernel) (by decide +kernel)

end Handoff

end Acva.ModelController
