import Acva.Lib.Runs
import Acva.ModelController.EnvFile

/-!
# The model controller

The sidecar answers `POST /llm/load` by writing the file's name into the env file, recreating the container and polling
its health, one load at a time. It keeps the file of the last load that succeeded, and answers from that if the
container is healthy.
-/

namespace Acva

open EnvFile (readEnvKey writeEnvKey plainName)

namespace ModelController

def aliasEnvKey : Text := ascii "ACVA_LLM_MODEL"

inductive Health
  | unknown
  | unhealthy
  | healthy
  deriving DecidableEq, Repr

structure Status where
  loadedFile : Text := []
  aliasName : Text := []
  health : Health := .unknown
  deriving DecidableEq, Repr

/-- `refreshHealthLocked`, with the code of the container's answer if there is one. -/
def Status.refreshHealth (s : Status) (code : Option Nat) : Status :=
  { s with health := if code = some 200 then .healthy else .unhealthy }

/-- The body of a request: it cannot be read, or is not the expected JSON, or names a file. -/
inductive LoadBody
  | unreadable (err : Text)
  | malformed (err : Text)
  | file (name : Text)
  deriving DecidableEq, Repr

inductive Response
  | error (code : Nat) (message : Text)
  | ok (status : Status)
  deriving DecidableEq, Repr

/-- Where the load in progress is in `handleLoad`. -/
inductive LoadStage
  | idle
  | rewriting (file : Text)
  | composing (file : Text)
  | polling (file : Text)
  deriving DecidableEq, Repr

/-- An answer to `/llm/load`, with the env file and the one that the container was last created with. -/
structure Answer where
  file : Text
  response : Response
  env : Option Text
  created : Option Text
  deriving DecidableEq, Repr

/-- The controller with the env file, if there is one, and the env file as it was when the container was last created.
`strayed`: since the last success, a load of another file than the cached one has got past its rewrite. -/
structure Sidecar where
  state : Status := {}
  loading : Bool := false
  env : Option Text
  created : Option Text
  stage : LoadStage := .idle
  answers : List Answer := []
  strayed : Bool := false
  deriving DecidableEq, Repr

/-- A request arrives, the load in progress gets on, or the status is asked for. An `err` says that the step fails. -/
inductive Action
  | post (body : LoadBody)
  | rewrite (err : Option Text)
  | compose (recreated : Bool) (err : Option Text)
  | poll (code : Option Nat)
  | done
  | expired
  | status (code : Option Nat)
  deriving DecidableEq, Repr

/-- The entry of the env file names `f`. -/
def EnvNames (env : Option Text) (f : Text) : Prop := env.bind (readEnvKey aliasEnvKey) = some f

instance (env : Option Text) (f : Text) : Decidable (EnvNames env f) := inferInstanceAs (Decidable (_ = _))

namespace Sidecar

/-- `newController`. -/
def start (env created : Option Text) (code : Option Nat) : Sidecar :=
  let state : Status := { loadedFile := (env.bind (readEnvKey aliasEnvKey)).getD [] }
  { state := state.refreshHealth code, env := env, created := created }

def answer (s : Sidecar) (file : Text) (response : Response) : Sidecar :=
  { s with answers := s.answers ++ [⟨file, response, s.env, s.created⟩] }

/-- The load in progress ends with an error. -/
def fail (s : Sidecar) (file : Text) (code : Nat) (message : Text) : Sidecar :=
  { s with loading := false, stage := .idle }.answer file (.error code message)

/-- The answer can be given from the cache. -/
def cached (s : Sidecar) (file : Text) : Bool := s.state.loadedFile = file && s.state.health = .healthy

/-- `handleLoad` up to the rewrite. -/
def post (s : Sidecar) : LoadBody → Sidecar
  | .unreadable err => s.answer [] (.error 400 (ascii "read body: " ++ err))
  | .malformed err => s.answer [] (.error 400 (ascii "parse body: " ++ err))
  | .file file =>
    if file = [] then s.answer file (.error 400 (ascii "file is required"))
    else if s.loading then s.answer file (.error 409 (ascii "another load is in progress"))
    else if s.cached file then s.answer file (.ok s.state)
    else { s with loading := true, stage := .rewriting file }

/-- The cache after a load that has succeeded. -/
def succeed (s : Sidecar) (file : Text) : Sidecar :=
  let state : Status :=
    { loadedFile := file
      aliasName := (s.env.bind (readEnvKey (ascii "ACVA_LLM_ALIAS"))).getD []
      health := .healthy }
  { s with state := state, loading := false, stage := .idle, strayed := false }.answer file (.ok state)

def step (nameLen : Text → Nat) (s : Sidecar) (a : Action) : Sidecar :=
  match s.stage, a with
  | _, .post body => s.post body
  | _, .status code => { s with state := s.state.refreshHealth code }
  | .rewriting file, .rewrite err =>
    match err with
    | some err => s.fail file 500 (ascii "rewrite .env: " ++ err)
    | none =>
      { s with
        env := some (writeEnvKey nameLen aliasEnvKey file (s.env.getD []))
        stage := .composing file
        strayed := s.strayed || s.state.loadedFile ≠ file }
  | .composing file, .compose recreated err =>
    -- a command that fails may have recreated the container before
    match err with
    | some err =>
      { s with created := if recreated then s.env else s.created }.fail file 500 (ascii "docker compose: " ++ err)
    | none => { s with created := s.env, stage := .polling file }
  | .polling file, .poll code => if code = some 200 then s.succeed file else s
  | .polling file, .done => s.fail file 504 (ascii "deadline waiting for llama health")
  | .polling file, .expired => s.fail file 504 (ascii "llama did not report healthy within deadline")
  | _, _ => s

/-- The cache is used only if no load of another file has got past its rewrite since the last success, and a load that
starts is of a plain name. -/
def Tracked (s : Sidecar) (a : Action) : Prop :=
  match a with
  | .post (.file file) =>
    file ≠ [] → s.loading = false → if s.cached file then s.strayed = false else plainName file
  | _ => True

instance (s : Sidecar) (a : Action) : Decidable (s.Tracked a) :=
  match a with
  | .post (.file file) =>
    inferInstanceAs (Decidable (file ≠ [] → s.loading = false →
      if s.cached file then s.strayed = false else plainName file))
  | .post (.unreadable _) | .post (.malformed _) | .rewrite _ | .compose _ _ | .poll _ | .done | .expired | .status _ =>
    isTrue trivial

/-! ### What is deployed -/

end Sidecar

/-- An answer 200 names the file asked for, which is in the env file and was in it when the container was created. -/
def Answer.Deployed (a : Answer) : Prop :=
  ∀ status, a.response = .ok status → status.loadedFile = a.file ∧ EnvNames a.env a.file ∧ EnvNames a.created a.file

namespace Sidecar

structure Sound (s : Sidecar) : Prop where
  cached : s.strayed = false → s.state.loadedFile ≠ [] →
    EnvNames s.env s.state.loadedFile ∧ EnvNames s.created s.state.loadedFile
  stage : match s.stage with
    | .idle => True
    | .rewriting file => plainName file
    | .composing file => EnvNames s.env file
    | .polling file => EnvNames s.env file ∧ EnvNames s.created file
  answers : ∀ a ∈ s.answers, a.Deployed

variable {s : Sidecar}

lemma plainKey_aliasEnvKey : EnvFile.PlainKey aliasEnvKey :=
  ⟨⟨_, _, rfl, by decide, by decide⟩, by decide +kernel, by decide +kernel⟩

lemma Sound.answer (h : s.Sound) {file : Text} {response : Response}
    (hdeployed : (⟨file, response, s.env, s.created⟩ : Answer).Deployed) : (s.answer file response).Sound := by
  refine ⟨h.cached, h.stage, fun a ha => ?_⟩
  rcases List.mem_append.1 ha with ha | ha
  · exact h.answers a ha
  · rw [List.mem_singleton.1 ha]
    exact hdeployed

lemma deployed_error {file message : Text} {code : Nat} {env created : Option Text} :
    (⟨file, .error code message, env, created⟩ : Answer).Deployed := by
  intro status hstatus
  simp at hstatus

lemma Sound.fail (h : s.Sound) (created : Option Text)
    (hcreated : s.strayed = false → s.state.loadedFile ≠ [] → EnvNames created s.state.loadedFile)
    (file : Text) (code : Nat) (message : Text) :
    (Sidecar.fail { s with created := created } file code message).Sound := by
  have hidle : Sound { s with created := created, loading := false, stage := .idle } :=
    ⟨fun hs hne => ⟨(h.cached hs hne).1, hcreated hs hne⟩, trivial, h.answers⟩
  exact hidle.answer deployed_error

lemma Sound.post (h : s.Sound) {body : LoadBody} (htracked : s.Tracked (.post body)) : (s.post body).Sound := by
  cases body with
  | unreadable err => exact h.answer deployed_error
  | malformed err => exact h.answer deployed_error
  | file file =>
    unfold Sidecar.post
    dsimp only
    by_cases hempty : file = []
    · rw [if_pos hempty]
      exact h.answer deployed_error
    rw [if_neg hempty]
    by_cases hloading : s.loading
    · rw [if_pos hloading]
      exact h.answer deployed_error
    rw [if_neg hloading]
    have huse := htracked hempty (by simpa using hloading)
    by_cases hcached : s.cached file
    · rw [if_pos hcached] at huse ⊢
      have hfile : s.state.loadedFile = file := by
        simp only [Sidecar.cached, Bool.and_eq_true, decide_eq_true_eq] at hcached
        exact hcached.1
      refine h.answer fun status hstatus => ?_
      obtain rfl : s.state = status := by simpa using hstatus
      subst hfile
      exact ⟨rfl, h.cached huse hempty⟩
    · rw [if_neg hcached] at huse ⊢
      exact ⟨h.cached, huse, h.answers⟩

lemma Sound.succeed (h : s.Sound) {file : Text} (hstage : s.stage = .polling file) : (s.succeed file).Sound := by
  have hpolling : EnvNames s.env file ∧ EnvNames s.created file := by
    have hs := h.stage
    rwa [hstage] at hs
  let state : Status :=
    { loadedFile := file
      aliasName := (s.env.bind (readEnvKey (ascii "ACVA_LLM_ALIAS"))).getD []
      health := .healthy }
  have hidle : Sound { s with state := state, loading := false, stage := .idle, strayed := false } :=
    ⟨fun _ _ => hpolling, trivial, h.answers⟩
  refine hidle.answer fun status hstatus => ?_
  obtain rfl : state = status := Response.ok.inj hstatus
  exact ⟨rfl, hpolling⟩

lemma Sound.rewrite (h : s.Sound) (nameLen : Text → Nat) {file : Text} (hstage : s.stage = .rewriting file) :
    Sound { s with
      env := some (writeEnvKey nameLen aliasEnvKey file (s.env.getD []))
      stage := .composing file
      strayed := s.strayed || s.state.loadedFile ≠ file } := by
  have hplain : plainName file := by
    have hs := h.stage
    rwa [hstage] at hs
  have hnames : EnvNames (some (writeEnvKey nameLen aliasEnvKey file (s.env.getD []))) file :=
    EnvFile.readEnvKey_writeEnvKey plainKey_aliasEnvKey hplain _
  refine ⟨fun hs hne => ?_, hnames, h.answers⟩
  obtain ⟨hold, hfile⟩ : s.strayed = false ∧ s.state.loadedFile = file := by simpa using hs
  rw [hfile] at hne ⊢
  exact ⟨hnames, hfile ▸ (h.cached hold (hfile ▸ hne)).2⟩

lemma Sound.step (h : s.Sound) (nameLen : Text → Nat) {a : Action} (htracked : s.Tracked a) :
    (s.step nameLen a).Sound := by
  have hpost : ∀ body, a = .post body → (s.step nameLen a).Sound := by
    rintro body rfl
    exact h.post htracked
  have hstatus : ∀ code, a = .status code → (s.step nameLen a).Sound := by
    rintro code rfl
    exact ⟨h.cached, h.stage, h.answers⟩
  have hfail : ∀ file code message, (s.fail file code message).Sound := fun file code message =>
    h.fail s.created (fun hs hne => (h.cached hs hne).2) file code message
  -- an action that the load in progress does not wait for
  have quiet : s.step nameLen a = s → (s.step nameLen a).Sound := fun hs => hs.symm ▸ h
  cases hstage : s.stage with
  | idle =>
    cases a with
    | post body => exact hpost body rfl
    | status code => exact hstatus code rfl
    | _ => exact quiet (by simp [Sidecar.step, hstage])
  | rewriting file =>
    cases a with
    | post body => exact hpost body rfl
    | status code => exact hstatus code rfl
    | rewrite err =>
      cases err with
      | none => simpa only [Sidecar.step, hstage] using h.rewrite nameLen hstage
      | some err =>
        simpa only [Sidecar.step, hstage] using hfail file 500 _
    | _ => exact quiet (by simp [Sidecar.step, hstage])
  | composing file =>
    have hnames : EnvNames s.env file := by
      have hs := h.stage
      rwa [hstage] at hs
    cases a with
    | post body => exact hpost body rfl
    | status code => exact hstatus code rfl
    | compose recreated err =>
      cases err with
      | none =>
        have hcreated : Sound { s with created := s.env, stage := .polling file } :=
          ⟨fun hs hne => ⟨(h.cached hs hne).1, (h.cached hs hne).1⟩, ⟨hnames, hnames⟩, h.answers⟩
        simpa only [Sidecar.step, hstage] using hcreated
      | some err =>
        have hcreated : s.strayed = false → s.state.loadedFile ≠ [] →
            EnvNames (if recreated then s.env else s.created) s.state.loadedFile := by
          intro hs hne
          cases recreated with
          | true => exact (h.cached hs hne).1
          | false => exact (h.cached hs hne).2
        simpa only [Sidecar.step, hstage] using h.fail _ hcreated file 500 (ascii "docker compose: " ++ err)
    | _ => exact quiet (by simp [Sidecar.step, hstage])
  | polling file =>
    cases a with
    | post body => exact hpost body rfl
    | status code => exact hstatus code rfl
    | poll code =>
      by_cases hcode : code = some 200
      · simpa only [Sidecar.step, hstage, hcode, if_true] using h.succeed hstage
      · exact quiet (by simp [Sidecar.step, hstage, hcode])
    | done => simpa only [Sidecar.step, hstage] using hfail file 504 _
    | expired => simpa only [Sidecar.step, hstage] using hfail file 504 _
    | _ => exact quiet (by simp [Sidecar.step, hstage])

lemma sound_start {env created : Option Text} (hcreated : ∀ f, EnvNames env f → EnvNames created f)
    (code : Option Nat) :
    (start env created code).Sound := by
  refine ⟨fun _ hne => ?_, trivial, by simp [start]⟩
  have hnames : EnvNames env (start env created code).state.loadedFile := by
    cases hread : env.bind (readEnvKey aliasEnvKey) with
    | none => simp [start, Status.refreshHealth, hread] at hne
    | some f => simp [EnvNames, start, Status.refreshHealth, hread]
  exact ⟨hnames, hcreated _ hnames⟩

/-- If the container at the start was created with the file of the env file, then whatever fails in between, each 200
for `f` finds `f` in the env file and in the one that the container was last created with, as long as the requests
meet `Tracked`. -/
theorem loaded_is_deployed (nameLen : Text → Nat) {env created : Option Text}
    (hcreated : ∀ f, EnvNames env f → EnvNames created f) (code : Option Nat) {actions : List Action}
    (h : Runs.Along (step nameLen) Tracked (start env created code) actions) :
    ∀ a ∈ (Runs.exec (step nameLen) (start env created code) actions).answers, a.Deployed :=
  (h.invariant Sound (fun _ _ hs ha => hs.step nameLen ha) (sound_start hcreated code)).answers

/-- Another file is loaded, and then asked for again. -/
theorem second_file_is_deployed :
    let env := some (ascii "ACVA_LLM_MODEL=a.gguf\n")
    let s := Runs.exec (step fun _ => 0) (start env env (some 200))
      [.post (.file (ascii "b.gguf")), .rewrite none, .compose true none, .poll none, .poll (some 200),
       .post (.file (ascii "b.gguf"))]
    (∀ a ∈ s.answers, a.Deployed) ∧ s.answers.map (·.env) =
      [some (ascii "ACVA_LLM_MODEL=b.gguf\n"), some (ascii "ACVA_LLM_MODEL=b.gguf\n")] :=
  ⟨loaded_is_deployed (fun _ => 0) (fun _ h => h) (some 200) (by decide +kernel), by decide +kernel⟩

/-- The load of `b.gguf` fails after its rewrite, and `a.gguf` is answered from the cache. -/
theorem cached_answer_not_deployed :
    let env := some (ascii "ACVA_LLM_MODEL=a.gguf\n")
    let s := Runs.exec (step fun _ => 0) (start env env (some 200))
      [.post (.file (ascii "b.gguf")), .rewrite none, .compose false (some (ascii "exit status 1")),
       .post (.file (ascii "a.gguf"))]
    ∃ a ∈ s.answers, a.file = ascii "a.gguf" ∧ a.env = some (ascii "ACVA_LLM_MODEL=b.gguf\n") ∧ ¬a.Deployed := by
  refine ⟨⟨ascii "a.gguf", .ok { loadedFile := ascii "a.gguf", health := .healthy },
    some (ascii "ACVA_LLM_MODEL=b.gguf\n"), some (ascii "ACVA_LLM_MODEL=a.gguf\n")⟩, by decide +kernel, rfl, rfl, ?_⟩
  intro hdeployed
  exact absurd (hdeployed _ rfl).2.1 (by decide +kernel)

end Sidecar

end ModelController

end Acva
