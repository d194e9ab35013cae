import Acva.Dialogue.ManagerSteps

/-!
# Generations

One call of `run_one` from its `LlmStarted` to its return. `Generates` says once what a step of the I/O
thread does in between, and `JobLog` records each call with what the client's callbacks were given and what
was published. The client publishes `LlmFinished` only if it got a handle from curl.
-/

namespace Acva

/-- A step of the I/O thread in the middle of a generation: the stage it leaves, the action, what it publishes
and the stage it reaches. -/
inductive Generates (cfg : ManagerConfig) : IoStage → IoAction → List Event → IoStage → Prop
  | refused {ctx : TurnContext} {lang : Text} :
    Generates cfg (.submitting ctx lang) (.curlInit false) []
      (.flushing (ManagerWorld.newGeneration cfg ctx lang) [] none)
  | opened {ctx : TurnContext} {lang : Text} :
    Generates cfg (.submitting ctx lang) (.curlInit true) [] (.performing (ManagerWorld.newGeneration cfg ctx lang))
  | received {g : Generation} {a : IoAction} {p : SseParser} {deltas : List Text} {ended : Bool} :
    Generates cfg (.performing g) a [] (.delivering { g with parser := p } deltas ended)
  | skipped {g : Generation} {d : Text} {ds : List Text} {ended : Bool} (h : g.capState = .cancelled) :
    Generates cfg (.delivering g (d :: ds) ended) .advance []
      (.delivering { g with tokensGenerated := g.tokensGenerated + 1 } ds ended)
  | pushed {g : Generation} {d : Text} {ds : List Text} {ended : Bool} (h : g.capState ≠ .cancelled) :
    Generates cfg (.delivering g (d :: ds) ended) .advance []
      (.emitting { g with tokensGenerated := g.tokensGenerated + 1, splitter := (g.splitter.push d).1 } d
        (g.splitter.push d).2 ds ended)
  | drained {g : Generation} : Generates cfg (.delivering g [] false) .advance [] (.performing g)
  | performed {g : Generation} {cancelled : Bool} :
    Generates cfg (.delivering g [] true) .advance []
      (.flushing { g with splitter := g.splitter.flush.1 } g.splitter.flush.2
      (some { turn := g.ctx.id, cancelled := cancelled, tokensGenerated := g.tokensGenerated }))
  | emitted {g : Generation} {delta s : Text} {ss deltas : List Text} {ended : Bool} :
    Generates cfg (.emitting g delta (s :: ss) deltas ended) .advance (g.emit cfg.maxAssistantSentences s).said
      (.emitting (g.emit cfg.maxAssistantSentences s).next delta
        (if (g.emit cfg.maxAssistantSentences s).cancel then [] else ss) deltas ended)
  | token {g : Generation} {delta : Text} {deltas : List Text} {ended : Bool} :
    Generates cfg (.emitting g delta [] deltas ended) .advance
      (if g.capState = .cancelled then [] else [.llmToken g.ctx.id delta]) (.delivering g deltas ended)
  | flushed {g : Generation} {s : Text} {ss : List Text} {finish : Option LlmFinished}
    (h : g.atBackstop cfg.maxAssistantSentences = false) :
    Generates cfg (.flushing g (s :: ss) finish) .advance [g.sentence s]
      (.flushing { g with seq := g.seq + 1 } ss finish)
  | stopped {g : Generation} {s : Text} {ss : List Text} {finish : Option LlmFinished}
    (h : g.atBackstop cfg.maxAssistantSentences = true) :
    Generates cfg (.flushing g (s :: ss) finish) .advance [] (.flushing g [] finish)
  | ended {g : Generation} {finish : Option LlmFinished} :
    Generates cfg (.flushing g [] finish) .advance (finish.toList.map .llmFinished) .returning

/-- The delta that the step hands to `on_token`. -/
def IoStage.delivers : IoStage → IoAction → Option Text
  | .delivering _ (d :: _) _, .advance => some d
  | _, _ => none

/-- Whether curl hands out a handle. -/
def IoStage.opens : IoStage → IoAction → Option Bool
  | .submitting _ _, .curlInit ok => some ok
  | _, _ => none

namespace ManagerWorld

variable {w : ManagerWorld}

/-- From one stage of a generation to the next one, and the events published on the way. -/
def GeneratesTo (cfg : ManagerConfig) (w : ManagerWorld) (stage : IoStage) (a : IoAction) (w' : ManagerWorld) : Prop :=
  ∃ evs, Generates cfg stage a evs w'.manager.io ∧ w'.bus = w.bus ++ evs

lemma endTransfer_generates (cfg : ManagerConfig) (contentOf : Text → Option Text) (w : ManagerWorld) (g : Generation)
    (a : IoAction) : GeneratesTo cfg w (.performing g) a (w.endTransfer contentOf g) :=
  ⟨[], .received, (List.append_nil _).symm⟩

lemma curlWrite_generates (cfg : ManagerConfig) (contentOf : Text → Option Text) (w : ManagerWorld) (g : Generation)
    (bytes : Text) (a : IoAction) : GeneratesTo cfg w (.performing g) a (w.curlWrite contentOf g bytes) := by
  by_cases hx : w.isCancelled g.ctx.token
  · rw [curlWrite, if_pos hx]
    exact endTransfer_generates cfg contentOf w g a
  · rw [curlWrite, if_neg hx]
    exact ⟨[], .received, (List.append_nil _).symm⟩

lemma deliver_generates (cfg : ManagerConfig) (w : ManagerWorld) (g : Generation) (deltas : List Text) (ended : Bool) :
    GeneratesTo cfg w (.delivering g deltas ended) .advance (w.deliver g deltas ended) := by
  cases deltas with
  | cons d ds =>
    by_cases hcap : g.capState = .cancelled
    · refine ⟨[], ?_, by simp [deliver, hcap]⟩
      simpa [deliver, hcap] using Generates.skipped hcap
    · refine ⟨[], ?_, by simp [deliver, hcap]⟩
      simpa [deliver, hcap] using Generates.pushed hcap
  | nil =>
    cases ended with
    | false => exact ⟨[], .drained, (List.append_nil _).symm⟩
    | true => exact ⟨[], .performed, (List.append_nil _).symm⟩

lemma onTokenLoop_generates (cfg : ManagerConfig) (w : ManagerWorld) (g : Generation) (delta : Text)
    (emitted deltas : List Text) (ended : Bool) :
    GeneratesTo cfg w (.emitting g delta emitted deltas ended) .advance
      (w.onTokenLoop cfg g delta emitted deltas ended) := by
  cases emitted with
  | cons s ss =>
    refine ⟨(g.emit cfg.maxAssistantSentences s).said, ?_, by simp [onTokenLoop]⟩
    simpa [onTokenLoop] using Generates.emitted
  | nil => exact ⟨_, .token, rfl⟩

lemma flushLoop_generates (cfg : ManagerConfig) (w : ManagerWorld) (g : Generation) (emitted : List Text)
    (finish : Option LlmFinished) :
    GeneratesTo cfg w (.flushing g emitted finish) .advance (w.flushLoop cfg g emitted finish) := by
  cases emitted with
  | cons s ss =>
    cases hb : g.atBackstop cfg.maxAssistantSentences with
    | true =>
      refine ⟨[], ?_, by simp [flushLoop, hb]⟩
      simpa [flushLoop, hb] using Generates.stopped hb
    | false =>
      refine ⟨[g.sentence s], ?_, by simp [flushLoop, hb]⟩
      simpa [flushLoop, hb] using Generates.flushed hb
  | nil => exact ⟨_, .ended, rfl⟩

lemma ioStep_generates (cfg : ManagerConfig) (contentOf : Text → Option Text) (a : IoAction) {c : TurnContext}
    (hc : w.manager.io.answering? = some c) :
    (w.ioStep cfg contentOf a = w ∧ w.manager.io.delivers a = none ∧ w.manager.io.opens a = none) ∨
      GeneratesTo cfg w w.manager.io a (w.ioStep cfg contentOf a) := by
  -- an action that the stage does not wait for changes nothing, and is neither a delta nor a handle
  cases hio : w.manager.io with
  | submitting ctx lang =>
    cases a with
    | curlInit ok =>
      right
      cases ok with
      | true =>
        have hstep : w.ioStep cfg contentOf (.curlInit true) = w.setIo (.performing (newGeneration cfg ctx lang)) := by
          simp [ioStep, hio]
        rw [hstep]
        exact ⟨[], .opened, (List.append_nil _).symm⟩
      | false =>
        have hstep : w.ioStep cfg contentOf (.curlInit false) = w.onFinished (newGeneration cfg ctx lang) none := by
          simp [ioStep, hio]
        rw [hstep]
        exact ⟨[], .refused, (List.append_nil _).symm⟩
    | _ => exact .inl ⟨by simp [ioStep, hio], rfl, rfl⟩
  | performing g =>
    cases a with
    | read bytes =>
      right
      simpa [ioStep, hio] using curlWrite_generates cfg contentOf w g bytes (.read bytes)
    | progress =>
      by_cases hx : w.isCancelled g.ctx.token
      · right
        simpa [ioStep, hio, hx] using endTransfer_generates cfg contentOf w g .progress
      · exact .inl ⟨by simp [ioStep, hio, hx], rfl, rfl⟩
    | transferEnd =>
      right
      simpa [ioStep, hio] using endTransfer_generates cfg contentOf w g .transferEnd
    | _ => exact .inl ⟨by simp [ioStep, hio], rfl, rfl⟩
  | delivering g deltas ended =>
    cases a with
    | advance =>
      right
      simpa [ioStep, hio] using deliver_generates cfg w g deltas ended
    | _ => exact .inl ⟨by simp [ioStep, hio], by cases deltas <;> rfl, rfl⟩
  | emitting g delta emitted deltas ended =>
    cases a with
    | advance =>
      right
      simpa [ioStep, hio] using onTokenLoop_generates cfg w g delta emitted deltas ended
    | _ => exact .inl ⟨by simp [ioStep, hio], rfl, rfl⟩
  | flushing g emitted finish =>
    cases a with
    | advance =>
      right
      simpa [ioStep, hio] using flushLoop_generates cfg w g emitted finish
    | _ => exact .inl ⟨by simp [ioStep, hio], rfl, rfl⟩
  | _ => simp [hio, IoStage.answering?] at hc

end ManagerWorld

/-! ### The record of the jobs -/

/-- A call of `run_one` that has published `LlmStarted`: whether curl gave a handle, the deltas handed to
`on_token` and the events published so far. -/
structure Job where
  turn : TurnId
  lang : Text
  handle : Bool := true
  deltas : List Text := []
  events : List Event := []
  deriving DecidableEq, Repr

/-- The record after a step of the I/O thread in the stage `io`. -/
def Job.after (j : Job) (io : IoStage) (a : IoAction) (evs : List Event) : Job :=
  { j with
    handle := (io.opens a).getD j.handle
    deltas := j.deltas ++ (io.delivers a).toList
    events := j.events ++ evs }

/-- The record when `LlmStarted` is published. -/
def Job.start (turn : TurnId) (lang : Text) : Job := { turn := turn, lang := lang, events := [.llmStarted turn] }

structure JobLog where
  world : ManagerWorld := {}
  current : Option Job := none
  finished : List Job := []
  deriving DecidableEq, Repr

namespace JobLog

variable (cfg : ManagerConfig) (contentOf : Text → Option Text)

/-- A job ends when `submit` has returned. -/
def ioStep (l : JobLog) (a : IoAction) : JobLog :=
  let world := l.world.ioStep cfg contentOf a
  let evs := world.bus.drop l.world.bus.length
  let current := match l.world.manager.io, a with
    | .adopted job ctx, .advance =>
      some { turn := ctx.id, lang := if job.lang = [] then cfg.fallbackLanguage else job.lang, events := evs }
    | io, a => l.current.map fun j => j.after io a evs
  if world.manager.io = .returning then
    { world := world, current := none, finished := l.finished ++ current.toList }
  else { l with world := world, current := current }

def step (l : JobLog) : ManagerAction → JobLog
  | .io a => l.ioStep cfg contentOf a
  | a => { l with world := l.world.step cfg contentOf a }

variable {cfg contentOf}

@[simp] lemma ioStep_world (l : JobLog) (a : IoAction) :
    (l.ioStep cfg contentOf a).world = l.world.ioStep cfg contentOf a := by
  simp only [ioStep]
  split <;> rfl

lemma generates_target {io io' : IoStage} {a : IoAction} {evs : List Event} (h : Generates cfg io a evs io') :
    (∃ c, io'.answering? = some c) ∨ io' = .returning := by
  cases h with
  | ended => exact .inr rfl
  | _ => exact .inl ⟨_, rfl⟩

lemma ioStep_between (cfg : ManagerConfig) (contentOf : Text → Option Text) {l : JobLog} (a : IoAction)
    (hidle : l.world.manager.io.answering? = none) (hnone : l.current = none) :
    let world := l.world.ioStep cfg contentOf a
    (l.ioStep cfg contentOf a = { l with world := world } ∧ world.manager.io.answering? = none ∧
      world.bus = l.world.bus) ∨
      ∃ ctx lang, l.ioStep cfg contentOf a = { l with world := world, current := some (Job.start ctx.id lang) } ∧
        world.manager.io = .submitting ctx lang ∧ world.bus = l.world.bus ++ [.llmStarted ctx.id] := by
  dsimp only
  -- a step that starts no job
  have quiet : (∀ job ctx, l.world.manager.io ≠ .adopted job ctx ∨ a ≠ .advance) →
      l.ioStep cfg contentOf a = { l with world := l.world.ioStep cfg contentOf a } := by
    intro hne
    unfold ioStep
    split
    · rename_i job ctx hst
      exact absurd rfl ((hne job ctx).resolve_left (fun hf => hf hst))
    · simp [hnone]
  cases hio : l.world.manager.io with
  | waiting =>
    refine .inl ⟨quiet fun job ctx => .inl (by simp [hio]), ?_⟩
    cases a <;> cases hp : l.world.manager.pending <;> simp [ManagerWorld.ioStep, hio, hp, IoStage.answering?]
  | taken job =>
    refine .inl ⟨quiet fun job ctx => .inl (by simp [hio]), ?_⟩
    cases a <;> simp [ManagerWorld.ioStep, hio, IoStage.answering?, ManagerWorld.chooseTurn]
  | chosen job ctx =>
    refine .inl ⟨quiet fun job ctx => .inl (by simp [hio]), ?_⟩
    cases a <;> simp [ManagerWorld.ioStep, hio, IoStage.answering?]
  | returning =>
    refine .inl ⟨quiet fun job ctx => .inl (by simp [hio]), ?_⟩
    cases a <;> simp [ManagerWorld.ioStep, hio, IoStage.answering?]
  | adopted job ctx =>
    by_cases ha : a = .advance
    · subst ha
      have hworld : l.world.ioStep cfg contentOf .advance = l.world.startGeneration cfg job ctx := by
        simp [ManagerWorld.ioStep, hio]
      refine .inr ⟨ctx, if job.lang = [] then cfg.fallbackLanguage else job.lang, ?_, ?_, ?_⟩
      · simp [ioStep, hio, hworld, ManagerWorld.startGeneration, Job.start]
      · rw [hworld]
        rfl
      · rw [hworld]
        rfl
    · refine .inl ⟨quiet fun job ctx => .inr ha, ?_⟩
      cases a with
      | advance => exact absurd rfl ha
      | _ => simp [ManagerWorld.ioStep, hio, IoStage.answering?]
  | _ => simp [hio, IoStage.answering?] at hidle

/-- In the middle of a job, a step of the I/O thread changes nothing or is one of `Generates`. -/
lemma ioStep_within (cfg : ManagerConfig) (contentOf : Text → Option Text) {l : JobLog} {j : Job} (a : IoAction)
    {c : TurnContext} (hc : l.world.manager.io.answering? = some c) (hj : l.current = some j) :
    let world := l.world.ioStep cfg contentOf a
    l.ioStep cfg contentOf a = l ∨
      ∃ evs, Generates cfg l.world.manager.io a evs world.manager.io ∧ world.bus = l.world.bus ++ evs ∧
        l.ioStep cfg contentOf a =
          if world.manager.io = .returning then
            { world := world, current := none, finished := l.finished ++ [j.after l.world.manager.io a evs] }
          else { l with world := world, current := some (j.after l.world.manager.io a evs) } := by
  dsimp only
  have hcurrent : ∀ evs, (match l.world.manager.io, a with
      | .adopted job ctx, .advance =>
        some { turn := ctx.id, lang := if job.lang = [] then cfg.fallbackLanguage else job.lang, events := evs }
      | io, a => l.current.map fun j => j.after io a evs) = some (j.after l.world.manager.io a evs) := by
    intro evs
    split
    · rename_i hio
      simp [hio, IoStage.answering?] at hc
    · rw [hj]
      rfl
  rcases ManagerWorld.ioStep_generates cfg contentOf a hc with
    ⟨hsame, hdelivers, hopens⟩ | ⟨evs, hgenerates, hbus⟩
  · left
    have hne : l.world.manager.io ≠ .returning := by
      intro hio
      simp [hio, IoStage.answering?] at hc
    have hkept : j.after l.world.manager.io a [] = j := by simp [Job.after, hdelivers, hopens]
    simp only [ioStep, hcurrent, hsame, hne, if_false]
    rw [List.drop_length, hkept, ← hj]
  · right
    have hevs : (l.world.ioStep cfg contentOf a).bus.drop l.world.bus.length = evs := by
      rw [hbus, List.drop_left]
    refine ⟨evs, hgenerates, hbus, ?_⟩
    simp only [ioStep, hcurrent, hevs]
    rfl

/-- `P` holds of the stage and the record of the job that is going on, and `E` of the finished jobs. -/
structure Recorded (P : IoStage → Job → Prop) (E : Job → Prop) (l : JobLog) : Prop where
  current : ∀ c, l.world.manager.io.answering? = some c → ∃ j, l.current = some j ∧ P l.world.manager.io j
  idle : l.world.manager.io.answering? = none → l.current = none
  finished : ∀ j ∈ l.finished, E j

section Rule

variable {P : IoStage → Job → Prop} {E : Job → Prop} {l : JobLog}

lemma Recorded.between (h : l.Recorded P E)
    (hstart : ∀ (ctx : TurnContext) (lang : Text), P (.submitting ctx lang) (Job.start ctx.id lang)) (a : IoAction)
    (hidle : l.world.manager.io.answering? = none) : (l.ioStep cfg contentOf a).Recorded P E := by
  have hnone := h.idle hidle
  rcases ioStep_between cfg contentOf a hidle hnone with ⟨hl, hio, -⟩ | ⟨ctx, lang, hl, hio, -⟩
  · rw [hl]
    refine ⟨fun c hc => ?_, fun _ => hnone, h.finished⟩
    exact absurd (hio.symm.trans hc) (by simp)
  · rw [hl]
    refine ⟨fun c _ => ⟨_, rfl, ?_⟩, fun hnone => ?_, h.finished⟩
    · simpa only [hio] using hstart ctx lang
    · simp [hio, IoStage.answering?] at hnone

lemma Recorded.within (h : l.Recorded P E)
    (hgen : ∀ {io a evs io'} (j : Job), Generates cfg io a evs io' → P io j →
      if io' = .returning then E (j.after io a evs) else P io' (j.after io a evs))
    (a : IoAction) {c : TurnContext} (hc : l.world.manager.io.answering? = some c) :
    (l.ioStep cfg contentOf a).Recorded P E := by
  obtain ⟨j, hj, hP⟩ := h.current c hc
  rcases ioStep_within cfg contentOf a hc hj with hl | ⟨evs, hgenerates, -, hl⟩
  · rw [hl]
    exact h
  · have hnext := hgen j hgenerates hP
    rcases generates_target hgenerates with ⟨c', hc'⟩ | hret
    · have hne : (l.world.ioStep cfg contentOf a).manager.io ≠ .returning := by
        intro hio
        simp [hio, IoStage.answering?] at hc'
      rw [if_neg hne] at hnext hl
      rw [hl]
      refine ⟨fun _ _ => ⟨_, rfl, hnext⟩, fun hnone => ?_, h.finished⟩
      exact absurd (hnone.symm.trans hc') (by simp)
    · rw [if_pos hret] at hnext hl
      rw [hl]
      refine ⟨fun c' hc' => ?_, fun _ => rfl, fun j' hj' => ?_⟩
      · have hio : (l.world.ioStep cfg contentOf a).manager.io.answering? = some c' := hc'
        simp [hret, IoStage.answering?] at hio
      · rcases List.mem_append.1 hj' with hj' | hj'
        · exact h.finished j' hj'
        · rw [List.mem_singleton.1 hj']
          exact hnext

lemma Recorded.step (h : l.Recorded P E)
    (hstart : ∀ (ctx : TurnContext) (lang : Text), P (.submitting ctx lang) (Job.start ctx.id lang))
    (hgen : ∀ {io a evs io'} (j : Job), Generates cfg io a evs io' → P io j →
      if io' = .returning then E (j.after io a evs) else P io' (j.after io a evs))
    (a : ManagerAction) : (l.step cfg contentOf a).Recorded P E := by
  cases a with
  | io a =>
    cases hc : l.world.manager.io.answering? with
    | none => exact h.between hstart a hc
    | some c => exact h.within hgen a hc
  | bus now gateOpen e =>
    have hio := (ManagerWorld.onEvent_effect cfg l.world now gateOpen e).1
    refine ⟨fun c hc => ?_, fun hnone => ?_, h.finished⟩
    · exact hio.symm ▸ h.current c (hio ▸ hc)
    · exact h.idle (hio ▸ hnone)
  | mint now => exact ⟨h.current, h.idle, h.finished⟩

/-- What a job starts with and its steps keep holds of the job going on in every run, and what its last step gives
holds of every finished job. -/
theorem recorded_exec
    (hstart : ∀ (ctx : TurnContext) (lang : Text), P (.submitting ctx lang) (Job.start ctx.id lang))
    (hgen : ∀ {io a evs io'} (j : Job), Generates cfg io a evs io' → P io j →
      if io' = .returning then E (j.after io a evs) else P io' (j.after io a evs))
    (actions : List ManagerAction) : (Runs.exec (step cfg contentOf) {} actions).Recorded P E := by
  refine Runs.exec_invariant (Recorded P E) (fun l a h => h.step hstart hgen a) ?_ actions
  exact ⟨fun c hc => by simp [IoStage.answering?] at hc, fun _ => rfl, by simp⟩

end Rule

end JobLog

/-! ### Closing a generation -/

/-- `LlmToken` or `LlmSentence` of the turn `t`. -/
def Event.streams (t : TurnId) : Event → Bool
  | .llmToken turn _ => turn = t
  | .llmSentence e => e.turn = t
  | _ => false

/-- `LlmFinished` of the turn `t`. -/
def Event.finishes (t : TurnId) : Event → Bool
  | .llmFinished e => e.turn = t
  | _ => false

/-- After `LlmStarted` there is one `LlmFinished` of the turn, and nothing of the turn is streamed after it. -/
def Job.Closed (j : Job) : Prop :=
  ∃ before last after, j.events = .llmStarted j.turn :: before ++ last :: after ∧ last.finishes j.turn ∧
    (∀ e ∈ before ++ after, e.finishes j.turn = false) ∧ ∀ e ∈ after, e.streams j.turn = false

/-- A job that is going on: it has only streamed, and `LlmFinished` is still to come if there is a handle. -/
structure Job.Open (io : IoStage) (j : Job) : Prop where
  turn : ∀ c, io.answering? = some c → c.id = j.turn
  events : ∃ streamed, j.events = .llmStarted j.turn :: streamed ∧ ∀ e ∈ streamed, e.streams j.turn
  handle : match io with
    | .flushing _ _ finish => finish.map (·.turn) = if j.handle then some j.turn else none
    | _ => j.handle = true

lemma Event.finishes_of_streams {t : TurnId} {e : Event} (h : e.streams t) : e.finishes t = false := by
  cases e <;> simp_all [streams, finishes]

lemma Generates.streams {cfg : ManagerConfig} {io io' : IoStage} {a : IoAction} {evs : List Event} {t : TurnId}
    (h : Generates cfg io a evs io') (hio : ∀ c, io.answering? = some c → c.id = t) (hne : io' ≠ .returning) :
    (∀ e ∈ evs, e.streams t) ∧ ∀ c, io'.answering? = some c → c.id = t := by
  cases h with
  | ended => exact absurd rfl hne
  | @emitted g delta s ss deltas ended =>
    have ht := hio g.ctx rfl
    constructor
    · intro e he
      rcases emit_said cfg.maxAssistantSentences g s with hs | hs
      · simp [hs] at he
      · rw [hs, List.mem_singleton] at he
        simp [he, Generation.sentence, Event.streams, ht]
    · intro c hc
      obtain rfl : (g.emit cfg.maxAssistantSentences s).next.ctx = c := by simpa [IoStage.answering?] using hc
      rw [emit_ctx]
      exact ht
  | @token g delta deltas ended =>
    have ht := hio g.ctx rfl
    refine ⟨fun e he => ?_, hio⟩
    by_cases hcap : g.capState = .cancelled
    · simp [hcap] at he
    · rw [if_neg hcap, List.mem_singleton] at he
      simp [he, Event.streams, ht]
  | @flushed g s ss finish hb =>
    have ht := hio g.ctx rfl
    refine ⟨fun e he => ?_, hio⟩
    rw [List.mem_singleton] at he
    simp [he, Generation.sentence, Event.streams, ht]
  | _ => exact ⟨by simp, hio⟩

namespace Job

variable {cfg : ManagerConfig} {io io' : IoStage} {a : IoAction} {evs : List Event} {j : Job}

@[simp] lemma after_turn (j : Job) (io : IoStage) (a : IoAction) (evs : List Event) :
    (j.after io a evs).turn = j.turn := rfl

lemma Open.start (ctx : TurnContext) (lang : Text) : Open (.submitting ctx lang) (Job.start ctx.id lang) := by
  refine ⟨fun c hc => ?_, ⟨[], rfl, by simp⟩, rfl⟩
  obtain rfl : ctx = c := by simpa [IoStage.answering?] using hc
  rfl

lemma Open.step (h : Open io j) (hgen : Generates cfg io a evs io') (hne : io' ≠ .returning) :
    Open io' (j.after io a evs) := by
  obtain ⟨hstreams, hturn⟩ := hgen.streams h.turn hne
  refine ⟨hturn, ?_, ?_⟩
  · obtain ⟨streamed, hevents, hstreamed⟩ := h.events
    refine ⟨streamed ++ evs, by simp [Job.after, hevents], fun e he => ?_⟩
    rcases List.mem_append.1 he with he | he
    · exact hstreamed e he
    · exact hstreams e he
  · have hhandle := h.handle
    cases hgen with
    | performed =>
      have hj : j.handle = true := hhandle
      simp [Job.after, IoStage.opens, hj, h.turn _ rfl]
    | ended => exact absurd rfl hne
    | refused => simp [Job.after, IoStage.opens]
    | opened => simp [Job.after, IoStage.opens]
    | _ => exact hhandle

/-- The last step closes the job if there was a handle, and no other step does. -/
lemma Open.last (h : Open io j) (hgen : Generates cfg io a evs .returning) :
    (j.after io a evs).Closed ↔ (j.after io a evs).handle = true := by
  cases hgen with
  | @ended g finish =>
    obtain ⟨streamed, hevents, hstreamed⟩ := h.events
    have hquiet : ∀ e ∈ streamed, e.finishes j.turn = false := fun e he => Event.finishes_of_streams (hstreamed e he)
    have hfinish : finish.map (·.turn) = if j.handle then some j.turn else none := h.handle
    cases finish with
    | some f =>
      have hj : j.handle = true := by
        by_contra hj
        simp [hj] at hfinish
      have hf : f.turn = j.turn := by simpa [hj] using hfinish
      refine ⟨fun _ => by simp [Job.after, IoStage.opens, hj], fun _ => ?_⟩
      refine ⟨streamed, .llmFinished f, [], by simp [Job.after, hevents], by simp [Event.finishes, hf], ?_, by simp⟩
      simpa using hquiet
    | none =>
      have hj : j.handle = false := by
        by_contra hj
        simp [hj] at hfinish
      refine ⟨fun hclosed => ?_, fun ht => by simp [Job.after, IoStage.opens, hj] at ht⟩
      obtain ⟨before, last, after, hsplit, hlast, -, -⟩ := hclosed
      have hmem : last ∈ streamed := by
        have heq : streamed = before ++ last :: after := by simpa [Job.after, hevents] using hsplit
        rw [heq]
        simp
      rw [after_turn, hquiet last hmem] at hlast
      exact absurd hlast (by simp)

end Job

/-! ### The jobs and the bus -/

/-- The events that `run_one` and its client publish. -/
def Event.ofLlm : Event → Bool
  | .llmStarted _ | .llmToken _ _ | .llmSentence _ | .llmFinished _ => true
  | _ => false

lemma Generates.ofLlm {cfg : ManagerConfig} {io io' : IoStage} {a : IoAction} {evs : List Event}
    (h : Generates cfg io a evs io') : evs.filter Event.ofLlm = evs := by
  apply List.filter_eq_self.2
  intro e he
  cases h with
  | @emitted g delta s ss deltas ended =>
    rcases emit_said cfg.maxAssistantSentences g s with hs | hs
    · simp [hs] at he
    · rw [hs, List.mem_singleton] at he
      rw [he]
      rfl
  | @token g delta deltas ended =>
    by_cases hcap : g.capState = .cancelled
    · simp [hcap] at he
    · rw [if_neg hcap, List.mem_singleton] at he
      rw [he]
      rfl
  | flushed =>
    rw [List.mem_singleton.1 he]
    rfl
  | ended =>
    obtain ⟨f, -, rfl⟩ := List.mem_map.1 he
    rfl
  | _ => simp at he

/-- What is left to do once the transfer is over: passes of the two callbacks' loops, then one of the loop. -/
def IoStage.work : IoStage → Nat × Nat
  | .delivering _ deltas _ => (2 * deltas.length + 1, 0)
  | .emitting _ _ emitted deltas _ => (2 * deltas.length + 2, emitted.length)
  | .flushing _ emitted _ => (0, emitted.length)
  | _ => (0, 0)

/-- `curl_easy_perform` has returned, or was never called. -/
def IoStage.isOver : IoStage → Bool
  | .delivering _ _ ended | .emitting _ _ _ _ ended => ended
  | .flushing _ _ _ => true
  | _ => false

lemma IoStage.answering_of_isOver {io : IoStage} (h : io.isOver) : ∃ c, io.answering? = some c := by
  cases io with
  | delivering | emitting | flushing => exact ⟨_, rfl⟩
  | _ => simp [isOver] at h

lemma ManagerWorld.ioStep_work (cfg : ManagerConfig) (contentOf : Text → Option Text) {w : ManagerWorld}
    (h : w.manager.io.isOver) :
    let io := (w.ioStep cfg contentOf .advance).manager.io
    io = .returning ∨ io.isOver ∧ Prod.Lex (· < ·) (· < ·) io.work w.manager.io.work := by
  cases hio : w.manager.io with
  | delivering g deltas ended =>
    obtain rfl : ended = true := by simpa [hio, IoStage.isOver] using h
    right
    cases deltas with
    | nil => exact ⟨by simp [ioStep, hio, deliver, onFinished, IoStage.isOver],
        by simp [ioStep, hio, deliver, onFinished, IoStage.work, Prod.lex_def]⟩
    | cons d ds =>
      by_cases hcap : g.capState = .cancelled <;>
        simp [ioStep, hio, deliver, hcap, IoStage.isOver, IoStage.work, Prod.lex_def]
      omega
  | emitting g delta emitted deltas ended =>
    obtain rfl : ended = true := by simpa [hio, IoStage.isOver] using h
    right
    cases emitted with
    | nil => simp [ioStep, hio, onTokenLoop, IoStage.isOver, IoStage.work, Prod.lex_def]
    | cons s ss =>
      by_cases hcancel : (g.emit cfg.maxAssistantSentences s).cancel <;>
        simp [ioStep, hio, onTokenLoop, hcancel, IoStage.isOver, IoStage.work, Prod.lex_def]
  | flushing g emitted finish =>
    cases emitted with
    | nil => exact .inl (by simp [ioStep, hio, flushLoop])
    | cons s ss =>
      right
      by_cases hb : g.atBackstop cfg.maxAssistantSentences <;>
        simp [ioStep, hio, flushLoop, hb, IoStage.isOver, IoStage.work, Prod.lex_def]
  | _ => simp [hio, IoStage.isOver] at h

namespace JobLog

variable {cfg : ManagerConfig} {contentOf : Text → Option Text} {l : JobLog}

/-- The jobs that have published `LlmStarted`, in order. -/
def jobs (l : JobLog) : List Job := l.finished ++ l.current.toList

/-- What the manager and its client have published is what the jobs have, one after the other. -/
def Accounted (l : JobLog) : Prop := l.world.bus.filter Event.ofLlm = l.jobs.flatMap Job.events

/-- Some job is recorded exactly while an answer is generated. -/
abbrev Tracked (l : JobLog) : Prop := l.Recorded (fun _ _ => True) (fun _ => True)

lemma Tracked.step (h : l.Tracked) (a : ManagerAction) : (l.step cfg contentOf a).Tracked :=
  Recorded.step h (fun _ _ => trivial) (fun _ _ _ => by split <;> trivial) a

lemma Accounted.ioStep (h : l.Accounted) (htracked : l.Tracked) (a : IoAction) :
    (l.ioStep cfg contentOf a).Accounted := by
  cases hc : l.world.manager.io.answering? with
  | none =>
    have hnone := htracked.idle hc
    have hjobs : l.world.bus.filter Event.ofLlm = l.finished.flatMap Job.events := by
      simpa [Accounted, jobs, hnone] using h
    rcases ioStep_between cfg contentOf a hc hnone with ⟨hl, -, hbus⟩ | ⟨ctx, lang, hl, -, hbus⟩
    · rw [hl]
      simpa [Accounted, jobs, hnone, hbus] using hjobs
    · rw [hl]
      simp [Accounted, jobs, hbus, hjobs, Job.start, Event.ofLlm]
  | some c =>
    obtain ⟨j, hj, -⟩ := htracked.current c hc
    have hjobs : l.world.bus.filter Event.ofLlm = l.finished.flatMap Job.events ++ j.events := by
      simpa [Accounted, jobs, hj] using h
    rcases ioStep_within cfg contentOf a hc hj with hl | ⟨evs, hgenerates, hbus, hl⟩
    · rw [hl]
      exact h
    · rw [hl]
      split
      · simp [Accounted, jobs, hbus, hjobs, hgenerates.ofLlm, Job.after]
      · simp [Accounted, jobs, hbus, hjobs, hgenerates.ofLlm, Job.after]

lemma Accounted.step (h : l.Accounted) (htracked : l.Tracked) (a : ManagerAction) :
    (l.step cfg contentOf a).Accounted := by
  cases a with
  | io a => exact h.ioStep htracked a
  | bus now gateOpen e =>
    obtain ⟨-, -, -, evs, hbus, hevs⟩ := ManagerWorld.onEvent_effect cfg l.world now gateOpen e
    have hquiet : evs.filter Event.ofLlm = [] := by
      apply List.filter_eq_nil_iff.2
      intro x hx
      obtain ⟨u, rfl⟩ := hevs x hx
      simp [Event.ofLlm]
    have hsame : (l.world.onEvent cfg now gateOpen e).bus.filter Event.ofLlm = l.world.bus.filter Event.ofLlm := by
      rw [hbus, List.filter_append, hquiet, List.append_nil]
    exact hsame.trans h
  | mint now => exact h

lemma accounted_exec (cfg : ManagerConfig) (contentOf : Text → Option Text) (actions : List ManagerAction) :
    (Runs.exec (step cfg contentOf) {} actions).Accounted ∧ (Runs.exec (step cfg contentOf) {} actions).Tracked := by
  refine Runs.exec_invariant (fun l : JobLog => l.Accounted ∧ l.Tracked) (fun l a h => ?_) ?_ actions
  · exact ⟨h.1.step h.2 a, h.2.step a⟩
  · exact ⟨rfl, fun c hc => by simp [IoStage.answering?] at hc, fun _ => rfl, by simp⟩

lemma finishes (htracked : l.Tracked) (hover : l.world.manager.io.isOver) :
    ∃ n j, (Runs.exec (step cfg contentOf) l (List.replicate n (.io .advance))).finished = l.finished ++ [j] := by
  have hwf : WellFounded (Prod.Lex (· < ·) (· < ·) : Nat × Nat → Nat × Nat → Prop) :=
    (Prod.lex Nat.lt_wfRel Nat.lt_wfRel).wf
  induction hk : l.world.manager.io.work using hwf.induction generalizing l with
  | h k ih =>
    obtain ⟨c, hc⟩ := IoStage.answering_of_isOver hover
    obtain ⟨j, hj, -⟩ := htracked.current c hc
    have hwork := ManagerWorld.ioStep_work cfg contentOf hover
    rcases ioStep_within cfg contentOf .advance hc hj with hl | ⟨evs, -, -, hl⟩
    · -- an `advance` always moves on
      rw [← ioStep_world, hl] at hwork
      rcases hwork with hio | ⟨-, hless⟩
      · simp [hio, IoStage.isOver] at hover
      · simp [Prod.lex_def] at hless
    · rcases hwork with hret | ⟨hover', hless⟩
      · rw [if_pos hret] at hl
        exact ⟨1, j.after l.world.manager.io .advance evs, congrArg JobLog.finished hl⟩
      · have hne : (l.world.ioStep cfg contentOf .advance).manager.io ≠ .returning := by
          intro hio
          simp [hio, IoStage.isOver] at hover'
        rw [if_neg hne] at hl
        have hfinished : (l.ioStep cfg contentOf .advance).finished = l.finished := by rw [hl]
        rw [← ioStep_world] at hless hover'
        obtain ⟨n, j', hn⟩ := ih _ (hk ▸ hless) (l := l.ioStep cfg contentOf .advance)
          (htracked.step (.io .advance)) hover' rfl
        refine ⟨n + 1, j', ?_⟩
        rw [← hfinished, ← hn]
        rfl

/-- Every job that returns has published one `LlmFinished`, as its last event of the turn, exactly if curl gave it
a handle; a job whose transfer is over does return; and the jobs account for all that is published. -/
theorem generation_closed_iff (cfg : ManagerConfig) (contentOf : Text → Option Text) (actions : List ManagerAction) :
    let l := Runs.exec (step cfg contentOf) {} actions
    l.Accounted ∧ (∀ j ∈ l.finished, j.Closed ↔ j.handle = true) ∧
      (l.world.manager.io.isOver →
        ∃ n j, (Runs.exec (step cfg contentOf) l (List.replicate n (.io .advance))).finished = l.finished ++ [j]) := by
  obtain ⟨haccounted, htracked⟩ := accounted_exec cfg contentOf actions
  have hrecorded : (Runs.exec (step cfg contentOf) {} actions).Recorded Job.Open
      fun j => j.Closed ↔ j.handle = true := by
    refine recorded_exec Job.Open.start (fun {io a evs io'} j hgen hopen => ?_) actions
    split
    · rename_i hret
      subst hret
      exact hopen.last hgen
    · rename_i hne
      exact hopen.step hgen hne
  exact ⟨haccounted, hrecorded.finished, finishes htracked⟩

/-- Without a handle `submit` reports to its callback and returns, and the bus never hears that turn 5 has ended. -/
theorem no_handle_never_closed :
    let l := Runs.exec (step {} fun _ => none) {}
      [.bus 0 true (.finalTranscript { turn := 5, text := ascii "hello" }), .io .advance, .io (.choose 5 0),
        .io .advance,
       .io .advance, .io (.curlInit false), .io .advance, .io .advance]
    l.world.bus = [.llmStarted 5] ∧ l.world.manager.io = .waiting ∧ ∃ j ∈ l.finished, j.turn = 5 ∧ ¬j.Closed := by
  refine ⟨by decide, by decide, { turn := 5, lang := ascii "en", handle := false, events := [.llmStarted 5] }, ?_⟩
  refine ⟨by decide, rfl, ?_⟩
  rintro ⟨before, last, after, hsplit, -, -⟩
  simp at hsplit

end JobLog

end Acva
