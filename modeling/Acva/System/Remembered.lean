import Acva.Dialogue.ManagerSteps
import Acva.Dialogue.TurnWriter

/-!
# Remembering an answer

One job of the manager's I/O thread, from the moment its turn is active to the return of `submit`,
in any run in which nothing cancels the turn; and the writer, which handles what was published in that
order, between any other events. The sentence cap cancels the job's own token, and the writer takes
the answer for an interrupted one.
-/

namespace Acva

/-- The generation events of turn `t`. -/
def Event.generates (t : TurnId) : Event → Bool
  | .llmStarted turn => turn = t
  | .llmSentence e => e.turn = t
  | .llmFinished e => e.turn = t
  | _ => false

def generated (t : TurnId) (es : List Event) : List Event := es.filter (Event.generates t)

/-- The sentences of an answer, numbered from `k` in 32 bits. -/
def sentencesFrom (t : TurnId) (lang : Text) (k : Nat) : List Text → List Event
  | [] => []
  | s :: ss =>
    .llmSentence { turn := t, seq := UInt32.ofNat k, text := s, lang := lang } :: sentencesFrom t lang (k + 1) ss

/-- The texts of the sentences among the events. -/
def sentenceTexts (es : List Event) : List Text :=
  es.filterMap fun e => match e with
    | .llmSentence e => some e.text
    | _ => none

namespace ManagerWorld

/-- The step does not lose the answer: curl hands out a handle, and `on_token` publishes a sentence only
while fewer than the cap have been published. -/
def KeepsAnswer (cfg : ManagerConfig) (w : ManagerWorld) (a : ManagerAction) : Prop :=
  match w.manager.io, a with
  | .submitting _ _, .io (.curlInit ok) => ok = true
  | .emitting g _ (_ :: _) _ _, .io .advance =>
    cfg.maxAssistantSentences = 0 ∨ g.seq < cfg.maxAssistantSentences
  | _, _ => True

instance (cfg : ManagerConfig) (w : ManagerWorld) (a : ManagerAction) : Decidable (w.KeepsAnswer cfg a) := by
  unfold KeepsAnswer
  split <;> infer_instance

/-- The step is taken during the job and does not cancel turn `t`. -/
def Undisturbed (t : TurnId) (w : ManagerWorld) (a : ManagerAction) : Prop :=
  w.manager.io ≠ .returning ∧ ∀ u ∈ a.cancelled, u ≠ t ∧ u ≠ kNoTurn

instance (t : TurnId) (w : ManagerWorld) (a : ManagerAction) : Decidable (w.Undisturbed t a) := by
  unfold Undisturbed
  infer_instance

/-- The I/O thread has just made `ctx` the active turn. -/
structure Adopted (ctx : TurnContext) (w : ManagerWorld) : Prop where
  stage : ∃ job, w.manager.io = .adopted job ctx
  active : w.manager.active = ctx
  token : ctx.token.isSome
  live : w.isCancelled ctx.token = false

/-! ### The job -/

/-- Where the cap machine is while the answer is kept whole, and once it has cancelled the stream. -/
def CapPhase (cap : UInt32) (ok cancelled : Prop) (g : Generation) : Prop :=
  (ok ∧ ¬cancelled ∧
    (g.capState = .none ∧ (cap = 0 ∨ g.seq < cap) ∨ g.capState = .pending ∧ cap ≠ 0 ∧ g.seq = cap)) ∨
  (¬ok ∧ cancelled ∧ g.capState = .cancelled)

/-- The events of a job whose generation has published `texts`. -/
structure Said (c : TurnContext) (g : Generation) (evs : List Event) (texts : List Text) : Prop where
  ctx : g.ctx = c
  events : generated c.id evs = .llmStarted c.id :: sentencesFrom c.id g.lang 0 texts
  nonempty : ∀ s ∈ texts, s ≠ []
  seq : g.seq = UInt32.ofNat texts.length

/-- `LlmFinished` is published for a job that got a handle, uncancelled if the answer was kept. -/
def Finishes (c : TurnContext) (ok : Prop) : Option LlmFinished → Prop
  | some f => f.turn = c.id ∧ (f.cancelled = false ↔ ok)
  | none => ¬ok

/-- What the job has published at each stage; `ok` says that every step so far kept the answer. -/
def JobStage (cap : UInt32) (c : TurnContext) (ok cancelled : Prop) (evs : List Event) : IoStage → Prop
  | .adopted _ ctx => ctx = c ∧ ok ∧ ¬cancelled ∧ generated c.id evs = []
  | .submitting ctx _ => ctx = c ∧ ok ∧ ¬cancelled ∧ generated c.id evs = [.llmStarted c.id]
  | .performing g | .delivering g _ _ => (∃ texts, Said c g evs texts) ∧ CapPhase cap ok cancelled g
  | .emitting g _ emitted _ _ => (∃ texts, Said c g evs texts) ∧ CapPhase cap ok cancelled g ∧
      (∀ s ∈ emitted, s ≠ []) ∧ (¬ok → emitted = [])
  | .flushing g emitted finish => (∃ texts, Said c g evs texts) ∧ (∀ s ∈ emitted, s ≠ []) ∧ Finishes c ok finish
  | .returning => ∃ texts lang finish, generated c.id evs =
      .llmStarted c.id :: sentencesFrom c.id lang 0 texts ++ finish.toList.map .llmFinished ∧
      (∀ s ∈ texts, s ≠ []) ∧ Finishes c ok finish
  | _ => False

structure JobInv (cfg : ManagerConfig) (c : TurnContext) (bus : List Event) (ok : Prop) (w : ManagerWorld) :
    Prop where
  active : w.manager.active = c
  token : c.token.isSome
  stage : ∃ evs, w.bus = bus ++ evs ∧
    JobStage cfg.maxAssistantSentences c ok (w.isCancelled c.token) evs w.manager.io

section Job

variable {cfg : ManagerConfig} {contentOf : Text → Option Text} {w : ManagerWorld} {c : TurnContext}
  {bus evs : List Event} {ok cancelled : Prop} {g : Generation} {texts : List Text}

@[simp] lemma generated_append (t : TurnId) (as bs : List Event) :
    generated t (as ++ bs) = generated t as ++ generated t bs := List.filter_append ..

lemma sentencesFrom_concat (t : TurnId) (lang : Text) (k : Nat) (texts : List Text) (s : Text) :
    sentencesFrom t lang k (texts ++ [s]) = sentencesFrom t lang k texts ++
      [.llmSentence { turn := t, seq := UInt32.ofNat (k + texts.length), text := s, lang := lang }] := by
  induction texts generalizing k with
  | nil => rfl
  | cons x xs ih => simp [sentencesFrom, ih, Nat.add_assoc, Nat.add_comm 1]

lemma Said.sentence (h : Said c g evs texts) {s : Text} (hs : s ≠ []) (g' : Generation)
    (hctx : g'.ctx = g.ctx) (hlang : g'.lang = g.lang) (hseq : g'.seq = g.seq + 1) :
    Said c g' (evs ++ [g.sentence s]) (texts ++ [s]) := by
  refine ⟨hctx.trans h.ctx, ?_, ?_, ?_⟩
  · have hev : generated c.id [g.sentence s] =
        [.llmSentence { turn := c.id, seq := UInt32.ofNat texts.length, text := s, lang := g.lang }] := by
      simp [generated, Event.generates, Generation.sentence, h.ctx, h.seq]
    rw [generated_append, h.events, hev, hlang, sentencesFrom_concat, Nat.zero_add]
    rfl
  · intro x hx
    rcases List.mem_append.1 hx with hx | hx
    · exact h.nonempty x hx
    · rw [List.mem_singleton.1 hx]
      exact hs
  · rw [hseq, h.seq, List.length_append, List.length_singleton]
    exact (UInt32.ofNat_add _ 1).symm

/-- Steps that touch neither the numbering nor the cap keep the account of a generation. -/
lemma Said.congr (h : Said c g evs texts) (g' : Generation) (hctx : g'.ctx = g.ctx) (hlang : g'.lang = g.lang)
    (hseq : g'.seq = g.seq) : Said c g' evs texts :=
  ⟨hctx.trans h.ctx, by rw [hlang]; exact h.events, h.nonempty, hseq.trans h.seq⟩

lemma CapPhase.emit {cap : UInt32} (hok : ok) (hlive : ¬cancelled) (h : cap = 0 ∨ g.seq < cap) :
    CapPhase cap ok cancelled { g with
      seq := g.seq + 1, capState := if cap ≠ 0 ∧ g.seq + 1 = cap then .pending else .none } := by
  refine .inl ⟨hok, hlive, ?_⟩
  by_cases hlast : cap ≠ 0 ∧ g.seq + 1 = cap
  · exact .inr ⟨if_pos hlast, hlast⟩
  · refine .inl ⟨if_neg hlast, ?_⟩
    by_cases hzero : cap = 0
    · exact .inl hzero
    · refine .inr (UInt32.lt_of_le_of_ne (Generation.next_le_of_lt (h.resolve_left hzero)) fun heq => ?_)
      exact hlast ⟨hzero, heq⟩

lemma CapPhase.congr {cap : UInt32} (h : CapPhase cap ok cancelled g) (g' : Generation)
    (hseq : g'.seq = g.seq) (hstate : g'.capState = g.capState) : CapPhase cap ok cancelled g' := by
  rw [CapPhase, hseq, hstate]
  exact h

lemma newGeneration_said (cfg : ManagerConfig) (lang : Text) (h : generated c.id evs = [.llmStarted c.id]) :
    Said c (newGeneration cfg c lang) evs [] :=
  ⟨rfl, h, by simp, rfl⟩

lemma newGeneration_phase (lang : Text) (cap : UInt32) (hok : ok) (hlive : ¬cancelled) :
    CapPhase cap ok cancelled (newGeneration cfg c lang) := by
  refine .inl ⟨hok, hlive, .inl ⟨rfl, ?_⟩⟩
  by_cases hzero : cap = 0
  · exact .inl hzero
  · exact .inr (UInt32.pos_iff_ne_zero.2 hzero)

/-- `on_finished` of a job that got a handle. -/
lemma JobStage.onFinished {f : LlmFinished} (hsaid : Said c g evs texts) (hturn : f.turn = c.id)
    (hf : f.cancelled = false ↔ ok) (cap : UInt32) :
    JobStage cap c ok cancelled evs (w.onFinished g (some f)).manager.io :=
  ⟨⟨texts, hsaid.congr _ rfl rfl rfl⟩, fun _ hs => SentenceSplitter.flush_nonempty hs, hturn, hf⟩

lemma JobInv.same {b : IoAction} (h : JobInv cfg c bus ok w) (hkeep : w.KeepsAnswer cfg (.io b))
    (hw : w.ioStep cfg contentOf b = w) :
    JobInv cfg c bus (ok ∧ w.KeepsAnswer cfg (.io b)) (w.ioStep cfg contentOf b) := by
  have hok : (ok ∧ w.KeepsAnswer cfg (.io b)) = ok := by simp [hkeep]
  rw [hok, hw]
  exact h

lemma JobInv.adopted {b : IoAction} {job : FinalTranscript} {ctx : TurnContext} (h : JobInv cfg c bus ok w)
    (hio : w.manager.io = .adopted job ctx) :
    JobInv cfg c bus (ok ∧ w.KeepsAnswer cfg (.io b)) (w.ioStep cfg contentOf b) := by
  have hkeep : w.KeepsAnswer cfg (.io b) := by cases b <;> simp [KeepsAnswer, hio]
  cases b with
  | advance =>
    obtain ⟨evs, hbus, hstage⟩ := h.stage
    rw [hio] at hstage
    obtain ⟨rfl, hok, hlive, hgen⟩ := hstage
    have hgen' : generated ctx.id (evs ++ [.llmStarted ctx.id]) = [.llmStarted ctx.id] := by
      rw [generated_append, hgen]
      simp [generated, Event.generates]
    simp only [ioStep, hio]
    exact ⟨h.active, h.token, _, by simp [startGeneration, hbus], rfl, ⟨hok, hkeep⟩, hlive, hgen'⟩
  | _ => exact h.same hkeep (by simp [ioStep, hio])

lemma JobInv.submitting {b : IoAction} {ctx : TurnContext} {lang : Text} (h : JobInv cfg c bus ok w)
    (hio : w.manager.io = .submitting ctx lang) :
    JobInv cfg c bus (ok ∧ w.KeepsAnswer cfg (.io b)) (w.ioStep cfg contentOf b) := by
  cases b with
  | curlInit got =>
    obtain ⟨evs, hbus, hstage⟩ := h.stage
    rw [hio] at hstage
    obtain ⟨rfl, hok, hlive, hgen⟩ := hstage
    have hkeep : w.KeepsAnswer cfg (.io (.curlInit got)) ↔ got = true := by simp [KeepsAnswer, hio]
    have hsaid := newGeneration_said cfg lang hgen
    simp only [ioStep, hio]
    cases got with
    | true =>
      exact ⟨h.active, h.token, evs, hbus, ⟨[], hsaid⟩, newGeneration_phase lang _ ⟨hok, hkeep.2 rfl⟩ hlive⟩
    | false =>
      refine ⟨h.active, h.token, evs, hbus, ⟨[], hsaid.congr _ rfl rfl rfl⟩,
        fun _ hs => SentenceSplitter.flush_nonempty hs, fun hk => ?_⟩
      exact absurd (hkeep.1 hk.2) (by simp)
  | _ => exact h.same (by simp [KeepsAnswer, hio]) (by simp [ioStep, hio])

lemma JobInv.performing {b : IoAction} (h : JobInv cfg c bus ok w) (hio : w.manager.io = .performing g) :
    JobInv cfg c bus (ok ∧ w.KeepsAnswer cfg (.io b)) (w.ioStep cfg contentOf b) := by
  have hkeep : w.KeepsAnswer cfg (.io b) := by cases b <;> simp [KeepsAnswer, hio]
  have hok : (ok ∧ w.KeepsAnswer cfg (.io b)) = ok := by simp [hkeep]
  obtain ⟨evs, hbus, hstage⟩ := h.stage
  rw [hio] at hstage
  obtain ⟨⟨texts, hsaid⟩, hphase⟩ := hstage
  have hmove : ∀ (parser : SseParser) (deltas : List Text) (ended : Bool),
      JobInv cfg c bus ok (w.setIo (.delivering { g with parser := parser } deltas ended)) :=
    fun _ _ _ => ⟨h.active, h.token, evs, hbus, ⟨texts, hsaid.congr _ rfl rfl rfl⟩, hphase.congr _ rfl rfl⟩
  cases b with
  | read bytes =>
    rw [hok]
    simp only [ioStep, hio, curlWrite]
    split
    · exact hmove _ _ _
    · exact hmove _ _ _
  | progress =>
    by_cases hx : w.isCancelled g.ctx.token
    · rw [hok]
      simp only [ioStep, hio, hx, if_true]
      exact hmove _ _ _
    · exact h.same hkeep (by simp [ioStep, hio, hx])
  | transferEnd =>
    rw [hok]
    simp only [ioStep, hio]
    exact hmove _ _ _
  | _ => exact h.same hkeep (by simp [ioStep, hio])

lemma JobInv.delivering {b : IoAction} {deltas : List Text} {ended : Bool} (h : JobInv cfg c bus ok w)
    (hio : w.manager.io = .delivering g deltas ended) :
    JobInv cfg c bus (ok ∧ w.KeepsAnswer cfg (.io b)) (w.ioStep cfg contentOf b) := by
  have hkeep : w.KeepsAnswer cfg (.io b) := by cases b <;> simp [KeepsAnswer, hio]
  cases b with
  | advance =>
    have hok : (ok ∧ w.KeepsAnswer cfg (.io .advance)) = ok := by simp [hkeep]
    obtain ⟨evs, hbus, hstage⟩ := h.stage
    rw [hio] at hstage
    obtain ⟨⟨texts, hsaid⟩, hphase⟩ := hstage
    rw [hok]
    simp only [ioStep, hio]
    cases deltas with
    | cons d ds =>
      simp only [deliver]
      split
      · exact ⟨h.active, h.token, evs, hbus, ⟨texts, hsaid.congr _ rfl rfl rfl⟩, hphase.congr _ rfl rfl⟩
      · rename_i hcap
        refine ⟨h.active, h.token, evs, hbus, ⟨texts, hsaid.congr _ rfl rfl rfl⟩, hphase.congr _ rfl rfl,
          fun _ hs => SentenceSplitter.push_nonempty hs, fun hnot => ?_⟩
        rcases hphase with hphase | hphase
        · exact absurd hphase.1 hnot
        · exact absurd hphase.2.2 hcap
    | nil =>
      cases ended with
      | false => exact ⟨h.active, h.token, evs, hbus, ⟨texts, hsaid⟩, hphase⟩
      | true =>
        refine ⟨h.active, h.token, evs, hbus, ?_⟩
        refine JobStage.onFinished hsaid (congrArg TurnContext.id hsaid.ctx) ?_ _
        simp only [hsaid.ctx]
        rcases hphase with hphase | hphase
        · simp [hphase.1, hphase.2.1]
        · simp [hphase.1, hphase.2.1]
  | _ => exact h.same hkeep (by simp [ioStep, hio])

lemma isCancelled_cancelToken (w : ManagerWorld) {token : Option TokenRef} (h : token.isSome) :
    (w.cancelToken token).isCancelled token = true := by
  obtain ⟨r, rfl⟩ := Option.isSome_iff_exists.1 h
  simp [cancelToken, isCancelled, TurnFactory.cancel]

/-- The next sentence of `on_token`. -/
lemma JobInv.emit {s delta : Text} {ss deltas : List Text} {ended : Bool} (h : JobInv cfg c bus ok w)
    (hio : w.manager.io = .emitting g delta (s :: ss) deltas ended) :
    JobInv cfg c bus (ok ∧ w.KeepsAnswer cfg (.io .advance)) (w.ioStep cfg contentOf .advance) := by
  obtain ⟨evs, hbus, hstage⟩ := h.stage
  rw [hio] at hstage
  obtain ⟨⟨texts, hsaid⟩, hphase, hne, hnil⟩ := hstage
  have hkeep : w.KeepsAnswer cfg (.io .advance) ↔
      cfg.maxAssistantSentences = 0 ∨ g.seq < cfg.maxAssistantSentences := by simp [KeepsAnswer, hio]
  have hs : s ≠ [] := hne s List.mem_cons_self
  rcases hphase with ⟨hok, hlive, ⟨hstate, hcap⟩ | ⟨hstate, hzero, hcap⟩⟩ | ⟨hnot, _⟩
  · have hemit := Generation.emit_below s hstate hcap
    have hstep : w.ioStep cfg contentOf .advance = (w.publish [g.sentence s]).setIo
        (.emitting (g.emit cfg.maxAssistantSentences s).next delta ss deltas ended) := by
      simp [ioStep, hio, onTokenLoop, hemit, cancelToken]
    have hkept : ok ∧ w.KeepsAnswer cfg (.io .advance) := ⟨hok, hkeep.2 hcap⟩
    rw [hstep, hemit]
    refine ⟨h.active, h.token, evs ++ [g.sentence s], by simp [hbus], ⟨_, hsaid.sentence hs _ rfl rfl rfl⟩,
      .emit hkept hlive hcap, fun x hx => hne x (List.mem_cons_of_mem _ hx), fun hnk => absurd hkept hnk⟩
  · have hemit := Generation.emit_at_cap s hstate hcap
    have hlost : ¬(ok ∧ w.KeepsAnswer cfg (.io .advance)) := by
      rw [hkeep]
      rintro ⟨_, hz | hlt⟩
      · exact hzero hz
      · rw [hcap] at hlt
        exact UInt32.lt_irrefl _ hlt
    have hstep : w.ioStep cfg contentOf .advance = ((w.publish [g.sentence s]).cancelToken c.token).setIo
        (.emitting (g.emit cfg.maxAssistantSentences s).next delta [] deltas ended) := by
      simp [ioStep, hio, onTokenLoop, hemit, hsaid.ctx]
    rw [hstep, hemit]
    refine ⟨by simpa using h.active, h.token, evs ++ [g.sentence s], by simp [hbus],
      ⟨_, hsaid.sentence hs _ rfl rfl rfl⟩, .inr ⟨hlost, ?_, rfl⟩, by simp, fun _ => rfl⟩
    exact isCancelled_cancelToken _ h.token
  · exact absurd (hnil hnot) (by simp)

lemma JobInv.emitting {b : IoAction} {delta : Text} {emitted deltas : List Text} {ended : Bool}
    (h : JobInv cfg c bus ok w) (hio : w.manager.io = .emitting g delta emitted deltas ended) :
    JobInv cfg c bus (ok ∧ w.KeepsAnswer cfg (.io b)) (w.ioStep cfg contentOf b) := by
  cases b with
  | advance =>
    cases emitted with
    | cons s ss => exact h.emit hio
    | nil =>
      have hkeep : w.KeepsAnswer cfg (.io .advance) := by simp [KeepsAnswer, hio]
      have hok : (ok ∧ w.KeepsAnswer cfg (.io .advance)) = ok := by simp [hkeep]
      obtain ⟨evs, hbus, hstage⟩ := h.stage
      rw [hio] at hstage
      obtain ⟨⟨texts, hsaid⟩, hphase, _⟩ := hstage
      rw [hok]
      simp only [ioStep, hio, onTokenLoop]
      refine ⟨h.active, h.token, evs ++ if g.capState = .cancelled then [] else [.llmToken g.ctx.id delta], ?_,
        ⟨texts, hsaid.ctx, ?_, hsaid.nonempty, hsaid.seq⟩, hphase⟩
      · simp [hbus]
      · rw [generated_append, hsaid.events]
        split <;> simp [generated, Event.generates]
  | _ => exact h.same (by cases emitted <;> simp [KeepsAnswer, hio]) (by simp [ioStep, hio])

lemma JobInv.flushing {b : IoAction} {emitted : List Text} {finish : Option LlmFinished}
    (h : JobInv cfg c bus ok w) (hio : w.manager.io = .flushing g emitted finish) :
    JobInv cfg c bus (ok ∧ w.KeepsAnswer cfg (.io b)) (w.ioStep cfg contentOf b) := by
  have hkeep : w.KeepsAnswer cfg (.io b) := by cases b <;> simp [KeepsAnswer, hio]
  cases b with
  | advance =>
    have hok : (ok ∧ w.KeepsAnswer cfg (.io .advance)) = ok := by simp [hkeep]
    obtain ⟨evs, hbus, hstage⟩ := h.stage
    rw [hio] at hstage
    obtain ⟨⟨texts, hsaid⟩, hne, hfin⟩ := hstage
    rw [hok]
    simp only [ioStep, hio]
    cases emitted with
    | cons s ss =>
      simp only [flushLoop]
      split
      · exact ⟨h.active, h.token, evs, hbus, ⟨texts, hsaid⟩, by simp, hfin⟩
      · exact ⟨h.active, h.token, evs ++ [g.sentence s], by simp [hbus],
          ⟨_, hsaid.sentence (hne s List.mem_cons_self) _ rfl rfl rfl⟩,
          fun x hx => hne x (List.mem_cons_of_mem _ hx), hfin⟩
    | nil =>
      refine ⟨h.active, h.token, evs ++ finish.toList.map .llmFinished, by simp [flushLoop, hbus],
        texts, g.lang, finish, ?_, hsaid.nonempty, hfin⟩
      rw [generated_append, hsaid.events]
      congr 1
      cases finish with
      | none => rfl
      | some f => simp [generated, Event.generates, hfin.1]
  | _ => exact h.same hkeep (by simp [ioStep, hio])

lemma JobInv.io (h : JobInv cfg c bus ok w) (b : IoAction) (hrun : w.manager.io ≠ .returning) :
    JobInv cfg c bus (ok ∧ w.KeepsAnswer cfg (.io b)) (w.ioStep cfg contentOf b) := by
  obtain ⟨evs, _, hstage⟩ := h.stage
  cases hio : w.manager.io with
  | waiting => rw [hio] at hstage; exact hstage.elim
  | taken job => rw [hio] at hstage; exact hstage.elim
  | chosen job ctx => rw [hio] at hstage; exact hstage.elim
  | adopted job ctx => exact h.adopted hio
  | submitting ctx lang => exact h.submitting hio
  | performing g => exact h.performing hio
  | delivering g deltas ended => exact h.delivering hio
  | emitting g delta emitted deltas ended => exact h.emitting hio
  | flushing g emitted finish => exact h.flushing hio
  | returning => exact absurd hio hrun

lemma JobStage.congr {cap : UInt32} {evs' : List Event} {io : IoStage} (h : JobStage cap c ok cancelled evs io)
    (hgen : generated c.id evs' = generated c.id evs) : JobStage cap c ok cancelled evs' io := by
  have hsaid : ∀ {g texts}, Said c g evs texts → Said c g evs' texts := fun hs =>
    ⟨hs.ctx, hgen.trans hs.events, hs.nonempty, hs.seq⟩
  cases io with
  | adopted job ctx => exact ⟨h.1, h.2.1, h.2.2.1, hgen.trans h.2.2.2⟩
  | submitting ctx lang => exact ⟨h.1, h.2.1, h.2.2.1, hgen.trans h.2.2.2⟩
  | performing g => exact ⟨h.1.imp fun _ => hsaid, h.2⟩
  | delivering g deltas ended => exact ⟨h.1.imp fun _ => hsaid, h.2⟩
  | emitting g delta emitted deltas ended => exact ⟨h.1.imp fun _ => hsaid, h.2⟩
  | flushing g emitted finish => exact ⟨h.1.imp fun _ => hsaid, h.2⟩
  | returning =>
    obtain ⟨texts, lang, finish, hevs, hrest⟩ := h
    exact ⟨texts, lang, finish, hgen.trans hevs, hrest⟩
  | _ => exact h

/-- The bus thread leaves the job alone unless it cancels its turn. -/
lemma onEvent_undisturbed (cfg : ManagerConfig) (now : Time) (gateOpen : Bool) (e : Event)
    (h : ∀ u ∈ (ManagerAction.bus now gateOpen e).cancelled, u ≠ w.manager.active.id ∧ u ≠ kNoTurn) :
    (w.onEvent cfg now gateOpen e).turns = w.turns := by
  have hcancel : ∀ u, u ≠ w.manager.active.id ∧ u ≠ kNoTurn → w.cancelActive u = w := by
    rintro u ⟨hne, hzero⟩
    simp [cancelActive, hne, hzero]
  cases e with
  | finalTranscript f =>
    simp only [onEvent]
    split
    · rfl
    · split <;> rfl
  | userInterrupted u => exact congrArg turns (hcancel u.turn (h _ rfl))
  | cancelGeneration t => exact congrArg turns (hcancel t (h _ rfl))
  | _ => rfl

lemma JobInv.step (h : JobInv cfg c bus ok w) (a : ManagerAction) (ha : w.Undisturbed c.id a) :
    JobInv cfg c bus (ok ∧ w.KeepsAnswer cfg a) (w.step cfg contentOf a) := by
  have hother : (∀ b, a ≠ .io b) → (ok ∧ w.KeepsAnswer cfg a) = ok := by
    intro hb
    have hkeep : w.KeepsAnswer cfg a := by
      unfold KeepsAnswer
      split
      · exact absurd rfl (hb _)
      · exact absurd rfl (hb _)
      · trivial
    simp [hkeep]
  cases a with
  | io b => exact h.io b ha.1
  | bus now gateOpen e =>
    rw [hother (by simp)]
    obtain ⟨hio, hactive, _, xs, hbus, hxs⟩ := onEvent_effect cfg w now gateOpen e
    have hturns := onEvent_undisturbed cfg now gateOpen e (h.active.symm ▸ ha.2)
    obtain ⟨evs, hbus0, hstage⟩ := h.stage
    have hgen : generated c.id (evs ++ xs) = generated c.id evs := by
      have hnil : generated c.id xs = [] := by
        refine List.filter_eq_nil_iff.2 fun x hx => ?_
        obtain ⟨u, rfl⟩ := hxs x hx
        simp [Event.generates]
      rw [generated_append, hnil, List.append_nil]
    refine ⟨hactive.trans h.active, h.token, evs ++ xs, ?_, ?_⟩
    · rw [ManagerWorld.step, hbus, hbus0, List.append_assoc]
    · have hc : (w.onEvent cfg now gateOpen e).isCancelled c.token = w.isCancelled c.token := by
        simp only [isCancelled, hturns]
      simp only [ManagerWorld.step, hio, hc]
      exact hstage.congr hgen
  | mint now =>
    rw [hother (by simp)]
    exact ⟨h.active, h.token, h.stage⟩

lemma JobInv.run (h : JobInv cfg c bus ok w) {as : List ManagerAction}
    (has : Runs.Along (ManagerWorld.step cfg contentOf) (Undisturbed c.id) w as) :
    JobInv cfg c bus (ok ∧ Runs.Along (ManagerWorld.step cfg contentOf) (KeepsAnswer cfg) w as)
      (Runs.exec (ManagerWorld.step cfg contentOf) w as) := by
  induction as generalizing w ok with
  | nil => simpa [Runs.Along] using h
  | cons a as ih =>
    have hnext := ih (h.step a has.1) has.2
    rw [and_assoc] at hnext
    exact hnext

/-- What a whole job publishes for its turn. -/
theorem job_publishes (cfg : ManagerConfig) (contentOf : Text → Option Text) (hw : w.Adopted c)
    {as : List ManagerAction} (has : Runs.Along (step cfg contentOf) (Undisturbed c.id) w as)
    (hend : (Runs.exec (step cfg contentOf) w as).manager.io = .returning) :
    ∃ texts lang finish, generated c.id ((Runs.exec (step cfg contentOf) w as).bus.drop w.bus.length) =
        .llmStarted c.id :: sentencesFrom c.id lang 0 texts ++ finish.toList.map .llmFinished ∧
      (∀ s ∈ texts, s ≠ []) ∧ Finishes c (Runs.Along (step cfg contentOf) (KeepsAnswer cfg) w as) finish := by
  obtain ⟨job, hjob⟩ := hw.stage
  have hinit : JobInv cfg c w.bus True w :=
    ⟨hw.active, hw.token, [], by simp, by rw [hjob]; exact ⟨rfl, trivial, by simp [hw.live], rfl⟩⟩
  obtain ⟨_, _, evs, hbus, hstage⟩ := hinit.run has
  rw [hend] at hstage
  simpa [hbus, JobStage] using hstage

end Job

end ManagerWorld

/-! ### The writer -/

/-- The writer after a sequence of events, each with the time it is handled at. -/
def writerRun (writer : TurnWriter) (ws : List (Int × Event)) : TurnWriter :=
  Runs.exec (fun writer e => writer.onEvent e.1 e.2) writer ws

/-- The generation events among those handled. -/
def handledOf (t : TurnId) (ws : List (Int × Event)) : List Event := generated t (ws.map Prod.snd)

section Writer

variable {t : TurnId} {lang : Text} {writer : TurnWriter} {ws : List (Int × Event)}

lemma sentenceTexts_sentencesFrom (k : Nat) (texts : List Text) :
    sentenceTexts (sentencesFrom t lang k texts) = texts := by
  induction texts generalizing k with
  | nil => rfl
  | cons s ss ih => simpa [sentenceTexts, sentencesFrom] using ih (k + 1)

lemma sentenceTexts_append (as bs : List Event) :
    sentenceTexts (as ++ bs) = sentenceTexts as ++ sentenceTexts bs := List.filterMap_append ..

lemma mem_sentencesFrom {k : Nat} {texts : List Text} {e : Event} (h : e ∈ sentencesFrom t lang k texts) :
    ∃ i < texts.length, ∃ s, e = .llmSentence { turn := t, seq := UInt32.ofNat (k + i), text := s, lang := lang } := by
  induction texts generalizing k with
  | nil => simp [sentencesFrom] at h
  | cons s ss ih =>
    rcases List.mem_cons.1 h with rfl | h
    · exact ⟨0, by simp, s, rfl⟩
    · obtain ⟨i, hi, x, rfl⟩ := ih h
      exact ⟨i + 1, by simpa using hi, x, by rw [Nat.add_assoc, Nat.add_comm 1]⟩

lemma not_committed (hws : ∀ f, .llmFinished f ∈ handledOf t ws → f.cancelled = true)
    (h : ∀ row ∈ writer.rowsOf t, row.status ≠ .committed) :
    ∀ row ∈ (writerRun writer ws).rowsOf t, row.status ≠ .committed := by
  induction ws generalizing writer with
  | nil => exact h
  | cons x xs ih =>
    refine ih (fun f hf => hws f ?_) ?_
    · simp only [handledOf, generated, List.map_cons, List.filter_cons] at hf ⊢
      split
      · exact List.mem_cons_of_mem _ hf
      · exact hf
    · intro row hrow
      rcases writer.mem_rowsOf_onEvent x.1 hrow with hold | ⟨f, he, rfl, hstatus⟩
      · exact h row hold
      · have hc : f.cancelled = true := hws f (by simp [handledOf, generated, Event.generates, he])
        simp [hstatus, hc]

/-- How far the writer is with an answer; `rest` are the generation events it has still to handle. -/
inductive WriterPhase (t : TurnId) (lang : Text) (texts : List Text) (f : LlmFinished) (writer : TurnWriter)
    (rest : List Event) : Prop
  | idle (entry : writer.inFlight t = none) (rows : writer.rowsOf t = [])
      (ahead : rest = .llmStarted t :: sentencesFrom t lang 0 texts ++ [.llmFinished f])
  | writing (received left : List Text) (st : AssistantState) (heard : List Nat) (split : texts = received ++ left)
      (entry : writer.inFlight t = some st) (tracks : st.Tracks received heard) (rows : writer.rowsOf t = [])
      (ahead : rest = sentencesFrom t lang received.length left ++ [.llmFinished f])
  | written (row : TurnRow) (entry : writer.inFlight t = none) (rows : writer.rowsOf t = [row])
      (status : row.status = .committed) (text : row.text = spaceJoin texts) (ahead : rest = [])

namespace WriterPhase

variable {texts : List Text} {f : LlmFinished} {rest : List Event}

lemma answers_of_generates {e : Event} (he : e.generates t = false)
    (hplay : ¬∃ p, e = .playbackFinished p ∧ p.turn = t) : e.answers ≠ some t := by
  cases e with
  | llmStarted turn => simpa [Event.answers, Event.generates] using he
  | llmSentence s => simpa [Event.answers, Event.generates] using he
  | llmFinished f => simpa [Event.answers, Event.generates] using he
  | playbackFinished p => exact fun hp => hplay ⟨p, rfl, Option.some.inj hp⟩
  | _ => simp [Event.answers]

lemma other (h : WriterPhase t lang texts f writer rest) (now : Int) {e : Event} (he : e.generates t = false)
    (hplay : ∀ p, e = .playbackFinished p → p.turn = t → p.seq.toNat + 1 < 2 ^ 32) :
    WriterPhase t lang texts f (writer.onEvent now e) rest := by
  by_cases hmine : ∃ p, e = .playbackFinished p ∧ p.turn = t
  · obtain ⟨p, rfl, rfl⟩ := hmine
    cases h with
    | idle entry rows ahead =>
      exact .idle (by simp [TurnWriter.onEvent, TurnWriter.handlePlaybackFinished, entry]) rows ahead
    | writing received left st heard split entry tracks rows ahead =>
      exact .writing received left (st.onPlayback p) _ split
        (by simp [TurnWriter.onEvent, TurnWriter.handlePlaybackFinished, entry])
        (tracks.onPlayback (hplay p rfl rfl)) rows ahead
    | written row entry rows status text ahead =>
      exact .written row (by simp [TurnWriter.onEvent, TurnWriter.handlePlaybackFinished, entry]) rows status
        text ahead
  · obtain ⟨hentry, hrows⟩ := writer.onEvent_other now (answers_of_generates he hmine)
    cases h with
    | idle entry rows ahead => exact .idle (hentry.trans entry) (hrows.trans rows) ahead
    | writing received left st heard split entry tracks rows ahead =>
      exact .writing received left st heard split (hentry.trans entry) tracks (hrows.trans rows) ahead
    | written row entry rows status text ahead =>
      exact .written row (hentry.trans entry) (hrows.trans rows) status text ahead

lemma next {e : Event} (h : WriterPhase t lang texts f writer (e :: rest)) (now : Int)
    (hsession : writer.session ≠ 0) (hne : ∀ s ∈ texts, s ≠ []) (hlen : texts.length < 2 ^ 32)
    (hturn : f.turn = t) (hcancelled : f.cancelled = false) :
    WriterPhase t lang texts f (writer.onEvent now e) rest := by
  cases h with
  | idle entry rows ahead =>
    obtain ⟨rfl, rfl⟩ := List.cons.inj ahead
    refine .writing [] texts { startedAt := now } [] rfl ?_ ⟨⟨0, rfl⟩, rfl, by simp⟩ rows rfl
    simp [TurnWriter.onEvent, TurnWriter.handleStarted, entry]
  | writing received left st heard split entry tracks rows ahead =>
    cases left with
    | nil =>
      obtain ⟨rfl, rfl⟩ := List.cons.inj ahead
      obtain rfl : texts = received := by simpa using split
      subst hturn
      obtain ⟨hnone, hrows⟩ := writer.rowsOf_finished now entry hsession
      have hkept : st.kept f.cancelled = texts := by
        rw [tracks.kept hne, hcancelled]
        exact select_true texts
      refine .written (st.row writer.session now f) hnone (by simpa [rows, hcancelled] using hrows) ?_ ?_ rfl
      · simp [AssistantState.row, hcancelled]
      · rw [AssistantState.row, hkept, foldl_appendSentence texts hne]
    | cons s ss =>
      obtain ⟨rfl, rfl⟩ := List.cons.inj ahead
      have hreceived : received.length + 1 < 2 ^ 32 := by
        rw [split, List.length_append, List.length_cons] at hlen
        omega
      have hseq : (UInt32.ofNat received.length).toNat = received.length := by
        rw [UInt32.toNat_ofNat']
        exact Nat.mod_eq_of_lt (by omega)
      let e : LlmSentence := { turn := t, seq := UInt32.ofNat received.length, text := s, lang := lang }
      refine .writing (received ++ [s]) ss (st.onSentence e) heard (by simp [split]) ?_
        (tracks.onSentence (e := e) hseq hreceived) rows (by simp)
      simp [TurnWriter.onEvent, TurnWriter.handleSentence, entry, e]
  | written row entry rows status text ahead => exact absurd ahead (by simp)

lemma run (h : WriterPhase t lang texts f writer (handledOf t ws)) (hsession : writer.session ≠ 0)
    (hne : ∀ s ∈ texts, s ≠ []) (hlen : texts.length < 2 ^ 32) (hturn : f.turn = t) (hcancelled : f.cancelled = false)
    (hplay : ∀ p, .playbackFinished p ∈ ws.map Prod.snd → p.turn = t → p.seq.toNat + 1 < 2 ^ 32) :
    WriterPhase t lang texts f (writerRun writer ws) [] := by
  induction ws generalizing writer with
  | nil => exact h
  | cons x xs ih =>
    refine ih ?_ (by rw [TurnWriter.onEvent_session]; exact hsession)
      (fun p hp => hplay p (List.mem_cons_of_mem _ hp))
    cases hg : x.2.generates t with
    | true =>
      have hcons : handledOf t (x :: xs) = x.2 :: handledOf t xs := by simp [handledOf, generated, hg]
      exact (hcons ▸ h).next x.1 hsession hne hlen hturn hcancelled
    | false =>
      have hcons : handledOf t (x :: xs) = handledOf t xs := by simp [handledOf, generated, hg]
      exact (hcons ▸ h).other x.1 hg fun p hp => hplay p (List.mem_cons.2 (.inl hp.symm))

end WriterPhase

end Writer

/-- For every job that nothing cancels and every order in which the writer handles its events: the
answer is remembered whole only if no step loses it, and it is if moreover its sentences have distinct
numbers. -/
theorem answer_remembered_whole (cfg : ManagerConfig) (contentOf : Text → Option Text) (c : TurnContext)
    (w : ManagerWorld) (hw : w.Adopted c) (as : List ManagerAction)
    (has : Runs.Along (ManagerWorld.step cfg contentOf) (ManagerWorld.Undisturbed c.id) w as)
    (hend : (Runs.exec (ManagerWorld.step cfg contentOf) w as).manager.io = .returning)
    (writer : TurnWriter) (hsession : writer.session ≠ 0) (hentry : writer.inFlight c.id = none)
    (hrows : writer.rowsOf c.id = []) (ws : List (Int × Event)) :
    let published := generated c.id ((Runs.exec (ManagerWorld.step cfg contentOf) w as).bus.drop w.bus.length)
    let texts := sentenceTexts published
    let whole := ∃ row, (writerRun writer ws).rowsOf c.id = [row] ∧ row.status = .committed ∧
      row.text = spaceJoin texts
    handledOf c.id ws = published →
    (∀ p, .playbackFinished p ∈ ws.map Prod.snd → p.turn = c.id →
      ∃ s, .llmSentence s ∈ published ∧ s.seq = p.seq) →
    (whole → Runs.Along (ManagerWorld.step cfg contentOf) (ManagerWorld.KeepsAnswer cfg) w as) ∧
      (Runs.Along (ManagerWorld.step cfg contentOf) (ManagerWorld.KeepsAnswer cfg) w as →
        texts.length < 2 ^ 32 → whole) := by
  intro published texts whole hws hplay
  obtain ⟨ts, lang, finish, hpub, hne, hfin⟩ := ManagerWorld.job_publishes cfg contentOf hw has hend
  have hpub : published = .llmStarted c.id :: sentencesFrom c.id lang 0 ts ++ finish.toList.map .llmFinished := hpub
  have htexts : texts = ts := by
    have hfinish : sentenceTexts (finish.toList.map .llmFinished) = [] := by cases finish <;> rfl
    simp only [texts, hpub, sentenceTexts_append, hfinish, List.append_nil]
    exact sentenceTexts_sentencesFrom 0 ts
  constructor
  · rintro ⟨row, hrow, hstatus, _⟩
    by_contra hlost
    have hcancelled : ∀ f, .llmFinished f ∈ handledOf c.id ws → f.cancelled = true := by
      intro f hf
      rw [hws, hpub, List.cons_append, List.mem_cons, List.mem_append, List.mem_map] at hf
      rcases hf with hf | hf | ⟨f', hf', heq⟩
      · cases hf
      · obtain ⟨_, _, _, heq⟩ := mem_sentencesFrom hf
        cases heq
      · cases heq
        rw [Option.mem_toList.1 hf'] at hfin
        cases hc : f.cancelled with
        | true => rfl
        | false => exact absurd (hfin.2.1 hc) hlost
    have hnone : ∀ row ∈ writer.rowsOf c.id, row.status ≠ .committed := by simp [hrows]
    exact not_committed hcancelled hnone row (by simp [hrow]) hstatus
  · intro hkept hlen
    obtain ⟨f, rfl⟩ : ∃ f, finish = some f := by
      cases finish with
      | none => exact absurd hkept hfin
      | some f => exact ⟨f, rfl⟩
    have hphase : WriterPhase c.id lang ts f writer (handledOf c.id ws) := .idle hentry hrows (hws.trans hpub)
    have hseqs : ∀ p, .playbackFinished p ∈ ws.map Prod.snd → p.turn = c.id → p.seq.toNat + 1 < 2 ^ 32 := by
      intro p hp hturn
      obtain ⟨s, hs, hseq⟩ := hplay p hp hturn
      rw [hpub, List.cons_append, List.mem_cons, List.mem_append, List.mem_map] at hs
      rcases hs with hs | hs | ⟨_, _, heq⟩
      · cases hs
      · obtain ⟨i, hi, x, heq⟩ := mem_sentencesFrom hs
        cases heq
        rw [htexts] at hlen
        rw [← hseq, UInt32.toNat_ofNat', Nat.zero_add, Nat.mod_eq_of_lt (by omega)]
        omega
      · cases heq
    cases hphase.run hsession hne (htexts ▸ hlen) hfin.1 (hfin.2.2 hkept) hseqs with
    | idle _ _ ahead => exact absurd ahead (by simp)
    | writing _ left _ _ _ _ _ _ ahead => cases left <;> exact absurd ahead (by simp [sentencesFrom])
    | written row _ hrow hstatus htext _ => exact ⟨row, hrow, hstatus, htexts ▸ htext⟩

/-- Turn 1, adopted for a transcript. -/
def adoptedWorld (cfg : ManagerConfig) : ManagerWorld :=
  Runs.exec (ManagerWorld.step cfg some) {} [.bus 0 true (.finalTranscript { text := ascii "hello" }),
    .io .advance, .io (.choose 1 0), .io .advance]

/-- An answer of one sentence, played after the generation has finished. -/
theorem short_answer_remembered :
    let as : List ManagerAction := [.io .advance, .io (.curlInit true),
      .io (.read (ascii "data: Fine, thanks.\n\n")), .io .advance, .io .advance, .io .advance, .io .transferEnd,
      .io .advance, .io .advance, .io .advance]
    let ws : List (Int × Event) := [(1, .llmStarted 1),
      (2, .llmSentence { turn := 1, seq := 0, text := ascii "Fine, thanks.", lang := ascii "en" }),
      (3, .llmFinished { turn := 1, tokensGenerated := 1 }), (4, .playbackFinished ⟨1, 0⟩)]
    ∃ row, (writerRun { session := 1 } ws).rowsOf 1 = [row] ∧ row.status = .committed ∧
      row.text = spaceJoin (sentenceTexts (generated 1
        ((Runs.exec (ManagerWorld.step {} some) (adoptedWorld {}) as).bus.drop (adoptedWorld {}).bus.length))) :=
  (answer_remembered_whole {} some { id := 1, token := some 0 } (adoptedWorld {})
    ⟨⟨{ text := ascii "hello" }, by decide +kernel⟩, by decide +kernel, rfl, by decide +kernel⟩ _
    (by decide +kernel) (by decide +kernel) { session := 1 } (by decide) rfl rfl _ (by decide +kernel) (by
      intro p hp _
      simp only [List.map_cons, List.map_nil, List.mem_cons, reduceCtorEq, Event.playbackFinished.injEq, false_or,
        List.not_mem_nil, or_false] at hp
      subst hp
      exact ⟨{ turn := 1, seq := 0, text := ascii "Fine, thanks.", lang := ascii "en" }, by decide +kernel, rfl⟩)).2
    (by decide +kernel) (by decide +kernel)

/-- With a cap of one sentence the second one cancels the stream. Nothing cancelled the turn, two sentences
were published and both are spoken, but nothing is remembered. -/
theorem capped_answer_forgotten :
    let cfg : ManagerConfig := { maxAssistantSentences := 1 }
    let as : List ManagerAction := [.io .advance, .io (.curlInit true),
      .io (.read (ascii "data: Hello there. How are you? Fine\n\n")), .io .advance, .io .advance, .io .advance,
      .io .advance, .io .advance, .io .transferEnd, .io .advance, .io .advance, .io .advance]
    let w := Runs.exec (ManagerWorld.step cfg some) (adoptedWorld cfg) as
    let published := generated 1 (w.bus.drop (adoptedWorld cfg).bus.length)
    let ws : List (Int × Event) := published.map (fun e => (1, e)) ++
      [(2, .playbackFinished ⟨1, 0⟩), (3, .playbackFinished ⟨1, 1⟩)]
    Runs.Along (ManagerWorld.step cfg some) (ManagerWorld.Undisturbed 1) (adoptedWorld cfg) as ∧
      w.manager.io = .returning ∧ sentenceTexts published = [ascii "Hello there.", ascii "How are you?"] ∧
      (writerRun { session := 1 } ws).rowsOf 1 = [] := by
  decide +kernel

end Acva
