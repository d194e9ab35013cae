import Acva.Dialogue.ManagerSteps

/-!
# Cancelling an answer

A monitor follows which turns were named by a cancellation after their transcript had been handled,
and collects what is published for them afterwards. A cancellation is lost while the id of a
transcript is not yet the active one, and it does not stop what the I/O thread has already read.
-/

namespace Acva

/-- A run watched: the turns named since the pending and since the taken transcript were handled, the
turns under which transcripts were answered, those named after a transcript they answer (`dead`),
and the starts and sentences published for a dead turn. -/
structure CancelMonitor where
  world : ManagerWorld := {}
  sincePending : List TurnId := []
  sinceTaken : List TurnId := []
  answered : List TurnId := []
  dead : List TurnId := []
  late : List Event := []
  deriving DecidableEq, Repr

namespace CancelMonitor

variable (cfg : ManagerConfig) (contentOf : Text → Option Text)

def step (m : CancelMonitor) (a : ManagerAction) : CancelMonitor :=
  let w' := m.world.step cfg contentOf a
  { world := w'
    sincePending := if a.admits cfg then [] else a.cancelled.toList ++ m.sincePending
    sinceTaken := if a.takes m.world then m.sincePending else a.cancelled.toList ++ m.sinceTaken
    answered := (a.chosen m.world).toList ++ m.answered
    dead := a.cancelled.toList.filter (· ∈ m.answered) ++
      ((a.chosen m.world).toList.filter (· ∈ m.sinceTaken) ++ m.dead)
    late := m.late ++ (w'.bus.drop m.world.bus.length).filter fun e => e.speaksFor.any (· ∈ m.dead) }

/-- The step does not reach the gap: the id fixed for a transcript was not named since the transcript
was handled, nor is it dead; and a turn is named before its transcript gets its id or when the I/O
thread has started it and has nothing left to say for it. -/
def Safe (m : CancelMonitor) (a : ManagerAction) : Prop :=
  (∀ t ∈ a.chosen m.world, t ∉ m.sinceTaken ∧ t ∉ m.dead) ∧
  ∀ t ∈ a.cancelled,
    (∀ c ∈ m.world.manager.io.preparing?, c.id ≠ t) ∧
    ∀ c ∈ m.world.manager.io.answering?, c.id = t →
      m.world.manager.io.unsaid cfg.maxAssistantSentences contentOf = []

instance (m : CancelMonitor) (a : ManagerAction) : Decidable (m.Safe cfg contentOf a) := by
  unfold Safe
  infer_instance

/-- No dead turn can speak any more. -/
structure Heeded (m : CancelMonitor) : Prop where
  late : m.late = []
  ids : 1 ≤ m.world.turns.next
  preparing : ∀ c, m.world.manager.io.preparing? = some c →
    c.valid ∧ c.id ∈ m.answered ∧ c.id ∉ m.dead
  adopted : ∀ job c, m.world.manager.io = .adopted job c → m.world.manager.active = c
  answering : ∀ c, m.world.manager.io.answering? = some c →
    c.valid ∧ m.world.manager.active = c ∧ c.id ∈ m.answered ∧
      (c.id ∈ m.dead → m.world.isCancelled c.token ∧
        m.world.manager.io.unsaid cfg.maxAssistantSentences contentOf = [])

variable {cfg contentOf} {m : CancelMonitor} {a : ManagerAction}

lemma late_step (evs : List Event) (hlate : m.late = [])
    (hbus : (m.world.step cfg contentOf a).bus = m.world.bus ++ evs)
    (hevs : ∀ e ∈ evs, ∀ t, e.speaksFor = some t → t ∉ m.dead) : (m.step cfg contentOf a).late = [] := by
  simp only [step, hlate, hbus, List.drop_left, List.nil_append, List.filter_eq_nil_iff]
  intro e he
  cases ht : e.speaksFor with
  | none => simp
  | some t => simpa using hevs e he t ht

lemma Heeded.bus (h : m.Heeded cfg contentOf) (now : Time) (gateOpen : Bool) (e : Event)
    (hsafe : m.Safe cfg contentOf (.bus now gateOpen e)) :
    (m.step cfg contentOf (.bus now gateOpen e)).Heeded cfg contentOf := by
  obtain ⟨hio, hactive, hturns, evs, hbus, hevs⟩ := ManagerWorld.onEvent_effect cfg m.world now gateOpen e
  have hdead : ∀ t, t ∈ (m.step cfg contentOf (.bus now gateOpen e)).dead →
      (ManagerAction.bus now gateOpen e).cancelled = some t ∨ t ∈ m.dead := by
    intro t ht
    have hnone : (ManagerAction.bus now gateOpen e).chosen m.world = none := by
      simp only [ManagerAction.chosen]
      split
      · rename_i heq; cases heq
      · rfl
    simp only [step, hnone, Option.toList_none, List.filter_nil, List.nil_append, List.mem_append,
      List.mem_filter, Option.mem_toList] at ht
    exact ht.imp (·.1) id
  refine ⟨late_step evs h.late hbus ?_, ?_, ?_, ?_, ?_⟩
  · intro x hx t ht
    obtain ⟨u, rfl⟩ := hevs x hx
    simp [Event.speaksFor] at ht
  · exact (ManagerWorld.next_of_turns hturns).symm ▸ h.ids
  · intro c hc
    have hc' : m.world.manager.io.preparing? = some c := hio ▸ hc
    obtain ⟨hvalid, hans, hlive⟩ := h.preparing c hc'
    refine ⟨hvalid, List.mem_append_right _ hans, fun hd => ?_⟩
    rcases hdead _ hd with hn | hd
    · exact (hsafe.2 _ hn).1 c hc' rfl
    · exact hlive hd
  · intro job c hc
    exact hactive.trans (h.adopted job c (hio ▸ hc))
  · intro c hc
    have hc' : m.world.manager.io.answering? = some c := hio ▸ hc
    obtain ⟨hvalid, hact, hans, hquiet⟩ := h.answering c hc'
    refine ⟨hvalid, hactive.trans hact, List.mem_append_right _ hans, fun hd => ?_⟩
    have hunsaid : (m.step cfg contentOf (.bus now gateOpen e)).world.manager.io.unsaid
        cfg.maxAssistantSentences contentOf =
        m.world.manager.io.unsaid cfg.maxAssistantSentences contentOf := congrArg _ hio
    rcases hdead _ hd with hn | hd
    · refine ⟨?_, hunsaid.trans ((hsafe.2 _ hn).2 c hc' rfl)⟩
      subst hact
      exact ManagerWorld.cancelled_of_named cfg m.world now gateOpen e hvalid hn
    · exact ⟨ManagerWorld.isCancelled_of_turns hturns (hquiet hd).1, hunsaid.trans (hquiet hd).2⟩

lemma dead_io (cfg : ManagerConfig) (contentOf : Text → Option Text) (b : IoAction)
    (hchosen : (ManagerAction.io b).chosen m.world = none) :
    (m.step cfg contentOf (.io b)).dead = m.dead ∧ (m.step cfg contentOf (.io b)).answered = m.answered := by
  simp [step, hchosen, ManagerAction.cancelled]

lemma chosen_eq_none {b : IoAction} (h : ∀ job, m.world.manager.io ≠ .taken job) :
    (ManagerAction.io b).chosen m.world = none := by
  simp only [ManagerAction.chosen]
  split
  · rename_i hio _
    exact absurd hio (h _)
  · rfl

lemma Heeded.answer (h : m.Heeded cfg contentOf) (b : IoAction) {c : TurnContext}
    (hc : m.world.manager.io.answering? = some c) :
    (m.step cfg contentOf (.io b)).Heeded cfg contentOf := by
  obtain ⟨evs, hs⟩ := answerStep cfg contentOf b hc
  obtain ⟨hvalid, hact, hans, hquiet⟩ := h.answering c hc
  have hchosen : (ManagerAction.io b).chosen m.world = none :=
    chosen_eq_none fun job hio => by simp [hio, IoStage.answering?] at hc
  obtain ⟨hdead, hanswered⟩ := dead_io cfg contentOf b hchosen
  have hpart : c.id ∈ m.dead → spoken evs = [] ∧
      (m.world.ioStep cfg contentOf b).manager.io.unsaid cfg.maxAssistantSentences contentOf = [] := by
    intro hd
    have hsaid := hs.said fun _ => (hquiet hd).1
    rw [(hquiet hd).2] at hsaid
    exact List.append_eq_nil_iff.1 hsaid
  have hprep : ∀ c', (m.world.ioStep cfg contentOf b).manager.io.preparing? ≠ some c' := by
    intro c' hp
    rcases hs.stage with hst | hst
    · cases hio : (m.world.ioStep cfg contentOf b).manager.io <;>
        simp [hio, IoStage.answering?, IoStage.preparing?] at hst hp
    · simp [hst, IoStage.preparing?] at hp
  refine ⟨late_step evs h.late hs.bus ?_, ?_, ?_, ?_, ?_⟩
  · intro e he t ht hd
    obtain rfl := hs.speaker e he t ht
    have hmem : e ∈ spoken evs := List.mem_filter.2 ⟨he, by simp [ht]⟩
    simp [(hpart hd).1] at hmem
  · exact (ManagerWorld.next_of_turns hs.turns).symm ▸ h.ids
  · exact fun c' hc' => absurd hc' (hprep c')
  · intro job c' hc'
    have hio : (m.world.ioStep cfg contentOf b).manager.io = .adopted job c' := hc'
    exact absurd (by rw [hio]; rfl) (hprep c')
  · intro c' hc'
    rcases hs.stage with hst | hst
    · obtain rfl : c = c' := Option.some.inj (hst.symm.trans hc')
      refine ⟨hvalid, hs.active.trans hact, hanswered ▸ hans, fun hd => ?_⟩
      rw [hdead] at hd
      exact ⟨ManagerWorld.isCancelled_of_turns hs.turns (hquiet hd).1, (hpart hd).2⟩
    · have hio : (m.world.ioStep cfg contentOf b).manager.io.answering? = some c' := hc'
      simp [hst, IoStage.answering?] at hio

lemma Heeded.idle (h : m.Heeded cfg contentOf) (hbus : (m.world.step cfg contentOf a).bus = m.world.bus)
    (hnext : m.world.turns.next ≤ (m.world.step cfg contentOf a).turns.next)
    (hprep : (m.world.step cfg contentOf a).manager.io.preparing? = none)
    (hansw : (m.world.step cfg contentOf a).manager.io.answering? = none) :
    (m.step cfg contentOf a).Heeded cfg contentOf := by
  refine ⟨late_step [] h.late (by simpa using hbus) (by simp), h.ids.trans hnext, ?_, ?_, ?_⟩
  · intro c hc
    exact absurd (hprep.symm.trans hc) (by simp)
  · intro job c hc
    have hio : (m.world.step cfg contentOf a).manager.io = .adopted job c := hc
    simp [hio, IoStage.preparing?] at hprep
  · intro c hc
    exact absurd (hansw.symm.trans hc) (by simp)

lemma Heeded.same (h : m.Heeded cfg contentOf) {b : IoAction}
    (hchosen : (ManagerAction.io b).chosen m.world = none)
    (hw : m.world.ioStep cfg contentOf b = m.world) : (m.step cfg contentOf (.io b)).Heeded cfg contentOf := by
  obtain ⟨hdead, hanswered⟩ := dead_io cfg contentOf b hchosen
  have hworld : (m.step cfg contentOf (.io b)).world = m.world := hw
  refine ⟨late_step [] h.late ?_ (by simp), ?_, ?_, ?_, ?_⟩
  · exact (congrArg ManagerWorld.bus hw).trans (List.append_nil _).symm
  · rw [hworld]
    exact h.ids
  · rw [hworld, hdead, hanswered]
    exact h.preparing
  · rw [hworld]
    exact h.adopted
  · rw [hworld, hdead, hanswered]
    exact h.answering

lemma Heeded.choose (h : m.Heeded cfg contentOf) {job : FinalTranscript}
    (hio : m.world.manager.io = .taken job) (provided : TurnId) (now : Time)
    (hsafe : m.Safe cfg contentOf (.io (.choose provided now))) :
    (m.step cfg contentOf (.io (.choose provided now))).Heeded cfg contentOf := by
  let id := if provided ≠ kNoTurn then provided else m.world.turns.next
  have hchosen : (ManagerAction.io (.choose provided now)).chosen m.world = some id := by
    simp [ManagerAction.chosen, hio, id]
  obtain ⟨hsince, hlive⟩ := hsafe.1 id hchosen
  have hdead : (m.step cfg contentOf (.io (.choose provided now))).dead = m.dead := by
    simp [step, hchosen, ManagerAction.cancelled, hsince]
  have hanswered : (m.step cfg contentOf (.io (.choose provided now))).answered = id :: m.answered := by
    simp [step, hchosen]
  obtain ⟨ctx, hctx, hid, hvalid, hbus, hnext⟩ : ∃ ctx,
      (m.world.ioStep cfg contentOf (.choose provided now)).manager.io = .chosen job ctx ∧ ctx.id = id ∧
        ctx.valid ∧ (m.world.ioStep cfg contentOf (.choose provided now)).bus = m.world.bus ∧
        m.world.turns.next ≤ (m.world.ioStep cfg contentOf (.choose provided now)).turns.next := by
    by_cases hp : provided ≠ kNoTurn
    · refine ⟨(m.world.turns.adopt provided now).1, ?_⟩
      simp [ManagerWorld.ioStep, hio, ManagerWorld.chooseTurn, hp, id, TurnContext.valid, TurnFactory.adopt]
    · refine ⟨(m.world.turns.mint now).1, ?_⟩
      have hne : m.world.turns.next ≠ kNoTurn := Nat.pos_iff_ne_zero.1 h.ids
      simp [ManagerWorld.ioStep, hio, ManagerWorld.chooseTurn, hp, id, TurnContext.valid, TurnFactory.mint, hne]
  refine ⟨late_step [] h.late (hbus.trans (List.append_nil _).symm) (by simp), h.ids.trans hnext, ?_, ?_, ?_⟩
  · intro c hc
    have hst : (m.world.ioStep cfg contentOf (.choose provided now)).manager.io.preparing? = some c := hc
    rw [hctx] at hst
    obtain rfl : ctx = c := by simpa [IoStage.preparing?] using hst
    rw [hdead, hanswered, hid]
    exact ⟨hvalid, List.mem_cons_self, hlive⟩
  · intro job' c hc
    exact absurd (hctx.symm.trans hc) (by simp)
  · intro c hc
    have hst : (m.world.ioStep cfg contentOf (.choose provided now)).manager.io.answering? = some c := hc
    simp [hctx, IoStage.answering?] at hst

lemma Heeded.chosen (h : m.Heeded cfg contentOf) {job : FinalTranscript} {ctx : TurnContext}
    (hio : m.world.manager.io = .chosen job ctx) : (m.step cfg contentOf (.io .advance)).Heeded cfg contentOf := by
  have hchosen : (ManagerAction.io .advance).chosen m.world = none :=
    chosen_eq_none fun j hj => by simp [hio] at hj
  obtain ⟨hdead, hanswered⟩ := dead_io cfg contentOf .advance hchosen
  have hw : m.world.ioStep cfg contentOf .advance =
      { m.world with manager := { m.world.manager with active := ctx, io := .adopted job ctx } } := by
    simp [ManagerWorld.ioStep, hio]
  have hworld : (m.step cfg contentOf (.io .advance)).world = _ := hw
  refine ⟨late_step [] h.late ?_ (by simp), ?_, ?_, ?_, ?_⟩
  · exact (congrArg ManagerWorld.bus hw).trans (List.append_nil _).symm
  · rw [hworld]
    exact h.ids
  · rw [hworld, hdead, hanswered]
    exact fun c hc => h.preparing c (by rw [hio]; exact hc)
  · rw [hworld]
    rintro job' c hc
    cases hc
    rfl
  · rw [hworld]
    exact fun c hc => absurd hc (by simp [IoStage.answering?])

lemma Heeded.adopt (h : m.Heeded cfg contentOf) {job : FinalTranscript} {ctx : TurnContext}
    (hio : m.world.manager.io = .adopted job ctx) : (m.step cfg contentOf (.io .advance)).Heeded cfg contentOf := by
  have hchosen : (ManagerAction.io .advance).chosen m.world = none :=
    chosen_eq_none fun j hj => by simp [hio] at hj
  obtain ⟨hdead, hanswered⟩ := dead_io cfg contentOf .advance hchosen
  obtain ⟨hvalid, hans, hlive⟩ := h.preparing ctx (by rw [hio]; rfl)
  have hw : m.world.ioStep cfg contentOf .advance = m.world.startGeneration cfg job ctx := by
    simp [ManagerWorld.ioStep, hio]
  have hworld : (m.step cfg contentOf (.io .advance)).world = _ := hw
  refine ⟨late_step [.llmStarted ctx.id] h.late (congrArg ManagerWorld.bus hw) ?_, ?_, ?_, ?_, ?_⟩
  · simp [Event.speaksFor, hlive]
  · rw [hworld]
    exact h.ids
  · rw [hworld]
    exact fun c hc => absurd hc (by simp [ManagerWorld.startGeneration, IoStage.preparing?])
  · rw [hworld]
    exact fun job' c hc => absurd hc (by simp [ManagerWorld.startGeneration])
  · rw [hworld, hdead, hanswered]
    intro c hc
    obtain rfl : ctx = c := by simpa [ManagerWorld.startGeneration, IoStage.answering?] using hc
    exact ⟨hvalid, h.adopted job ctx hio, hans, fun hd => absurd hd hlive⟩

lemma Heeded.io (h : m.Heeded cfg contentOf) (b : IoAction) (hsafe : m.Safe cfg contentOf (.io b)) :
    (m.step cfg contentOf (.io b)).Heeded cfg contentOf := by
  cases hc : m.world.manager.io.answering? with
  | some c => exact h.answer b hc
  | none =>
    cases hio : m.world.manager.io with
    | waiting =>
      refine h.idle ?_ ?_ ?_ ?_ <;> cases b <;> cases hp : m.world.manager.pending <;>
        simp [ManagerWorld.step, ManagerWorld.ioStep, hio, hp, IoStage.preparing?, IoStage.answering?]
    | taken job =>
      cases b with
      | choose provided now => exact h.choose hio provided now hsafe
      | _ => exact h.same (by simp [ManagerAction.chosen, hio]) (by simp [ManagerWorld.ioStep, hio])
    | chosen job ctx =>
      cases b with
      | advance => exact h.chosen hio
      | _ => exact h.same (by simp [ManagerAction.chosen, hio]) (by simp [ManagerWorld.ioStep, hio])
    | adopted job ctx =>
      cases b with
      | advance => exact h.adopt hio
      | _ => exact h.same (by simp [ManagerAction.chosen, hio]) (by simp [ManagerWorld.ioStep, hio])
    | returning =>
      refine h.idle ?_ ?_ ?_ ?_ <;> cases b <;>
        simp [ManagerWorld.step, ManagerWorld.ioStep, hio, IoStage.preparing?, IoStage.answering?]
    | _ => simp [hio, IoStage.answering?] at hc

lemma Heeded.mint (h : m.Heeded cfg contentOf) (now : Time) :
    (m.step cfg contentOf (.mint now)).Heeded cfg contentOf := by
  have hdead : (m.step cfg contentOf (.mint now)).dead = m.dead := by
    cases hio : m.world.manager.io <;> simp [step, ManagerAction.cancelled, ManagerAction.chosen, hio]
  have hanswered : (m.step cfg contentOf (.mint now)).answered = m.answered := by
    cases hio : m.world.manager.io <;> simp [step, ManagerAction.chosen, hio]
  refine ⟨late_step [] h.late (List.append_nil _).symm (by simp), ?_, ?_, h.adopted, ?_⟩
  · exact h.ids.trans (Nat.le_succ _)
  · rw [hdead, hanswered]
    exact h.preparing
  · rw [hdead, hanswered]
    exact h.answering

/-- In every run whose steps stay out of the gap, nothing is published for a turn that a cancellation
named after a transcript it answers was handled. -/
theorem cancelled_turn_stays_silent (cfg : ManagerConfig) (contentOf : Text → Option Text)
    (as : List ManagerAction) (h : Runs.Along (step cfg contentOf) (Safe cfg contentOf) {} as) :
    (Runs.exec (step cfg contentOf) {} as).late = [] := by
  refine (Runs.Along.invariant (Heeded cfg contentOf) ?_ h ?_).late
  · intro m a hm hsafe
    cases a with
    | bus now gateOpen e => exact hm.bus now gateOpen e hsafe
    | io b => exact hm.io b hsafe
    | mint now => exact hm.mint now
  · exact ⟨rfl, Nat.le_refl 1, by simp [IoStage.preparing?], by simp, by simp [IoStage.answering?]⟩

/-- The transcript, its turn id and the start of the answer. -/
def answerUpToStart : List ManagerAction :=
  [.bus 0 true (.finalTranscript { text := ascii "hello" }), .io .advance, .io (.choose 1 0), .io .advance,
    .io .advance, .io (.curlInit true)]

/-- A barge-in between two reads, when the splitter's buffer is empty: the rest is not heard. -/
theorem cancel_between_reads_stays_silent :
    let as := answerUpToStart ++ [.io (.read (ascii "data: Hi! \n\n")), .io .advance, .io .advance,
      .io .advance, .io .advance, .bus 1 true (.userInterrupted { turn := 1 }),
      .io (.read (ascii "data: More.\n\n")), .io .advance, .io .advance, .io .advance]
    (Runs.exec (step {} some) {} as).dead = [1] ∧ (Runs.exec (step {} some) {} as).late = [] :=
  ⟨by decide +kernel, cancelled_turn_stays_silent {} some _ (by decide +kernel)⟩

/-- A cancellation handled while the id is fixed but not yet active is lost, and one handled while text
is buffered lets the flush speak: `LlmStarted` and a sentence of the cancelled turn follow. -/
theorem cancelled_turn_speaks :
    (Runs.exec (step {} some) {} [.bus 0 true (.finalTranscript { text := ascii "hello" }), .io .advance,
      .io (.choose 1 0), .bus 1 true (.cancelGeneration 1), .io .advance, .io .advance]).late =
      [.llmStarted 1] ∧
    (Runs.exec (step {} some) {} (answerUpToStart ++ [.io (.read (ascii "data: Well\n\n")), .io .advance,
      .io .advance, .io .advance, .bus 1 true (.userInterrupted { turn := 1 }), .io .progress,
      .io .advance, .io .advance])).late =
      [.llmSentence { turn := 1, seq := 0, text := ascii "Well", lang := ascii "en" }] := by
  decide +kernel

end CancelMonitor

end Acva
