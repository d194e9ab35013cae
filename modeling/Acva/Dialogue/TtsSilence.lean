import Acva.Dialogue.TtsBridge

/-!
# Silence after a barge-in

A monitor follows the turns whose `on_user_interrupted` has returned and that were not started again,
and collects the chunks enqueued for them. The token is cancelled before the queue is cleared, but the
I/O thread tests it outside the queue's lock: a chunk that has passed the test is enqueued after the
`clear`. A sentence that follows the turn's `LlmFinished` gets a fresh token.
-/

namespace Acva

/-- A run watched: the interrupted turns and the chunks added for them. -/
structure SilenceMonitor where
  bridge : TtsBridge := {}
  silenced : List TurnId := []
  stale : List AudioChunk := []

namespace SilenceMonitor

/-- The interrupted turns after the action. -/
def silencedBy (m : SilenceMonitor) (a : TtsAction) : List TurnId :=
  match m.bridge.bus, a with
  | .cancelling t [], .busAdvance => t :: m.silenced
  | .idle, .bus (.llmStarted t) => m.silenced.filter (· ≠ t)
  | _, _ => m.silenced

def step (deviceRate : UInt32) (m : SilenceMonitor) (a : TtsAction) : SilenceMonitor :=
  { bridge := m.bridge.step deviceRate a
    silenced := m.silencedBy a
    stale := m.stale ++ (m.bridge.adds a).filter (·.turn ∈ m.silenced) }

/-- The queue is cleared when no chunk of the turn stands between its test and the queue, and a sentence
of an interrupted turn comes while the turn has its token. -/
def Safe (m : SilenceMonitor) (a : TtsAction) : Prop :=
  match m.bridge.bus, a with
  | .cancelling t [], .busAdvance => ∀ j ∈ m.bridge.io.checked?, j.sentence.turn ≠ t
  | .idle, .bus (.llmSentence e) => e.turn ∈ m.silenced → (m.bridge.tokens e.turn).isSome
  | _, _ => True

instance (m : SilenceMonitor) (a : TtsAction) : Decidable (m.Safe a) := by
  unfold Safe
  split <;> infer_instance

end SilenceMonitor

namespace TtsBridge

/-- Nothing more can pass a test for the turn once the tokens in `due` are cancelled. -/
structure Quiet (b : TtsBridge) (t : TurnId) (due : List TokenRef) : Prop where
  pending : ∀ j ∈ b.pending, j.sentence.turn ≠ t
  token : ∀ r, b.tokens t = some r → b.heap.isCancelled r ∨ r ∈ due
  job : ∀ j, b.io.job? = some j → j.sentence.turn = t → b.isCancelled j ∨ j.cancel ∈ due

lemma Quiet.io {b b' : TtsBridge} {t : TurnId} {due : List TokenRef} (h : b.Quiet t due) (he : IoEffect b b') :
    b'.Quiet t due := by
  refine ⟨fun j hj => h.pending j (he.pending j hj), ?_, ?_⟩
  · rw [he.tokens, he.heap]
    exact h.token
  · intro j hj ht
    rw [isCancelled, he.heap]
    rcases he.job j hj with ⟨hold, _⟩ | ⟨_, hnew, _⟩
    · exact h.job j hold ht
    · exact absurd ht (h.pending j (List.mem_of_mem_head? hnew))

lemma Quiet.checked_io {b b' : TtsBridge} {t : TurnId} (h : b.Quiet t []) (he : IoEffect b b')
    (hc : ∀ j ∈ b.io.checked?, j.sentence.turn ≠ t) : ∀ j ∈ b'.io.checked?, j.sentence.turn ≠ t := by
  intro j hj ht
  rcases he.checked j hj with hold | ⟨hjob, hlive⟩
  · exact hc j hold ht
  · rcases h.job j hjob ht with hcan | hnil
    · rw [hlive] at hcan
      cases hcan
    · cases hnil

lemma Quiet.cancel {b : TtsBridge} {t : TurnId} {r : TokenRef} {rs : List TokenRef} (h : b.Quiet t (r :: rs))
    (bus : TtsBusStage) : ({ b with heap := b.heap.cancel r, bus := bus }).Quiet t rs := by
  refine ⟨h.pending, fun x hx => ?_, fun j hj ht => ?_⟩
  · rcases h.token x hx with hc | hc
    · simp [hc]
    · rcases List.mem_cons.mp hc with rfl | hc
      · simp
      · exact .inr hc
  · rcases h.job j hj ht with hc | hc
    · rw [isCancelled] at hc
      simp [isCancelled, hc]
    · rcases List.mem_cons.mp hc with hc | hc
      · simp [isCancelled, hc]
      · exact .inr hc

/-- More cancelled tokens, fewer pending sentences and other turns' tokens keep a turn quiet. -/
lemma Quiet.mono {b b' : TtsBridge} {t : TurnId} {due : List TokenRef} (h : b.Quiet t due)
    (hpending : ∀ j ∈ b'.pending, j.sentence.turn = t → j ∈ b.pending)
    (htoken : ∀ r, b'.tokens t = some r → b.tokens t = some r ∨ b'.heap.isCancelled r)
    (hheap : ∀ r, b.heap.isCancelled r → b'.heap.isCancelled r) (hio : b'.io = b.io) : b'.Quiet t due := by
  refine ⟨fun j hj ht => h.pending j (hpending j hj ht) ht, fun r hr => ?_, fun j hj ht => ?_⟩
  · rcases htoken r hr with hr | hr
    · exact (h.token r hr).imp (hheap r) id
    · exact .inl hr
  · exact (h.job j (hio ▸ hj) ht).imp (hheap _) id

lemma onLlmStarted_quiet {b : TtsBridge} {t u : TurnId} {due : List TokenRef} (h : b.Quiet t due) (hu : t ≠ u) :
    (b.onLlmStarted u).Quiet t due := by
  refine h.mono (fun j hj _ => hj) (fun r hr => .inl ?_) (fun r hr => hr) rfl
  simpa [onLlmStarted, newToken, setToken, hu] using hr

lemma onLlmFinished_quiet {b : TtsBridge} {t : TurnId} {due : List TokenRef} (h : b.Quiet t due) (e : LlmFinished) :
    (b.onLlmFinished e).Quiet t due := by
  refine h.mono (fun j hj _ => hj) (fun r hr => .inl ?_) (fun r hr => hr) rfl
  simp only [onLlmFinished, setToken] at hr
  split at hr
  · cases hr
  · exact hr

lemma onLlmSentence_quiet {b : TtsBridge} {t : TurnId} (h : b.Quiet t []) (e : LlmSentence)
    (htoken : e.turn = t → (b.tokens t).isSome) : (b.onLlmSentence e).Quiet t [] := by
  by_cases ht : e.turn = t
  · subst ht
    obtain ⟨r, hr⟩ := Option.isSome_iff_exists.mp (htoken rfl)
    have hcan : b.heap.isCancelled r = true := by simpa using h.token r hr
    have hdrop : b.onLlmSentence e = { b with cancelled := b.cancelled + 1 } := by
      simp [onLlmSentence, tokenFor, hr, hcan]
    rw [hdrop]
    exact ⟨h.pending, h.token, h.job⟩
  · have hmint : (b.tokenFor e.turn).1.Quiet t [] := by
      unfold tokenFor
      split
      · exact h
      · exact onLlmStarted_quiet h (Ne.symm ht)
    simp only [onLlmSentence]
    split
    · exact ⟨hmint.pending, hmint.token, hmint.job⟩
    · refine hmint.mono (fun j hj hjt => ?_) (fun r hr => .inl hr) (fun r hr => hr) rfl
      rcases List.mem_append.mp hj with hj | hj
      · exact hj
      · obtain rfl : j = _ := List.mem_singleton.mp hj
        exact absurd hjt ht

/-- The critical section of `on_user_interrupted` leaves every quiet turn quiet. -/
lemma onUserInterrupted_quiet {b : TtsBridge} {t : TurnId} {due : List TokenRef} (h : b.Quiet t due)
    (e : UserInterrupted) : (b.onUserInterrupted e).Quiet t due := by
  unfold onUserInterrupted
  split
  · exact h.mono (fun j hj _ => (List.mem_filter.mp hj).1) (fun r hr => .inl hr) (fun r hr => hr) rfl
  · refine h.mono (fun j hj _ => (List.mem_filter.mp hj).1) (fun r hr => ?_) (fun r hr => ?_) rfl
    · by_cases ht : t = e.turn
      · obtain rfl : b.heap.next = r := by simpa [newToken, setToken, ht] using hr
        simp [newToken]
      · exact .inl (by simpa [newToken, setToken, ht] using hr)
    · have hr' : b.heap.isCancelled r = true := hr
      simp [newToken, setToken, hr']

/-- The interrupted turn is quiet as soon as the collected tokens are cancelled. -/
lemma onUserInterrupted_due {b : TtsBridge} (hflight : ∀ j, b.io.job? = some j → b.inFlight = some j.cancel)
    (e : UserInterrupted) :
    ∃ due, (b.onUserInterrupted e).bus = .cancelling e.turn due ∧ (b.onUserInterrupted e).Quiet e.turn due := by
  unfold onUserInterrupted
  split
  · rename_i r hr
    refine ⟨_, rfl, fun j hj => by simpa using (List.mem_filter.mp hj).2, fun x hx => .inr ?_, fun j hj _ => .inr ?_⟩
    · obtain rfl : r = x := Option.some.inj (hr.symm.trans hx)
      exact List.mem_cons_self
    · exact List.mem_cons_of_mem _ (by simp [hflight j hj])
  · refine ⟨_, rfl, fun j hj => by simpa using (List.mem_filter.mp hj).2, fun x hx => .inl ?_, fun j hj _ => .inr ?_⟩
    · obtain rfl : b.heap.next = x := by simpa [newToken, setToken] using hx
      simp [newToken]
    · simp [hflight j hj]

/-! ### What reaches the queue -/

lemma checked_of_adds {b : TtsBridge} {a : TtsAction} {c : AudioChunk} (h : c ∈ b.adds a) :
    ∃ j ∈ b.io.checked?, c.turn = j.sentence.turn := by
  unfold adds at h
  split at h
  · cases h
  · split at h
    · rename_i s out hio
      obtain rfl := List.mem_singleton.mp h
      exact ⟨s.job, by rw [hio]; rfl, rfl⟩
    · rename_i s tail hio
      obtain rfl := List.mem_singleton.mp h
      exact ⟨s.job, by rw [hio]; rfl, rfl⟩
    · cases h

/-- What is in the queue after a step was there before or is what the step adds. -/
theorem mem_queue_step (deviceRate : UInt32) (b : TtsBridge) (a : TtsAction) {c : AudioChunk}
    (hc : c ∈ (b.step deviceRate a).queue.q) : c ∈ b.queue.q ∨ c ∈ b.adds a := by
  cases a with
  | bus e =>
    have hqueue : (b.onEvent e).queue = b.queue := congrArg (·.2.2.1) (onEvent_frame b e)
    exact .inl (hqueue ▸ hc)
  | busAdvance =>
    simp only [step, busAdvance] at hc
    split at hc
    · exact .inl hc
    · exact .inl hc
    · cases hc
  | io a =>
    rw [step, (ioStep_queue _ _ _).1] at hc
    exact List.mem_append.mp hc
  | dequeue active => exact .inl ((PlaybackQueue.dequeueActive_sublist b.queue active).subset hc)

end TtsBridge

namespace SilenceMonitor

/-- The I/O thread's sentence is the one in flight, and an interrupted turn can pass no test. -/
structure Silent (m : SilenceMonitor) : Prop where
  stale : m.stale = []
  flight : ∀ j, m.bridge.io.job? = some j → m.bridge.inFlight = some j.cancel
  quiet : ∀ t ∈ m.silenced, m.bridge.Quiet t [] ∧ ∀ j ∈ m.bridge.io.checked?, j.sentence.turn ≠ t
  due : ∀ t rs, m.bridge.bus = .cancelling t rs → m.bridge.Quiet t rs

variable {deviceRate : UInt32} {m : SilenceMonitor}

lemma Silent.stale_step (h : m.Silent) (a : TtsAction) : (m.step deviceRate a).stale = [] := by
  simp only [step, h.stale, List.nil_append, List.filter_eq_nil_iff, decide_eq_true_eq]
  intro c hc hsilenced
  obtain ⟨j, hj, hturn⟩ := TtsBridge.checked_of_adds hc
  exact (h.quiet c.turn hsilenced).2 j hj hturn.symm

lemma Silent.io (h : m.Silent) (a : TtsIoAction) : (m.step deviceRate (.io a)).Silent := by
  have he := TtsBridge.ioStep_effect deviceRate m.bridge a
  have hsilenced : (m.step deviceRate (.io a)).silenced = m.silenced := by
    simp only [step, silencedBy]
    split
    · rename_i heq; cases heq
    · rename_i heq; cases heq
    · rfl
  refine ⟨h.stale_step _, fun j hj => ?_, ?_, fun t rs hbus => ?_⟩
  · rcases he.job j hj with ⟨hold, hsame⟩ | ⟨_, _, hnew⟩
    · exact hsame.trans (h.flight j hold)
    · exact hnew
  · rw [hsilenced]
    intro t ht
    obtain ⟨hquiet, hchecked⟩ := h.quiet t ht
    exact ⟨hquiet.io he, hquiet.checked_io he hchecked⟩
  · exact (h.due t rs (he.bus ▸ hbus)).io he

lemma Silent.busAdvance (h : m.Silent) (hsafe : m.Safe .busAdvance) :
    (m.step deviceRate .busAdvance).Silent := by
  cases hbus : m.bridge.bus with
  | idle =>
    have hstep : (m.step deviceRate .busAdvance).bridge = m.bridge := by
      simp [step, TtsBridge.step, TtsBridge.busAdvance, hbus]
    have hsilenced : (m.step deviceRate .busAdvance).silenced = m.silenced := by
      simp [step, silencedBy, hbus]
    exact ⟨h.stale_step _, hstep ▸ h.flight, by rw [hstep, hsilenced]; exact h.quiet, hstep ▸ h.due⟩
  | cancelling t due =>
    cases due with
    | nil =>
      have hstep : (m.step deviceRate .busAdvance).bridge =
          { m.bridge with queue := m.bridge.queue.clear.1, bus := .idle } := by
        simp [step, TtsBridge.step, TtsBridge.busAdvance, hbus]
      have hsilenced : (m.step deviceRate .busAdvance).silenced = t :: m.silenced := by
        simp [step, silencedBy, hbus]
      have hmono : ∀ u, m.bridge.Quiet u [] → (m.step deviceRate .busAdvance).bridge.Quiet u [] := by
        intro u hu
        rw [hstep]
        exact ⟨hu.pending, hu.token, hu.job⟩
      refine ⟨h.stale_step _, by rw [hstep]; exact h.flight, ?_, by rw [hstep]; intro u rs hu; cases hu⟩
      intro u hu
      rw [hsilenced] at hu
      rcases List.mem_cons.mp hu with rfl | hu
      · refine ⟨hmono u (h.due u [] hbus), ?_⟩
        rw [hstep]
        simpa only [Safe, hbus] using hsafe
      · refine ⟨hmono u (h.quiet u hu).1, ?_⟩
        rw [hstep]
        exact (h.quiet u hu).2
    | cons r rs =>
      have hstep : (m.step deviceRate .busAdvance).bridge =
          { m.bridge with heap := m.bridge.heap.cancel r, bus := .cancelling t rs } := by
        simp [step, TtsBridge.step, TtsBridge.busAdvance, hbus]
      have hsilenced : (m.step deviceRate .busAdvance).silenced = m.silenced := by
        simp [step, silencedBy, hbus]
      refine ⟨h.stale_step _, by rw [hstep]; exact h.flight, ?_, ?_⟩
      · rw [hsilenced, hstep]
        intro u hu
        obtain ⟨hquiet, hchecked⟩ := h.quiet u hu
        refine ⟨hquiet.mono (fun j hj _ => hj) (fun x hx => .inl hx) (fun x hx => ?_) rfl, hchecked⟩
        simp [hx]
      · rw [hstep]
        intro u rs' hu
        obtain ⟨rfl, rfl⟩ : t = u ∧ rs = rs' := by simpa using hu
        exact (h.due t (r :: rs) hbus).cancel _

lemma Silent.of_bus (h : m.Silent) (e : Event) (hmem : ∀ t ∈ m.silencedBy (.bus e), t ∈ m.silenced)
    (hquiet : ∀ t ∈ m.silencedBy (.bus e), (m.bridge.onEvent e).Quiet t [])
    (hdue : ∀ t rs, (m.bridge.onEvent e).bus = .cancelling t rs → (m.bridge.onEvent e).Quiet t rs) :
    (m.step deviceRate (.bus e)).Silent := by
  have hframe := TtsBridge.onEvent_frame m.bridge e
  simp only [Prod.mk.injEq] at hframe
  obtain ⟨hio, hflight, _⟩ := hframe
  refine ⟨h.stale_step _, ?_, fun t ht => ⟨hquiet t ht, ?_⟩, hdue⟩
  · intro j hj
    exact hflight.trans (h.flight j (hio ▸ hj))
  · intro j hj
    exact (h.quiet t (hmem t ht)).2 j (hio ▸ hj)

lemma Silent.ignored (h : m.Silent) (e : Event) (hevent : m.bridge.onEvent e = m.bridge)
    (hsilenced : m.silencedBy (.bus e) = m.silenced) : (m.step deviceRate (.bus e)).Silent := by
  refine h.of_bus e (fun t ht => hsilenced ▸ ht) (fun t ht => ?_) (by rw [hevent]; exact h.due)
  rw [hevent]
  exact (h.quiet t (hsilenced ▸ ht)).1

lemma Silent.bus (h : m.Silent) (e : Event) (hsafe : m.Safe (.bus e)) : (m.step deviceRate (.bus e)).Silent := by
  cases hbus : m.bridge.bus with
  | cancelling t rs => exact h.ignored e (by simp [TtsBridge.onEvent, hbus]) (by simp [silencedBy, hbus])
  | idle =>
    cases e with
    | llmStarted u =>
      have hevent : m.bridge.onEvent (.llmStarted u) = m.bridge.onLlmStarted u := by
        simp [TtsBridge.onEvent, hbus]
      have hsilenced : ∀ t ∈ m.silencedBy (.bus (.llmStarted u)), t ∈ m.silenced ∧ t ≠ u := by
        simp [silencedBy, hbus]
      refine h.of_bus _ (fun t ht => (hsilenced t ht).1) (fun t ht => ?_) (fun t rs hcan => ?_)
      · rw [hevent]
        exact TtsBridge.onLlmStarted_quiet (h.quiet t (hsilenced t ht).1).1 (hsilenced t ht).2
      · rw [hevent] at hcan
        exact absurd (hbus.symm.trans hcan) (by simp)
    | llmSentence e =>
      have hevent : m.bridge.onEvent (.llmSentence e) = m.bridge.onLlmSentence e := by
        simp [TtsBridge.onEvent, hbus]
      have hsilenced : m.silencedBy (.bus (.llmSentence e)) = m.silenced := by simp [silencedBy, hbus]
      simp only [Safe, hbus] at hsafe
      refine h.of_bus _ (fun t ht => hsilenced ▸ ht) (fun t ht => ?_) (fun t rs hcan => ?_)
      · rw [hevent]
        rw [hsilenced] at ht
        exact TtsBridge.onLlmSentence_quiet (h.quiet t ht).1 e fun heq => heq ▸ hsafe (heq ▸ ht)
      · rw [hevent, (TtsBridge.onLlmSentence_frame m.bridge e).2, hbus] at hcan
        cases hcan
    | llmFinished e =>
      have hevent : m.bridge.onEvent (.llmFinished e) = m.bridge.onLlmFinished e := by
        simp [TtsBridge.onEvent, hbus]
      have hsilenced : m.silencedBy (.bus (.llmFinished e)) = m.silenced := by simp [silencedBy, hbus]
      refine h.of_bus _ (fun t ht => hsilenced ▸ ht) (fun t ht => ?_) (fun t rs hcan => ?_)
      · rw [hevent]
        exact TtsBridge.onLlmFinished_quiet (h.quiet t (hsilenced ▸ ht)).1 e
      · rw [hevent] at hcan
        exact absurd (hbus.symm.trans hcan) (by simp)
    | userInterrupted e =>
      have hevent : m.bridge.onEvent (.userInterrupted e) = m.bridge.onUserInterrupted e := by
        simp [TtsBridge.onEvent, hbus]
      have hsilenced : m.silencedBy (.bus (.userInterrupted e)) = m.silenced := by simp [silencedBy, hbus]
      obtain ⟨due, hcancelling, hquiet⟩ := TtsBridge.onUserInterrupted_due h.flight e
      refine h.of_bus _ (fun t ht => hsilenced ▸ ht) (fun t ht => ?_) (fun t rs hcan => ?_)
      · rw [hevent]
        exact TtsBridge.onUserInterrupted_quiet (h.quiet t (hsilenced ▸ ht)).1 e
      · rw [hevent] at hcan ⊢
        obtain ⟨rfl, rfl⟩ : e.turn = t ∧ due = rs := by simpa using hcancelling.symm.trans hcan
        exact hquiet
    | _ => exact h.ignored _ (by simp [TtsBridge.onEvent, hbus]) (by simp [silencedBy, hbus])

lemma Silent.step (h : m.Silent) (a : TtsAction) (hsafe : m.Safe a) : (m.step deviceRate a).Silent := by
  cases a with
  | bus e => exact h.bus e hsafe
  | busAdvance => exact h.busAdvance hsafe
  | io a => exact h.io a
  | dequeue active =>
    have hsilenced : (m.step deviceRate (.dequeue active)).silenced = m.silenced := by
      simp only [SilenceMonitor.step, silencedBy]
      split
      · rename_i heq; cases heq
      · rename_i heq; cases heq
      · rfl
    refine ⟨h.stale_step _, h.flight, ?_, fun t rs hbus => ?_⟩
    · rw [hsilenced]
      intro t ht
      obtain ⟨hquiet, hchecked⟩ := h.quiet t ht
      exact ⟨⟨hquiet.pending, hquiet.token, hquiet.job⟩, hchecked⟩
    · have hquiet := h.due t rs hbus
      exact ⟨hquiet.pending, hquiet.token, hquiet.job⟩

/-- A run begins with an idle bridge before any queue. -/
def start (queue : PlaybackQueue) : SilenceMonitor := { bridge := { queue := queue } }

/-- In every interleaving whose steps are safe, nothing is enqueued for a turn after its
`on_user_interrupted` returned, until the turn is started again. -/
theorem interrupted_turn_stays_silent (deviceRate : UInt32) (queue : PlaybackQueue) (as : List TtsAction)
    (hsafe : Runs.Along (SilenceMonitor.step deviceRate) Safe (start queue) as) :
    (Runs.exec (SilenceMonitor.step deviceRate) (start queue) as).stale = [] := by
  have hstart : (start queue).Silent := by
    refine ⟨rfl, ?_, ?_, ?_⟩
    · intro j hj
      cases hj
    · intro t ht
      cases ht
    · intro t rs hbus
      cases hbus
  exact (hsafe.invariant Silent (fun _ a h hs => h.step a hs) hstart).stale

/-- Past its test, a chunk of the turn is enqueued right after the queue was cleared. -/
theorem stale_of_checked {t : TurnId} {j : TtsJob} (hbus : m.bridge.bus = .cancelling t [])
    (hj : m.bridge.io.checked? = some j) (ht : j.sentence.turn = t) :
    (Runs.exec (SilenceMonitor.step deviceRate) m [.busAdvance, .io .advance]).stale ≠ [] := by
  have hfull : ∀ p : PlaybackQueue, p.clear.1.full = false := by
    intro p
    by_cases hcap : p.cap = 0
    · simp [PlaybackQueue.full, PlaybackQueue.clear, hcap]
    · simp [PlaybackQueue.full, PlaybackQueue.clear, hcap]
  cases hio : m.bridge.io with
  | enqueuing s out =>
    obtain rfl : s.job = j := by simpa [hio, TtsIoStage.checked?] using hj
    simp [SilenceMonitor.step, silencedBy, TtsBridge.step, TtsBridge.busAdvance, TtsBridge.adds, hbus, hio, hfull,
      TtsJob.chunk, ht]
  | blocking s tail =>
    obtain rfl : s.job = j := by simpa [hio, TtsIoStage.checked?] using hj
    simp [SilenceMonitor.step, silencedBy, TtsBridge.step, TtsBridge.busAdvance, TtsBridge.adds, hbus, hio, hfull,
      TtsJob.chunk, ht]
  | _ => simp [hio, TtsIoStage.checked?] at hj

/-- A turn in the middle of its first sentence. -/
def speaking : List TtsAction :=
  [.bus (.llmStarted 1), .bus (.llmSentence { turn := 1 }), .io .advance, .io .advance, .io (.onFormat 22050)]

def interruption : List TtsAction :=
  [.bus (.userInterrupted { turn := 1 }), .busAdvance, .busAdvance, .busAdvance]

/-- The barge-in falls between two callbacks: the next chunk and the tail are not enqueued. -/
theorem interrupted_between_chunks_silent :
    let as := speaking ++ [.io (.onAudio [1] []), .io .advance] ++ interruption ++
      [.bus (.llmSentence { turn := 1, seq := 1 }), .io (.onAudio [2] []), .io (.submitReturns []), .io .advance]
    (Runs.exec (SilenceMonitor.step 22050) (start {}) as).stale = [] ∧
      (Runs.exec (SilenceMonitor.step 22050) (start {}) as).silenced = [1] :=
  ⟨interrupted_turn_stays_silent 22050 {} _ (by decide), by decide⟩

/-- The barge-in falls between the test of `on_audio` and `enqueue`: the chunk lands in the queue that was
just cleared. -/
theorem checked_chunk_enqueued_after_clear :
    let m := Runs.exec (SilenceMonitor.step 22050) (start {})
      (speaking ++ [.io (.onAudio [1] [])] ++ interruption ++ [.io .advance])
    m.silenced = [1] ∧ m.stale = [{ turn := 1, samples := [1] }] ∧ m.bridge.queue.q = m.stale := by
  decide

end SilenceMonitor

end Acva
