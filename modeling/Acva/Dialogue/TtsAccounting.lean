import Acva.Dialogue.TtsBridge

/-!
# The accounts of the TTS bridge

A monitor numbers the sentences as they arrive, from 1, and follows them: through `pending_`, to the I/O thread,
and to the end of `run_one`. It collects the chunks that come to stand in the playback queue, each with the number
of the sentence that the I/O thread works on.
-/

namespace Acva

/-- `arrived` is what `on_llm_sentence` was called with, `current` is the number of the sentence popped last,
`completed` are those that ended as synthesized or errored. -/
structure TtsAccounts where
  bridge : TtsBridge := {}
  arrived : List LlmSentence := []
  pending : List (Nat × TtsJob) := []
  current : Nat := 0
  started : List Nat := []
  chunks : List (Nat × AudioChunk) := []
  completed : List Nat := []

/-- A bridge in front of a playback queue of the given capacity. -/
def TtsBridge.create (cap : Nat) : TtsBridge := { queue := { cap := cap } }

/-- The sentence in flight: popped, and not counted yet. -/
def TtsBridge.working (b : TtsBridge) : Nat := if b.io.job?.isSome then 1 else 0

def LlmSentence.ref (e : LlmSentence) : SentenceRef := ⟨e.turn, e.seq⟩

namespace TtsAccounts

def received (m : TtsAccounts) : Nat := m.arrived.length

/-- The sentence that has the number. -/
def sentence? (m : TtsAccounts) : Nat → Option LlmSentence
  | 0 => none
  | n + 1 => m.arrived[n]?

def arrivedBy (m : TtsAccounts) (a : TtsAction) : List LlmSentence :=
  match m.bridge.bus, a with
  | .idle, .bus (.llmSentence e) => m.arrived ++ [e]
  | _, _ => m.arrived

/-- What is appended to `pending_` is the sentence that has just come; an interruption and a pop take sentences
out. -/
def pendingBy (m : TtsAccounts) (b' : TtsBridge) (a : TtsAction) : List (Nat × TtsJob) :=
  match m.bridge.bus, m.bridge.io, a with
  | .idle, _, .bus (.llmSentence _) =>
    m.pending ++ (b'.pending.drop m.pending.length).map fun j => (m.received + 1, j)
  | .idle, _, .bus (.userInterrupted e) => m.pending.filter fun x => x.2.sentence.turn ≠ e.turn
  | _, .waiting, .io .advance => m.pending.tail
  | _, _, _ => m.pending

def currentBy (m : TtsAccounts) (a : TtsAction) : Nat :=
  match m.bridge.io, m.pending, a with
  | .waiting, x :: _, .io .advance => x.1
  | _, _, _ => m.current

/-- The sentence popped last is announced. -/
def startedBy (m : TtsAccounts) (b' : TtsBridge) : List Nat :=
  m.started ++ (m.bridge.begins b').map fun _ => m.current

def completedBy (m : TtsAccounts) (b' : TtsBridge) : List Nat :=
  if m.bridge.synthesized + m.bridge.errored < b'.synthesized + b'.errored then m.completed ++ [m.current]
  else m.completed

def step (deviceRate : UInt32) (m : TtsAccounts) (a : TtsAction) : TtsAccounts :=
  let b' := m.bridge.step deviceRate a
  { bridge := b'
    arrived := m.arrivedBy a
    pending := m.pendingBy b' a
    current := m.currentBy a
    started := m.startedBy b'
    chunks := m.chunks ++ (m.bridge.queue.gained b'.queue).map fun c => (m.current, c)
    completed := m.completedBy b' }

/-- One chunk of the sentence ends it, after its other chunks and before those of the later sentences. -/
def Marked (chunks : List (Nat × AudioChunk)) (n : Nat) : Prop :=
  ∃ before c after, chunks = before ++ (n, c) :: after ∧ c.endOfSentence = true ∧
    (∀ d ∈ before, d.1 ≤ n ∧ (d.1 = n → d.2.endOfSentence = false)) ∧ ∀ d ∈ after, n < d.1

/-- The numbers stand for the sentences that arrived: the one that the I/O thread works on, those of the published
`TtsStarted`, and those whose turn and number the enqueued chunks carry. -/
structure Named (m : TtsAccounts) : Prop where
  job : ∀ j, m.bridge.io.job? = some j → m.sentence? m.current = some j.sentence
  started : m.started.map (fun n => (m.sentence? n).map LlmSentence.ref) = m.bridge.announced.map some
  chunks : ∀ x ∈ m.chunks, (m.sentence? x.1).map LlmSentence.ref = some x.2.ref

/-- Every sentence received is pending, in flight or counted once; they are started in the order of their arrival;
the queue has been given the chunks of the log and no others; and those that ended as synthesized or errored have
their end marker. -/
structure Accounted (m : TtsAccounts) : Prop where
  count : m.received =
    m.bridge.pending.length + m.bridge.working + m.bridge.synthesized + m.bridge.cancelled + m.bridge.errored
  named : m.Named
  order : m.started.Pairwise (· < ·)
  queue : m.bridge.queue.q.Sublist (m.chunks.map Prod.snd) ∧ m.bridge.queue.enqueued = m.chunks.length
  completed : m.completed.length = m.bridge.synthesized + m.bridge.errored ∧ m.completed.Pairwise (· < ·)
  marked : ∀ n ∈ m.completed, Marked m.chunks n

/-! ### The invariant -/

/-- The numbers of the pending sentences, which are above that of the current one. -/
structure Numbered (m : TtsAccounts) : Prop where
  jobs : m.pending.map Prod.snd = m.bridge.pending
  sorted : (m.pending.map Prod.fst).Pairwise (· < ·)
  later : ∀ x ∈ m.pending, m.current < x.1 ∧ x.1 ≤ m.received
  current : m.current ≤ m.received

/-- How far the current sentence has come: not started, without its end marker, or at its end. -/
def Stage (m : TtsAccounts) : Prop :=
  match m.bridge.io with
  | .popped _ => (∀ n ∈ m.started, n < m.current) ∧ ∀ c ∈ m.chunks, c.1 < m.current
  | .counting s => m.bridge.isCancelled s.job = true ∨ Marked m.chunks m.current
  | .waiting | .finished => True
  | _ => ∀ c ∈ m.chunks, c.1 = m.current → c.2.endOfSentence = false

structure Progress (m : TtsAccounts) : Prop where
  stage : m.Stage
  order : m.started.Pairwise (· < ·)
  started : ∀ n ∈ m.started, n ≤ m.current
  chunks : ∀ c ∈ m.chunks, c.1 ≤ m.current
  increasing : m.completed.Pairwise (· < ·)
  completed : ∀ n ∈ m.completed, Marked m.chunks n ∧ n ≤ m.current ∧ (m.bridge.io.job?.isSome → n < m.current)

structure Sound (m : TtsAccounts) : Prop where
  numbered : m.Numbered
  progress : m.Progress
  count : m.arrived.length =
    m.bridge.pending.length + m.bridge.working + m.bridge.synthesized + m.bridge.cancelled + m.bridge.errored
  tally : m.completed.length = m.bridge.synthesized + m.bridge.errored

lemma sound_create (cap : Nat) : ({ bridge := .create cap } : TtsAccounts).Sound := by
  refine ⟨⟨rfl, List.Pairwise.nil, ?_, le_rfl⟩, ⟨trivial, List.Pairwise.nil, ?_, ?_, List.Pairwise.nil, ?_⟩, rfl, rfl⟩
  · intro x hx
    cases hx
  · intro n hn
    cases hn
  · intro c hc
    cases hc
  · intro n hn
    cases hn

lemma Marked.append {chunks new : List (Nat × AudioChunk)} {n : Nat} (h : Marked chunks n)
    (hnew : ∀ c ∈ new, n < c.1) : Marked (chunks ++ new) n := by
  obtain ⟨before, c, after, rfl, heos, hbefore, hafter⟩ := h
  refine ⟨before, c, after ++ new, by simp, heos, hbefore, fun d hd => ?_⟩
  rcases List.mem_append.mp hd with hd | hd
  · exact hafter d hd
  · exact hnew d hd

variable {m m' : TtsAccounts}

lemma Progress.keep (h : m.Progress) (hcurrent : m'.current = m.current) (hstarted : m'.started = m.started)
    (hchunks : m'.chunks = m.chunks) (hcompleted : m'.completed = m.completed) (hstage : m'.Stage)
    (hjob : m'.bridge.io.job?.isSome → m.bridge.io.job?.isSome) : m'.Progress := by
  refine ⟨hstage, ?_, ?_, ?_, ?_, ?_⟩
  · rw [hstarted]
    exact h.order
  · rw [hstarted, hcurrent]
    exact h.started
  · rw [hchunks, hcurrent]
    exact h.chunks
  · rw [hcompleted]
    exact h.increasing
  · rw [hcompleted, hchunks, hcurrent]
    intro n hn
    obtain ⟨hmarked, hle, hlt⟩ := h.completed n hn
    exact ⟨hmarked, hle, fun hsome => hlt (hjob hsome)⟩

lemma Stage.of_heap (h : m.Stage) (hio : m'.bridge.io = m.bridge.io) (hcurrent : m'.current = m.current)
    (hstarted : m'.started = m.started) (hchunks : m'.chunks = m.chunks)
    (hheap : ∀ r, m.bridge.heap.isCancelled r = true → m'.bridge.heap.isCancelled r = true) : m'.Stage := by
  unfold Stage at h ⊢
  rw [hio, hcurrent, hstarted, hchunks]
  cases hstage : m.bridge.io with
  | counting s =>
    rw [hstage] at h
    exact h.imp_left (hheap s.job.cancel)
  | _ =>
    rw [hstage] at h
    exact h

/-- The sentences that an interruption takes out of `pending_` keep the others' numbers. -/
lemma Numbered.filter (h : m.Numbered) {b' : TtsBridge} (keep : TtsJob → Bool)
    (hpending : b'.pending = m.bridge.pending.filter keep) :
    ({ m with bridge := b', pending := m.pending.filter fun x => keep x.2 } : TtsAccounts).Numbered := by
  refine ⟨?_, ?_, ?_, h.current⟩
  · rw [hpending, ← h.jobs, List.filter_map]
    rfl
  · exact h.sorted.sublist (List.filter_sublist.map _)
  · intro x hx
    exact h.later x (List.mem_filter.mp hx).1

lemma Numbered.keep (h : m.Numbered) (hjobs : m'.bridge.pending = m.bridge.pending) (hpending : m'.pending = m.pending)
    (hcurrent : m'.current = m.current) (harrived : m'.arrived = m.arrived) : m'.Numbered := by
  refine ⟨?_, ?_, ?_, ?_⟩
  · rw [hpending, hjobs]
    exact h.jobs
  · rw [hpending]
    exact h.sorted
  · rw [hpending, hcurrent, received, harrived]
    exact h.later
  · rw [hcurrent, received, harrived]
    exact h.current

/-- A step of the bus thread that leaves `pending_` and the counters alone. -/
lemma Sound.heap (h : m.Sound) {b' : TtsBridge} (hio : b'.io = m.bridge.io) (hpending : b'.pending = m.bridge.pending)
    (hcounters : (b'.synthesized, b'.cancelled, b'.errored) =
      (m.bridge.synthesized, m.bridge.cancelled, m.bridge.errored))
    (hheap : ∀ r, m.bridge.heap.isCancelled r = true → b'.heap.isCancelled r = true) :
    ({ m with bridge := b' } : TtsAccounts).Sound := by
  simp only [Prod.mk.injEq] at hcounters
  obtain ⟨hsyn, hcan, herr⟩ := hcounters
  refine ⟨h.numbered.keep hpending rfl rfl rfl, h.progress.keep rfl rfl rfl rfl ?_ ?_, ?_, ?_⟩
  · exact h.progress.stage.of_heap hio rfl rfl rfl hheap
  · simp [hio]
  · have hcount := h.count
    simp only [TtsBridge.working] at hcount ⊢
    rw [hio, hpending, hsyn, hcan, herr]
    exact hcount
  · rw [hsyn, herr]
    exact h.tally

lemma step_eq (m : TtsAccounts) (deviceRate : UInt32) (a : TtsAction) :
    m.step deviceRate a =
      { bridge := m.bridge.step deviceRate a
        arrived := m.arrivedBy a
        pending := m.pendingBy (m.bridge.step deviceRate a) a
        current := m.currentBy a
        started := m.startedBy (m.bridge.step deviceRate a)
        chunks := m.chunks ++ (m.bridge.adds a).map fun c => (m.current, c)
        completed := m.completedBy (m.bridge.step deviceRate a) } := by
  simp only [step, (m.bridge.queue_step deviceRate a).1]

lemma step_of_bus (deviceRate : UInt32) (a : TtsAction) (ha : ∀ x, a ≠ .io x)
    (hio : (m.bridge.step deviceRate a).io = m.bridge.io)
    (hcounters : ((m.bridge.step deviceRate a).synthesized, (m.bridge.step deviceRate a).errored) =
      (m.bridge.synthesized, m.bridge.errored)) :
    m.step deviceRate a = { m with bridge := m.bridge.step deviceRate a, arrived := m.arrivedBy a
                                   pending := m.pendingBy (m.bridge.step deviceRate a) a } := by
  simp only [Prod.mk.injEq] at hcounters
  have hadds : m.bridge.adds a = [] := (m.bridge.step_frame deviceRate a ha).2.2
  have hcurrent : m.currentBy a = m.current := by
    unfold currentBy
    split
    · exact absurd rfl (ha _)
    · rfl
  have hstarted : m.startedBy (m.bridge.step deviceRate a) = m.started := by
    have hbegins : m.bridge.begins (m.bridge.step deviceRate a) = [] := by
      unfold TtsBridge.begins
      rw [hio]
      split
      · rename_i hpopped hsynth
        rw [hpopped] at hsynth
        cases hsynth
      · rfl
    simp [startedBy, hbegins]
  have hcompleted : m.completedBy (m.bridge.step deviceRate a) = m.completed := by
    unfold completedBy
    rw [hcounters.1, hcounters.2, if_neg (Nat.lt_irrefl _)]
  rw [step_eq]
  simp only [hadds, hcurrent, hstarted, hcompleted, List.map_nil, List.append_nil]

/-! ### Steps of the bus thread -/

lemma onLlmSentence_cases (b : TtsBridge) (e : LlmSentence) :
    ∃ tokens heap, (∀ r, b.heap.isCancelled r = true → heap.isCancelled r = true) ∧
      (b.onLlmSentence e = { b with tokens := tokens, heap := heap, cancelled := b.cancelled + 1 } ∨
        ∃ r, b.onLlmSentence e =
          { b with tokens := tokens, heap := heap, pending := b.pending ++ [{ sentence := e, cancel := r }] }) := by
  unfold TtsBridge.onLlmSentence TtsBridge.tokenFor
  split
  · refine ⟨b.tokens, b.heap, fun _ hr => hr, ?_⟩
    dsimp only
    split
    · exact .inl rfl
    · exact .inr ⟨_, rfl⟩
  · refine ⟨(b.newToken e.turn).tokens, b.heap.alloc.2, fun _ hr => hr, ?_⟩
    dsimp only
    split
    · exact .inl rfl
    · exact .inr ⟨_, rfl⟩

lemma onUserInterrupted_cases (b : TtsBridge) (e : UserInterrupted) :
    ∃ tokens heap bus, (∀ r, b.heap.isCancelled r = true → heap.isCancelled r = true) ∧
      b.onUserInterrupted e =
        { b with tokens := tokens, heap := heap, bus := bus
                 pending := b.pending.filter fun j => j.sentence.turn ≠ e.turn
                 cancelled := b.cancelled +
                   (b.pending.length - (b.pending.filter fun j => j.sentence.turn ≠ e.turn).length) } := by
  unfold TtsBridge.onUserInterrupted
  dsimp only
  split
  · exact ⟨_, _, _, fun _ hr => hr, rfl⟩
  · refine ⟨_, _, _, fun r hr => ?_, rfl⟩
    simp [TtsBridge.newToken, TtsBridge.setToken, hr]

lemma Sound.sentence (h : m.Sound) (deviceRate : UInt32) (e : LlmSentence) (hbus : m.bridge.bus = .idle) :
    (m.step deviceRate (.bus (.llmSentence e))).Sound := by
  obtain ⟨tokens, heap, hheap, hcases⟩ := onLlmSentence_cases m.bridge e
  have hstep : m.bridge.step deviceRate (.bus (.llmSentence e)) = m.bridge.onLlmSentence e := by
    simp [TtsBridge.step, TtsBridge.onEvent, hbus]
  have harrived : m.arrivedBy (.bus (.llmSentence e)) = m.arrived ++ [e] := by simp [arrivedBy, hbus]
  have hlength : m.pending.length = m.bridge.pending.length := by rw [← h.numbered.jobs, List.length_map]
  have hreceived : ∀ b' pending, ({ m with bridge := b', arrived := m.arrived ++ [e], pending := pending } :
      TtsAccounts).received = m.received + 1 := by
    intro b' pending
    simp [received]
  have hcount := h.count
  have hcurrent := h.numbered.current
  rcases hcases with heq | ⟨r, heq⟩
  · rw [step_of_bus deviceRate _ (by simp) (by rw [hstep, heq]) (by rw [hstep, heq]), hstep, harrived]
    have hpending : m.pendingBy (m.bridge.onLlmSentence e) (.bus (.llmSentence e)) = m.pending := by
      simp [pendingBy, hbus, heq, hlength]
    rw [hpending, heq]
    refine ⟨⟨h.numbered.jobs, h.numbered.sorted, fun x hx => ?_, ?_⟩,
      h.progress.keep rfl rfl rfl rfl (h.progress.stage.of_heap rfl rfl rfl rfl hheap) id, ?_, h.tally⟩
    · have hx' := h.numbered.later x hx
      rw [hreceived]
      dsimp only
      omega
    · rw [hreceived]
      dsimp only
      omega
    · simp only [TtsBridge.working, List.length_append, List.length_singleton] at hcount ⊢
      omega
  · rw [step_of_bus deviceRate _ (by simp) (by rw [hstep, heq]) (by rw [hstep, heq]), hstep, harrived]
    have hpending : m.pendingBy (m.bridge.onLlmSentence e) (.bus (.llmSentence e)) =
        m.pending ++ [(m.received + 1, { sentence := e, cancel := r })] := by
      simp [pendingBy, hbus, heq, hlength]
    rw [hpending, heq]
    refine ⟨⟨?_, ?_, fun x hx => ?_, ?_⟩,
      h.progress.keep rfl rfl rfl rfl (h.progress.stage.of_heap rfl rfl rfl rfl hheap) id, ?_, h.tally⟩
    · simp [h.numbered.jobs]
    · rw [List.map_append, List.pairwise_append]
      refine ⟨h.numbered.sorted, List.pairwise_singleton _ _, fun n hn k hk => ?_⟩
      obtain ⟨x, hx, rfl⟩ := List.mem_map.mp hn
      obtain rfl : k = m.received + 1 := by simpa using hk
      have hx' := h.numbered.later x hx
      omega
    · rw [hreceived]
      dsimp only
      rcases List.mem_append.mp hx with hx | hx
      · have hx' := h.numbered.later x hx
        omega
      · rw [List.mem_singleton.mp hx]
        dsimp only
        omega
    · rw [hreceived]
      dsimp only
      omega
    · simp only [TtsBridge.working, List.length_append, List.length_singleton] at hcount ⊢
      omega

lemma Sound.interrupted (h : m.Sound) (deviceRate : UInt32) (e : UserInterrupted) (hbus : m.bridge.bus = .idle) :
    (m.step deviceRate (.bus (.userInterrupted e))).Sound := by
  obtain ⟨tokens, heap, bus, hheap, heq⟩ := onUserInterrupted_cases m.bridge e
  have hstep : m.bridge.step deviceRate (.bus (.userInterrupted e)) = m.bridge.onUserInterrupted e := by
    simp [TtsBridge.step, TtsBridge.onEvent, hbus]
  have harrived : m.arrivedBy (.bus (.userInterrupted e)) = m.arrived := by simp [arrivedBy, hbus]
  have hpending : m.pendingBy (m.bridge.onUserInterrupted e) (.bus (.userInterrupted e)) =
      m.pending.filter fun x => decide (x.2.sentence.turn ≠ e.turn) := by
    simp [pendingBy, hbus]
  have hle := List.length_filter_le (fun j : TtsJob => decide (j.sentence.turn ≠ e.turn)) m.bridge.pending
  have hcount := h.count
  rw [step_of_bus deviceRate _ (by simp) (by rw [hstep, heq]) (by rw [hstep, heq]), hstep, harrived, hpending, heq]
  refine ⟨h.numbered.filter (fun j => decide (j.sentence.turn ≠ e.turn)) rfl,
    h.progress.keep rfl rfl rfl rfl (h.progress.stage.of_heap rfl rfl rfl rfl hheap) id, ?_, h.tally⟩
  simp only [TtsBridge.working] at hcount ⊢
  omega

lemma step_ignored (deviceRate : UInt32) (e : Event) (hsame : m.bridge.step deviceRate (.bus e) = m.bridge)
    (harrived : m.arrivedBy (.bus e) = m.arrived)
    (hpending : m.pendingBy m.bridge (.bus e) = m.pending) : m.step deviceRate (.bus e) = m := by
  rw [step_of_bus deviceRate _ (by simp) (by rw [hsame]) (by rw [hsame]), hsame, harrived, hpending]

lemma Sound.bus (h : m.Sound) (deviceRate : UInt32) (e : Event) : (m.step deviceRate (.bus e)).Sound := by
  cases hbus : m.bridge.bus with
  | cancelling turn due =>
    rw [step_ignored deviceRate e]
    · exact h
    · simp [TtsBridge.step, TtsBridge.onEvent, hbus]
    · simp [arrivedBy, hbus]
    · simp [pendingBy, hbus]
  | idle =>
    cases e with
    | llmSentence e => exact h.sentence deviceRate e hbus
    | userInterrupted e => exact h.interrupted deviceRate e hbus
    | llmStarted turn =>
      have hstep : m.bridge.step deviceRate (.bus (.llmStarted turn)) = m.bridge.newToken turn := by
        simp [TtsBridge.step, TtsBridge.onEvent, hbus, TtsBridge.onLlmStarted]
      rw [step_of_bus deviceRate _ (by simp) (by rw [hstep]; rfl) (by rw [hstep]; rfl), hstep]
      have harrived : m.arrivedBy (.bus (.llmStarted turn)) = m.arrived := by simp [arrivedBy, hbus]
      have hpending : m.pendingBy (m.bridge.newToken turn) (.bus (.llmStarted turn)) = m.pending := by
        simp [pendingBy, hbus]
      rw [harrived, hpending]
      exact h.heap rfl rfl rfl fun _ hr => hr
    | llmFinished e =>
      have hstep : m.bridge.step deviceRate (.bus (.llmFinished e)) = m.bridge.onLlmFinished e := by
        simp [TtsBridge.step, TtsBridge.onEvent, hbus]
      rw [step_of_bus deviceRate _ (by simp) (by rw [hstep]; rfl) (by rw [hstep]; rfl), hstep]
      have harrived : m.arrivedBy (.bus (.llmFinished e)) = m.arrived := by simp [arrivedBy, hbus]
      have hpending : m.pendingBy (m.bridge.onLlmFinished e) (.bus (.llmFinished e)) = m.pending := by
        simp [pendingBy, hbus]
      rw [harrived, hpending]
      exact h.heap rfl rfl rfl fun _ hr => hr
    | _ =>
      rw [step_ignored deviceRate _]
      · exact h
      · simp [TtsBridge.step, TtsBridge.onEvent, hbus]
      · simp [arrivedBy, hbus]
      · simp [pendingBy, hbus]

lemma books_unmoved {a : TtsAction} (b' : TtsBridge) (hbus : ∀ e, a ≠ .bus e) (hio : ∀ x, a ≠ .io x) :
    m.arrivedBy a = m.arrived ∧ m.pendingBy b' a = m.pending := by
  constructor
  · unfold arrivedBy
    split
    · exact absurd rfl (hbus _)
    · rfl
  · unfold pendingBy
    split
    · exact absurd rfl (hbus _)
    · exact absurd rfl (hbus _)
    · exact absurd rfl (hio _)
    · rfl

lemma Sound.busAdvance (h : m.Sound) (deviceRate : UInt32) : (m.step deviceRate .busAdvance).Sound := by
  have hstep : m.bridge.step deviceRate .busAdvance = m.bridge.busAdvance := rfl
  have hframe : m.bridge.busAdvance.io = m.bridge.io ∧ m.bridge.busAdvance.pending = m.bridge.pending ∧
      (m.bridge.busAdvance.synthesized, m.bridge.busAdvance.cancelled, m.bridge.busAdvance.errored) =
        (m.bridge.synthesized, m.bridge.cancelled, m.bridge.errored) ∧
      ∀ r, m.bridge.heap.isCancelled r = true → m.bridge.busAdvance.heap.isCancelled r = true := by
    unfold TtsBridge.busAdvance
    split
    · exact ⟨rfl, rfl, rfl, fun _ hr => hr⟩
    · refine ⟨rfl, rfl, rfl, fun r hr => ?_⟩
      simp [hr]
    · exact ⟨rfl, rfl, rfl, fun _ hr => hr⟩
  obtain ⟨hio, hpending, hcounters, hheap⟩ := hframe
  have hcounters' := hcounters
  simp only [Prod.mk.injEq] at hcounters'
  rw [step_of_bus deviceRate _ (by simp) (by rw [hstep, hio]) (by rw [hstep, hcounters'.1, hcounters'.2.2]), hstep]
  obtain ⟨harrived, hsame⟩ := books_unmoved (m := m) (a := .busAdvance) m.bridge.busAdvance (by simp) (by simp)
  rw [harrived, hsame]
  exact h.heap hio hpending hcounters hheap

lemma Sound.dequeue (h : m.Sound) (deviceRate : UInt32) (active : TurnId) :
    (m.step deviceRate (.dequeue active)).Sound := by
  rw [step_of_bus deviceRate _ (by simp) rfl rfl]
  obtain ⟨harrived, hsame⟩ := books_unmoved (m := m) (a := .dequeue active)
    (m.bridge.step deviceRate (.dequeue active)) (by simp) (by simp)
  rw [harrived, hsame]
  refine h.heap ?_ ?_ ?_ ?_
  · rfl
  · rfl
  · rfl
  · exact fun _ hr => hr

/-! ### Steps of the I/O thread -/

/-- Between `TtsStarted` and the end marker. -/
def midway : TtsIoStage → Bool
  | .synthesizing _ | .enqueuing _ _ | .submitted _ _ | .blocking _ _ | .polling _ _ => true
  | _ => false

lemma stage_of_midway (hmid : midway m.bridge.io = true) :
    m.Stage ↔ ∀ c ∈ m.chunks, c.1 = m.current → c.2.endOfSentence = false := by
  unfold Stage
  cases hio : m.bridge.io with
  | waiting => simp [hio, midway] at hmid
  | popped j => simp [hio, midway] at hmid
  | counting s => simp [hio, midway] at hmid
  | finished => simp [hio, midway] at hmid
  | _ => rfl

lemma job_of_midway {io : TtsIoStage} (hmid : midway io = true) : io.job?.isSome = true := by
  cases io <;> simp_all [midway, TtsIoStage.job?]

lemma arrivedBy_io (x : TtsIoAction) : m.arrivedBy (.io x) = m.arrived := by
  unfold arrivedBy
  split
  · simp_all
  · rfl

lemma step_of_io (deviceRate : UInt32) (x : TtsIoAction) (hwaiting : m.bridge.io ≠ .waiting) :
    m.step deviceRate (.io x) =
      { m with bridge := m.bridge.ioStep deviceRate x
               started := m.startedBy (m.bridge.ioStep deviceRate x)
               chunks := m.chunks ++ (m.bridge.adds (.io x)).map fun c => (m.current, c)
               completed := m.completedBy (m.bridge.ioStep deviceRate x) } := by
  have hpending : m.pendingBy (m.bridge.ioStep deviceRate x) (.io x) = m.pending := by
    unfold pendingBy
    split
    · simp_all
    · simp_all
    · exact absurd (by assumption) hwaiting
    · rfl
  have hcurrent : m.currentBy (.io x) = m.current := by
    unfold currentBy
    split
    · exact absurd (by assumption) hwaiting
    · rfl
  rw [step_eq]
  simp only [TtsBridge.step, hpending, hcurrent, arrivedBy_io]

/-- The logs of a sentence that has been started stay as they are unless a counter moves. -/
lemma logs_kept (b' : TtsBridge) (hpopped : ∀ j, m.bridge.io ≠ .popped j)
    (hcounters : (b'.synthesized, b'.errored) = (m.bridge.synthesized, m.bridge.errored)) :
    m.startedBy b' = m.started ∧ m.completedBy b' = m.completed := by
  simp only [Prod.mk.injEq] at hcounters
  constructor
  · unfold startedBy TtsBridge.begins
    split
    · exact absurd (by assumption) (hpopped _)
    · exact List.append_nil _
  · unfold completedBy
    rw [hcounters.1, hcounters.2, if_neg (Nat.lt_irrefl _)]

lemma logs_same : m.startedBy m.bridge = m.started ∧ m.completedBy m.bridge = m.completed := by
  constructor
  · unfold startedBy TtsBridge.begins
    split
    · simp_all
    · exact List.append_nil _
  · unfold completedBy
    rw [if_neg (Nat.lt_irrefl _)]

/-- The pending sentences and the counters. -/
def Frame (b b' : TtsBridge) : Prop :=
  b'.pending = b.pending ∧ b'.heap = b.heap ∧
    (b'.synthesized, b'.cancelled, b'.errored) = (b.synthesized, b.cancelled, b.errored)

/-- A step inside a sentence that counts nothing: what remains to show is the stage it leads to. -/
lemma Sound.inside (h : m.Sound) {deviceRate : UInt32} {x : TtsIoAction} {b' : TtsBridge}
    (hmid : midway m.bridge.io = true) (hstep : m.bridge.ioStep deviceRate x = b') (hframe : Frame m.bridge b')
    (hjob : b'.io.job?.isSome = true)
    (hstage : ({ m with bridge := b'
                        chunks := m.chunks ++ (m.bridge.adds (.io x)).map fun c => (m.current, c) } :
          TtsAccounts).Stage) :
    (m.step deviceRate (.io x)).Sound := by
  obtain ⟨hpending, _, hcounters⟩ := hframe
  simp only [Prod.mk.injEq] at hcounters
  obtain ⟨hsyn, hcan, herr⟩ := hcounters
  have hwaiting : m.bridge.io ≠ .waiting := by
    intro hio
    simp [hio, midway] at hmid
  have hpopped : ∀ j, m.bridge.io ≠ .popped j := by
    intro j hio
    simp [hio, midway] at hmid
  obtain ⟨hstarted, hcompleted⟩ := logs_kept (m := m) b' hpopped (by rw [hsyn, herr])
  have hbusy := job_of_midway hmid
  rw [step_of_io deviceRate x hwaiting, hstep, hstarted, hcompleted]
  refine ⟨?_, ⟨hstage, h.progress.order, h.progress.started, ?_, h.progress.increasing, ?_⟩, ?_, ?_⟩
  · exact h.numbered.keep hpending rfl rfl rfl
  · intro c hc
    rcases List.mem_append.mp hc with hc | hc
    · exact h.progress.chunks c hc
    · obtain ⟨d, _, rfl⟩ := List.mem_map.mp hc
      exact le_rfl
  · intro n hn
    obtain ⟨hmarked, hle, hlt⟩ := h.progress.completed n hn
    refine ⟨?_, hle, fun _ => hlt hbusy⟩
    apply hmarked.append
    intro c hc
    obtain ⟨d, _, rfl⟩ := List.mem_map.mp hc
    exact hlt hbusy
  · have hcount := h.count
    simp only [TtsBridge.working, hbusy, hjob, if_true, hpending, hsyn, hcan, herr] at hcount ⊢
    exact hcount
  · simp only [hsyn, herr]
    exact h.tally

lemma Sound.idle (h : m.Sound) {deviceRate : UInt32} {x : TtsIoAction} (hwaiting : m.bridge.io ≠ .waiting)
    (hstep : m.bridge.ioStep deviceRate x = m.bridge) (hadds : m.bridge.adds (.io x) = []) :
    (m.step deviceRate (.io x)).Sound := by
  obtain ⟨hstarted, hcompleted⟩ := logs_same (m := m)
  rw [step_of_io deviceRate x hwaiting, hstep, hadds, hstarted, hcompleted, List.map_nil, List.append_nil]
  exact h

lemma Sound.unmoved (h : m.Sound) {deviceRate : UInt32} {x : TtsIoAction} (hio : m.bridge.io = .waiting)
    (hstep : m.bridge.ioStep deviceRate x = m.bridge) (hx : x ≠ .advance ∨ m.pending = []) :
    (m.step deviceRate (.io x)).Sound := by
  have hadds : m.bridge.adds (.io x) = [] := by simp [TtsBridge.adds, hio]
  obtain ⟨hstarted, hcompleted⟩ := logs_same (m := m)
  have hpending : m.pendingBy m.bridge (.io x) = m.pending := by
    unfold pendingBy
    split <;> simp_all
  have hcurrent : m.currentBy (.io x) = m.current := by
    unfold currentBy
    split <;> simp_all
  have heq : m.step deviceRate (.io x) = m := by
    rw [step_eq]
    simp only [TtsBridge.step, hstep, arrivedBy_io, hpending, hcurrent, hstarted, hcompleted, hadds, List.map_nil,
      List.append_nil]
  rw [heq]
  exact h

lemma Sound.pop (h : m.Sound) (deviceRate : UInt32) {y : Nat × TtsJob} {ys : List (Nat × TtsJob)}
    (hio : m.bridge.io = .waiting) (hp : m.pending = y :: ys) : (m.step deviceRate (.io .advance)).Sound := by
  have hjobs : m.bridge.pending = y.2 :: ys.map Prod.snd := by rw [← h.numbered.jobs, hp, List.map_cons]
  have hstep : m.bridge.ioStep deviceRate .advance =
      { m.bridge with pending := ys.map Prod.snd, inFlight := some y.2.cancel, io := .popped y.2 } := by
    simp [TtsBridge.ioStep, hio, hjobs]
  have hadds : m.bridge.adds (.io .advance) = [] := by simp [TtsBridge.adds, hio]
  have hpending : ∀ b', m.pendingBy b' (.io .advance) = m.pending.tail := by
    intro b'
    unfold pendingBy
    split <;> simp_all
  have hcurrent : m.currentBy (.io .advance) = y.1 := by simp [currentBy, hio, hp]
  obtain ⟨hstarted, hcompleted⟩ := logs_kept (m := m)
    { m.bridge with pending := ys.map Prod.snd, inFlight := some y.2.cancel, io := .popped y.2 } (by simp [hio]) rfl
  have heq : m.step deviceRate (.io .advance) =
      { m with bridge := { m.bridge with pending := ys.map Prod.snd, inFlight := some y.2.cancel, io := .popped y.2 }
               pending := ys
               current := y.1 } := by
    rw [step_eq]
    simp only [TtsBridge.step, hstep, arrivedBy_io, hpending, hcurrent, hstarted, hcompleted, hadds, List.map_nil,
      List.append_nil, hp, List.tail_cons]
  have hy := h.numbered.later y (by simp [hp])
  have hsorted := h.numbered.sorted
  rw [hp, List.map_cons, List.pairwise_cons] at hsorted
  have hchunks : ∀ c ∈ m.chunks, c.1 < y.1 := fun c hc => lt_of_le_of_lt (h.progress.chunks c hc) hy.1
  have hbefore : ∀ n ∈ m.started, n < y.1 := fun n hn => lt_of_le_of_lt (h.progress.started n hn) hy.1
  have hcount := h.count
  rw [heq]
  refine ⟨⟨rfl, hsorted.2, fun z hz => ⟨?_, ?_⟩, hy.2⟩, ⟨⟨hbefore, hchunks⟩, h.progress.order,
    fun n hn => (hbefore n hn).le, fun c hc => (hchunks c hc).le, h.progress.increasing, ?_⟩, ?_, h.tally⟩
  · exact hsorted.1 z.1 (List.mem_map_of_mem hz)
  · exact (h.numbered.later z (by simp [hp, hz])).2
  · intro n hn
    obtain ⟨hmarked, hle, _⟩ := h.progress.completed n hn
    have hlt : n < y.1 := lt_of_le_of_lt hle hy.1
    exact ⟨hmarked, hlt.le, fun _ => hlt⟩
  · simp only [TtsBridge.working, TtsIoStage.job?, hio, hjobs, List.length_cons, Option.isSome_none,
      Option.isSome_some, Bool.false_eq_true, if_false, if_true] at hcount ⊢
    omega

lemma Sound.waiting (h : m.Sound) (deviceRate : UInt32) (x : TtsIoAction) (hio : m.bridge.io = .waiting) :
    (m.step deviceRate (.io x)).Sound := by
  by_cases hx : x = .advance
  · subst hx
    cases hp : m.pending with
    | nil =>
      have hjobs : m.bridge.pending = [] := by rw [← h.numbered.jobs, hp, List.map_nil]
      exact h.unmoved hio (by simp [TtsBridge.ioStep, hio, hjobs]) (.inr hp)
    | cons y ys => exact h.pop deviceRate hio hp
  · apply h.unmoved hio _ (.inl hx)
    cases x with
    | advance => exact absurd rfl hx
    | _ => simp [TtsBridge.ioStep, hio]

lemma Sound.cancelled (h : m.Sound) (hbusy : m.bridge.io.job?.isSome = true) :
    ({ m with bridge := { m.bridge with cancelled := m.bridge.cancelled + 1, io := .finished } } :
      TtsAccounts).Sound := by
  have hcount := h.count
  refine ⟨h.numbered.keep rfl rfl rfl rfl, h.progress.keep rfl rfl rfl rfl trivial (by simp [TtsIoStage.job?]), ?_,
    h.tally⟩
  simp only [TtsBridge.working, hbusy, if_true] at hcount
  simp only [TtsBridge.working, TtsIoStage.job?, Option.isSome_none, Bool.false_eq_true, if_false]
  omega

lemma Sound.begun (h : m.Sound) {j : TtsJob} (hio : m.bridge.io = .popped j) :
    ({ m with bridge := (m.bridge.publish [.ttsStarted j.ref]).setIo (.synthesizing { job := j })
              started := m.started ++ [m.current] } : TtsAccounts).Sound := by
  have hstage := h.progress.stage
  unfold Stage at hstage
  rw [hio] at hstage
  have hcount := h.count
  refine ⟨h.numbered.keep rfl rfl rfl rfl, ⟨?_, ?_, ?_, h.progress.chunks, h.progress.increasing, ?_⟩, ?_, h.tally⟩
  · intro c hc heq
    exact absurd heq (Nat.ne_of_lt (hstage.2 c hc))
  · rw [List.pairwise_append]
    refine ⟨h.progress.order, List.pairwise_singleton _ _, fun n hn k hk => ?_⟩
    rw [List.mem_singleton.mp hk]
    exact hstage.1 n hn
  · intro n hn
    rcases List.mem_append.mp hn with hn | hn
    · exact h.progress.started n hn
    · exact (List.mem_singleton.mp hn).le
  · intro n hn
    obtain ⟨hmarked, hle, hlt⟩ := h.progress.completed n hn
    exact ⟨hmarked, hle, fun _ => hlt (by simp [hio, TtsIoStage.job?])⟩
  · simp only [TtsBridge.working, TtsIoStage.job?, hio, TtsBridge.setIo, TtsBridge.publish, Option.isSome_some,
      if_true] at hcount ⊢
    omega

lemma Sound.popped (h : m.Sound) (deviceRate : UInt32) {j : TtsJob} (hio : m.bridge.io = .popped j) :
    (m.step deviceRate (.io .advance)).Sound := by
  have hwaiting : m.bridge.io ≠ .waiting := by simp [hio]
  have hadds : m.bridge.adds (.io .advance) = [] := by simp [TtsBridge.adds, hio]
  rw [step_of_io deviceRate _ hwaiting, hadds, List.map_nil, List.append_nil]
  by_cases hcancelled : m.bridge.isCancelled j = true
  · have hstep : m.bridge.ioStep deviceRate .advance =
        { m.bridge with cancelled := m.bridge.cancelled + 1, io := .finished } := by
      simp [TtsBridge.ioStep, hio, hcancelled, TtsBridge.setIo]
    have hstarted : m.startedBy { m.bridge with cancelled := m.bridge.cancelled + 1, io := .finished } = m.started := by
      simp [startedBy, TtsBridge.begins, hio]
    have hcompleted : m.completedBy { m.bridge with cancelled := m.bridge.cancelled + 1, io := .finished } =
        m.completed := by
      simp [completedBy]
    rw [hstep, hstarted, hcompleted]
    exact h.cancelled (by simp [hio, TtsIoStage.job?])
  · have hstep : m.bridge.ioStep deviceRate .advance =
        (m.bridge.publish [.ttsStarted j.ref]).setIo (.synthesizing { job := j }) := by
      simp [TtsBridge.ioStep, hio, hcancelled]
    have hstarted : m.startedBy ((m.bridge.publish [.ttsStarted j.ref]).setIo (.synthesizing { job := j })) =
        m.started ++ [m.current] := by
      simp [startedBy, TtsBridge.begins, hio, TtsBridge.setIo]
    have hcompleted : m.completedBy ((m.bridge.publish [.ttsStarted j.ref]).setIo (.synthesizing { job := j })) =
        m.completed := by
      simp [completedBy, TtsBridge.setIo, TtsBridge.publish]
    rw [hstep, hstarted, hcompleted]
    exact h.begun hio

lemma Sound.midway (h : m.Sound) {deviceRate : UInt32} {x : TtsIoAction} {b' : TtsBridge}
    (hmid : midway m.bridge.io = true) (hstep : m.bridge.ioStep deviceRate x = b') (hframe : Frame m.bridge b')
    (hmid' : TtsAccounts.midway b'.io = true) (hadds : ∀ c ∈ m.bridge.adds (.io x), c.endOfSentence = false) :
    (m.step deviceRate (.io x)).Sound := by
  refine h.inside hmid hstep hframe (job_of_midway hmid') ?_
  rw [stage_of_midway hmid']
  intro c hc hcurrent
  rcases List.mem_append.mp hc with hc | hc
  · exact (stage_of_midway hmid).mp h.progress.stage c hc hcurrent
  · obtain ⟨d, hd, rfl⟩ := List.mem_map.mp hc
    exact hadds d hd

lemma Sound.giveUp (h : m.Sound) {deviceRate : UInt32} {s : Synthesis} (hmid : TtsAccounts.midway m.bridge.io = true)
    (hstep : m.bridge.ioStep deviceRate .advance = m.bridge.setIo (.counting s))
    (hcancelled : m.bridge.isCancelled s.job = true) : (m.step deviceRate (.io .advance)).Sound :=
  h.inside hmid hstep ⟨rfl, rfl, rfl⟩ rfl (.inl hcancelled)

lemma Sound.blocking (h : m.Sound) (deviceRate : UInt32) {s : Synthesis} {tail : List Int16}
    (hio : m.bridge.io = .blocking s tail) : (m.step deviceRate (.io .advance)).Sound := by
  have hmid : TtsAccounts.midway m.bridge.io = true := by simp [hio, TtsAccounts.midway]
  have hstep : m.bridge.ioStep deviceRate .advance = m.bridge.enqueueLast s tail := by simp [TtsBridge.ioStep, hio]
  have hunmarked := (stage_of_midway hmid).mp h.progress.stage
  by_cases hfull : m.bridge.queue.full = true
  · have hlast : (m.bridge.enqueueLast s tail).io = .polling s tail := by
      simp [TtsBridge.enqueueLast, TtsBridge.setIo, PlaybackQueue.tryEnqueue, hfull]
    refine h.midway hmid hstep ⟨rfl, rfl, rfl⟩ (by simp [hlast, TtsAccounts.midway]) ?_
    simp [TtsBridge.adds, hfull]
  · have hlast : (m.bridge.enqueueLast s tail).io = .counting s := by
      simp [TtsBridge.enqueueLast, TtsBridge.setIo, PlaybackQueue.tryEnqueue, hfull]
    have hadds : m.bridge.adds (.io .advance) = [s.job.chunk tail true] := by simp [TtsBridge.adds, hfull, hio]
    refine h.inside hmid hstep ⟨rfl, rfl, rfl⟩ (by simp [hlast, TtsIoStage.job?]) ?_
    unfold Stage
    rw [hlast]
    right
    refine ⟨m.chunks, s.job.chunk tail true, [], by rw [hadds]; rfl, rfl, fun d hd => ?_, by simp⟩
    exact ⟨h.progress.chunks d hd, hunmarked d hd⟩

/-- A job that ends with its marker enqueued, errored or synthesized: one counter goes up and the sentence is
completed. -/
lemma Sound.ended (h : m.Sound) (hbusy : m.bridge.io.job?.isSome = true) (hmarked : Marked m.chunks m.current)
    {b' : TtsBridge} (hpending : b'.pending = m.bridge.pending) (hcancelled : b'.cancelled = m.bridge.cancelled)
    (hsum : b'.synthesized + b'.errored = m.bridge.synthesized + m.bridge.errored + 1) (hfinished : b'.io = .finished) :
    ({ m with bridge := b', completed := m.completedBy b' } : TtsAccounts).Sound := by
  have hcount := h.count
  have htally := h.tally
  simp only [TtsBridge.working, hbusy, if_true] at hcount
  have hcompleted : m.completedBy b' = m.completed ++ [m.current] := by
    unfold completedBy
    rw [if_pos (by omega)]
  rw [hcompleted]
  refine ⟨h.numbered.keep hpending rfl rfl rfl,
    ⟨?_, h.progress.order, h.progress.started, h.progress.chunks, ?_, ?_⟩, ?_, ?_⟩
  · simp [Stage, hfinished]
  · rw [List.pairwise_append]
    refine ⟨h.progress.increasing, List.pairwise_singleton _ _, fun n hn k hk => ?_⟩
    rw [List.mem_singleton.mp hk]
    exact (h.progress.completed n hn).2.2 hbusy
  · intro n hn
    have hidle : b'.io.job?.isSome → n < m.current := by simp [hfinished, TtsIoStage.job?]
    rcases List.mem_append.mp hn with hn | hn
    · obtain ⟨hold, hle, _⟩ := h.progress.completed n hn
      exact ⟨hold, hle, hidle⟩
    · rw [List.mem_singleton.mp hn] at hidle ⊢
      exact ⟨hmarked, le_rfl, hidle⟩
  · simp only [TtsBridge.working, hfinished, TtsIoStage.job?, hpending, hcancelled, Option.isSome_none,
      Bool.false_eq_true, if_false]
    omega
  · dsimp only
    rw [List.length_append, List.length_singleton]
    omega

lemma Sound.counting (h : m.Sound) (deviceRate : UInt32) {s : Synthesis} (hio : m.bridge.io = .counting s) :
    (m.step deviceRate (.io .advance)).Sound := by
  have hstep : m.bridge.ioStep deviceRate .advance = m.bridge.count s := by simp [TtsBridge.ioStep, hio]
  have hadds : m.bridge.adds (.io .advance) = [] := by simp [TtsBridge.adds, hio]
  have hstarted : ∀ b', m.startedBy b' = m.started := by
    intro b'
    simp [startedBy, TtsBridge.begins, hio]
  have hstage := h.progress.stage
  unfold Stage at hstage
  rw [hio] at hstage
  have hbusy : m.bridge.io.job?.isSome = true := by simp [hio, TtsIoStage.job?]
  rw [step_of_io deviceRate _ (by simp [hio]), hadds, hstep, hstarted, List.map_nil, List.append_nil]
  unfold TtsBridge.count
  by_cases hcancelled : m.bridge.isCancelled s.job = true
  · rw [if_pos hcancelled]
    have hcompleted : m.completedBy (({ m.bridge with cancelled := m.bridge.cancelled + 1 }).setIo .finished) =
        m.completed := by
      simp [completedBy, TtsBridge.setIo]
    rw [hcompleted]
    exact h.cancelled hbusy
  · have hmarked : Marked m.chunks m.current := hstage.resolve_left hcancelled
    rw [if_neg hcancelled]
    by_cases herror : s.gotError = true
    · rw [if_pos herror]
      exact h.ended hbusy hmarked rfl rfl (by simp only [TtsBridge.setIo]; omega) rfl
    · rw [if_neg herror]
      exact h.ended hbusy hmarked rfl rfl (by simp only [TtsBridge.setIo, TtsBridge.publish]; omega) rfl

lemma Sound.finished (h : m.Sound) (deviceRate : UInt32) (hio : m.bridge.io = .finished) :
    (m.step deviceRate (.io .advance)).Sound := by
  have hstep : m.bridge.ioStep deviceRate .advance = { m.bridge with inFlight := none, io := .waiting } := by
    simp [TtsBridge.ioStep, hio]
  have hadds : m.bridge.adds (.io .advance) = [] := by simp [TtsBridge.adds, hio]
  obtain ⟨hstarted, hcompleted⟩ := logs_kept (m := m) { m.bridge with inFlight := none, io := .waiting }
    (by simp [hio]) rfl
  have hcount := h.count
  rw [step_of_io deviceRate _ (by simp [hio]), hadds, hstep, hstarted, hcompleted, List.map_nil, List.append_nil]
  refine ⟨h.numbered.keep rfl rfl rfl rfl,
    h.progress.keep rfl rfl rfl rfl trivial (by simp [TtsIoStage.job?]), ?_, h.tally⟩
  simpa [TtsBridge.working, TtsIoStage.job?, hio] using hcount

lemma Sound.synthesizing (h : m.Sound) (deviceRate : UInt32) (x : TtsIoAction) {s : Synthesis}
    (hio : m.bridge.io = .synthesizing s) : (m.step deviceRate (.io x)).Sound := by
  have hmid : TtsAccounts.midway m.bridge.io = true := by simp [hio, TtsAccounts.midway]
  have hadds : m.bridge.adds (.io x) = [] := by simp [TtsBridge.adds, hio]
  have hsame : m.bridge.ioStep deviceRate x = m.bridge → (m.step deviceRate (.io x)).Sound :=
    fun hstep => h.idle (by simp [hio]) hstep hadds
  have hmove : ∀ io, m.bridge.ioStep deviceRate x = m.bridge.setIo io → TtsAccounts.midway io = true →
      (m.step deviceRate (.io x)).Sound :=
    fun io hstep hmid' => h.midway hmid hstep ⟨rfl, rfl, rfl⟩ hmid' (by simp [hadds])
  cases x with
  | advance =>
    apply hsame
    simp [TtsBridge.ioStep, hio]
  | onFormat rate =>
    by_cases hrate : rate ≤ 0
    · apply hmove (.synthesizing { s with gotError := true }) _ rfl
      simp [TtsBridge.ioStep, hio, hrate]
    · apply hmove (.synthesizing { s with gotFormat := true, resampling := rate ≠ deviceRate.toNat }) _ rfl
      simp [TtsBridge.ioStep, hio, hrate]
  | onAudio samples resampled =>
    have hstep : m.bridge.ioStep deviceRate (.onAudio samples resampled) = m.bridge.onAudio s samples resampled := by
      simp [TtsBridge.ioStep, hio]
    unfold TtsBridge.onAudio at hstep
    by_cases hdeaf : (s.gotError || m.bridge.isCancelled s.job) = true
    · rw [if_pos hdeaf] at hstep
      exact hsame hstep
    · rw [if_neg hdeaf] at hstep
      by_cases hout : (if s.resampling then resampled else samples) = []
      · simp only [hout, if_true] at hstep
        exact hsame hstep
      · simp only [hout, if_false] at hstep
        exact hmove _ hstep rfl
  | onError =>
    apply hmove (.synthesizing { s with gotError := true }) _ rfl
    simp [TtsBridge.ioStep, hio]
  | submitReturns tail =>
    apply hmove (.submitted s (if s.resampling && s.gotFormat then tail else [])) _ rfl
    simp [TtsBridge.ioStep, hio]

/-- The thread looks at the token before it waits for the queue: it gives up, or goes on. -/
lemma Sound.recheck (h : m.Sound) {deviceRate : UInt32} (s : Synthesis) (tail : List Int16)
    (hmid : TtsAccounts.midway m.bridge.io = true)
    (hstep : m.bridge.ioStep deviceRate .advance =
      if m.bridge.isCancelled s.job then m.bridge.setIo (.counting s) else m.bridge.setIo (.blocking s tail))
    (hadds : m.bridge.adds (.io .advance) = []) : (m.step deviceRate (.io .advance)).Sound := by
  by_cases hcancelled : m.bridge.isCancelled s.job = true
  · rw [if_pos hcancelled] at hstep
    exact h.giveUp hmid hstep hcancelled
  · rw [if_neg hcancelled] at hstep
    exact h.midway hmid hstep ⟨rfl, rfl, rfl⟩ rfl (by simp [hadds])

lemma Sound.advance (h : m.Sound) (deviceRate : UInt32) : (m.step deviceRate (.io .advance)).Sound := by
  cases hio : m.bridge.io with
  | waiting => exact h.waiting deviceRate .advance hio
  | popped j => exact h.popped deviceRate hio
  | synthesizing s => exact h.synthesizing deviceRate .advance hio
  | enqueuing s out =>
    have hmid : TtsAccounts.midway m.bridge.io = true := by simp [hio, TtsAccounts.midway]
    have hstep : m.bridge.ioStep deviceRate .advance = m.bridge.enqueueAudio s out := by simp [TtsBridge.ioStep, hio]
    refine h.midway hmid hstep ⟨rfl, rfl, rfl⟩ rfl ?_
    intro c hc
    unfold TtsBridge.adds at hc
    rw [hio] at hc
    split at hc
    · cases hc
    · rw [List.mem_singleton.mp hc]
      rfl
  | submitted s tail =>
    apply h.recheck s tail
    · simp [hio, TtsAccounts.midway]
    · simp only [TtsBridge.ioStep, hio]
    · simp [TtsBridge.adds, hio]
  | blocking s tail => exact h.blocking deviceRate hio
  | polling s tail =>
    apply h.recheck s tail
    · simp [hio, TtsAccounts.midway]
    · simp only [TtsBridge.ioStep, hio]
    · simp [TtsBridge.adds, hio]
  | counting s => exact h.counting deviceRate hio
  | finished => exact h.finished deviceRate hio

lemma Sound.io (h : m.Sound) (deviceRate : UInt32) (x : TtsIoAction) : (m.step deviceRate (.io x)).Sound := by
  by_cases hx : x = .advance
  · rw [hx]
    exact h.advance deviceRate
  · cases hio : m.bridge.io with
    | waiting => exact h.waiting deviceRate x hio
    | synthesizing s => exact h.synthesizing deviceRate x hio
    | _ =>
      -- the callbacks belong to `submit_fn_`
      refine h.idle (by simp [hio]) ?_ ?_
      · cases x with
        | advance => exact absurd rfl hx
        | _ => simp [TtsBridge.ioStep, hio]
      · cases x with
        | advance => exact absurd rfl hx
        | _ => simp [TtsBridge.adds, hio]

/-! ### The names of the sentences -/

/-- Pending sentences have their numbers too, and the log holds what the queue was given. -/
structure Followed (m : TtsAccounts) : Prop where
  named : m.Named
  pending : ∀ x ∈ m.pending, m.sentence? x.1 = some x.2.sentence
  queue : m.bridge.queue.q.Sublist (m.chunks.map Prod.snd) ∧ m.bridge.queue.enqueued = m.chunks.length

lemma followed_create (cap : Nat) : ({ bridge := .create cap } : TtsAccounts).Followed := by
  refine ⟨⟨?_, rfl, ?_⟩, ?_, List.nil_sublist _, rfl⟩
  · intro j hj
    cases hj
  · intro x hx
    cases hx
  · intro x hx
    cases hx

lemma sentence?_mono (h : m.arrived <+: m'.arrived) {n : Nat} {e : LlmSentence} (hn : m.sentence? n = some e) :
    m'.sentence? n = some e := by
  cases n with
  | zero => cases hn
  | succ n =>
    obtain ⟨new, hnew⟩ := h
    have hlt : n < m.arrived.length := (List.getElem?_eq_some_iff.mp hn).1
    change m'.arrived[n]? = some e
    rw [← hnew, List.getElem?_append_left hlt]
    exact hn

lemma arrived_step (deviceRate : UInt32) (a : TtsAction) : m.arrived <+: (m.step deviceRate a).arrived := by
  simp only [step, arrivedBy]
  split
  · exact List.prefix_append _ _
  · exact List.prefix_rfl

lemma Named.ref_mono (h : m.arrived <+: m'.arrived) {n : Nat} {r : SentenceRef}
    (hn : (m.sentence? n).map LlmSentence.ref = some r) : (m'.sentence? n).map LlmSentence.ref = some r := by
  obtain ⟨e, he, hr⟩ := Option.map_eq_some_iff.mp hn
  rw [sentence?_mono h he, Option.map_some, hr]

lemma Named.started_mono (h : m.Named) (harrived : m.arrived <+: m'.arrived) :
    m.started.map (fun n => (m'.sentence? n).map LlmSentence.ref) = m.bridge.announced.map some := by
  rw [← h.started]
  apply List.map_congr_left
  intro n hn
  have hmem : (m.sentence? n).map LlmSentence.ref ∈ m.bridge.announced.map some := by
    rw [← h.started]
    exact List.mem_map_of_mem hn
  obtain ⟨r, _, hr⟩ := List.mem_map.mp hmem
  rw [ref_mono harrived hr.symm, hr]

lemma Followed.job (h : m.Followed) (hn : m.Numbered) (deviceRate : UInt32) (x : TtsIoAction) {j : TtsJob}
    (hj : (m.bridge.ioStep deviceRate x).io.job? = some j) : m.sentence? (m.currentBy (.io x)) = some j.sentence := by
  rcases (m.bridge.ioStep_effect deviceRate x).job j hj with ⟨hold, _⟩ | ⟨hio, hhead, _⟩
  · have hcurrent : m.currentBy (.io x) = m.current := by
      unfold currentBy
      split
      · rename_i hio _ _
        rw [hio] at hold
        cases hold
      · rfl
    rw [hcurrent]
    exact h.named.job j hold
  · cases hp : m.pending with
    | nil =>
      rw [← hn.jobs, hp] at hhead
      cases hhead
    | cons y ys =>
      rw [← hn.jobs, hp, List.map_cons, List.head?_cons] at hhead
      have hy := h.pending y (by simp [hp])
      cases x with
      | advance => simpa [currentBy, hio, hp, ← Option.some.inj hhead] using hy
      | _ => simp [TtsBridge.ioStep, hio, TtsIoStage.job?] at hj

lemma Followed.io (h : m.Followed) (hn : m.Numbered) (deviceRate : UInt32) (x : TtsIoAction) :
    (m.step deviceRate (.io x)).Named := by
  have harrived := arrived_step (m := m) deviceRate (.io x)
  have hjob : ∀ j, m.bridge.io.job? = some j →
      ((m.step deviceRate (.io x)).sentence? m.current).map LlmSentence.ref = some j.ref := by
    intro j hj
    rw [sentence?_mono harrived (h.named.job j hj)]
    rfl
  refine ⟨fun j hj => ?_, ?_, fun y hy => ?_⟩
  · have hcurrent := h.job hn deviceRate x hj
    exact sentence?_mono harrived hcurrent
  · have hstarted := h.named.started_mono harrived
    have hbegins : (m.bridge.begins (m.bridge.ioStep deviceRate x)).map
        (fun _ => ((m.step deviceRate (.io x)).sentence? m.current).map LlmSentence.ref) =
        ((m.bridge.begins (m.bridge.ioStep deviceRate x)).map TtsJob.ref).map some := by
      unfold TtsBridge.begins
      split
      · rename_i j s hio _
        rw [List.map_singleton, List.map_singleton, List.map_singleton, hjob j (by rw [hio]; rfl)]
      · rfl
    calc (m.step deviceRate (.io x)).started.map
          (fun n => ((m.step deviceRate (.io x)).sentence? n).map LlmSentence.ref)
        = m.bridge.announced.map some ++
          ((m.bridge.begins (m.bridge.ioStep deviceRate x)).map TtsJob.ref).map some := by
          rw [← hbegins, ← hstarted, step_eq]
          simp only [startedBy, TtsBridge.step, List.map_append, List.map_map, Function.comp_def]
      _ = (m.step deviceRate (.io x)).bridge.announced.map some := by
          rw [← List.map_append, ← TtsBridge.ioStep_announced]
          rfl
  · rw [step_eq] at hy
    rcases List.mem_append.mp hy with hy | hy
    · exact Named.ref_mono harrived (h.named.chunks y hy)
    · obtain ⟨c, hc, rfl⟩ := List.mem_map.mp hy
      obtain ⟨j, hj, href⟩ := TtsBridge.ref_of_adds hc
      rw [hjob j hj, href]

lemma Followed.other (h : m.Followed) (deviceRate : UInt32) (a : TtsAction) (ha : ∀ x, a ≠ .io x) :
    (m.step deviceRate a).Named := by
  have harrived := arrived_step (m := m) deviceRate a
  obtain ⟨hio, hpublished, hadds⟩ := m.bridge.step_frame deviceRate a ha
  have hcurrent : m.currentBy a = m.current := by
    unfold currentBy
    split
    · exact absurd rfl (ha _)
    · rfl
  have hstarted : m.startedBy (m.bridge.step deviceRate a) = m.started := by
    unfold startedBy TtsBridge.begins
    rw [hio]
    cases m.bridge.io <;> simp
  refine ⟨fun j hj => ?_, ?_, fun y hy => ?_⟩
  · have hj' : m.bridge.io.job? = some j := by rwa [← hio]
    have hsentence := sentence?_mono harrived (h.named.job j hj')
    rw [step_eq] at hsentence ⊢
    rwa [hcurrent]
  · have hannounced : (m.step deviceRate a).bridge.announced = m.bridge.announced := by
      unfold TtsBridge.announced
      rw [step_eq, hpublished]
    have hlog : (m.step deviceRate a).started = m.started := by rw [step_eq, hstarted]
    rw [hlog, hannounced]
    exact h.named.started_mono harrived
  · rw [step_eq, hadds] at hy
    exact Named.ref_mono harrived (h.named.chunks y (by simpa using hy))

/-- The sentence that is appended to `pending_` is the last one that arrived. -/
lemma Followed.pending_step (h : m.Followed) (hn : m.Numbered) (deviceRate : UInt32) (a : TtsAction) :
    ∀ x ∈ (m.step deviceRate a).pending, (m.step deviceRate a).sentence? x.1 = some x.2.sentence := by
  have harrived := arrived_step (m := m) deviceRate a
  have hold : ∀ x ∈ m.pending, (m.step deviceRate a).sentence? x.1 = some x.2.sentence :=
    fun x hx => sentence?_mono harrived (h.pending x hx)
  intro x hx
  have hpending : x ∈ m.pendingBy (m.bridge.step deviceRate a) a := hx
  unfold pendingBy at hpending
  split at hpending
  · rename_i e hbus
    rcases List.mem_append.mp hpending with hx | hx
    · exact hold x hx
    · have hlength : m.pending.length = m.bridge.pending.length := by rw [← hn.jobs, List.length_map]
      have hlast : (m.step deviceRate (.bus (.llmSentence e))).sentence? (m.received + 1) = some e := by
        simp [step, sentence?, arrivedBy, hbus, received]
      obtain ⟨tokens, heap, _, hdrop | ⟨r, hqueue⟩⟩ := onLlmSentence_cases m.bridge e
      · simp [TtsBridge.step, TtsBridge.onEvent, hbus, hdrop, hlength] at hx
      · obtain rfl : x = (m.received + 1, { sentence := e, cancel := r }) := by
          simpa [TtsBridge.step, TtsBridge.onEvent, hbus, hqueue, hlength] using hx
        exact hlast
  · exact hold x (List.mem_filter.mp hpending).1
  · exact hold x (List.mem_of_mem_tail hpending)
  · exact hold x hpending

lemma Followed.step (h : m.Followed) (hn : m.Numbered) (deviceRate : UInt32) (a : TtsAction) :
    (m.step deviceRate a).Followed := by
  obtain ⟨_, henqueued, hsub⟩ := m.bridge.queue_step deviceRate a
  refine ⟨?_, h.pending_step hn deviceRate a, ?_⟩
  · cases a with
    | io x => exact h.io hn deviceRate x
    | _ => exact h.other deviceRate _ (by simp)
  · rw [step_eq]
    simp only [List.map_append, List.map_map, List.length_append, List.length_map, Function.comp_def, List.map_id']
    exact ⟨hsub.trans (h.queue.1.append_right _), by rw [henqueued, h.queue.2]⟩

lemma Sound.step (h : m.Sound) (deviceRate : UInt32) (a : TtsAction) : (m.step deviceRate a).Sound := by
  cases a with
  | bus e => exact h.bus deviceRate e
  | busAdvance => exact h.busAdvance deviceRate
  | io x => exact h.io deviceRate x
  | dequeue active => exact h.dequeue deviceRate active

/-- The accounts of every run are right, whatever the synthesizer does. -/
theorem sentences_accounted (deviceRate : UInt32) (cap : Nat) (as : List TtsAction) :
    (Runs.exec (step deviceRate) { bridge := .create cap } as).Accounted := by
  obtain ⟨hsound, hfollowed⟩ := Runs.exec_invariant (fun m : TtsAccounts => m.Sound ∧ m.Followed)
    (fun m a h => ⟨h.1.step deviceRate a, h.2.step h.1.numbered deviceRate a⟩)
    ⟨sound_create cap, followed_create cap⟩ as
  exact ⟨hsound.count, hfollowed.named, hsound.progress.order, hfollowed.queue,
    ⟨hsound.tally, hsound.progress.increasing⟩, fun n hn => (hsound.progress.completed n hn).1⟩

example :
    let m := Runs.exec (step 24000) { bridge := .create 1 }
      [.bus (.llmSentence { turn := 1, seq := 0 }), .bus (.llmSentence { turn := 1, seq := 1 }), .io .advance,
        .io .advance, .io (.onAudio [5] []), .io .advance, .io .onError, .io (.submitReturns []), .io .advance,
        .io .advance, .dequeue 1, .io .advance, .io .advance, .io .advance]
    (m.received, m.completed, m.chunks.map fun c => (c.1, c.2.endOfSentence)) = (2, [1], [(1, false), (1, true)]) := by
  decide

end TtsAccounts

end Acva
