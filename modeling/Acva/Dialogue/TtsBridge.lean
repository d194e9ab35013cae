import Acva.Dialogue.Turn
import Acva.Lib.Runs
import Acva.Playback.Queue

/-!
# The TTS bridge

`TtsBridge` has two threads. The bus thread keeps a token for each turn and a list of sentences to
synthesize; an interruption cancels tokens under the lock's shadow and then clears the playback
queue. The I/O thread synthesizes one sentence at a time, and tests its token before each chunk and
before the end-of-sentence chunk. A step is the code between two points at which the other thread can
interfere; what the synthesizer and the resampler produce is an input.
-/

namespace Acva

structure TtsJob where
  sentence : LlmSentence
  cancel : TokenRef
  deriving DecidableEq, Repr

/-- The locals of `run_one` that its callbacks share. -/
structure Synthesis where
  job : TtsJob
  resampling : Bool := false
  gotFormat : Bool := false
  gotError : Bool := false
  deriving DecidableEq, Repr

/-- Where the I/O thread is: a sentence popped, inside `submit_fn_`, past the check of `on_audio`,
after `submit_fn_` with the resampler's tail, in an attempt or between two attempts of
`enqueue_blocking`, before the counters, and before `in_flight_.reset()`. -/
inductive TtsIoStage
  | waiting
  | popped (job : TtsJob)
  | synthesizing (s : Synthesis)
  | enqueuing (s : Synthesis) (out : List Int16)
  | submitted (s : Synthesis) (tail : List Int16)
  | blocking (s : Synthesis) (tail : List Int16)
  | polling (s : Synthesis) (tail : List Int16)
  | counting (s : Synthesis)
  | finished
  deriving DecidableEq, Repr

/-- Where the bus thread is: inside `on_user_interrupted`, after the lock, the tokens that are still to
be cancelled. -/
inductive TtsBusStage
  | idle
  | cancelling (turn : TurnId) (toCancel : List TokenRef)
  deriving DecidableEq, Repr

/-- The bridge with its tokens, the queue it feeds and the events it has published. -/
structure TtsBridge where
  tokens : TurnId → Option TokenRef := fun _ => none
  pending : List TtsJob := []
  inFlight : Option TokenRef := none
  synthesized : Nat := 0
  cancelled : Nat := 0
  errored : Nat := 0
  heap : TokenHeap := {}
  bus : TtsBusStage := .idle
  io : TtsIoStage := .waiting
  queue : PlaybackQueue := {}
  published : List Event := []

namespace TtsBridge

def setIo (b : TtsBridge) (io : TtsIoStage) : TtsBridge := { b with io := io }

def publish (b : TtsBridge) (es : List Event) : TtsBridge := { b with published := b.published ++ es }

def setToken (b : TtsBridge) (turn : TurnId) (o : Option TokenRef) : TtsBridge :=
  { b with tokens := fun u => if u = turn then o else b.tokens u }

/-- A fresh token for the turn. -/
def newToken (b : TtsBridge) (turn : TurnId) : TtsBridge :=
  ({ b with heap := b.heap.alloc.2 }).setToken turn (some b.heap.next)

/-! ### The bus thread -/

/-- `token_for`: the turn's token, minted if there is none. -/
def tokenFor (b : TtsBridge) (turn : TurnId) : TtsBridge × TokenRef :=
  match b.tokens turn with
  | some r => (b, r)
  | none => (b.newToken turn, b.heap.next)

def onLlmStarted (b : TtsBridge) (turn : TurnId) : TtsBridge := b.newToken turn

def onLlmSentence (b : TtsBridge) (e : LlmSentence) : TtsBridge :=
  let r := b.tokenFor e.turn
  if r.1.heap.isCancelled r.2 then { r.1 with cancelled := r.1.cancelled + 1 }
  else { r.1 with pending := r.1.pending ++ [{ sentence := e, cancel := r.2 }] }

def onLlmFinished (b : TtsBridge) (e : LlmFinished) : TtsBridge := b.setToken e.turn none

/-- `on_user_interrupted` up to the end of its critical section. -/
def onUserInterrupted (b : TtsBridge) (e : UserInterrupted) : TtsBridge :=
  let kept := b.pending.filter fun j => j.sentence.turn ≠ e.turn
  let counted := { b with pending := kept, cancelled := b.cancelled + (b.pending.length - kept.length) }
  match b.tokens e.turn with
  | some r => { counted with bus := .cancelling e.turn (r :: b.inFlight.toList) }
  | none =>
    let fresh := counted.newToken e.turn
    { fresh with heap := fresh.heap.cancel b.heap.next, bus := .cancelling e.turn b.inFlight.toList }

/-- The rest of `on_user_interrupted`: one token, or `queue_.clear()` and the return. -/
def busAdvance (b : TtsBridge) : TtsBridge :=
  match b.bus with
  | .idle => b
  | .cancelling turn (r :: rs) => { b with heap := b.heap.cancel r, bus := .cancelling turn rs }
  | .cancelling _ [] => { b with queue := b.queue.clear.1, bus := .idle }

/-- `on_event`; the thread takes the next event once it is done with the last one. -/
def onEvent (b : TtsBridge) (e : Event) : TtsBridge :=
  match b.bus, e with
  | .idle, .llmStarted turn => b.onLlmStarted turn
  | .idle, .llmSentence e => b.onLlmSentence e
  | .idle, .llmFinished e => b.onLlmFinished e
  | .idle, .userInterrupted e => b.onUserInterrupted e
  | _, _ => b

end TtsBridge

/-! ### The I/O thread -/

/-- The calls `submit_fn_` makes and its return. `resampled` and `tail` are what the resampler gives,
if there is one. -/
inductive TtsIoAction
  | advance
  | onFormat (rate : Int)
  | onAudio (samples resampled : List Int16)
  | onError
  | submitReturns (tail : List Int16)
  deriving DecidableEq, Repr

def TtsJob.ref (j : TtsJob) : SentenceRef := ⟨j.sentence.turn, j.sentence.seq⟩

def TtsJob.chunk (j : TtsJob) (samples : List Int16) (endOfSentence : Bool) : AudioChunk :=
  { turn := j.sentence.turn, seq := j.sentence.seq, samples := samples, endOfSentence := endOfSentence }

/-- The event for a chunk that was enqueued. -/
def TtsJob.audioEvent (j : TtsJob) (samples : List Int16) : Event := .ttsAudioChunk j.ref (2 * samples.length)

namespace TtsBridge

def isCancelled (b : TtsBridge) (j : TtsJob) : Bool := b.heap.isCancelled j.cancel

/-- `on_audio` up to its call of `enqueue`. -/
def onAudio (b : TtsBridge) (s : Synthesis) (samples resampled : List Int16) : TtsBridge :=
  if s.gotError || b.isCancelled s.job then b
  else
    let out := if s.resampling then resampled else samples
    if out = [] then b else b.setIo (.enqueuing s out)

/-- `enqueue` in `on_audio`. -/
def enqueueAudio (b : TtsBridge) (s : Synthesis) (out : List Int16) : TtsBridge :=
  let r := b.queue.enqueue (s.job.chunk out false)
  (({ b with queue := r.1 }).publish (if r.2 then [s.job.audioEvent out] else [])).setIo (.synthesizing s)

/-- One attempt of `enqueue_blocking`. -/
def enqueueLast (b : TtsBridge) (s : Synthesis) (tail : List Int16) : TtsBridge :=
  let r := b.queue.tryEnqueue (s.job.chunk tail true)
  (({ b with queue := r.1 }).publish (if r.2 ∧ tail ≠ [] then [s.job.audioEvent tail] else [])).setIo
    (if r.2 then .counting s else .polling s tail)

/-- The counters at the end of `run_one`. -/
def count (b : TtsBridge) (s : Synthesis) : TtsBridge :=
  if b.isCancelled s.job then ({ b with cancelled := b.cancelled + 1 }).setIo .finished
  else if s.gotError then ({ b with errored := b.errored + 1 }).setIo .finished
  else (({ b with synthesized := b.synthesized + 1 }).publish [.ttsFinished s.job.ref]).setIo .finished

def ioStep (deviceRate : UInt32) (b : TtsBridge) (a : TtsIoAction) : TtsBridge :=
  match b.io, a with
  | .waiting, .advance =>
    match b.pending with
    | [] => b
    | j :: js => { b with pending := js, inFlight := some j.cancel, io := .popped j }
  | .popped j, .advance =>
    if b.isCancelled j then ({ b with cancelled := b.cancelled + 1 }).setIo .finished
    else (b.publish [.ttsStarted j.ref]).setIo (.synthesizing { job := j })
  | .synthesizing s, .onFormat rate =>
    if rate ≤ 0 then b.setIo (.synthesizing { s with gotError := true })
    else b.setIo (.synthesizing { s with gotFormat := true, resampling := rate ≠ deviceRate.toNat })
  | .synthesizing s, .onAudio samples resampled => b.onAudio s samples resampled
  | .synthesizing s, .onError => b.setIo (.synthesizing { s with gotError := true })
  | .enqueuing s out, .advance => b.enqueueAudio s out
  | .synthesizing s, .submitReturns tail =>
    b.setIo (.submitted s (if s.resampling && s.gotFormat then tail else []))
  | .submitted s tail, .advance =>
    if b.isCancelled s.job then b.setIo (.counting s) else b.setIo (.blocking s tail)
  | .blocking s tail, .advance => b.enqueueLast s tail
  | .polling s tail, .advance =>
    if b.isCancelled s.job then b.setIo (.counting s) else b.setIo (.blocking s tail)
  | .counting s, .advance => b.count s
  | .finished, .advance => { b with inFlight := none, io := .waiting }
  | _, _ => b

end TtsBridge

/-! ### Steps of either thread -/

/-- The bus thread takes an event or goes on with an interruption, the I/O thread takes a step, or the
audio callback takes a chunk. -/
inductive TtsAction
  | bus (e : Event)
  | busAdvance
  | io (a : TtsIoAction)
  | dequeue (active : TurnId)
  deriving DecidableEq, Repr

/-- The sentence that the I/O thread works on. -/
def TtsIoStage.job? : TtsIoStage → Option TtsJob
  | .popped j => some j
  | .synthesizing s | .enqueuing s _ | .submitted s _ | .blocking s _ | .polling s _ | .counting s => some s.job
  | _ => none

/-- A check of the token has passed and the chunk is not enqueued yet. -/
def TtsIoStage.checked? : TtsIoStage → Option TtsJob
  | .enqueuing s _ | .blocking s _ => some s.job
  | _ => none

namespace TtsBridge

def step (deviceRate : UInt32) (b : TtsBridge) : TtsAction → TtsBridge
  | .bus e => b.onEvent e
  | .busAdvance => b.busAdvance
  | .io a => b.ioStep deviceRate a
  | .dequeue active => { b with queue := (b.queue.dequeueActive active).1 }

/-- The chunk that the action adds to the queue. -/
def adds (b : TtsBridge) (a : TtsAction) : List AudioChunk :=
  if b.queue.full then []
  else match b.io, a with
    | .enqueuing s out, .io .advance => [s.job.chunk out false]
    | .blocking s tail, .io .advance => [s.job.chunk tail true]
    | _, _ => []

/-- What a step of the I/O thread can do to the bookkeeping. -/
structure IoEffect (b b' : TtsBridge) : Prop where
  tokens : b'.tokens = b.tokens
  heap : b'.heap = b.heap
  bus : b'.bus = b.bus
  pending : ∀ j ∈ b'.pending, j ∈ b.pending
  job : ∀ j, b'.io.job? = some j → (b.io.job? = some j ∧ b'.inFlight = b.inFlight) ∨
    (b.io = .waiting ∧ b.pending.head? = some j ∧ b'.inFlight = some j.cancel)
  checked : ∀ j, b'.io.checked? = some j →
    b.io.checked? = some j ∨ b.io.job? = some j ∧ b.isCancelled j = false

lemma IoEffect.refl (b : TtsBridge) : IoEffect b b :=
  ⟨rfl, rfl, rfl, fun _ h => h, fun _ h => .inl ⟨h, rfl⟩, fun _ h => .inl h⟩

/-- What `mu_` guards, the heap and the stage of the bus thread. -/
def books (b : TtsBridge) : (TurnId → Option TokenRef) × TokenHeap × TtsBusStage × List TtsJob × Option TokenRef :=
  (b.tokens, b.heap, b.bus, b.pending, b.inFlight)

lemma IoEffect.leave {b b' : TtsBridge} (hbooks : b'.books = b.books) (hjob : b'.io.job? = none)
    (hchecked : b'.io.checked? = none) : IoEffect b b' := by
  simp only [books, Prod.mk.injEq] at hbooks
  obtain ⟨htokens, hheap, hbus, hpending, _⟩ := hbooks
  exact ⟨htokens, hheap, hbus, fun j hj => hpending ▸ hj, by simp [hjob], by simp [hchecked]⟩

/-- Moving on with the same sentence; a check passes only if its token is not cancelled. -/
lemma IoEffect.move {b b' : TtsBridge} {j : TtsJob} (hbooks : b'.books = b.books) (hjob : b.io.job? = some j)
    (hjob' : b'.io.job? = some j) (hchecked : b'.io.checked? = none ∨ b.isCancelled j = false) :
    IoEffect b b' := by
  simp only [books, Prod.mk.injEq] at hbooks
  obtain ⟨htokens, hheap, hbus, hpending, hflight⟩ := hbooks
  refine ⟨htokens, hheap, hbus, fun i hi => hpending ▸ hi, fun i hi => ?_, fun i hi => ?_⟩
  · obtain rfl : j = i := Option.some.inj (hjob'.symm.trans hi)
    exact .inl ⟨hjob, hflight⟩
  · have hi' : b'.io.job? = some i := by
      cases hio : b'.io <;> simp [hio, TtsIoStage.checked?, TtsIoStage.job?] at hi ⊢ <;> exact hi
    obtain rfl : j = i := Option.some.inj (hjob'.symm.trans hi')
    rcases hchecked with hnone | hlive
    · exact absurd (hnone.symm.trans hi) (by simp)
    · exact .inr ⟨hjob, hlive⟩

lemma onAudio_effect {b : TtsBridge} {s : Synthesis} (hio : b.io = .synthesizing s) (samples resampled : List Int16) :
    IoEffect b (b.onAudio s samples resampled) := by
  unfold onAudio
  by_cases hcheck : s.gotError || b.isCancelled s.job
  · rw [if_pos hcheck]
    exact .refl b
  · rw [if_neg hcheck]
    simp only [Bool.or_eq_true, not_or, Bool.not_eq_true] at hcheck
    by_cases hout : (if s.resampling then resampled else samples) = []
    · simp only [hout, if_true]
      exact .refl b
    · simp only [hout, if_false]
      exact .move rfl (by rw [hio]; rfl) rfl (.inr hcheck.2)

lemma enqueueLast_effect {b : TtsBridge} {s : Synthesis} {tail : List Int16} (hio : b.io = .blocking s tail) :
    IoEffect b (b.enqueueLast s tail) := by
  unfold enqueueLast
  by_cases hr : (b.queue.tryEnqueue (s.job.chunk tail true)).2
  · simp only [hr, if_true]
    exact .move rfl (by rw [hio]; rfl) rfl (.inl rfl)
  · simp only [hr]
    exact .move rfl (by rw [hio]; rfl) rfl (.inl rfl)

lemma count_effect (b : TtsBridge) (s : Synthesis) : IoEffect b (b.count s) := by
  unfold count
  split
  · exact .leave rfl rfl rfl
  · split
    · exact .leave rfl rfl rfl
    · exact .leave rfl rfl rfl

theorem ioStep_effect (deviceRate : UInt32) (b : TtsBridge) (a : TtsIoAction) :
    IoEffect b (b.ioStep deviceRate a) := by
  unfold ioStep
  split
  · rename_i hio
    split
    · exact .refl b
    · rename_i j js hp
      refine ⟨rfl, rfl, rfl, fun x hx => hp ▸ List.mem_cons_of_mem _ hx, ?_, by simp [TtsIoStage.checked?]⟩
      intro x hx
      obtain rfl : j = x := by simpa [TtsIoStage.job?] using hx
      exact .inr ⟨hio, by rw [hp, List.head?_cons], rfl⟩
  · rename_i j hio
    split
    · exact .leave rfl rfl rfl
    · exact .move rfl (by rw [hio]; rfl) rfl (.inl rfl)
  · rename_i s rate hio
    split
    · exact .move rfl (by rw [hio]; rfl) rfl (.inl rfl)
    · exact .move rfl (by rw [hio]; rfl) rfl (.inl rfl)
  · rename_i s samples resampled hio
    exact onAudio_effect hio samples resampled
  · rename_i s hio
    exact .move rfl (by rw [hio]; rfl) rfl (.inl rfl)
  · rename_i s out hio
    exact .move rfl (by rw [hio]; rfl) rfl (.inl rfl)
  · rename_i s tail hio
    exact .move rfl (by rw [hio]; rfl) rfl (.inl rfl)
  · rename_i s tail hio
    split
    · exact .move rfl (by rw [hio]; rfl) rfl (.inl rfl)
    · rename_i hcheck
      exact .move rfl (by rw [hio]; rfl) rfl (.inr (by simpa using hcheck))
  · rename_i s tail hio
    exact enqueueLast_effect hio
  · rename_i s tail hio
    split
    · exact .move rfl (by rw [hio]; rfl) rfl (.inl rfl)
    · rename_i hcheck
      exact .move rfl (by rw [hio]; rfl) rfl (.inr (by simpa using hcheck))
  · rename_i s hio
    exact count_effect b s
  · exact ⟨rfl, rfl, rfl, fun _ h => h, by simp [TtsIoStage.job?], by simp [TtsIoStage.checked?]⟩
  · exact .refl b

/-! ### What reaches the queue -/

lemma tokenFor_eq (b : TtsBridge) (turn : TurnId) :
    (b.tokenFor turn).1 = b ∨ (b.tokenFor turn).1 = b.newToken turn := by
  unfold tokenFor
  split
  · exact .inl rfl
  · exact .inr rfl

lemma onLlmSentence_frame (b : TtsBridge) (e : LlmSentence) :
    ((b.onLlmSentence e).io, (b.onLlmSentence e).inFlight, (b.onLlmSentence e).queue,
      (b.onLlmSentence e).published) = (b.io, b.inFlight, b.queue, b.published) ∧
      (b.onLlmSentence e).bus = b.bus := by
  simp only [onLlmSentence]
  rcases tokenFor_eq b e.turn with heq | heq
  · rw [heq]
    split <;> exact ⟨rfl, rfl⟩
  · rw [heq]
    split <;> exact ⟨rfl, rfl⟩

/-- Taking an event touches neither the I/O thread nor the queue. -/
lemma onEvent_frame (b : TtsBridge) (e : Event) :
    ((b.onEvent e).io, (b.onEvent e).inFlight, (b.onEvent e).queue, (b.onEvent e).published) =
      (b.io, b.inFlight, b.queue, b.published) := by
  unfold onEvent
  split
  · rfl
  · rename_i e _
    exact (onLlmSentence_frame b e).1
  · rfl
  · unfold onUserInterrupted
    split <;> rfl
  · rfl

lemma onAudio_queue (b : TtsBridge) (s : Synthesis) (samples resampled : List Int16) :
    (b.onAudio s samples resampled).queue = b.queue := by
  unfold onAudio
  by_cases hcheck : s.gotError || b.isCancelled s.job
  · rw [if_pos hcheck]
  · rw [if_neg hcheck]
    by_cases hout : (if s.resampling then resampled else samples) = []
    · simp only [hout, if_true]
    · simp only [hout, if_false]
      rfl

lemma count_queue (b : TtsBridge) (s : Synthesis) : (b.count s).queue = b.queue := by
  unfold count
  split
  · rfl
  · split
    · rfl
    · rfl

lemma ioStep_queue (deviceRate : UInt32) (b : TtsBridge) (a : TtsIoAction) :
    (b.ioStep deviceRate a).queue.q = b.queue.q ++ b.adds (.io a) ∧
      (b.ioStep deviceRate a).queue.enqueued = b.queue.enqueued + (b.adds (.io a)).length := by
  cases hio : b.io with
  | enqueuing s out =>
    cases a with
    | advance =>
      simp only [ioStep, adds, hio]
      exact PlaybackQueue.enqueue_queue b.queue (s.job.chunk out false)
    | _ => simp [ioStep, adds, hio]
  | blocking s tail =>
    cases a with
    | advance =>
      simp only [ioStep, adds, hio]
      exact PlaybackQueue.tryEnqueue_queue b.queue (s.job.chunk tail true)
    | _ => simp [ioStep, adds, hio]
  | _ =>
    have hadds : b.adds (.io a) = [] := by simp [adds, hio]
    have hqueue : (b.ioStep deviceRate a).queue = b.queue := by
      simp only [ioStep, hio]
      cases a <;> simp only [onAudio_queue, count_queue] <;> first | rfl | (split <;> rfl)
    rw [hqueue, hadds, List.append_nil, List.length_nil, Nat.add_zero]
    exact ⟨rfl, rfl⟩

lemma step_frame (deviceRate : UInt32) (b : TtsBridge) (a : TtsAction) (ha : ∀ x, a ≠ .io x) :
    (b.step deviceRate a).io = b.io ∧ (b.step deviceRate a).published = b.published ∧ b.adds a = [] := by
  have hadds : b.adds a = [] := by
    unfold adds
    cases a with
    | io x => exact absurd rfl (ha x)
    | _ => simp
  cases a with
  | io x => exact absurd rfl (ha x)
  | bus e =>
    have hframe := onEvent_frame b e
    simp only [Prod.mk.injEq] at hframe
    exact ⟨hframe.1, hframe.2.2.2, hadds⟩
  | busAdvance =>
    refine ⟨?_, ?_, hadds⟩ <;>
    · simp only [step, busAdvance]
      split <;> rfl
  | dequeue active => exact ⟨rfl, rfl, hadds⟩

/-- Only the I/O thread appends to the queue; the other actions leave it or take chunks out. -/
lemma queue_step (deviceRate : UInt32) (b : TtsBridge) (a : TtsAction) :
    b.queue.gained (b.step deviceRate a).queue = b.adds a ∧
      (b.step deviceRate a).queue.enqueued = b.queue.enqueued + (b.adds a).length ∧
      (b.step deviceRate a).queue.q.Sublist (b.queue.q ++ b.adds a) := by
  have hother : (∀ x, a ≠ .io x) → (b.step deviceRate a).queue.q.Sublist b.queue.q →
      (b.step deviceRate a).queue.enqueued = b.queue.enqueued →
      b.queue.gained (b.step deviceRate a).queue = b.adds a ∧
        (b.step deviceRate a).queue.enqueued = b.queue.enqueued + (b.adds a).length ∧
        (b.step deviceRate a).queue.q.Sublist (b.queue.q ++ b.adds a) := by
    intro ha hsub henqueued
    rw [(step_frame deviceRate b a ha).2.2, List.append_nil]
    exact ⟨PlaybackQueue.gained_sublist hsub, henqueued, hsub⟩
  cases a with
  | io x =>
    obtain ⟨hq, henqueued⟩ := ioStep_queue deviceRate b x
    refine ⟨PlaybackQueue.gained_append hq, henqueued, ?_⟩
    simp only [step, hq, List.Sublist.refl]
  | bus e =>
    have hframe := onEvent_frame b e
    simp only [Prod.mk.injEq] at hframe
    apply hother (by simp)
    · simp only [step, hframe.2.2.1, List.Sublist.refl]
    · rw [step, hframe.2.2.1]
  | busAdvance =>
    apply hother (by simp)
    · simp only [step, busAdvance]
      split
      · exact .refl _
      · exact .refl _
      · exact List.nil_sublist _
    · simp only [step, busAdvance]
      split <;> rfl
  | dequeue active =>
    apply hother (by simp)
    · exact PlaybackQueue.dequeueActive_sublist b.queue active
    · simp only [step, PlaybackQueue.dequeueActive]
      split <;> rfl

/-- The chunk that is added carries the turn and the number of the sentence worked on. -/
lemma ref_of_adds {b : TtsBridge} {a : TtsAction} {c : AudioChunk} (h : c ∈ b.adds a) :
    ∃ j, b.io.job? = some j ∧ c.ref = j.ref := by
  unfold adds at h
  split at h
  · cases h
  · split at h
    · rename_i s out hio
      obtain rfl := List.mem_singleton.mp h
      exact ⟨s.job, by rw [hio]; rfl, rfl⟩
    · rename_i s tail hio
      obtain rfl := List.mem_singleton.mp h
      exact ⟨s.job, by rw [hio]; rfl, rfl⟩
    · cases h

/-! ### What is announced -/

/-- The sentences whose `TtsStarted` has been published. -/
def announced (b : TtsBridge) : List SentenceRef :=
  b.published.filterMap fun
    | .ttsStarted r => some r
    | _ => none

/-- The I/O thread goes from the pop to the synthesizer, which is where `TtsStarted` is published. -/
def begins (b b' : TtsBridge) : List TtsJob :=
  match b.io, b'.io with
  | .popped j, .synthesizing _ => [j]
  | _, _ => []

lemma onAudio_announced (b : TtsBridge) (s : Synthesis) (samples resampled : List Int16) :
    (b.onAudio s samples resampled).announced = b.announced := by
  unfold onAudio
  by_cases hcheck : s.gotError || b.isCancelled s.job
  · rw [if_pos hcheck]
  · rw [if_neg hcheck]
    by_cases hout : (if s.resampling then resampled else samples) = []
    · simp only [hout, if_true]
    · simp only [hout, if_false]
      rfl

lemma enqueueAudio_announced (b : TtsBridge) (s : Synthesis) (out : List Int16) :
    (b.enqueueAudio s out).announced = b.announced := by
  unfold enqueueAudio announced publish
  dsimp only [setIo]
  split <;> simp [TtsJob.audioEvent]

lemma enqueueLast_announced (b : TtsBridge) (s : Synthesis) (tail : List Int16) :
    (b.enqueueLast s tail).announced = b.announced := by
  unfold enqueueLast announced publish
  dsimp only [setIo]
  split <;> simp [TtsJob.audioEvent]

lemma count_announced (b : TtsBridge) (s : Synthesis) : (b.count s).announced = b.announced := by
  unfold count
  split
  · rfl
  · split
    · rfl
    · simp [announced, publish, setIo]

lemma ioStep_announced (deviceRate : UInt32) (b : TtsBridge) (a : TtsIoAction) :
    (b.ioStep deviceRate a).announced = b.announced ++ (b.begins (b.ioStep deviceRate a)).map TtsJob.ref := by
  cases hio : b.io with
  | popped j =>
    cases a with
    | advance =>
      simp only [ioStep, hio]
      split
      · simp [begins, hio, announced, setIo]
      · simp [begins, hio, announced, setIo, publish]
    | _ => simp [ioStep, begins, hio]
  | _ =>
    have hbegins : b.begins (b.ioStep deviceRate a) = [] := by simp [begins, hio]
    rw [hbegins, List.map_nil, List.append_nil]
    simp only [ioStep, hio]
    cases a <;> simp only [onAudio_announced, enqueueAudio_announced, enqueueLast_announced, count_announced] <;>
      first | rfl | (split <;> rfl)

end TtsBridge

end Acva
