import Acva.Dialogue.TtsBridge
import Acva.Playback.Rendering
import Acva.Stt.RealtimeWire
import Mathlib.Data.List.Induction

/-!
# From the sentences to the loudspeaker

The TTS bridge and the playback engine share the playback queue: the bus thread queues sentences, the I/O thread has
one after the other synthesized and resampled and queues the chunks, and the audio callback plays them. The playback
queue is unbounded, as in the default configuration. The synthesizer's calls and the resampler are whatever they are.
-/

namespace Acva

/-! ### Sentences on a tape -/

/-- The sentences that have ended on a tape, each with its samples, and the samples after the last end. -/
def sentencesOn (tape : List AudioChunk) : List (SentenceRef × List Int16) × List Int16 :=
  tape.foldl (fun on c =>
    if c.endOfSentence then (on.1 ++ [(c.ref, on.2 ++ c.samples)], []) else (on.1, on.2 ++ c.samples)) ([], [])

@[simp] lemma sentencesOn_nil : sentencesOn [] = ([], []) := rfl

lemma sentencesOn_concat (tape : List AudioChunk) (c : AudioChunk) : sentencesOn (tape ++ [c]) =
    if c.endOfSentence then ((sentencesOn tape).1 ++ [(c.ref, (sentencesOn tape).2 ++ c.samples)], [])
    else ((sentencesOn tape).1, (sentencesOn tape).2 ++ c.samples) := by
  simp [sentencesOn, List.foldl_append]

lemma samples_sentencesOn (tape : List AudioChunk) :
    tape.flatMap AudioChunk.samples = (sentencesOn tape).1.flatMap Prod.snd ++ (sentencesOn tape).2 := by
  induction tape using List.reverseRecOn with
  | nil => rfl
  | append_singleton tape c ih =>
    rw [List.flatMap_append, ih, sentencesOn_concat]
    split <;> simp

lemma marks_sentencesOn (tape : List AudioChunk) : marks tape = (sentencesOn tape).1.map Prod.fst := by
  induction tape using List.reverseRecOn with
  | nil => rfl
  | append_singleton tape c ih =>
    rw [marks, List.flatMap_append, ← marks, ih, sentencesOn_concat]
    cases hend : c.endOfSentence <;> simp [AudioChunk.mark, hend]

lemma sentencesOn_append (tape more : List AudioChunk) : (sentencesOn tape).1 <+: (sentencesOn (tape ++ more)).1 := by
  induction more using List.reverseRecOn with
  | nil => simp
  | append_singleton more c ih =>
    refine ih.trans ?_
    rw [← List.append_assoc, sentencesOn_concat]
    split
    · exact List.prefix_append _ _
    · exact List.prefix_refl _

/-! ### The voice of a sentence -/

/-- A call of a speech request to the callbacks of the bridge, and the return of `submit_fn_`. -/
inductive SynthCall
  | onFormat (rate : Int)
  | onAudio (samples : List Int16)
  | onError
  | returns
  deriving DecidableEq, Repr

/-- A request as its callbacks see it: the resampler from a rate to the one of the device, if there is one, whether the
request has failed, and the samples for the device. -/
structure Voice (ρ : Type) where
  resampler : Option (Int × ρ) := none
  failed : Bool := false
  out : List Int16 := []

namespace Voice

variable {ρ : Type} (r : Int → Resampler ρ) (deviceRate : UInt32)

/-- The resampler for a rate: none if it is the one of the device. -/
def resamplerFor (rate : Int) : Option (Int × ρ) :=
  if rate = deviceRate.toNat then none else some (rate, (r rate).start)

def process (resampler : Option (Int × ρ)) (samples : List Int16) : List Int16 × Option (Int × ρ) :=
  match resampler with
  | none => (samples, none)
  | some (rate, st) => (((r rate).process st samples).1, some (rate, ((r rate).process st samples).2))

def flush (resampler : Option (Int × ρ)) : List Int16 :=
  match resampler with
  | none => []
  | some (rate, st) => (r rate).flush st

/-- What a call adds. After an error no more audio is taken, but the resampler is still flushed. -/
def hear (v : Voice ρ) : SynthCall → Voice ρ
  | .onFormat rate =>
    if rate ≤ 0 then { v with failed := true } else { v with resampler := resamplerFor r deviceRate rate }
  | .onAudio samples =>
    if v.failed then v
    else { v with resampler := (process r v.resampler samples).2, out := v.out ++ (process r v.resampler samples).1 }
  | .onError => { v with failed := true }
  | .returns => { v with out := v.out ++ flush r v.resampler }

/-- The voice of a request that has made these calls. -/
def of (calls : List SynthCall) : Voice ρ := calls.foldl (hear r deviceRate) {}

@[simp] lemma of_nil : of r deviceRate [] = {} := rfl

lemma of_concat (calls : List SynthCall) (c : SynthCall) :
    of r deviceRate (calls ++ [c]) = (of r deviceRate calls).hear r deviceRate c := by
  simp [of, List.foldl_append]

end Voice

/-! ### The bridge and the device -/

/-- The bridge and the audio callback with the queue between them. `sentences` are those that the bus thread has
handled, `spoken` and `current` those that the I/O thread has taken, each with the calls of its request. -/
structure SpeechOut (ρ : Type) where
  bridge : TtsBridge := {}
  device : RenderLog := {}
  resampler : Option (Int × ρ) := none
  sentences : List LlmSentence := []
  spoken : List (LlmSentence × List SynthCall) := []
  current : Option (LlmSentence × List SynthCall) := none

/-- The bus thread handles an event or goes on with an interruption, the I/O thread goes on or is called by the
request, and the audio callback is called, makes a round of its loop or has its publisher relay an event. -/
inductive SpeechAction
  | bus (e : Event)
  | busAdvance
  | advance
  | request (c : SynthCall)
  | call (frames : Nat)
  | round (active : TurnId)
  | publish
  deriving DecidableEq, Repr

namespace SpeechOut

variable {ρ : Type} (r : Int → Resampler ρ) (deviceRate : UInt32)

def withBridge (s : SpeechOut ρ) (b : TtsBridge) : SpeechOut ρ :=
  { s with bridge := b, device := s.device.withQueue b.queue }

def withDevice (s : SpeechOut ρ) (w : RenderLog) : SpeechOut ρ :=
  { s with device := w, bridge := { s.bridge with queue := w.engine.queue } }

def heardCall (s : SpeechOut ρ) (c : SynthCall) : SpeechOut ρ :=
  { s with current := s.current.map fun x => (x.1, x.2 ++ [c]) }

/-- All sentences that the I/O thread has taken. -/
def taken (s : SpeechOut ρ) : List (LlmSentence × List SynthCall) := s.spoken ++ s.current.toList

/-- A call of the request for the sentence of `y`. -/
def request (s : SpeechOut ρ) (y : Synthesis) (c : SynthCall) : SpeechOut ρ :=
  let s' := s.heardCall c
  match c with
  | .onFormat rate =>
    { s'.withBridge (s.bridge.ioStep deviceRate (.onFormat rate)) with
      resampler := if rate ≤ 0 then s.resampler else Voice.resamplerFor r deviceRate rate }
  | .onAudio samples =>
    if y.gotError || s.bridge.isCancelled y.job then s'
    else
      { s'.withBridge (s.bridge.ioStep deviceRate (.onAudio samples (Voice.process r s.resampler samples).1)) with
        resampler := (Voice.process r s.resampler samples).2 }
  | .onError => s'.withBridge (s.bridge.ioStep deviceRate .onError)
  | .returns => s'.withBridge (s.bridge.ioStep deviceRate (.submitReturns (Voice.flush r s.resampler)))

/-- The sentence of an event. -/
def sentencesIn : Event → List LlmSentence
  | .llmSentence x => [x]
  | _ => []

/-- The bus thread takes an event once it is done with the last one. -/
def handle (s : SpeechOut ρ) (e : Event) : SpeechOut ρ :=
  { s.withBridge (s.bridge.onEvent e) with
    sentences := s.sentences ++ if s.bridge.bus = .idle then sentencesIn e else [] }

def step (s : SpeechOut ρ) : SpeechAction → SpeechOut ρ
  | .bus e => s.handle e
  | .busAdvance => s.withBridge s.bridge.busAdvance
  | .advance =>
    let s' := s.withBridge (s.bridge.ioStep deviceRate .advance)
    match s.bridge.io, s.bridge.pending with
    | .waiting, j :: _ => { s' with spoken := s.taken, current := some (j.sentence, []), resampler := none }
    | _, _ => s'
  | .request c =>
    match s.bridge.io with
    | .synthesizing y => s.request r deviceRate y c
    | _ => s
  | .call frames => s.withDevice (s.device.step (.call frames))
  | .round active => s.withDevice (s.device.step (.round active))
  | .publish => s.withDevice (s.device.step .publish)

/-- As `main` makes them, with an unbounded queue. -/
def create (prefillTargetSamples : Nat) (sink : Bool) : SpeechOut ρ :=
  { device := RenderLog.create prefillTargetSamples 0 sink }

/-- No interruption, only sentences of the turn, and only that turn is active. -/
def Undisturbed (t : TurnId) : SpeechAction → Prop
  | .bus (.userInterrupted _) => False
  | .bus (.llmSentence e) => e.turn = t
  | .round active => active = t
  | _ => True

/-- What has been queued and not dropped, in order. -/
def tape (s : SpeechOut ρ) : List AudioChunk := s.device.dequeued ++ s.bridge.queue.q

/-- The samples that the I/O thread holds. -/
def inHand (s : SpeechOut ρ) : List Int16 :=
  match s.bridge.io with
  | .enqueuing _ out => out
  | .submitted _ tail | .blocking _ tail | .polling _ tail => tail
  | _ => []

def voice (calls : List SynthCall) : List Int16 := (Voice.of r deviceRate calls).out

/-- A sentence with its samples. -/
def entry (x : LlmSentence × List SynthCall) : SentenceRef × List Int16 :=
  (⟨x.1.turn, x.1.seq⟩, voice r deviceRate x.2)

/-! ### The bridge undisturbed -/

/-- No token is cancelled, the bus thread is between two events, and everything belongs to the turn. -/
structure Quiet (t : TurnId) (b : TtsBridge) : Prop where
  heap : b.heap.cancelled = []
  bus : b.bus = .idle
  cap : b.queue.cap = 0
  queued : ∀ c ∈ b.queue.q, c.turn = t
  pending : ∀ j ∈ b.pending, j.sentence.turn = t
  job : ∀ j, b.io.job? = some j → j.sentence.turn = t

variable {t : TurnId} {b : TtsBridge}

lemma Quiet.isCancelled (h : Quiet t b) (j : TtsJob) : b.isCancelled j = false := by
  simp [TtsBridge.isCancelled, TokenHeap.isCancelled, h.heap]

lemma Quiet.full (h : Quiet t b) : b.queue.full = false := by simp [PlaybackQueue.full, h.cap]

lemma Quiet.onLlmSentence (h : Quiet t b) {e : LlmSentence} (he : e.turn = t) :
    Quiet t (b.onLlmSentence e) ∧ (b.onLlmSentence e).io = b.io ∧ (b.onLlmSentence e).queue = b.queue ∧
      (b.onLlmSentence e).pending.map TtsJob.sentence = b.pending.map TtsJob.sentence ++ [e] := by
  have hpending : ∀ r : TokenRef, ∀ j ∈ b.pending ++ [{ sentence := e, cancel := r }], j.sentence.turn = t := by
    intro r j hj
    rcases List.mem_append.mp hj with hj | hj
    · exact h.pending j hj
    · rw [List.mem_singleton.mp hj]
      exact he
  unfold TtsBridge.onLlmSentence TtsBridge.tokenFor
  cases htoken : b.tokens e.turn with
  | some r =>
    have hlive : b.heap.isCancelled r = false := by simp [TokenHeap.isCancelled, h.heap]
    simp only [hlive, Bool.false_eq_true, if_false]
    exact ⟨⟨h.heap, h.bus, h.cap, h.queued, hpending r, h.job⟩, trivial, trivial, by simp⟩
  | none =>
    have hlive : (b.newToken e.turn).heap.isCancelled b.heap.next = false := by
      simp [TokenHeap.isCancelled, TtsBridge.newToken, TtsBridge.setToken, TokenHeap.alloc, h.heap]
    simp only [hlive, Bool.false_eq_true, if_false]
    exact ⟨⟨h.heap, h.bus, h.cap, h.queued, hpending _, h.job⟩, rfl, rfl,
      by simp [TtsBridge.newToken, TtsBridge.setToken]⟩

/-- An event of the run: a sentence is queued, anything else leaves the sentences alone. -/
lemma Quiet.onEvent (h : Quiet t b) {e : Event} (he : Undisturbed t (.bus e)) :
    Quiet t (b.onEvent e) ∧ (b.onEvent e).io = b.io ∧ (b.onEvent e).queue = b.queue ∧
      (b.onEvent e).pending.map TtsJob.sentence = b.pending.map TtsJob.sentence ++ sentencesIn e := by
  have hbus := h.bus
  cases e with
  | llmSentence x =>
    have hstep : b.onEvent (.llmSentence x) = b.onLlmSentence x := by simp [TtsBridge.onEvent, hbus]
    rw [hstep]
    exact h.onLlmSentence he
  | userInterrupted x => exact absurd he id
  | llmStarted turn =>
    have hstep : b.onEvent (.llmStarted turn) = b.newToken turn := by
      simp [TtsBridge.onEvent, hbus, TtsBridge.onLlmStarted]
    rw [hstep]
    exact ⟨⟨h.heap, h.bus, h.cap, h.queued, h.pending, h.job⟩, rfl, rfl,
      by simp [TtsBridge.newToken, TtsBridge.setToken, sentencesIn]⟩
  | llmFinished x =>
    have hstep : b.onEvent (.llmFinished x) = b.setToken x.turn none := by
      simp [TtsBridge.onEvent, hbus, TtsBridge.onLlmFinished]
    rw [hstep]
    exact ⟨⟨h.heap, h.bus, h.cap, h.queued, h.pending, h.job⟩, rfl, rfl,
      by simp [TtsBridge.setToken, sentencesIn]⟩
  | _ =>
    simp only [TtsBridge.onEvent, hbus, sentencesIn, List.append_nil]
    exact ⟨h, trivial, trivial, trivial⟩

/-! ### The stages of the I/O thread -/

/-- What the callbacks have set is what the calls of the request say. -/
structure Agrees (y : Synthesis) (own : Option (Int × ρ)) (v : Voice ρ) : Prop where
  resampler : v.resampler = own
  failed : v.failed = y.gotError
  resampling : y.resampling = own.isSome
  gotFormat : own.isSome = true → y.gotFormat = true

/-- The sentence of `y` is under way: the tape has the sentences before it and, of its voice, all but what the thread
holds. -/
def Voicing (s : SpeechOut ρ) (y : Synthesis) : Prop :=
  ∃ calls rest, s.current = some (y.job.sentence, calls) ∧ Agrees y s.resampler (Voice.of r deviceRate calls) ∧
    sentencesOn s.tape = (s.spoken.map (entry r deviceRate), rest) ∧ voice r deviceRate calls = rest ++ s.inHand

def Stage (s : SpeechOut ρ) : Prop :=
  match s.bridge.io with
  | .waiting | .finished | .counting _ => sentencesOn s.tape = (s.taken.map (entry r deviceRate), [])
  | .popped j =>
    s.current = some (j.sentence, []) ∧ s.resampler = none ∧
      sentencesOn s.tape = (s.spoken.map (entry r deviceRate), [])
  | .synthesizing y | .enqueuing y _ | .submitted y _ | .blocking y _ | .polling y _ => s.Voicing r deviceRate y

structure Flow (t : TurnId) (s : SpeechOut ρ) : Prop where
  quiet : Quiet t s.bridge
  shared : s.device.engine.queue = s.bridge.queue
  faithful : s.device.Faithful
  order : s.sentences = s.taken.map Prod.fst ++ s.bridge.pending.map TtsJob.sentence
  stage : s.Stage r deviceRate

variable {r deviceRate} {s : SpeechOut ρ}

lemma flow_create (t : TurnId) (prefillTargetSamples : Nat) (sink : Bool) :
    Flow r deviceRate t (create prefillTargetSamples sink) :=
  ⟨⟨rfl, rfl, rfl, by simp [create], by simp [create], by simp [create, TtsIoStage.job?]⟩, rfl,
    RenderLog.faithful_create prefillTargetSamples 0 sink, rfl, rfl⟩

lemma Flow.device (h : Flow r deviceRate t s) (ht : t ≠ kNoTurn) {b' : TtsBridge} (hb : Quiet t b') :
    (s.device.withQueue b'.queue).Faithful := by
  apply h.faithful.withQueue
  intro c hc
  rw [hb.queued c hc]
  exact ht

lemma Flow.withBridge_self (h : Flow r deviceRate t s) : s.withBridge s.bridge = s := by
  have hsame : s.device.withQueue s.bridge.queue = s.device := by
    rw [← h.shared]
    rfl
  rw [withBridge, hsame]

lemma Flow.moved (h : Flow r deviceRate t s) (ht : t ≠ kNoTurn) {b' : TtsBridge} (hb : Quiet t b')
    (hpending : b'.pending = s.bridge.pending) (hstage : (s.withBridge b').Stage r deviceRate) :
    Flow r deviceRate t (s.withBridge b') :=
  ⟨hb, rfl, h.device ht hb, by simpa [withBridge, taken, hpending] using h.order, hstage⟩

lemma Quiet.setIo (h : Quiet t b) {io : TtsIoStage} (hjob : ∀ j, io.job? = some j → j.sentence.turn = t) :
    Quiet t (b.setIo io) :=
  ⟨h.heap, h.bus, h.cap, h.queued, h.pending, hjob⟩

lemma Quiet.push (h : Quiet t b) {j : TtsJob} (hj : j.sentence.turn = t) (samples : List Int16) (last : Bool) :
    Quiet t { b with queue := b.queue.push (j.chunk samples last) } := by
  refine ⟨h.heap, h.bus, h.cap, ?_, h.pending, h.job⟩
  intro c hc
  rcases List.mem_append.mp hc with hc | hc
  · exact h.queued c hc
  · rw [List.mem_singleton.mp hc]
    exact hj

lemma tape_push (s : SpeechOut ρ) {b : TtsBridge} {c : AudioChunk} (hqueue : b.queue = s.bridge.queue.push c) :
    (s.withBridge b).tape = s.tape ++ [c] := by
  simp [tape, withBridge, hqueue, PlaybackQueue.push, RenderLog.withQueue]

lemma Flow.advance (h : Flow r deviceRate t s) (ht : t ≠ kNoTurn) :
    Flow r deviceRate t (s.step r deviceRate .advance) := by
  have hquiet := h.quiet
  have hstage := h.stage
  cases hio : s.bridge.io with
  | waiting =>
    cases hpending : s.bridge.pending with
    | nil =>
      have hstep : s.step r deviceRate .advance = s := by
        simp only [step, TtsBridge.ioStep, hio, hpending]
        exact h.withBridge_self
      rw [hstep]
      exact h
    | cons j js =>
      have hj : j.sentence.turn = t := hquiet.pending j (by simp [hpending])
      have hb : Quiet t { s.bridge with pending := js, inFlight := some j.cancel, io := .popped j } := by
        refine ⟨hquiet.heap, hquiet.bus, hquiet.cap, hquiet.queued, ?_, ?_⟩
        · intro i hi
          exact hquiet.pending i (by rw [hpending]; exact List.mem_cons_of_mem _ hi)
        · intro i hi
          obtain rfl : j = i := Option.some.inj hi
          exact hj
      simp only [step, TtsBridge.ioStep, hio, hpending]
      refine ⟨hb, rfl, h.device ht hb, ?_, ?_⟩
      · have horder := h.order
        rw [hpending] at horder
        simp only [taken, Option.toList_some, List.map_append, List.map_cons, List.map_nil, List.append_assoc,
          List.singleton_append] at horder ⊢
        exact horder
      · simp only [Stage, hio] at hstage
        exact ⟨rfl, rfl, hstage⟩
  | popped j =>
    have hj := hquiet.job j (by rw [hio]; rfl)
    simp only [step, TtsBridge.ioStep, hio, hquiet.isCancelled, Bool.false_eq_true, if_false]
    simp only [Stage, hio] at hstage
    obtain ⟨hcurrent, hresampler, htape⟩ := hstage
    refine h.moved ht (Quiet.setIo (b := s.bridge.publish _) ⟨hquiet.heap, hquiet.bus, hquiet.cap, hquiet.queued,
      hquiet.pending, hquiet.job⟩ fun i hi => ?_) rfl ⟨[], [], hcurrent, ?_, htape, rfl⟩
    · obtain rfl : j = i := Option.some.inj hi
      exact hj
    · rw [show (s.withBridge _).resampler = s.resampler from rfl, hresampler]
      exact ⟨rfl, rfl, rfl, fun h => absurd h (by simp)⟩
  | synthesizing y =>
    have hstep : s.step r deviceRate .advance = s := by
      simp only [step, TtsBridge.ioStep, hio]
      exact h.withBridge_self
    rw [hstep]
    exact h
  | enqueuing y out =>
    have hy := hquiet.job y.job (by rw [hio]; rfl)
    have hpush : (s.bridge.queue.enqueue (y.job.chunk out false)).1 = s.bridge.queue.push (y.job.chunk out false) := by
      simp [PlaybackQueue.enqueue, hquiet.full]
    simp only [step, TtsBridge.ioStep, hio, TtsBridge.enqueueAudio]
    simp only [Stage, hio] at hstage
    obtain ⟨calls, rest, hcurrent, hagrees, htape, hvoice⟩ := hstage
    refine h.moved ht ?_ rfl ⟨calls, rest ++ out, hcurrent, hagrees, ?_, ?_⟩
    · rw [hpush]
      have hpushed := hquiet.push hy out false
      refine ⟨hpushed.heap, hpushed.bus, hpushed.cap, hpushed.queued, hpushed.pending, ?_⟩
      intro i hi
      obtain rfl : y.job = i := Option.some.inj hi
      exact hy
    · rw [tape_push s hpush, sentencesOn_concat, htape]
      rfl
    · rw [hvoice, inHand, hio]
      simp [inHand, withBridge, TtsBridge.setIo]
  | submitted y tail =>
    have hy := hquiet.job y.job (by rw [hio]; rfl)
    simp only [step, TtsBridge.ioStep, hio, hquiet.isCancelled, Bool.false_eq_true, if_false]
    simp only [Stage, hio] at hstage
    obtain ⟨calls, rest, hcurrent, hagrees, htape, hvoice⟩ := hstage
    refine h.moved ht (hquiet.setIo fun i hi => ?_) rfl ⟨calls, rest, hcurrent, hagrees, htape, ?_⟩
    · obtain rfl : y.job = i := Option.some.inj hi
      exact hy
    · rw [hvoice, inHand, hio]
      rfl
  | blocking y tail =>
    have hy := hquiet.job y.job (by rw [hio]; rfl)
    have hpush : s.bridge.queue.tryEnqueue (y.job.chunk tail true) =
        (s.bridge.queue.push (y.job.chunk tail true), true) := by
      simp [PlaybackQueue.tryEnqueue, hquiet.full]
    simp only [step, TtsBridge.ioStep, hio, TtsBridge.enqueueLast, hpush]
    simp only [Stage, hio] at hstage
    obtain ⟨calls, rest, hcurrent, hagrees, htape, hvoice⟩ := hstage
    refine h.moved ht ?_ rfl ?_
    · have hpushed := hquiet.push hy tail true
      refine ⟨hpushed.heap, hpushed.bus, hpushed.cap, hpushed.queued, hpushed.pending, ?_⟩
      intro i hi
      obtain rfl : y.job = i := Option.some.inj hi
      exact hy
    · -- the tail ends the sentence on the tape
      have hend : sentencesOn (s.tape ++ [y.job.chunk tail true]) = (s.taken.map (entry r deviceRate), []) := by
        rw [sentencesOn_concat, htape]
        rw [inHand, hio] at hvoice
        simp [taken, hcurrent, entry, hvoice, TtsJob.chunk, AudioChunk.ref]
      rw [← tape_push s (b := { s.bridge with queue := s.bridge.queue.push (y.job.chunk tail true) }) rfl] at hend
      exact hend
  | polling y tail =>
    have hy := hquiet.job y.job (by rw [hio]; rfl)
    simp only [step, TtsBridge.ioStep, hio, hquiet.isCancelled, Bool.false_eq_true, if_false]
    simp only [Stage, hio] at hstage
    obtain ⟨calls, rest, hcurrent, hagrees, htape, hvoice⟩ := hstage
    refine h.moved ht (hquiet.setIo fun i hi => ?_) rfl ⟨calls, rest, hcurrent, hagrees, htape, ?_⟩
    · obtain rfl : y.job = i := Option.some.inj hi
      exact hy
    · rw [hvoice, inHand, hio]
      rfl
  | counting y =>
    simp only [Stage, hio] at hstage
    simp only [step, TtsBridge.ioStep, hio, TtsBridge.count, hquiet.isCancelled, Bool.false_eq_true, if_false]
    split
    · exact h.moved ht (Quiet.setIo (b := { s.bridge with errored := s.bridge.errored + 1 })
        ⟨hquiet.heap, hquiet.bus, hquiet.cap, hquiet.queued, hquiet.pending, hquiet.job⟩
          fun i hi => by cases hi) rfl hstage
    · exact h.moved ht (Quiet.setIo
        (b := ({ s.bridge with synthesized := s.bridge.synthesized + 1 } : TtsBridge).publish _)
        ⟨hquiet.heap, hquiet.bus, hquiet.cap, hquiet.queued, hquiet.pending, hquiet.job⟩
          fun i hi => by cases hi) rfl hstage
  | finished =>
    simp only [Stage, hio] at hstage
    simp only [step, TtsBridge.ioStep, hio]
    exact h.moved ht ⟨hquiet.heap, hquiet.bus, hquiet.cap, hquiet.queued, hquiet.pending,
      fun i hi => by cases hi⟩ rfl hstage

lemma Flow.request (h : Flow r deviceRate t s) (ht : t ≠ kNoTurn) {y : Synthesis} (hio : s.bridge.io = .synthesizing y)
    (c : SynthCall) : Flow r deviceRate t (s.request r deviceRate y c) := by
  have hquiet := h.quiet
  have hy := hquiet.job y.job (by rw [hio]; rfl)
  have hstage := h.stage
  simp only [Stage, hio] at hstage
  obtain ⟨calls, rest, hcurrent, hagrees, htape, hvoice⟩ := hstage
  rw [inHand, hio, List.append_nil] at hvoice
  have hheard : (s.heardCall c).current = some (y.job.sentence, calls ++ [c]) := by simp [heardCall, hcurrent]
  have horder : s.sentences = (s.heardCall c).taken.map Prod.fst ++ s.bridge.pending.map TtsJob.sentence := by
    rw [h.order]
    simp [taken, heardCall, hcurrent]
  -- whatever the call sets, the bridge stays with the sentence
  have hsetIo : ∀ io : TtsIoStage, io.job? = some y.job → Quiet t (s.bridge.setIo io) := by
    intro io hjob
    apply hquiet.setIo
    intro i hi
    obtain rfl : y.job = i := Option.some.inj (hjob.symm.trans hi)
    exact hy
  cases c with
  | onFormat rate =>
    simp only [SpeechOut.request, TtsBridge.ioStep, hio]
    by_cases hrate : rate ≤ 0
    · simp only [hrate, if_true]
      refine ⟨hsetIo _ rfl, rfl, h.device ht (hsetIo _ rfl), horder, _, rest, hheard, ?_, htape, ?_⟩
      · rw [Voice.of_concat, Voice.hear, if_pos hrate]
        exact ⟨hagrees.resampler, rfl, hagrees.resampling, hagrees.gotFormat⟩
      · simp only [voice, Voice.of_concat, Voice.hear, hrate, if_true]
        exact hvoice.trans (List.append_nil _).symm
    · simp only [hrate, if_false]
      refine ⟨hsetIo _ rfl, rfl, h.device ht (hsetIo _ rfl), horder, _, rest, hheard, ?_, htape, ?_⟩
      · rw [Voice.of_concat, Voice.hear, if_neg hrate]
        refine ⟨rfl, hagrees.failed, ?_, fun _ => rfl⟩
        unfold Voice.resamplerFor
        by_cases hsame : rate = deviceRate.toNat <;> simp [hsame]
      · simp only [voice, Voice.of_concat, Voice.hear, hrate, if_false]
        exact hvoice.trans (List.append_nil _).symm
  | onAudio samples =>
    simp only [SpeechOut.request, hquiet.isCancelled, Bool.or_false]
    cases hfailed : y.gotError with
    | true =>
      simp only [if_true]
      refine ⟨hquiet, h.shared, h.faithful, horder, ?_⟩
      simp only [Stage, hio, heardCall]
      refine ⟨_, rest, hheard, ?_, htape, ?_⟩
      · rw [Voice.of_concat, Voice.hear, if_pos (hagrees.failed.trans hfailed)]
        exact hagrees
      · simp only [voice, Voice.of_concat, Voice.hear, hagrees.failed.trans hfailed, if_true, inHand, hio]
        exact hvoice.trans (List.append_nil _).symm
    | false =>
      have hlive : (Voice.of r deviceRate calls).failed = false := hagrees.failed.trans hfailed
      -- the bridge takes the resampler's samples if there is one
      have hout : (if y.resampling then (Voice.process r s.resampler samples).1 else samples) =
          (Voice.process r s.resampler samples).1 := by
        rw [hagrees.resampling]
        cases s.resampler <;> rfl
      have hagrees' : Agrees y (Voice.process r s.resampler samples).2
          (Voice.of r deviceRate (calls ++ [.onAudio samples])) := by
        rw [Voice.of_concat, Voice.hear, hlive, if_neg (by simp), hagrees.resampler]
        have hsome : (Voice.process r s.resampler samples).2.isSome = s.resampler.isSome := by
          cases s.resampler <;> rfl
        exact ⟨rfl, hfailed.symm, by rw [hsome]; exact hagrees.resampling, by rw [hsome]; exact hagrees.gotFormat⟩
      have hvoice' : voice r deviceRate (calls ++ [.onAudio samples]) =
          rest ++ (Voice.process r s.resampler samples).1 := by
        rw [voice, Voice.of_concat, Voice.hear, hlive, if_neg (by simp), hagrees.resampler, ← hvoice]
        rfl
      simp only [TtsBridge.ioStep, hio, TtsBridge.onAudio, hfailed, hquiet.isCancelled, Bool.or_false, hout]
      by_cases hnone : (Voice.process r s.resampler samples).1 = []
      · simp only [hnone, if_true, Bool.false_eq_true, if_false]
        refine ⟨hquiet, rfl, h.device ht hquiet, horder, ?_⟩
        simp only [Stage, withBridge, heardCall, hio]
        refine ⟨_, rest, hheard, hagrees', htape, ?_⟩
        rw [hvoice', hnone]
        simp [inHand, hio]
      · simp only [hnone, Bool.false_eq_true, if_false]
        exact ⟨hsetIo _ rfl, rfl, h.device ht (hsetIo _ rfl), horder, _, rest, hheard, hagrees', htape, hvoice'⟩
  | onError =>
    simp only [SpeechOut.request, TtsBridge.ioStep, hio]
    refine ⟨hsetIo _ rfl, rfl, h.device ht (hsetIo _ rfl), horder, _, rest, hheard, ?_, htape, ?_⟩
    · rw [Voice.of_concat, Voice.hear]
      exact ⟨hagrees.resampler, rfl, hagrees.resampling, hagrees.gotFormat⟩
    · simp only [voice, Voice.of_concat, Voice.hear]
      exact hvoice.trans (List.append_nil _).symm
  | returns =>
    have htail : (if y.resampling && y.gotFormat then Voice.flush r s.resampler else []) =
        Voice.flush r s.resampler := by
      have hresampling := hagrees.resampling
      have hgotFormat := hagrees.gotFormat
      cases hown : s.resampler with
      | none => simp [Voice.flush]
      | some own =>
        rw [hown] at hresampling hgotFormat
        simp [hresampling, hgotFormat rfl]
    simp only [SpeechOut.request, TtsBridge.ioStep, hio, htail]
    refine ⟨hsetIo _ rfl, rfl, h.device ht (hsetIo _ rfl), horder, _, rest, hheard, ?_, htape, ?_⟩
    · rw [Voice.of_concat, Voice.hear]
      exact ⟨hagrees.resampler, hagrees.failed, hagrees.resampling, hagrees.gotFormat⟩
    · rw [voice, Voice.of_concat, Voice.hear, hagrees.resampler, ← hvoice]
      rfl

/-! ### The device -/

lemma next_tape {e : PlaybackEngine} (h : ∀ c ∈ e.queue.q, c.turn = t) (rem : Nat) :
    (e.takes t).toList ++ (e.next t rem).1.queue.q = e.queue.q ∧ (e.next t rem).1.queue.cap = e.queue.cap := by
  cases hex : e.exhausted with
  | false =>
    rw [PlaybackEngine.takes_of_kept hex, PlaybackEngine.next_kept rem hex]
    exact ⟨rfl, rfl⟩
  | true =>
    obtain ⟨hgate, -⟩ := PlaybackEngine.finishCurrent_gate e t
    obtain ⟨hqueue, -⟩ := PlaybackEngine.prime_frame e.finishCurrent t
    rw [PlaybackEngine.next, if_pos hex, PlaybackEngine.refill, hgate, PlaybackEngine.takes, hex]
    cases hgated : e.gated t with
    | true =>
      rw [if_neg (by simp), if_pos rfl]
      exact ⟨congrArg PlaybackQueue.q (PlaybackEngine.finishCurrent_queue e),
        congrArg PlaybackQueue.cap (PlaybackEngine.finishCurrent_queue e)⟩
    | false =>
      rw [if_pos (by simp), if_neg (by simp), hqueue, PlaybackEngine.finishCurrent_queue]
      cases hq : e.queue.q with
      | nil => simp [PlaybackQueue.dequeueActive, PlaybackQueue.skipStale, hq]
      | cons c cs =>
        have hc := h c (by simp [hq])
        simp [PlaybackQueue.dequeueActive, PlaybackQueue.skipStale, hq, hc]

/-- A step of the audio callback moves chunks from the queue to what was taken. -/
structure Plays (w w' : RenderLog) : Prop where
  tape : w'.dequeued ++ w'.engine.queue.q = w.dequeued ++ w.engine.queue.q
  cap : w'.engine.queue.cap = w.engine.queue.cap
  queued : ∀ c ∈ w'.engine.queue.q, c ∈ w.engine.queue.q

lemma plays_round {w : RenderLog} (h : ∀ c ∈ w.engine.queue.q, c.turn = t) : Plays w (w.round t) := by
  unfold RenderLog.round
  cases htask : w.task with
  | none => exact ⟨rfl, rfl, fun _ hc => hc⟩
  | some task =>
    dsimp only
    split
    · exact ⟨rfl, rfl, fun _ hc => hc⟩
    · obtain ⟨htape, hcap⟩ := next_tape h (task.frames - task.written.length)
      have hqueued : ∀ c ∈ (w.engine.next t (task.frames - task.written.length)).1.queue.q, c ∈ w.engine.queue.q := by
        intro c hc
        rw [← htape]
        exact List.mem_append_right _ hc
      unfold RenderLog.turn
      dsimp only
      split
      · exact ⟨by simp only [List.append_assoc]; exact congrArg _ htape, hcap, hqueued⟩
      · exact ⟨by simp only [RenderLog.giveUp, List.append_assoc]; exact congrArg _ htape, hcap, hqueued⟩

lemma Flow.withDevice (h : Flow r deviceRate t s) {w : RenderLog} (hw : w.Faithful) (hplays : Plays s.device w) :
    Flow r deviceRate t (s.withDevice w) := by
  have htape : (s.withDevice w).tape = s.tape := by
    have hsame := hplays.tape
    rw [h.shared] at hsame
    exact hsame
  have hcap := hplays.cap
  have hqueued := hplays.queued
  rw [h.shared] at hcap hqueued
  refine ⟨⟨h.quiet.heap, h.quiet.bus, hcap.trans h.quiet.cap, fun c hc => h.quiet.queued c (hqueued c hc),
    h.quiet.pending, h.quiet.job⟩, rfl, hw, h.order, ?_⟩
  have hstage := h.stage
  unfold Stage Voicing at hstage ⊢
  rw [htape]
  exact hstage

/-! ### Runs -/

lemma Flow.step (h : Flow r deviceRate t s) (ht : t ≠ kNoTurn) {a : SpeechAction} (ha : Undisturbed t a) :
    Flow r deviceRate t (s.step r deviceRate a) := by
  cases a with
  | bus e =>
    obtain ⟨hquiet, hio, hqueue, hpending⟩ := h.quiet.onEvent ha
    have htape : (s.handle e).tape = s.tape := by simp [tape, handle, withBridge, hqueue, RenderLog.withQueue]
    have hstay : (s.handle e).bridge.io = s.bridge.io := hio
    refine ⟨hquiet, rfl, h.device ht hquiet, ?_, ?_⟩
    · have horder := h.order
      simp only [taken] at horder
      simp only [SpeechOut.step, handle, withBridge, taken, hpending, horder, h.quiet.bus, if_true, List.append_assoc]
    · have hstage := h.stage
      unfold Stage Voicing inHand at hstage ⊢
      rw [SpeechOut.step, htape, hstay]
      exact hstage
  | busAdvance =>
    have hstep : s.step r deviceRate .busAdvance = s := by
      simp only [SpeechOut.step, TtsBridge.busAdvance, h.quiet.bus]
      exact h.withBridge_self
    rw [hstep]
    exact h
  | advance => exact h.advance ht
  | request c =>
    unfold SpeechOut.step
    cases hio : s.bridge.io with
    | synthesizing y => exact h.request ht hio c
    | _ => exact h
  | call frames =>
    refine h.withDevice (h.faithful.step (a := .call frames) trivial) ?_
    simp only [RenderLog.step]
    split <;> exact ⟨rfl, rfl, fun _ hc => hc⟩
  | round active =>
    obtain rfl : active = t := ha
    refine h.withDevice (h.faithful.step (a := .round active) trivial) (plays_round fun c hc => ?_)
    rw [h.shared] at hc
    exact h.quiet.queued c hc
  | publish =>
    refine h.withDevice (h.faithful.step (a := .publish) trivial) ?_
    simp only [RenderLog.step, RenderLog.publish]
    split <;> exact ⟨rfl, rfl, fun _ hc => hc⟩

/-- The tape and what the I/O thread holds are the voices of the sentences taken. -/
lemma Flow.tape_spec (h : Flow r deviceRate t s) :
    s.tape.flatMap AudioChunk.samples ++ s.inHand = s.taken.flatMap (fun x => voice r deviceRate x.2) ∧
      (sentencesOn s.tape).1 <+: s.taken.map (entry r deviceRate) := by
  have hentries : ∀ xs : List (LlmSentence × List SynthCall),
      (xs.map (entry r deviceRate)).flatMap Prod.snd = xs.flatMap fun x => voice r deviceRate x.2 := by
    intro xs
    rw [List.flatMap_map]
    rfl
  have hstage := h.stage
  rw [samples_sentencesOn]
  cases hio : s.bridge.io with
  | waiting | finished | counting y =>
    simp only [Stage, hio] at hstage
    rw [hstage]
    exact ⟨by simp [inHand, hio, hentries], List.prefix_refl _⟩
  | popped j =>
    simp only [Stage, hio] at hstage
    obtain ⟨hcurrent, -, htape⟩ := hstage
    rw [htape]
    exact ⟨by simp [inHand, hio, hentries, taken, hcurrent, voice],
      by simp only [taken, List.map_append]; exact List.prefix_append _ _⟩
  | synthesizing y | enqueuing y out | submitted y tail | blocking y tail | polling y tail =>
    simp only [Stage, hio] at hstage
    obtain ⟨calls, rest, hcurrent, -, htape, hvoice⟩ := hstage
    rw [htape]
    exact ⟨by simp [hentries, taken, hcurrent, hvoice],
      by simp only [taken, List.map_append]; exact List.prefix_append _ _⟩

/-- While a turn is active and not interrupted its sentences are taken up in the order of the bus, and the samples that
the device was given, followed by those on their way, are the voices of the sentences taken, one after the other. The
ends announced so far are those of the first sentences, all of whose samples the device had got by then. -/
theorem answer_reaches_the_device (r : Int → Resampler ρ) (deviceRate : UInt32) (ht : t ≠ kNoTurn)
    (prefillTargetSamples : Nat) (sink : Bool) {acts : List SpeechAction} (hacts : ∀ a ∈ acts, Undisturbed t a) :
    let s := Runs.exec (step r deviceRate) (create prefillTargetSamples sink) acts
    s.sentences = s.taken.map Prod.fst ++ s.bridge.pending.map TtsJob.sentence ∧
    s.device.heard ++ s.device.engine.rest ++ s.bridge.queue.q.flatMap AudioChunk.samples ++ s.inHand =
      s.taken.flatMap (fun x => voice r deviceRate x.2) ∧
    ∃ k, s.device.posted = (s.taken.take k).map (fun x => ⟨x.1.turn, x.1.seq⟩) ∧
      (s.taken.take k).flatMap (fun x => voice r deviceRate x.2) <+: s.device.heard := by
  intro s
  have h : Flow r deviceRate t s := Runs.Along.invariant (Flow r deviceRate t) (fun _ _ hs ha => hs.step ht ha)
    (Runs.Along.of_forall hacts _) (flow_create t prefillTargetSamples sink)
  obtain ⟨hvoices, hended⟩ := h.tape_spec
  have haccounted := h.faithful.accounted
  refine ⟨h.order, ?_, ?_⟩
  · rw [haccounted.samples, ← hvoices, tape, List.flatMap_append]
  · obtain ⟨consumed, hdequeued, hposted, hheard⟩ := haccounted.played
    have hconsumed : (sentencesOn consumed).1 <+: s.taken.map (entry r deviceRate) := by
      refine (sentencesOn_append consumed (s.device.engine.cursor ++ s.bridge.queue.q)).trans ?_
      rw [← List.append_assoc, ← hdequeued]
      exact hended
    have hfirst : (sentencesOn consumed).1 =
        (s.taken.take (sentencesOn consumed).1.length).map (entry r deviceRate) := by
      rw [List.map_take]
      exact List.prefix_iff_eq_take.mp hconsumed
    refine ⟨(sentencesOn consumed).1.length, ?_, ?_⟩
    · rw [hposted, marks_sentencesOn, hfirst, List.map_map]
      simp [Function.comp_def, entry]
    · refine List.IsPrefix.trans ?_ hheard
      rw [samples_sentencesOn]
      refine List.IsPrefix.trans ?_ (List.prefix_append _ _)
      conv_rhs => rw [hfirst]
      rw [List.flatMap_map]
      exact List.prefix_refl _

/-- A resampler that keeps the last sample back until the next block. -/
def lateSample : Resampler (List Int16) where
  start := []
  process held samples := ((held ++ samples).dropLast, (held ++ samples).drop ((held ++ samples).length - 1))
  flush held := held

/-- Two sentences, the first of which needs the resampler. -/
def twoSentences : List SpeechAction :=
  [.bus (.llmStarted 1), .bus (.llmSentence { turn := 1, seq := 0 }), .bus (.llmSentence { turn := 1, seq := 1 }),
   .advance, .advance, .request (.onFormat 24000), .request (.onAudio [5, 6, 7]), .advance, .call 4, .round 1, .round 1,
   .request .returns, .advance, .advance, .advance, .advance,
   .advance, .advance, .request (.onFormat 22050), .request (.onAudio [8]), .call 2, .round 1, .round 1, .advance,
   .request .returns, .advance, .advance, .call 2, .round 1, .round 1, .round 1]

/-- Both are heard, and the first has been announced. -/
theorem two_sentences_spoken :
    let s := Runs.exec (step (fun _ => lateSample) 22050) (create 0 true) twoSentences
    s.device.heard = [5, 6, 7, 8] ∧ s.device.posted = [⟨1, 0⟩, ⟨1, 1⟩] ∧
      s.device.heard ++ s.device.engine.rest ++ s.bridge.queue.q.flatMap AudioChunk.samples ++ s.inHand =
        s.taken.flatMap (fun x => voice (fun _ => lateSample) 22050 x.2) :=
  ⟨by decide, by decide, (@answer_reaches_the_device _ 1 (fun _ => lateSample) 22050 (by decide) 0 true twoSentences
    (by simp [twoSentences, Undisturbed])).2.1⟩

end SpeechOut

end Acva
