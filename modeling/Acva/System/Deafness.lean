import Acva.Audio.Pipeline
import Acva.Dialogue.FsmAccounting
import Acva.Event.BoundedQueue
import Acva.Stt.SttStack

/-!
# From speech to the machine

The audio pipeline, the STT stack and the machine, joined by the bus. The machine subscribed first and its
queue blocks, so it handles the events in the order of their publication; the queues of the STT stack
have the default options and drop their oldest event. An utterance is named by the number of its
`SpeechStarted`. It is resolved by a transcript or silently, and in `Transcribing` only a transcript or
an interruption takes the machine further.
-/

namespace Acva

inductive SttMode
  | requestResponse
  | realtime
  deriving DecidableEq, Repr

structure CaptureConfig where
  pipeline : PipelineConfig := {}
  stt : SttConfig := {}
  mode : SttMode := .requestResponse
  deriving DecidableEq, Repr

/-- An event in the machine's queue, with the utterance it is about. -/
structure Delivery where
  utterance : Option Nat
  event : Event
  deriving DecidableEq, Repr

/-- The components with their queues, and the history of the utterances: how many have started, which
have ended, which of these got a transcript, which were resolved silently, and which one the machine
last followed into `Transcribing`. -/
structure CaptureWorld where
  pipeline : AudioPipeline
  fsm : FsmWorld
  client : RealtimeSttClient := {}
  inbox : List Delivery := []
  ready : BoundedQueue (Nat × UtteranceReady) := { capacity := 256, policy := .dropOldest }
  starts : BoundedQueue Nat := { capacity := 256, policy := .dropOldest }
  stops : BoundedQueue Nat := { capacity := 256, policy := .dropOldest }
  requests : List (Nat × SttRequest) := []
  submitted : Option (Nat × SttRequest) := none
  utterance : Nat := 0
  ended : List Nat := []
  transcribed : List Nat := []
  silent : List Nat := []
  awaited : Option Nat := none
  deriving DecidableEq, Repr

/-- A frame is processed; a subscriber, the STT worker or the server acts; another component publishes; or
the machine handles its next event. -/
inductive CaptureAction
  | frame (f : Frame) (pcm : List (List Int16))
  | takeReady
  | takeRequest
  | respond (response : Option Text)
  | start
  | stop (tail : List Int16)
  | server (e : ServerEvent)
  | publish (e : Event)
  | handle (now : Time)
  deriving DecidableEq, Repr

/-- The events that only the pipeline publishes. -/
def Event.isSpeech : Event → Bool
  | .speechStarted _ | .speechEnded _ | .utteranceReady _ => true
  | _ => false

/-- The events on which the machine leaves `Transcribing`. -/
def Event.resolves : Event → Bool
  | .finalTranscript _ | .userInterrupted _ => true
  | _ => false

def Event.isSpeechStarted : Event → Bool
  | .speechStarted _ => true
  | _ => false

def Event.isSpeechEnded : Event → Bool
  | .speechEnded _ => true
  | _ => false

def Event.isUtteranceReady : Event → Bool
  | .utteranceReady _ => true
  | _ => false

lemma FsmWorld.onEvent_transcribing (w : FsmWorld) (now : Time) (e : Event) :
    (w.onEvent now e).fsm.state = .transcribing ↔
      (w.fsm.state = .transcribing ∧ e.resolves = false) ∨
        (w.fsm.state = .userSpeaking ∧ e.isSpeechEnded = true) := by
  cases e with
  | speechStarted e =>
    simp only [FsmWorld.onEvent, FsmWorld.handleSpeechStarted]
    split
    · rename_i hs
      rcases hs with hs | hs | hs <;> simp [hs, Event.isSpeechEnded]
    · simp [Event.resolves, Event.isSpeechEnded]
  | speechEnded e =>
    simp only [FsmWorld.onEvent, FsmWorld.handleSpeechEnded]
    split <;> simp_all [Event.resolves, Event.isSpeechEnded]
  | finalTranscript e =>
    simp only [FsmWorld.onEvent, FsmWorld.handleFinalTranscript]
    split <;> simp_all [Event.resolves, Event.isSpeechEnded]
  | llmSentence e =>
    simp only [FsmWorld.onEvent, FsmWorld.handleLlmSentence]
    split <;> simp_all [Event.resolves, Event.isSpeechEnded]
  | llmFinished e =>
    simp only [FsmWorld.onEvent, FsmWorld.handleLlmFinished, FsmWorld.complete]
    split
    · simp_all [Event.isSpeechEnded]
    · split <;> simp_all [Event.resolves, Event.isSpeechEnded]
  | playbackFinished e =>
    simp only [FsmWorld.onEvent, FsmWorld.handlePlaybackFinished, FsmWorld.complete]
    split
    · simp [Event.resolves, Event.isSpeechEnded]
    · split <;> simp_all [Event.resolves, Event.isSpeechEnded]
  | userInterrupted e =>
    simp only [FsmWorld.onEvent, FsmWorld.handleUserInterrupted]
    split
    · rename_i hs
      rcases hs with hs | hs <;> simp [hs]
    · simp [Event.resolves, Event.isSpeechEnded]
  | _ => simp [FsmWorld.onEvent, Event.resolves, Event.isSpeechEnded]

namespace CaptureWorld

variable (cfg : CaptureConfig)

def deliver (s : CaptureWorld) (utterance : Option Nat) (e : Event) : CaptureWorld :=
  { s with inbox := s.inbox ++ [⟨utterance, e⟩] }

/-- An event of the pipeline goes to the machine and to the subscribers of the STT stack. -/
def publishSpeech (s : CaptureWorld) : Event → CaptureWorld
  | .speechStarted e =>
    ({ s with
        utterance := s.utterance + 1
        starts := if cfg.mode = SttMode.realtime then s.starts.post (s.utterance + 1) else s.starts }).deliver
      (some (s.utterance + 1)) (.speechStarted e)
  | .speechEnded e =>
    ({ s with
        ended := s.utterance :: s.ended
        stops := if cfg.mode = SttMode.realtime then s.stops.post s.utterance else s.stops }).deliver
      (some s.utterance) (.speechEnded e)
  | .utteranceReady e =>
    ({ s with ready := if cfg.mode = SttMode.realtime then s.ready else s.ready.post (s.utterance, e) }).deliver
      (some s.utterance) (.utteranceReady e)
  | e => s.deliver none e

def processFrame (s : CaptureWorld) (f : Frame) (pcm : List (List Int16)) : CaptureWorld :=
  let r := s.pipeline.processFrame cfg.pipeline f
  let client := (pcm.take r.2.live.length).foldl RealtimeSttClient.pushAudio s.client
  r.2.events.foldl (publishSpeech cfg) { s with pipeline := r.1, client := client }

/-- A callback of the STT stack: transcripts are published, errors are logged. -/
def callback (s : CaptureWorld) (utterance : Nat) : SttCallback → CaptureWorld
  | .onPartial e => s.deliver (some utterance) (.partialTranscript e)
  | .onFinal e =>
    ({ s with transcribed := if utterance ∈ s.ended then utterance :: s.transcribed else s.transcribed }).deliver
      (some utterance) (.finalTranscript e)
  | .onError => s

def callbacks (s : CaptureWorld) (cs : List (Nat × SttCallback)) : CaptureWorld :=
  cs.foldl (fun s c => s.callback c.1 c.2) s

/-- The machine follows the end of speech into `Transcribing`. -/
def follows (s : CaptureWorld) (d : Delivery) : Bool := d.event.isSpeechEnded && s.fsm.fsm.state = .userSpeaking

/-- The machine handles the head of its queue. -/
def handle (s : CaptureWorld) (now : Time) : CaptureWorld :=
  match s.inbox with
  | [] => s
  | d :: ds =>
    { s with
      inbox := ds
      fsm := s.fsm.onEvent now d.event
      awaited := if s.follows d then d.utterance else s.awaited }

def act (s : CaptureWorld) : CaptureAction → CaptureWorld
  | .frame f pcm => s.processFrame cfg f pcm
  | .takeReady =>
    match s.ready.tryPop with
    | none => s
    | some ((u, e), ready) =>
      { s with
        ready := ready
        requests := s.requests ++ (requestFor cfg.stt e).toList.map fun r => (u, r) }
  | .takeRequest =>
    match s.submitted, s.requests with
    | none, r :: rest => { s with submitted := some r, requests := rest }
    | _, _ => s
  | .respond response =>
    match s.submitted with
    | none => s
    | some (u, r) => ({ s with submitted := none }).callback u (submitTranscription cfg.stt r response)
  | .start =>
    match s.starts.tryPop with
    | none => s
    | some (u, starts) =>
      let r := s.client.beginUtterance kNoTurn u
      ({ s with starts := starts, client := r.1 }).callbacks r.2
  | .stop tail =>
    match s.stops.tryPop with
    | none => s
    | some (_, stops) => { s with stops := stops, client := s.client.endUtterance tail }
  | .server e =>
    let r := s.client.dispatch e
    ({ s with client := r.1 }).callbacks r.2
  | .publish e => if e.isSpeech then s else s.deliver none e
  | .handle now => s.handle now

/-! ### Silent ends -/

/-- The utterances for which an error is logged. -/
def failures (cs : List (Nat × SttCallback)) : List Nat :=
  cs.filterMap fun c => if c.2 = .onError then some c.1 else none

/-- The utterance that a new one displaces from the realtime client. -/
def displaced (c : RealtimeSttClient) : List Nat := if c.state = .ready ∧ c.active then c.activeCb.toList else []

/-- The utterances that an action resolves without a transcript: there is no slice to transcribe, a queue
overflows, an error is reported, or the realtime client is given the next utterance. -/
def silenced (s : CaptureWorld) : CaptureAction → List Nat
  | .frame f _ =>
    let events := (s.pipeline.processFrame cfg.pipeline f).2.events
    match cfg.mode with
    | .requestResponse =>
      if events.any Event.isUtteranceReady then s.ready.evicted.map Prod.fst
      else if events.any Event.isSpeechEnded then [s.utterance] else []
    | .realtime => if events.any Event.isSpeechStarted then s.starts.evicted else []
  | .takeReady =>
    match s.ready.tryPop with
    | none => []
    | some ((u, e), _) => if requestFor cfg.stt e = none then [u] else []
  | .respond response =>
    s.submitted.toList.flatMap fun (u, r) => failures [(u, submitTranscription cfg.stt r response)]
  | .start =>
    match s.starts.tryPop with
    | none => []
    | some (u, _) => displaced s.client ++ failures (s.client.beginUtterance kNoTurn u).2
  | .server e => failures (s.client.dispatch e).2
  | _ => []

def step (s : CaptureWorld) (a : CaptureAction) : CaptureWorld :=
  { s.act cfg a with silent := s.silenced cfg a ++ s.silent }

/-- The system at the start of a conversation, with the realtime session as it was set up. -/
def started (now : Time) (client : RealtimeSttClient) : CaptureWorld :=
  { pipeline := .create cfg.pipeline (cfg.mode = .realtime), fsm := FsmWorld.started {} now, client := client }

/-- Every utterance that has ended is resolved, and the machine has nothing left to handle. -/
def Settled (s : CaptureWorld) : Prop := s.inbox = [] ∧ ∀ u ∈ s.ended, u ∈ s.transcribed ∨ u ∈ s.silent

instance (s : CaptureWorld) : Decidable s.Settled := inferInstanceAs (Decidable (_ ∧ _))

/-- A transcript or an interruption is under way to the machine. -/
def Relieved (ds : List Delivery) : Prop := ∃ d ∈ ds, d.event.resolves = true

instance (ds : List Delivery) : Decidable (Relieved ds) := inferInstanceAs (Decidable (∃ _ ∈ _, _))

/-- The machine is in `Transcribing` for the sake of utterance `u`. -/
def WaitsFor (s : CaptureWorld) (u : Nat) : Prop := s.fsm.fsm.state = .transcribing ∧ s.awaited = some u

instance (s : CaptureWorld) (u : Nat) : Decidable (s.WaitsFor u) := inferInstanceAs (Decidable (_ ∧ _))

/-- The action does not leave the machine to an utterance from which nothing will come: an utterance it
waits for is not resolved silently, and it does not begin to wait for one that has been, unless
relief is under way. -/
def HandsBack (s : CaptureWorld) : CaptureAction → Prop
  | .handle _ => ∀ d ∈ s.inbox.head?, s.follows d = true → ∀ u ∈ s.silent, d.utterance = some u →
      Relieved s.inbox.tail
  | a => ∀ u ∈ s.silenced cfg a, s.WaitsFor u → Relieved s.inbox

instance (s : CaptureWorld) (a : CaptureAction) : Decidable (s.HandsBack cfg a) := by
  cases a <;> exact inferInstanceAs (Decidable (∀ _ ∈ _, _))

/-! ### The machine's queue -/

lemma Relieved.append {ds : List Delivery} (h : Relieved ds) (es : List Delivery) : Relieved (ds ++ es) := by
  obtain ⟨d, hd, hresolves⟩ := h
  exact ⟨d, List.mem_append_left es hd, hresolves⟩

lemma Relieved.of_cons {d : Delivery} {ds : List Delivery} (h : Relieved (d :: ds))
    (hd : d.event.resolves = false) : Relieved ds := by
  obtain ⟨d', hmem, hresolves⟩ := h
  rcases List.mem_cons.mp hmem with rfl | hmem
  · rw [hd] at hresolves
    cases hresolves
  · exact ⟨d', hmem, hresolves⟩

/-- Relief stands behind every end of `u` in the queue. -/
def Followed (u : Nat) : List Delivery → Prop
  | [] => True
  | d :: ds => (d.event.isSpeechEnded = true → d.utterance = some u → Relieved ds) ∧ Followed u ds

lemma Followed.snoc {u : Nat} {ds : List Delivery} (h : Followed u ds) (d : Delivery)
    (hd : d.event.isSpeechEnded = true → d.utterance ≠ some u) : Followed u (ds ++ [d]) := by
  induction ds with
  | nil => exact ⟨fun hended hu => absurd hu (hd hended), trivial⟩
  | cons d' ds ih => exact ⟨fun hended hu => (h.1 hended hu).append [d], ih h.2⟩

lemma followed_of_resolves (u : Nat) (ds : List Delivery) {d : Delivery} (hd : d.event.resolves = true) :
    Followed u (ds ++ [d]) := by
  induction ds with
  | nil =>
    refine ⟨fun hended _ => ?_, trivial⟩
    cases he : d.event <;> simp [he, Event.resolves, Event.isSpeechEnded] at hd hended
  | cons d' ds ih => exact ⟨fun _ _ => ⟨d, by simp, hd⟩, ih⟩

lemma isSpeechEnded_of_follows {s : CaptureWorld} {d : Delivery} (h : s.follows d = true) :
    d.event.isSpeechEnded = true := by
  simp only [follows, Bool.and_eq_true] at h
  exact h.1

/-- A machine that is in `Transcribing` after handling the head either was so before, or has just followed
the end of an utterance. -/
lemma handle_transcribing {s : CaptureWorld} {d : Delivery} {ds : List Delivery} (hinbox : s.inbox = d :: ds)
    {now : Time} (h : (s.handle now).fsm.fsm.state = .transcribing) :
    (s.fsm.fsm.state = .transcribing ∧ d.event.resolves = false ∧ (s.handle now).awaited = s.awaited) ∨
      (s.follows d = true ∧ (s.handle now).awaited = d.utterance) := by
  simp only [handle, hinbox, FsmWorld.onEvent_transcribing] at h ⊢
  rcases h with ⟨hstate, hresolves⟩ | ⟨hstate, hended⟩
  · have hnot : s.follows d = false := by simp [follows, hstate]
    exact .inl ⟨hstate, hresolves, by simp [hnot]⟩
  · have hfollows : s.follows d = true := by simp [follows, hstate, hended]
    exact .inr ⟨hfollows, if_pos hfollows⟩

lemma handle_relieved {s : CaptureWorld} {d : Delivery} {ds : List Delivery} (hinbox : s.inbox = d :: ds)
    {now : Time} {u : Nat} (hwaits : s.WaitsFor u → Relieved s.inbox)
    (hfollows : s.follows d = true → d.utterance = some u → Relieved ds) :
    (s.handle now).WaitsFor u → Relieved (s.handle now).inbox := by
  intro h
  have htail : (s.handle now).inbox = ds := by simp [handle, hinbox]
  rw [htail]
  rcases handle_transcribing hinbox h.1 with ⟨hstate, hresolves, hawaited⟩ | ⟨hfollow, hawaited⟩
  · have hrelieved := hwaits ⟨hstate, hawaited.symm.trans h.2⟩
    rw [hinbox] at hrelieved
    exact hrelieved.of_cons hresolves
  · exact hfollows hfollow (hawaited.symm.trans h.2)

/-! ### What a run keeps -/

/-- The utterance that the machine waits for has ended, and once it is transcribed relief is in the queue. -/
structure Sound (s : CaptureWorld) : Prop where
  waiting : s.fsm.fsm.state = .transcribing → ∃ u ∈ s.ended, s.awaited = some u
  tags : ∀ d ∈ s.inbox, d.event.isSpeechEnded = true → ∃ u ∈ s.ended, d.utterance = some u
  fresh : s.pipeline.endpointer.inUtterance = true → s.utterance ∉ s.ended
  bound : ∀ u ∈ s.ended, u ≤ s.utterance
  ends : ∀ u ∈ s.transcribed, u ∈ s.ended
  followed : ∀ u ∈ s.transcribed, Followed u s.inbox
  relieved : ∀ u ∈ s.transcribed, s.WaitsFor u → Relieved s.inbox

lemma sound_started (now : Time) (client : RealtimeSttClient) : (started cfg now client).Sound where
  waiting h := by simp [started, FsmWorld.started, FsmWorld.start] at h
  tags := by simp [started]
  fresh := by simp [started]
  bound := by simp [started]
  ends := by simp [started]
  followed := by simp [started]
  relieved := by simp [started]

/-- The part of the state that the invariant speaks of, the endpointer apart. -/
def history (s : CaptureWorld) : FsmWorld × List Delivery × Option Nat × Nat × List Nat × List Nat :=
  (s.fsm, s.inbox, s.awaited, s.utterance, s.ended, s.transcribed)

lemma Sound.frame {s s' : CaptureWorld} (h : s.Sound) (hhistory : s'.history = s.history)
    (hopen : s'.pipeline.endpointer.inUtterance = true → s.pipeline.endpointer.inUtterance = true) :
    s'.Sound := by
  simp only [history, Prod.mk.injEq] at hhistory
  obtain ⟨hfsm, hinbox, hawaited, hutterance, hended, htranscribed⟩ := hhistory
  refine ⟨?_, ?_, fun hin => ?_, ?_, ?_, ?_, ?_⟩
  · rw [hfsm, hended, hawaited]
    exact h.waiting
  · rw [hinbox, hended]
    exact h.tags
  · rw [hutterance, hended]
    exact h.fresh (hopen hin)
  · rw [hutterance, hended]
    exact h.bound
  · rw [htranscribed, hended]
    exact h.ends
  · rw [htranscribed, hinbox]
    exact h.followed
  · simp only [htranscribed, hinbox, WaitsFor, hfsm, hawaited]
    exact h.relieved

lemma Sound.deliver {s : CaptureWorld} (h : s.Sound) (u : Option Nat) {e : Event} (he : e.isSpeechEnded = false) :
    (s.deliver u e).Sound where
  waiting := h.waiting
  tags d hd hended := by
    rcases List.mem_append.mp hd with hd | hd
    · exact h.tags d hd hended
    · rw [List.mem_singleton.mp hd, he] at hended
      cases hended
  fresh := h.fresh
  bound := h.bound
  ends := h.ends
  followed v hv := (h.followed v hv).snoc _ fun hended => by
    rw [he] at hended
    cases hended
  relieved v hv hwaits := (h.relieved v hv hwaits).append _

lemma Sound.speechEnded {s : CaptureWorld} (h : s.Sound) (hfresh : s.utterance ∉ s.ended)
    (hclosed : s.pipeline.endpointer.inUtterance = false) (e : SpeechEnded) :
    (publishSpeech cfg s (.speechEnded e)).Sound where
  waiting hstate := by
    obtain ⟨u, hu, hawaited⟩ := h.waiting hstate
    exact ⟨u, List.mem_cons_of_mem _ hu, hawaited⟩
  tags d hd hended := by
    rcases List.mem_append.mp hd with hd | hd
    · obtain ⟨u, hu, htag⟩ := h.tags d hd hended
      exact ⟨u, List.mem_cons_of_mem _ hu, htag⟩
    · rw [List.mem_singleton.mp hd]
      exact ⟨s.utterance, List.mem_cons_self, rfl⟩
  fresh hin := absurd (hclosed.symm.trans hin) (by simp)
  bound u hu := by
    rcases List.mem_cons.mp hu with rfl | hu
    · exact Nat.le_refl _
    · exact h.bound u hu
  ends u hu := List.mem_cons_of_mem _ (h.ends u hu)
  followed u hu := (h.followed u hu).snoc _ fun _ htag => hfresh (Option.some.inj htag ▸ h.ends u hu)
  relieved u hu hwaits := (h.relieved u hu hwaits).append _

lemma Sound.speechStarted {s : CaptureWorld} (h : s.Sound) (p : AudioPipeline) (client : RealtimeSttClient)
    (e : SpeechStarted) :
    (publishSpeech cfg { s with pipeline := p, client := client } (.speechStarted e)).Sound := by
  have hnext : s.utterance + 1 ∉ s.ended := fun hmem => Nat.not_succ_le_self _ (h.bound _ hmem)
  have hbound : ∀ u ∈ s.ended, u ≤ s.utterance + 1 := fun u hu => Nat.le_succ_of_le (h.bound u hu)
  simp only [CaptureWorld.publishSpeech]
  refine Sound.deliver ?_ _ rfl
  exact ⟨h.waiting, h.tags, fun _ => hnext, hbound, h.ends, h.followed, h.relieved⟩

lemma Sound.processFrame {s : CaptureWorld} (h : s.Sound) (f : Frame) (pcm : List (List Int16)) :
    (s.processFrame cfg f pcm).Sound := by
  have hboundary := AudioPipeline.processFrame_boundary cfg.pipeline s.pipeline f
  simp only [CaptureWorld.processFrame]
  generalize s.pipeline.processFrame cfg.pipeline f = r at hboundary ⊢
  obtain ⟨p, events, live, apmBlocks⟩ := r
  generalize (pcm.take live.length).foldl RealtimeSttClient.pushAudio s.client = client
  simp only at hboundary ⊢
  have hended : ∀ e, s.pipeline.endpointer.inUtterance = true → p.endpointer.inUtterance = false →
      (publishSpeech cfg { s with pipeline := p, client := client } (.speechEnded e)).Sound := by
    intro e hbefore hafter
    have h' : ({ s with pipeline := p, client := client } : CaptureWorld).Sound :=
      h.frame rfl fun _ => hbefore
    exact h'.speechEnded cfg (h.fresh hbefore) hafter e
  cases hboundary with
  | none hopen => exact h.frame rfl hopen
  | started e => exact h.speechStarted cfg p client e
  | ended e hbefore hafter => exact hended e hbefore hafter
  | ready e u hbefore hafter =>
    simp only [List.foldl_cons, List.foldl_nil]
    refine Sound.deliver ?_ _ rfl
    exact (hended e hbefore hafter).frame rfl id

lemma Sound.callback {s : CaptureWorld} (h : s.Sound) (u : Nat) (c : SttCallback) : (s.callback u c).Sound := by
  cases c with
  | onPartial e => exact h.deliver _ rfl
  | onFinal e =>
    have hmem : ∀ v ∈ (s.callback u (.onFinal e)).transcribed, v ∈ s.ended := by
      intro v hv
      simp only [CaptureWorld.callback, CaptureWorld.deliver] at hv
      split at hv
      · rcases List.mem_cons.mp hv with rfl | hv
        · assumption
        · exact h.ends v hv
      · exact h.ends v hv
    have hlast : Relieved (s.inbox ++ [⟨some u, .finalTranscript e⟩]) :=
      ⟨⟨some u, .finalTranscript e⟩, by simp, rfl⟩
    refine ⟨h.waiting, ?_, h.fresh, h.bound, hmem, ?_, ?_⟩
    · exact (h.deliver (some u) (e := .finalTranscript e) rfl).tags
    · exact fun v _ => followed_of_resolves v s.inbox rfl
    · exact fun _ _ _ => hlast
  | onError => exact h

lemma Sound.callbacks {s : CaptureWorld} (h : s.Sound) (cs : List (Nat × SttCallback)) : (s.callbacks cs).Sound := by
  induction cs generalizing s with
  | nil => exact h
  | cons c cs ih => exact ih (h.callback c.1 c.2)

lemma Sound.handle {s : CaptureWorld} (h : s.Sound) (now : Time) : (s.handle now).Sound := by
  cases hinbox : s.inbox with
  | nil =>
    simp only [CaptureWorld.handle, hinbox]
    exact h
  | cons d ds =>
    have hsub : ∀ d' ∈ ds, d' ∈ s.inbox := fun d' hd' => hinbox ▸ List.mem_cons_of_mem d hd'
    have htail : (s.handle now).inbox = ds := by simp [CaptureWorld.handle, hinbox]
    have hended : (s.handle now).ended = s.ended := by simp [CaptureWorld.handle, hinbox]
    have htranscribed : (s.handle now).transcribed = s.transcribed := by simp [CaptureWorld.handle, hinbox]
    have hfollowed : ∀ u ∈ s.transcribed, Followed u (d :: ds) := fun u hu => hinbox ▸ h.followed u hu
    refine ⟨fun hstate => ?_, ?_, ?_, ?_, ?_, ?_, ?_⟩
    · rw [hended]
      rcases handle_transcribing hinbox hstate with ⟨hbefore, _, hawaited⟩ | ⟨hfollows, hawaited⟩
      · rw [hawaited]
        exact h.waiting hbefore
      · rw [hawaited]
        exact h.tags d (hinbox ▸ List.mem_cons_self) (isSpeechEnded_of_follows hfollows)
    · rw [htail, hended]
      exact fun d' hd' => h.tags d' (hsub d' hd')
    · simpa [CaptureWorld.handle, hinbox] using h.fresh
    · simpa [CaptureWorld.handle, hinbox] using h.bound
    · rw [htranscribed, hended]
      exact h.ends
    · rw [htranscribed, htail]
      exact fun u hu => (hfollowed u hu).2
    · rw [htranscribed]
      exact fun u hu => handle_relieved hinbox (h.relieved u hu) fun hfollows =>
        (hfollowed u hu).1 (isSpeechEnded_of_follows hfollows)

lemma Sound.act {s : CaptureWorld} (h : s.Sound) (a : CaptureAction) : (s.act cfg a).Sound := by
  cases a with
  | frame f pcm => exact h.processFrame cfg f pcm
  | takeReady =>
    simp only [CaptureWorld.act]
    split
    · exact h
    · exact h.frame rfl id
  | takeRequest =>
    simp only [CaptureWorld.act]
    split
    · exact h.frame rfl id
    · exact h
  | respond response =>
    simp only [CaptureWorld.act]
    split
    · exact h
    · apply Sound.callback
      exact h.frame rfl id
  | start =>
    simp only [CaptureWorld.act]
    split
    · exact h
    · apply Sound.callbacks
      exact h.frame rfl id
  | stop tail =>
    simp only [CaptureWorld.act]
    split
    · exact h
    · exact h.frame rfl id
  | server e =>
    apply Sound.callbacks
    exact h.frame rfl id
  | publish e =>
    simp only [CaptureWorld.act]
    split
    · exact h
    · rename_i hspeech
      apply h.deliver none
      cases e <;> simp [Event.isSpeech, Event.isSpeechEnded] at hspeech ⊢
  | handle now => exact h.handle now

lemma Sound.step {s : CaptureWorld} (h : s.Sound) (a : CaptureAction) : (s.step cfg a).Sound :=
  (h.act cfg a).frame rfl id

/-! ### Silence -/

/-- Relief is under way to a machine that waits for an utterance resolved silently. -/
def Excused (s : CaptureWorld) : Prop := ∀ u ∈ s.silent, s.WaitsFor u → Relieved s.inbox

lemma not_excused_iff {s : CaptureWorld} : ¬s.Excused ↔ ¬Relieved s.inbox ∧ ∃ u ∈ s.silent, s.WaitsFor u := by
  simp only [Excused, not_forall]
  constructor
  · rintro ⟨u, hu, hwaits, hnone⟩
    exact ⟨hnone, u, hu, hwaits⟩
  · rintro ⟨hnone, u, hu, hwaits⟩
    exact ⟨u, hu, hwaits, hnone⟩

lemma handsBack_of_ne_handle {s : CaptureWorld} {a : CaptureAction} (ha : ∀ now, a ≠ .handle now) :
    s.HandsBack cfg a ↔ ∀ u ∈ s.silenced cfg a, s.WaitsFor u → Relieved s.inbox := by
  cases a with
  | handle now => exact absurd rfl (ha now)
  | _ => rfl

lemma handsBack_handle {s : CaptureWorld} {d : Delivery} {ds : List Delivery} (hinbox : s.inbox = d :: ds)
    (now : Time) : s.HandsBack cfg (.handle now) ↔
      (s.follows d = true → ∀ u ∈ s.silent, d.utterance = some u → Relieved ds) := by
  simp [HandsBack, hinbox]

/-- The machine itself has done nothing; at most its queue has grown. -/
structure Extends (s s' : CaptureWorld) : Prop where
  fsm : s'.fsm = s.fsm
  awaited : s'.awaited = s.awaited
  inbox : ∃ ds, s'.inbox = s.inbox ++ ds

lemma Extends.refl (s : CaptureWorld) : Extends s s := ⟨rfl, rfl, [], by simp⟩

lemma Extends.trans {s t u : CaptureWorld} (h : Extends s t) (h' : Extends t u) : Extends s u := by
  obtain ⟨ds, hds⟩ := h.inbox
  obtain ⟨es, hes⟩ := h'.inbox
  exact ⟨h'.fsm.trans h.fsm, h'.awaited.trans h.awaited, ds ++ es, by rw [hes, hds, List.append_assoc]⟩

lemma extends_foldl {α : Type*} (f : CaptureWorld → α → CaptureWorld) (hf : ∀ s a, Extends s (f s a)) (s : CaptureWorld)
    (as : List α) : Extends s (as.foldl f s) :=
  Runs.exec_invariant (Extends s) (fun t a h => h.trans (hf t a)) (.refl s) as

lemma extends_publishSpeech (s : CaptureWorld) (e : Event) : Extends s (publishSpeech cfg s e) := by
  cases e <;> exact ⟨rfl, rfl, _, rfl⟩

lemma extends_callback (s : CaptureWorld) (u : Nat) (c : SttCallback) : Extends s (s.callback u c) := by
  cases c with
  | onPartial e => exact ⟨rfl, rfl, _, rfl⟩
  | onFinal e => exact ⟨rfl, rfl, _, rfl⟩
  | onError => exact .refl s

lemma extends_callbacks (s : CaptureWorld) (cs : List (Nat × SttCallback)) : Extends s (s.callbacks cs) :=
  extends_foldl (fun s (c : Nat × SttCallback) => s.callback c.1 c.2) (fun s c => extends_callback s c.1 c.2) s cs

lemma extends_act (s : CaptureWorld) {a : CaptureAction} (ha : ∀ now, a ≠ .handle now) : Extends s (s.act cfg a) := by
  have same : ∀ s' : CaptureWorld, s'.fsm = s.fsm → s'.awaited = s.awaited → s'.inbox = s.inbox → Extends s s' :=
    fun s' hfsm hawaited hinbox => ⟨hfsm, hawaited, [], by rw [hinbox, List.append_nil]⟩
  cases a with
  | frame f pcm =>
    refine Extends.trans ?_ (extends_foldl _ (extends_publishSpeech cfg) _ _)
    exact same _ rfl rfl rfl
  | takeReady =>
    simp only [act]
    split <;> exact same _ rfl rfl rfl
  | takeRequest =>
    simp only [act]
    split <;> exact same _ rfl rfl rfl
  | respond response =>
    simp only [act]
    split
    · exact .refl s
    · refine Extends.trans ?_ (extends_callback _ _ _)
      exact same _ rfl rfl rfl
  | start =>
    simp only [act]
    split
    · exact .refl s
    · refine Extends.trans ?_ (extends_callbacks _ _)
      exact same _ rfl rfl rfl
  | stop tail =>
    simp only [act]
    split <;> exact same _ rfl rfl rfl
  | server e =>
    refine Extends.trans ?_ (extends_callbacks _ _)
    exact same _ rfl rfl rfl
  | publish e =>
    simp only [act]
    split
    · exact .refl s
    · exact ⟨rfl, rfl, _, rfl⟩
  | handle now => exact absurd rfl (ha now)

lemma step_handle (s : CaptureWorld) (now : Time) : s.step cfg (.handle now) = s.handle now := by
  obtain ⟨p, fsm, client, inbox⟩ := s
  cases inbox <;> rfl

lemma Excused.handle {s : CaptureWorld} (h : s.Excused) (now : Time) (hback : s.HandsBack cfg (.handle now)) :
    (s.handle now).Excused := by
  cases hinbox : s.inbox with
  | nil =>
    simp only [CaptureWorld.handle, hinbox]
    exact h
  | cons d ds =>
    have hsilent : (s.handle now).silent = s.silent := by simp [CaptureWorld.handle, hinbox]
    rw [handsBack_handle cfg hinbox] at hback
    intro u hu
    rw [hsilent] at hu
    exact handle_relieved hinbox (h u hu) fun hfollows => hback hfollows u hu

lemma Excused.step {s : CaptureWorld} (h : s.Excused) (a : CaptureAction) (hback : s.HandsBack cfg a) :
    (s.step cfg a).Excused := by
  by_cases hhandle : ∃ now, a = .handle now
  · obtain ⟨now, rfl⟩ := hhandle
    rw [step_handle]
    exact h.handle cfg now hback
  · have ha : ∀ now, a ≠ .handle now := fun now heq => hhandle ⟨now, heq⟩
    have hext := s.extends_act cfg ha
    rw [handsBack_of_ne_handle cfg ha] at hback
    intro u hu hwaits
    have hbefore : s.WaitsFor u := ⟨hext.fsm ▸ hwaits.1, hext.awaited ▸ hwaits.2⟩
    obtain ⟨ds, hds⟩ := hext.inbox
    have hrelieved : Relieved s.inbox := by
      rcases List.mem_append.mp hu with hu | hu
      · exact hback u hu hbefore
      · exact h u hu hbefore
    exact hds ▸ hrelieved.append ds

/-- When everything is handled and resolved, a machine that was always handed back is not in
`Transcribing`. -/
theorem settled_not_transcribing (cfg : CaptureConfig) (now : Time) (client : RealtimeSttClient)
    (as : List CaptureAction) (hback : Runs.Along (step cfg) (HandsBack cfg) (started cfg now client) as)
    (hsettled : (Runs.exec (step cfg) (started cfg now client) as).Settled) :
    (Runs.exec (step cfg) (started cfg now client) as).fsm.fsm.state ≠ .transcribing := by
  have hsound := Runs.exec_invariant Sound (fun s a h => h.step cfg a) (sound_started cfg now client) as
  have hexcused := hback.invariant Excused (fun s a h ha => h.step cfg a ha) (by simp [Excused, started])
  obtain ⟨hempty, hresolved⟩ := hsettled
  have hnone : ¬Relieved (Runs.exec (step cfg) (started cfg now client) as).inbox := by simp [Relieved, hempty]
  intro hstate
  obtain ⟨u, hended, hawaited⟩ := hsound.waiting hstate
  rcases hresolved u hended with hu | hu
  · exact hnone (hsound.relieved u hu ⟨hstate, hawaited⟩)
  · exact hnone (hexcused u hu ⟨hstate, hawaited⟩)

/-- A frame of 10 ms of silence for which the detector gives the probability `p`. -/
def silentFrame (p : Rat) (t : Time) : CaptureAction :=
  .frame { capturedAt := t, resampled := List.replicate 160 0, probability := some p } []

/-- Two frames taken for speech and two that are not. -/
def quietUtterance (t : Time) : List CaptureAction :=
  [silentFrame 1 t, silentFrame 1 (t + 10000000), silentFrame 0 (t + 20000000), silentFrame 0 (t + 30000000)]

/-- Short utterances; silence is not worth transcribing. -/
def gatedConfig : CaptureConfig :=
  { pipeline := { endpointer := { minSpeechMs := 20, hangoverMs := 20 }, minUtteranceRms := 1 } }

theorem quiet_utterance_excused :
    (Runs.exec (step gatedConfig) (started gatedConfig 0 {})
      (quietUtterance 0 ++ [.publish (.userInterrupted {}), .handle 0, .handle 0, .handle 0])).fsm.fsm.state ≠
        .transcribing :=
  settled_not_transcribing gatedConfig 0 {} _ (by decide +kernel) (by decide +kernel)

theorem quiet_utterance_deafens :
    let s := Runs.exec (step gatedConfig) (started gatedConfig 0 {}) (quietUtterance 0 ++ [.handle 0, .handle 0])
    let s' := Runs.exec (step gatedConfig) s (quietUtterance 40000000 ++ [.handle 0, .handle 0])
    s.Settled ∧ s.ended = [1] ∧ s.silent = [1] ∧ s.fsm.fsm.state = .transcribing ∧
      s'.Settled ∧ s'.ended = [2, 1] ∧ s'.fsm.fsm.state = .transcribing := by
  decide +kernel

/-! ### Deafness -/

lemma not_excused_handle {s : CaptureWorld} (h : ¬s.Excused) (now : Time) : ¬(s.handle now).Excused := by
  rw [not_excused_iff] at h ⊢
  obtain ⟨hnone, u, hu, hstate, hawaited⟩ := h
  cases hinbox : s.inbox with
  | nil =>
    simp only [handle, hinbox]
    exact ⟨hinbox ▸ hnone, u, hu, hstate, hawaited⟩
  | cons d ds =>
    have hfollows : s.follows d = false := by simp [follows, hstate]
    have hresolves : d.event.resolves = false := by
      cases hd : d.event.resolves with
      | false => rfl
      | true => exact absurd ⟨d, hinbox ▸ List.mem_cons_self, hd⟩ hnone
    have hafter : (s.fsm.onEvent now d.event).fsm.state = .transcribing :=
      (s.fsm.onEvent_transcribing now d.event).2 (.inl ⟨hstate, hresolves⟩)
    simp only [handle, hinbox]
    refine ⟨fun hrelieved => hnone ?_, u, hu, hafter, by simpa [hfollows] using hawaited⟩
    obtain ⟨d', hd', hresolves'⟩ := hrelieved
    exact ⟨d', hinbox ▸ List.mem_cons_of_mem d hd', hresolves'⟩

/-- Without relief, nothing that the machine still has to handle takes it out of `Transcribing`. -/
theorem not_excused_stays {s : CaptureWorld} (h : ¬s.Excused) (now : Time) :
    let s' := Runs.exec (step cfg) s (List.replicate s.inbox.length (.handle now))
    s'.inbox = [] ∧ s'.fsm.fsm.state = .transcribing := by
  generalize hn : s.inbox.length = n
  induction n generalizing s with
  | zero =>
    obtain ⟨_, u, _, hwaits⟩ := not_excused_iff.mp h
    exact ⟨List.length_eq_zero_iff.mp hn, hwaits.1⟩
  | succ n ih =>
    rw [List.replicate_succ, Runs.exec_cons, step_handle]
    apply ih (not_excused_handle h now)
    cases hinbox : s.inbox with
    | nil => simp [hinbox] at hn
    | cons d ds =>
      simp only [hinbox, List.length_cons, Nat.add_right_cancel_iff] at hn
      simpa [handle, hinbox] using hn

lemma callbacks_of_errors (s : CaptureWorld) {cs : List (Nat × SttCallback)} (h : ∀ c ∈ cs, c.2 = .onError) :
    s.callbacks cs = s := by
  induction cs with
  | nil => rfl
  | cons c cs ih =>
    have hc : s.callback c.1 c.2 = s := by rw [h c List.mem_cons_self, callback]
    have hrest : ∀ c' ∈ cs, c'.2 = .onError := fun c' hc' => h c' (List.mem_cons_of_mem c hc')
    rw [callbacks, List.foldl_cons, hc]
    exact ih hrest

lemma beginUtterance_errors (c : RealtimeSttClient) (t : TurnId) (u : Nat) :
    ∀ x ∈ (c.beginUtterance t u).2, x.2 = .onError := by
  simp only [RealtimeSttClient.beginUtterance]
  split <;> simp

lemma dispatch_errors {c : RealtimeSttClient} {e : ServerEvent} {u : Nat} (h : u ∈ failures (c.dispatch e).2) :
    ∀ x ∈ (c.dispatch e).2, x.2 = .onError := by
  cases e with
  | error =>
    simp only [RealtimeSttClient.dispatch, RealtimeSttClient.onServerError]
    split <;> simp
  | delta itemId delta =>
    simp only [RealtimeSttClient.dispatch, RealtimeSttClient.onPartial, failures] at h
    split at h
    · simp at h
    · split at h <;> simp [List.filterMap_map] at h
  | completed itemId transcript language =>
    simp only [RealtimeSttClient.dispatch, RealtimeSttClient.onFinal, failures] at h
    split at h
    · simp at h
    · split at h
      · simp at h
      · split at h <;> simp at h
  | _ => simp [RealtimeSttClient.dispatch, failures] at h

lemma relieved_of_snoc {ds : List Delivery} {d : Delivery} (h : Relieved (ds ++ [d])) (hd : d.event.resolves = false) :
    Relieved ds := by
  obtain ⟨d', hmem, hresolves⟩ := h
  rcases List.mem_append.mp hmem with hmem | hmem
  · exact ⟨d', hmem, hresolves⟩
  · rw [List.mem_singleton.mp hmem, hd] at hresolves
    cases hresolves

lemma relieved_processFrame {s : CaptureWorld} {f : Frame} {pcm : List (List Int16)}
    (h : Relieved (s.processFrame cfg f pcm).inbox) : Relieved s.inbox := by
  have hboundary := AudioPipeline.processFrame_boundary cfg.pipeline s.pipeline f
  simp only [processFrame] at h
  generalize (s.pipeline.processFrame cfg.pipeline f).2.events = events at hboundary h
  cases hboundary with
  | none => exact h
  | started e => exact relieved_of_snoc h rfl
  | ended e => exact relieved_of_snoc h rfl
  | ready e u => exact relieved_of_snoc (relieved_of_snoc h rfl) rfl

lemma relieved_of_silenced {s : CaptureWorld} {a : CaptureAction} {u : Nat} (hu : u ∈ s.silenced cfg a)
    (h : Relieved (s.act cfg a).inbox) : Relieved s.inbox := by
  cases a with
  | frame f pcm => exact relieved_processFrame cfg h
  | takeReady =>
    simp only [act] at h
    split at h <;> exact h
  | respond response =>
    cases hsubmitted : s.submitted with
    | none => simp [silenced, hsubmitted] at hu
    | some r =>
      have herror : submitTranscription cfg.stt r.2 response = .onError := by
        by_contra hne
        simp [silenced, hsubmitted, failures, hne] at hu
      simpa [act, hsubmitted, herror, callback] using h
  | start =>
    simp only [act] at h
    split at h
    · exact h
    · rw [callbacks_of_errors _ (beginUtterance_errors _ _ _)] at h
      exact h
  | server e =>
    simp only [act] at h
    rw [callbacks_of_errors _ (dispatch_errors hu)] at h
    exact h
  | _ => simp [silenced] at hu

lemma not_excused_of_not_handsBack {s : CaptureWorld} {a : CaptureAction} (h : ¬s.HandsBack cfg a) :
    ¬(s.step cfg a).Excused := by
  rw [not_excused_iff]
  by_cases hhandle : ∃ now, a = .handle now
  · obtain ⟨now, rfl⟩ := hhandle
    cases hinbox : s.inbox with
    | nil => simp [HandsBack, hinbox] at h
    | cons d ds =>
      simp only [handsBack_handle cfg hinbox, not_forall] at h
      obtain ⟨hfollows, u, hu, htag, hnone⟩ := h
      have hstate : s.fsm.fsm.state = .userSpeaking := by
        simp only [follows, Bool.and_eq_true, decide_eq_true_eq] at hfollows
        exact hfollows.2
      rw [step_handle]
      simp only [handle, hinbox]
      refine ⟨hnone, u, hu, ?_, by simp [hfollows, htag]⟩
      exact (s.fsm.onEvent_transcribing now d.event).2 (.inr ⟨hstate, isSpeechEnded_of_follows hfollows⟩)
  · have ha : ∀ now, a ≠ .handle now := fun now heq => hhandle ⟨now, heq⟩
    simp only [handsBack_of_ne_handle cfg ha, not_forall] at h
    obtain ⟨u, hu, hwaits, hnone⟩ := h
    have hext := s.extends_act cfg ha
    refine ⟨fun hrelieved => hnone (relieved_of_silenced cfg hu hrelieved), u, List.mem_append_left _ hu, ?_⟩
    exact ⟨hext.fsm ▸ hwaits.1, hext.awaited ▸ hwaits.2⟩

/-- Handing the machine back at every step is what it takes: where a step fails to, the machine is left
waiting for an utterance from which nothing will come. -/
theorem along_handsBack_iff {s : CaptureWorld} (h : s.Excused) (as : List CaptureAction) :
    Runs.Along (step cfg) (HandsBack cfg) s as ↔ ∀ n, (Runs.exec (step cfg) s (as.take n)).Excused := by
  have hkeep : ∀ (s : CaptureWorld) a, s.Excused → s.HandsBack cfg a → (s.step cfg a).Excused :=
    fun s a hs hback => hs.step cfg a hback
  have hbreak : ∀ (s : CaptureWorld) a, s.Excused → (s.step cfg a).Excused → s.HandsBack cfg a := by
    intro s a _ hafter
    by_contra hnot
    exact not_excused_of_not_handsBack cfg hnot hafter
  rw [← Runs.prefixes_iff_along (fun _ hs => hs) hkeep hbreak h as]
  constructor
  · intro hall n
    exact hall _ (List.take_prefix n as)
  · intro hall before hbefore
    rw [List.prefix_iff_eq_take.mp hbefore]
    exact hall before.length

end CaptureWorld

end Acva
