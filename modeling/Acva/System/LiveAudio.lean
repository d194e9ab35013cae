import Acva.Audio.LiveSink
import Acva.Event.BoundedQueue
import Acva.Stt.SttStack

/-!
# Audio at the streaming boundary

The samples of an utterance go to the realtime client by a direct call of the audio worker; that it has
begun and ended goes through the bus to two subscribers. The worker calls the sink before it publishes
`SpeechStarted`, so the first blocks of an utterance come before the client can know of it.
-/

namespace Acva

namespace AudioPipeline

/-! ### The blocks of a frame -/

/-- A frame that starts an utterance has blocks for the sink, any other only while somebody speaks. -/
structure Sinks (p p' : AudioPipeline) (bs : List Bool) (live : List (List Int16)) : Prop where
  sink : p'.liveSink = true
  start : bs = [true] → live ≠ []
  other : bs ≠ [true] → live ≠ [] → p.inSpeech = true

lemma Sinks.silent {p p' : AudioPipeline} {bs : List Bool} (hsink : p'.liveSink = true) (hbs : bs ≠ [true]) :
    Sinks p p' bs [] := ⟨hsink, fun h => absurd h hbs, fun _ h => absurd rfl h⟩

lemma wakeGate_sinks (cfg : PipelineConfig) (p : AudioPipeline) (f : Frame) :
    (p.wakeGate cfg f).1.liveSink = p.liveSink ∧ ((p.wakeGate cfg f).1.inSpeech = true → p.inSpeech = true) := by
  unfold wakeGate
  split
  · exact ⟨rfl, id⟩
  · split
    · exact ⟨rfl, fun h => by cases h⟩
    · exact ⟨rfl, id⟩

lemma processBlock_sinks (cfg : PipelineConfig) (p : AudioPipeline) (f : Frame) {block : List Int16}
    (hblock : block ≠ []) (hsink : p.liveSink = true) :
    Sinks p (p.processBlock cfg f block).1 (boundaries (p.processBlock cfg f block).2.events)
      (p.processBlock cfg f block).2.live := by
  obtain ⟨hgate, hspeech⟩ := wakeGate_sinks cfg (p.appended block) f
  have hgateSink : ((p.appended block).wakeGate cfg f).1.liveSink = true := hgate.trans hsink
  have heq : p.processBlock cfg f block = if ¬((p.appended block).wakeGate cfg f).2 = true
      then (((p.appended block).wakeGate cfg f).1, {})
      else ((((p.appended block).wakeGate cfg f).1.endpoint cfg f block).1,
        { (((p.appended block).wakeGate cfg f).1.endpoint cfg f block).2 with
          live := (if ((p.appended block).wakeGate cfg f).1.inSpeech && ((p.appended block).wakeGate cfg f).1.liveSink
            then [block] else []) ++ (((p.appended block).wakeGate cfg f).1.endpoint cfg f block).2.live }) := rfl
  rw [heq]
  generalize ((p.appended block).wakeGate cfg f).1 = q at hspeech hgateSink ⊢
  by_cases hopen : ((p.appended block).wakeGate cfg f).2 = true
  · obtain ⟨hendpoint, heffect⟩ := endpoint_buffer cfg q f block
    rw [if_neg (by simp [hopen]), hgateSink, Bool.and_true]
    rw [hgateSink] at hendpoint heffect
    simp only
    generalize boundaries (q.endpoint cfg f block).2.events = bs at heffect ⊢
    generalize (q.endpoint cfg f block).2.live = live at heffect ⊢
    cases heffect with
    | keep _ => exact ⟨hendpoint, by simp, fun _ hlive => hspeech (by simpa using hlive)⟩
    | start s t _ hlive =>
      refine ⟨hendpoint, fun _ hnil => ?_, fun hne => absurd rfl hne⟩
      have hflat := hlive rfl
      rw [(List.append_eq_nil_iff.mp hnil).2] at hflat
      exact hblock (List.append_eq_nil_iff.mp hflat.symm).2
    | stop _ _ _ => exact ⟨hendpoint, by simp, fun _ hlive => hspeech (by simpa using hlive)⟩
  · rw [if_pos hopen]
    exact .silent hgateSink (List.cons_ne_nil _ _).symm

lemma processMuted_silent (p : AudioPipeline) (f : Frame) :
    (p.processMuted f).1.liveSink = p.liveSink ∧ boundaries (p.processMuted f).2 ≠ [true] := by
  unfold processMuted
  simp only
  split
  · exact ⟨rfl, (List.cons_ne_nil _ _).symm⟩
  · split
    · exact ⟨rfl, by simp [boundaries]⟩
    · exact ⟨rfl, (List.cons_ne_nil _ _).symm⟩

lemma processFrame_sinks (cfg : PipelineConfig) (p : AudioPipeline) (f : Frame) (hsink : p.liveSink = true) :
    Sinks p (p.processFrame cfg f).1 (boundaries (p.processFrame cfg f).2.events)
      (p.processFrame cfg f).2.live := by
  by_cases hmuted : f.muted = true
  · obtain ⟨hframe, hevents, hlive⟩ := processFrame_muted cfg p hmuted
    obtain ⟨hmutedSink, hbs⟩ := processMuted_silent p f
    rw [hframe, hevents, hlive]
    exact .silent (hmutedSink.trans hsink) hbs
  · cases hreaches : p.reachesGate cfg f with
    | false =>
      obtain ⟨carry, hframe, hevents, hlive⟩ := processFrame_idle (by simpa using hmuted) hreaches
      rw [hframe, hevents, hlive]
      exact .silent hsink (List.cons_ne_nil _ _).symm
    | true =>
      obtain ⟨carry, hframe, hevents, hlive⟩ := processFrame_passed hreaches
      rw [hframe, hevents, hlive]
      obtain ⟨hafter, hstart, hother⟩ := processBlock_sinks cfg (p.counted carry) f (blockOf_ne_nil hreaches) hsink
      exact ⟨hafter, hstart, hother⟩

lemma processFrame_starts (cfg : PipelineConfig) (p : AudioPipeline) (f : Frame)
    (h : p.inSpeech = p.endpointer.inUtterance) :
    boundaries (p.processFrame cfg f).2.events = [true] ∨
      ((boundaries (p.processFrame cfg f).2.events).count true = 0 ∧
        boundaries (p.processFrame cfg f).2.events ≠ [true] ∧
        ((p.processFrame cfg f).1.inSpeech = true → p.inSpeech = true)) := by
  have heffect := processFrame_effect cfg p f h
  generalize boundaries (p.processFrame cfg f).2.events = bs at heffect ⊢
  cases heffect with
  | block _ _ hblock =>
    cases hblock with
    | keep _ _ hspeech => exact .inr ⟨rfl, by simp, fun hs => by rwa [hspeech] at hs⟩
    | start _ _ _ _ => exact .inl rfl
    | stop _ _ _ hspeech => exact .inr ⟨rfl, by simp, fun hs => by rw [hspeech] at hs; cases hs⟩
  | mute _ _ _ _ _ hspeech => exact .inr ⟨rfl, by simp, fun hs => by rw [hspeech] at hs; cases hs⟩
  | expire _ _ _ _ hspeech => exact .inr ⟨rfl, by simp, fun hs => by rw [hspeech] at hs; cases hs⟩

end AudioPipeline

/-- The utterance for which `push_audio` would take samples now. -/
def RealtimeSttClient.accepting (c : RealtimeSttClient) : Option Nat :=
  if c.active && c.hasResampler && !c.activeCancelled then c.activeCb else none

/-- A block handed to the live sink: the utterance it is of, and the one that took it. -/
structure LivePush where
  utterance : Nat
  acceptedFor : Option Nat
  deriving DecidableEq, Repr

/-- The worker with what is left to do for its frame, the queues of the two subscribers, and the client.
Utterances are numbered as the endpointer starts them; an event in a queue stands for its utterance. -/
structure StreamWorld where
  pipeline : AudioPipeline
  client : RealtimeSttClient := { state := .ready }
  started : Nat := 0
  announced : Nat := 0
  blocks : List (List Int16) := []
  events : List Event := []
  starts : BoundedQueue Nat := { capacity := 256, policy := .dropOldest }
  stops : BoundedQueue Nat := { capacity := 256, policy := .dropOldest }
  pushes : List LivePush := []
  deriving DecidableEq, Repr

inductive StreamAction
  | frame (f : Frame)
  | sink (pcm : List Int16)
  | publish
  | beginUtterance
  | endUtterance (tail : List Int16)
  | serve (e : ServerEvent)
  deriving DecidableEq, Repr

namespace StreamWorld

/-- The worker takes a frame when it is done with the one before. -/
def takeFrame (cfg : PipelineConfig) (w : StreamWorld) (f : Frame) : StreamWorld :=
  if w.blocks = [] ∧ w.events = [] then
    let r := w.pipeline.processFrame cfg f
    { w with
      pipeline := r.1
      blocks := r.2.live
      events := r.2.events
      started := w.started + (AudioPipeline.boundaries r.2.events).count true }
  else w

/-- `live_sink_` with the next block. -/
def callSink (w : StreamWorld) (pcm : List Int16) : StreamWorld :=
  match w.blocks with
  | [] => w
  | _ :: rest =>
    { w with
      blocks := rest
      client := w.client.pushAudio pcm
      pushes := w.pushes ++ [⟨w.started, w.client.accepting⟩] }

/-- The next event of the frame goes to the subscribers; all calls of the sink come before. -/
def publish (w : StreamWorld) : StreamWorld :=
  match w.blocks, w.events with
  | [], .speechStarted _ :: rest =>
    { w with events := rest, announced := w.announced + 1, starts := w.starts.post (w.announced + 1) }
  | [], .speechEnded _ :: rest => { w with events := rest, stops := w.stops.post w.announced }
  | [], _ :: rest => { w with events := rest }
  | _, _ => w

def step (cfg : PipelineConfig) (w : StreamWorld) : StreamAction → StreamWorld
  | .frame f => w.takeFrame cfg f
  | .sink pcm => w.callSink pcm
  | .publish => w.publish
  | .beginUtterance =>
    match w.starts.tryPop with
    | none => w
    | some (u, starts) => { w with starts := starts, client := (w.client.beginUtterance kNoTurn u).1 }
  | .endUtterance tail =>
    match w.stops.tryPop with
    | none => w
    | some (_, stops) => { w with stops := stops, client := w.client.endUtterance tail }
  | .serve e => { w with client := (w.client.dispatch e).1 }

/-- A block of utterance `u` has been handed to the sink. -/
def Pushed (w : StreamWorld) (u : Nat) : Prop := ∃ x ∈ w.pushes, x.utterance = u

/-- A block of utterance `u` was not taken for `u`. -/
def Lost (w : StreamWorld) (u : Nat) : Prop := ∃ x ∈ w.pushes, x.utterance = u ∧ x.acceptedFor ≠ some u

/-- The client knows only of utterances that have been announced, and every utterance that was pushed has
lost a block: the one under way before it is announced, unless its first block is still to be pushed. -/
structure Early (w : StreamWorld) : Prop where
  sink : w.pipeline.liveSink = true
  speech : w.pipeline.inSpeech = w.pipeline.endpointer.inUtterance
  pending : w.started = w.announced + (AudioPipeline.boundaries w.events).count true
  active : ∀ u, w.client.activeCb = some u → u ≤ w.announced
  queued : ∀ u ∈ w.starts.q, u ≤ w.announced
  unannounced : w.announced < w.started → w.blocks ≠ [] ∨ w.Lost w.started
  announced : w.announced = w.started → w.blocks ≠ [] ∨ w.pipeline.inSpeech = true → w.Lost w.started
  lost : ∀ u, w.Pushed u → w.Lost u
  single : (AudioPipeline.boundaries w.events).count true ≤ 1
  lostAll : ∀ u, 0 < u → u ≤ w.announced → w.Lost u

lemma early_start (cfg : PipelineConfig) : Early { pipeline := .create cfg true } := by
  refine ⟨rfl, rfl, rfl, ?_, ?_, ?_, ?_, ?_, ?_, ?_⟩
  · simp
  · simp
  · simp
  · simp [AudioPipeline.create]
  · simp [Pushed]
  · simp [AudioPipeline.boundaries]
  · intro u hpos hle
    simp only at hle
    omega

lemma Early.takeFrame {w : StreamWorld} (h : Early w) (cfg : PipelineConfig) (f : Frame) :
    Early (w.takeFrame cfg f) := by
  unfold StreamWorld.takeFrame
  by_cases hidle : w.blocks = [] ∧ w.events = []
  · rw [if_pos hidle]
    have hequal : w.started = w.announced := by
      have hpending := h.pending
      rw [hidle.2] at hpending
      exact hpending
    obtain ⟨hsink, hstart, hother⟩ := AudioPipeline.processFrame_sinks cfg w.pipeline f h.sink
    have hspeech := (AudioPipeline.processFrame_effect cfg w.pipeline f h.speech).inSpeech h.speech
    refine ⟨hsink, hspeech, by simp only; rw [hequal], h.active, h.queued, ?_, ?_, h.lost, ?_, h.lostAll⟩
    · intro hlt
      rcases AudioPipeline.processFrame_starts cfg w.pipeline f h.speech with hbs | ⟨hcount, _, _⟩
      · exact .inl (hstart hbs)
      · simp only [hcount, hequal] at hlt
        omega
    · intro hnone hbusy
      rcases AudioPipeline.processFrame_starts cfg w.pipeline f h.speech with hbs | ⟨hcount, hbs, hkeeps⟩
      · simp only [hbs, hequal, List.count_singleton_self] at hnone
        omega
      · simp only [hcount, Nat.add_zero]
        apply h.announced hequal.symm
        rcases hbusy with hblocks | hafter
        · exact .inr (hother hbs hblocks)
        · exact .inr (hkeeps hafter)
    · rcases AudioPipeline.processFrame_starts cfg w.pipeline f h.speech with hbs | ⟨hcount, _, _⟩
      · simp [hbs]
      · simp [hcount]
  · rw [if_neg hidle]
    exact h

lemma pushAudio_activeCb (c : RealtimeSttClient) (pcm : List Int16) : (c.pushAudio pcm).activeCb = c.activeCb := by
  unfold RealtimeSttClient.pushAudio RealtimeSttClient.send
  split
  · rfl
  · split <;> rfl

lemma endUtterance_activeCb (c : RealtimeSttClient) (tail : List Int16) :
    (c.endUtterance tail).activeCb = c.activeCb := by
  unfold RealtimeSttClient.endUtterance RealtimeSttClient.send
  split
  · rfl
  · split <;> rfl

lemma Early.not_accepting {w : StreamWorld} (h : Early w) (hlt : w.announced < w.started) :
    w.client.accepting ≠ some w.started := by
  intro haccepting
  unfold RealtimeSttClient.accepting at haccepting
  split at haccepting
  · have hle := h.active _ haccepting
    omega
  · cases haccepting

lemma Early.callSink {w : StreamWorld} (h : Early w) (pcm : List Int16) : Early (w.callSink pcm) := by
  unfold StreamWorld.callSink
  cases hblocks : w.blocks with
  | nil => exact h
  | cons block rest =>
    have hmono : ∀ u, w.Lost u → ∃ x ∈ w.pushes ++ [⟨w.started, w.client.accepting⟩],
        x.utterance = u ∧ x.acceptedFor ≠ some u := by
      rintro u ⟨x, hx, hu⟩
      exact ⟨x, List.mem_append_left _ hx, hu⟩
    have hlost : ∃ x ∈ w.pushes ++ [⟨w.started, w.client.accepting⟩],
        x.utterance = w.started ∧ x.acceptedFor ≠ some w.started := by
      have hle : w.announced ≤ w.started := by
        rw [h.pending]
        omega
      rcases Nat.lt_or_eq_of_le hle with hlt | heq
      · exact ⟨_, List.mem_append_right _ (List.mem_singleton_self _), rfl, h.not_accepting hlt⟩
      · exact hmono _ (h.announced heq (.inl (by simp [hblocks])))
    refine ⟨h.sink, h.speech, h.pending, ?_, h.queued, fun _ => .inr hlost, fun _ _ => hlost, ?_, h.single,
      fun u hpos hle => hmono u (h.lostAll u hpos hle)⟩
    · intro u hu
      rw [pushAudio_activeCb] at hu
      exact h.active u hu
    · rintro u ⟨x, hx, rfl⟩
      rcases List.mem_append.mp hx with hx | hx
      · exact hmono _ (h.lost _ ⟨x, hx, rfl⟩)
      · rw [List.mem_singleton.mp hx]
        exact hlost

lemma Early.pass {w : StreamWorld} (h : Early w) {rest : List Event} (stops : BoundedQueue Nat)
    (hrest : (AudioPipeline.boundaries rest).count true = (AudioPipeline.boundaries w.events).count true) :
    Early { w with events := rest, stops := stops } := by
  refine ⟨h.sink, h.speech, ?_, h.active, h.queued, h.unannounced, h.announced, h.lost, ?_, h.lostAll⟩
  · rw [hrest]
    exact h.pending
  · rw [hrest]
    exact h.single

lemma Early.publish {w : StreamWorld} (h : Early w) : Early w.publish := by
  unfold StreamWorld.publish
  split
  · rename_i e rest hblocks hevents
    have hcount : w.started = w.announced + 1 + (AudioPipeline.boundaries rest).count true := by
      rw [h.pending, hevents]
      simp [AudioPipeline.boundaries]
      omega
    have hlost : w.Lost w.started := (h.unannounced (by omega)).resolve_left (by simp [hblocks])
    have hone := h.single
    have hpending := h.pending
    refine ⟨h.sink, h.speech, hcount, ?_, ?_, fun _ => .inr hlost, fun _ _ => hlost, h.lost, ?_, ?_⟩
    · intro u hu
      exact Nat.le_succ_of_le (h.active u hu)
    · intro u hu
      rcases BoundedQueue.mem_post hu with hu | hu
      · exact Nat.le_succ_of_le (h.queued u hu)
      · exact Nat.le_of_eq hu
    · simp only
      omega
    · intro u hpos hle
      rcases Nat.lt_or_eq_of_le hle with hlt | rfl
      · exact h.lostAll u hpos (Nat.le_of_lt_succ hlt)
      · rwa [show w.announced + 1 = w.started by omega]
  · rename_i e rest hblocks hevents
    apply h.pass
    rw [hevents]
    simp [AudioPipeline.boundaries]
  · rename_i e rest hstart _ hblocks hevents
    apply h.pass
    rw [hevents]
    cases e with
    | speechStarted e => exact absurd rfl (hstart e)
    | _ => simp [AudioPipeline.boundaries]
  · exact h

/-- The two subscribers and the server change the client and take from the queues. -/
lemma Early.withClient {w : StreamWorld} (h : Early w) {c : RealtimeSttClient} {starts stops : BoundedQueue Nat}
    (hcb : ∀ u, c.activeCb = some u → u ≤ w.announced) (hqueue : ∀ u ∈ starts.q, u ≤ w.announced) :
    Early { w with client := c, starts := starts, stops := stops } :=
  ⟨h.sink, h.speech, h.pending, hcb, hqueue, h.unannounced, h.announced, h.lost, h.single, h.lostAll⟩

lemma beginUtterance_activeCb (c : RealtimeSttClient) (turn : TurnId) (u : Nat) :
    (c.beginUtterance turn u).1.activeCb = c.activeCb ∨ (c.beginUtterance turn u).1.activeCb = some u := by
  unfold RealtimeSttClient.beginUtterance RealtimeSttClient.send
  split
  · exact .inl rfl
  · split <;> exact .inr rfl

lemma dispatch_activeCb (c : RealtimeSttClient) (e : ServerEvent) :
    (c.dispatch e).1.activeCb = c.activeCb ∨ (c.dispatch e).1.activeCb = none := by
  cases e with
  | sessionUpdated =>
    simp only [RealtimeSttClient.dispatch]
    split <;> exact .inl rfl
  | committed itemId =>
    simp only [RealtimeSttClient.dispatch, RealtimeSttClient.onCommitted]
    split
    · exact .inl rfl
    · split <;> exact .inl rfl
  | delta itemId delta =>
    simp only [RealtimeSttClient.dispatch, RealtimeSttClient.onPartial]
    split
    · exact .inl rfl
    · split <;> exact .inl rfl
  | completed itemId transcript language =>
    simp only [RealtimeSttClient.dispatch, RealtimeSttClient.onFinal]
    split
    · exact .inl rfl
    · split
      · exact .inl rfl
      · split <;> exact .inr rfl
  | error =>
    simp only [RealtimeSttClient.dispatch, RealtimeSttClient.onServerError]
    split
    · exact .inr rfl
    · exact .inl rfl
  | other => exact .inl rfl

theorem Early.step {w : StreamWorld} (h : Early w) (cfg : PipelineConfig) (a : StreamAction) :
    Early (w.step cfg a) := by
  cases a with
  | frame f => exact h.takeFrame cfg f
  | sink pcm => exact h.callSink pcm
  | publish => exact h.publish
  | beginUtterance =>
    unfold StreamWorld.step
    cases hpop : w.starts.tryPop with
    | none => exact h
    | some r =>
      obtain ⟨hmem, hrest⟩ := BoundedQueue.mem_of_tryPop hpop
      apply h.withClient
      · intro u hu
        rcases beginUtterance_activeCb w.client kNoTurn r.1 with hcb | hcb
        · exact h.active u (hcb ▸ hu)
        · rw [hcb] at hu
          cases hu
          exact h.queued _ hmem
      · intro u hu
        exact h.queued u (hrest u hu)
  | endUtterance tail =>
    unfold StreamWorld.step
    cases w.stops.tryPop with
    | none => exact h
    | some r =>
      apply h.withClient
      · intro u hu
        rw [endUtterance_activeCb] at hu
        exact h.active u hu
      · exact h.queued
  | serve e =>
    apply h.withClient
    · intro u hu
      rcases dispatch_activeCb w.client e with hcb | hcb
      · exact h.active u (hcb ▸ hu)
      · rw [hcb] at hu
        cases hu
    · exact h.queued

/-- In every interleaving, every utterance that was announced, and every one of which blocks were handed to
the sink, has lost a block. -/
theorem utterance_audio_lost (cfg : PipelineConfig) (as : List StreamAction) (u : Nat)
    (h : (Runs.exec (step cfg) { pipeline := .create cfg true } as).Pushed u ∨
      0 < u ∧ u ≤ (Runs.exec (step cfg) { pipeline := .create cfg true } as).announced) :
    (Runs.exec (step cfg) { pipeline := .create cfg true } as).Lost u := by
  have hearly := Runs.exec_invariant Early (fun w a h => h.step cfg a) (early_start cfg) as
  rcases h with hpushed | ⟨hpos, hle⟩
  · exact hearly.lost u hpushed
  · exact hearly.lostAll u hpos hle

/-- The worker hands over the blocks of the first frame of an utterance, and then announces it. -/
def firstWords : List StreamAction :=
  [.frame (AudioPipeline.spokenFrame 10000000), .frame (AudioPipeline.spokenFrame 20000000), .sink [], .sink [],
    .publish, .beginUtterance]

/-- The two blocks of the first frame are dropped although the client is ready. -/
theorem first_blocks_dropped :
    let w := Runs.exec (step AudioPipeline.Monitor.plainConfig)
      { pipeline := .create AudioPipeline.Monitor.plainConfig true } firstWords
    w.pushes = [⟨1, none⟩, ⟨1, none⟩] ∧ w.client.activeCb = some 1 ∧ w.client.state = .ready := by
  decide +kernel

theorem first_utterance_lost :
    let w := Runs.exec (step AudioPipeline.Monitor.plainConfig)
      { pipeline := .create AudioPipeline.Monitor.plainConfig true } firstWords
    w.Pushed 1 ∧ w.Lost 1 := by
  intro w
  have hpushes : w.pushes = [⟨1, none⟩, ⟨1, none⟩] := by decide +kernel
  have hpushed : w.Pushed 1 := ⟨⟨1, none⟩, by simp [hpushes], rfl⟩
  exact ⟨hpushed, utterance_audio_lost AudioPipeline.Monitor.plainConfig firstWords 1 (.inl hpushed)⟩

end StreamWorld

end Acva
