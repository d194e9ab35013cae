import Acva.Dialogue.TurnWriter
import Acva.Event.Bus
import Acva.System.Discard

/-!
# The dialogue components on the bus

The machine, the TTS bridge, the manager and the turn writer subscribe to every event with the `Block`
policy. The machine publishes `CancelGeneration` and the manager `UserInterrupted` from their handlers,
so either pushes into the queue that its own worker drains. The other subscriptions drop what does not
fit and hold nobody up.
-/

namespace Acva

/-- The subscriptions in the order of their `start()`. -/
inductive Subscriber
  | fsm
  | ttsBridge
  | manager
  | turnWriter
  deriving DecidableEq, Repr

structure Components where
  joint : JointWorld
  writer : TurnWriter := {}

/-- What the handlers read: the steady clock, the pipeline gate and the wall clock. -/
structure HandlerInput where
  now : Time := 0
  gateOpen : Bool := true
  wall : Int := 0
  deriving DecidableEq, Repr

/-- Threads that change the components and are no subscription's worker. What they publish is published by
the external publishers. -/
inductive OtherThread
  | detector (now : Time) (aec : AecReading)
  | managerIo (a : IoAction)
  | ttsIo (a : TtsIoAction)
  | dequeue (active : TurnId)
  | session (id : SessionId)
  deriving DecidableEq, Repr

/-- `TtsBridge::on_event` to its return. -/
def TtsBridge.handle (b : TtsBridge) : Event → TtsBridge
  | .userInterrupted e => b.interrupt e
  | e => b.onEvent e

namespace Components

variable (cfg : JointConfig) (contentOf : Text → Option Text)

def handler : Subscriber → HandlerInput → Components → Event → Components × List Event
  | .fsm, input, c, e =>
    let joint := c.joint.step cfg contentOf (.dialogue (.fsm input.now e))
    ({ c with joint := joint }, c.joint.dialogue.fsm.publishedSince joint.dialogue.fsm)
  | .ttsBridge, _, c, e => ({ c with joint := { c.joint with tts := c.joint.tts.handle e } }, [])
  | .manager, input, c, e =>
    let joint := c.joint.step cfg contentOf (.dialogue (.manager input.now input.gateOpen e))
    ({ c with joint := joint }, joint.dialogue.manager.bus.drop c.joint.dialogue.manager.bus.length)
  | .turnWriter, input, c, e => ({ c with writer := c.writer.onEvent input.wall e }, [])

def other : OtherThread → Components → Components
  | .detector now aec, c => { c with joint := c.joint.step cfg contentOf (.dialogue (.detector now aec)) }
  | .managerIo a, c => { c with joint := c.joint.step cfg contentOf (.dialogue (.io a)) }
  | .ttsIo a, c => { c with joint := c.joint.step cfg contentOf (.tts (.io a)) }
  | .dequeue active, c => { c with joint := c.joint.step cfg contentOf (.tts (.dequeue active)) }
  | .session id, c => { c with writer := { c.writer with session := id } }

end Components

/-! ### A handler publishes once at most -/

namespace FsmWorld

/-- Nothing is published between the two states. -/
def Silent (w w' : FsmWorld) : Prop := ∃ l, w'.log = w.log ++ l ∧ l.filterMap FsmAction.event? = []

variable {w v : FsmWorld}

lemma Silent.of_log (h : v.log = w.log) : Silent w v := ⟨[], by simp [h]⟩

lemma Silent.act (h : Silent w v) {a : FsmAction} (ha : a.event? = none) : Silent w (v.act a) := by
  obtain ⟨l, hlog, hl⟩ := h
  refine ⟨l ++ [a], ?_, ?_⟩
  · simp [FsmWorld.act, hlog]
  · simp [hl, ha]

lemma Silent.transition (h : Silent w v) (now : Time) (next : State) : Silent w (v.transition now next) := by
  by_cases hsame : v.fsm.state = next
  · have hlog : (v.transition now next).log = v.log := by simp [FsmWorld.transition, hsame]
    obtain ⟨l, hv, hl⟩ := h
    exact ⟨l, hlog.trans hv, hl⟩
  · have hlog : (v.transition now next).log = (v.act (.stateChanged v.fsm.state next)).log := by
      simp [FsmWorld.transition, FsmWorld.act, hsame]
    obtain ⟨l, hv, hl⟩ := h.act (a := .stateChanged v.fsm.state next) rfl
    exact ⟨l, hlog.trans hv, hl⟩

lemma Silent.complete (h : Silent w v) (now : Time) : Silent w (v.complete now) := by
  have hcounted : Silent w { v with fsm := { v.fsm with outcome := .completed,
                                                        turnsCompleted := v.fsm.turnsCompleted + 1 } } := h
  exact ((hcounted.act rfl).transition now _).transition now _

lemma Silent.publishedSince (h : Silent w v) : w.publishedSince v = [] := by
  obtain ⟨l, hlog, hl⟩ := h
  unfold FsmWorld.publishedSince
  rw [hlog, List.drop_left, hl]

lemma silent_onEvent (w : FsmWorld) (now : Time) {e : Event} (he : ∀ u, e ≠ .userInterrupted u) :
    Silent w (w.onEvent now e) := by
  have hself : Silent w w := .of_log rfl
  cases e with
  | speechStarted e =>
    simp only [onEvent, handleSpeechStarted]
    split
    · apply Silent.transition
      apply Silent.act _ rfl
      exact .of_log rfl
    · exact hself
  | speechEnded e =>
    simp only [onEvent, handleSpeechEnded]
    split
    · exact hself.transition now _
    · exact hself
  | finalTranscript e =>
    simp only [onEvent, handleFinalTranscript]
    split
    · apply Silent.transition
      exact .of_log rfl
    · exact hself
  | llmSentence e =>
    simp only [onEvent, handleLlmSentence]
    split
    · apply Silent.transition
      exact .of_log rfl
    · exact .of_log rfl
  | llmFinished e =>
    simp only [onEvent, handleLlmFinished]
    split
    · apply Silent.complete
      exact .of_log rfl
    · split
      · apply Silent.complete
        exact .of_log rfl
      · exact .of_log rfl
  | playbackFinished e =>
    simp only [onEvent, handlePlaybackFinished]
    split
    · exact hself
    · split
      · apply Silent.complete
        exact .of_log rfl
      · exact .of_log rfl
  | userInterrupted e => exact absurd rfl (he e)
  | _ => exact hself

lemma publishedSince_length (w : FsmWorld) (now : Time) (e : Event) :
    (w.publishedSince (w.onEvent now e)).length ≤ 1 := by
  by_cases he : ∀ u, e ≠ .userInterrupted u
  · rw [(silent_onEvent w now he).publishedSince]
    exact Nat.zero_le 1
  · obtain ⟨u, rfl⟩ : ∃ u, e = .userInterrupted u := by simpa using he
    by_cases h : w.fsm.state = .listening ∨ w.fsm.state = .idle
    · simp [onEvent, handleUserInterrupted_ignored w now h, publishedSince]
    · obtain ⟨_, _, hpub⟩ := handleUserInterrupted_effect w now h
      simp [onEvent, hpub]

end FsmWorld

lemma ManagerWorld.published_length (cfg : ManagerConfig) (w : ManagerWorld) (now : Time) (gateOpen : Bool)
    (e : Event) : ((w.onEvent cfg now gateOpen e).bus.drop w.bus.length).length ≤ 1 := by
  cases e with
  | finalTranscript e =>
    simp only [onEvent]
    split
    · simp
    · split
      · simp
      · simp [enqueueTurn]
  | userInterrupted e => simp [onEvent]
  | cancelGeneration turn => simp [onEvent]
  | _ => simp [onEvent]

/-- The bus as `main` and the stacks set it up. -/
def dialogueBus (cfg : JointConfig) (contentOf : Text → Option Text) :
    EventBusConfig Subscriber Event Components HandlerInput OtherThread where
  subs := [.fsm, .ttsBridge, .manager, .turnWriter]
  queueCapacity
    | .fsm => 512
    | .ttsBridge | .manager | .turnWriter => 256
  handler := Components.handler cfg contentOf
  other := Components.other cfg contentOf
  nodup := by decide
  subscribed := by
    intro i
    cases i <;> decide
  publishesOnce := by
    intro i input c e
    cases i with
    | fsm => exact c.joint.dialogue.fsm.publishedSince_length input.now e
    | ttsBridge => exact Nat.zero_le 1
    | manager => exact c.joint.dialogue.manager.published_length cfg.dialogue.manager input.now input.gateOpen e
    | turnWriter => exact Nat.zero_le 1

/-! ### Deadlock -/

/-- As long as no other thread takes the last place in the queue of a worker that publishes and has not
pushed into its own queue yet, no workers wait for one another. -/
theorem dialogueBus_not_deadlocked (cfg : JointConfig) (contentOf : Text → Option Text) {κ : Type*} [DecidableEq κ]
    (c : Components) (as : List (EventBusAction Subscriber κ Event HandlerInput OtherThread))
    (h : Runs.Along (EventBus.step (dialogueBus cfg contentOf)) EventBus.KeepsRoom
      (EventBus.started (dialogueBus cfg contentOf) c) as) (D : Set Subscriber) :
    ¬Deadlock.Deadlocked (Runs.exec (EventBus.step (dialogueBus cfg contentOf))
      (EventBus.started (dialogueBus cfg contentOf) c : EventBus Subscriber κ Event Components) as).Waits D :=
  EventBus.not_deadlocked_of_keepsRoom (dialogueBus cfg contentOf) c as h D

/-- The threads that publish in the runs below. -/
inductive Publisher
  | capture
  | stt
  | detector
  | llm
  deriving DecidableEq, Repr

abbrev BusAction := EventBusAction Subscriber Publisher Event HandlerInput OtherThread

namespace Components

/-- `publish_event` with room in every queue. -/
def published (k : Publisher) (e : Event) : List BusAction := .publish k e :: List.replicate 4 (.push (.inr k))

/-- Each of the workers handles one event. -/
def handled (workers : List Subscriber) : List BusAction := workers.map fun i => .pop i {}

/-- The user speaks, is understood and then interrupts; the machine's worker has not got to the
interruption yet. -/
def opening : List BusAction :=
  published .capture (.speechStarted {}) ++ handled [.fsm, .ttsBridge, .manager, .turnWriter] ++
  published .capture (.speechEnded {}) ++ handled [.fsm, .ttsBridge, .manager, .turnWriter] ++
  published .stt (.finalTranscript { text := ascii "hello" }) ++ handled [.fsm, .ttsBridge, .manager, .turnWriter] ++
  published .detector (.userInterrupted {}) ++ handled [.ttsBridge, .manager, .turnWriter]

/-- One token of the answer, handled by all workers but the machine's. -/
def tokenRound : List BusAction :=
  published .llm (.llmToken 1 []) ++ handled [.ttsBridge, .manager, .turnWriter]

abbrev initial : EventBus Subscriber Publisher Event Components :=
  EventBus.started (dialogueBus {} some) { joint := .started 0 {} }

abbrev run (s : EventBus Subscriber Publisher Event Components) (as : List BusAction) :
    EventBus Subscriber Publisher Event Components :=
  Runs.exec (EventBus.step (dialogueBus {} some)) s as

end Components

open Components in
/-- Tokens arrive while the machine's worker publishes `CancelGeneration`. -/
theorem interruption_among_tokens :
    (run initial (opening ++ [.pop .fsm {}] ++ tokenRound)).OwnPending .fsm ∧
      ∀ D, ¬Deadlock.Deadlocked (run initial (opening ++ [.pop .fsm {}] ++ tokenRound)).Waits D := by
  refine ⟨?_, fun D => ?_⟩
  · unfold EventBus.OwnPending
    decide +kernel
  · apply dialogueBus_not_deadlocked
    decide +kernel

namespace Components

variable {s : EventBus Subscriber Publisher Event Components}

/-- The interruption and `n` tokens wait for the machine, whose turn is under way; the last token waits for
the workers in `due` too. -/
structure Backlog (n : Nat) (due : List Subscriber) (s : EventBus Subscriber Publisher Event Components) : Prop where
  isOpen : ∀ i, (s.queue i).closed = false
  policy : ∀ i, (s.queue i).policy = .block
  capacity : ∀ i, (s.queue i).capacity = if i = .fsm then 512 else 256
  machine : (s.queue .fsm).q = .userInterrupted {} :: List.replicate n (.llmToken 1 [])
  others : ∀ i, i ≠ .fsm → (s.queue i).q = if i ∈ due then [.llmToken 1 []] else []
  outbox : ∀ t, s.outbox t = []
  state : s.env.joint.dialogue.fsm.fsm.state = .thinking

lemma backlog_opening : Backlog 0 [] (run initial opening) := by
  refine ⟨?_, ?_, ?_, ?_, ?_, ?_, ?_⟩
  · intro i
    cases i <;> decide +kernel
  · intro i
    cases i <;> decide +kernel
  · intro i
    cases i <;> decide +kernel
  · decide +kernel
  · intro i hi
    cases i with
    | fsm => exact absurd rfl hi
    | _ => decide +kernel
  · rintro (i | k)
    · cases i <;> decide +kernel
    · cases k <;> decide +kernel
  · decide +kernel

lemma handler_token (i : Subscriber) (hi : i ≠ .fsm) (c : Components) :
    ((dialogueBus {} some).handler i {} c (.llmToken 1 [])).2 = [] ∧
      ((dialogueBus {} some).handler i {} c (.llmToken 1 [])).1.joint.dialogue.fsm.fsm = c.joint.dialogue.fsm.fsm := by
  cases i with
  | fsm => exact absurd rfl hi
  | ttsBridge => exact ⟨rfl, rfl⟩
  | manager =>
    refine ⟨?_, rfl⟩
    change c.joint.dialogue.manager.bus.drop c.joint.dialogue.manager.bus.length = []
    exact List.drop_length
  | turnWriter => exact ⟨rfl, rfl⟩

lemma Backlog.published {n : Nat} (h : Backlog n [] s) (hn : n + 1 < 512) :
    Backlog (n + 1) [.ttsBridge, .manager, .turnWriter] (run s (published .llm (.llmToken 1 []))) := by
  have hroom : ∀ i, (s.queue i).closed = false ∧ (s.queue i).q.length < (s.queue i).capacity := by
    intro i
    refine ⟨h.isOpen i, ?_⟩
    rw [h.capacity]
    by_cases hi : i = .fsm
    · subst hi
      simpa [h.machine] using hn
    · simp [h.others i hi, hi]
  have hrun : run s (Components.published .llm (.llmToken 1 [])) =
      { s with queue := fun i => (s.queue i).accept (.llmToken 1 []) } :=
    EventBus.exec_publish _ (h.outbox _) hroom
  rw [hrun]
  refine ⟨h.isOpen, h.policy, h.capacity, ?_, fun i hi => ?_, h.outbox, h.state⟩
  · simp only [BoundedQueue.accept, h.machine, List.cons_append, List.replicate_succ']
  · have hdue : i ∈ [Subscriber.ttsBridge, .manager, .turnWriter] := by
      cases i with
      | fsm => exact absurd rfl hi
      | _ => decide
    simp [BoundedQueue.accept, h.others i hi, hdue]

lemma Backlog.pop {n : Nat} {i : Subscriber} {due : List Subscriber} (h : Backlog n (i :: due) s) (hi : i ≠ .fsm)
    (hdue : i ∉ due) : Backlog n due (s.step (dialogueBus {} some) (.pop i {})) := by
  obtain ⟨hquiet, hmachine⟩ := handler_token i hi s.env
  have hpop : (s.queue i).tryPop = some (.llmToken 1 [], { s.queue i with q := [], pops := (s.queue i).pops + 1 }) := by
    simp [BoundedQueue.tryPop, h.others i hi]
  rw [EventBus.step_pop_quiet (h.outbox _) hpop hquiet]
  -- only the items and the counter of queue `i` change
  refine ⟨?_, ?_, ?_, ?_, fun j hj => ?_, h.outbox, ?_⟩
  · exact (Function.forall_update_iff s.queue fun _ b => b.closed = false).2 ⟨h.isOpen i, fun j _ => h.isOpen j⟩
  · exact (Function.forall_update_iff s.queue fun _ b => b.policy = .block).2 ⟨h.policy i, fun j _ => h.policy j⟩
  · exact (Function.forall_update_iff s.queue fun j b => b.capacity = if j = .fsm then 512 else 256).2
      ⟨h.capacity i, fun j _ => h.capacity j⟩
  · simpa [Function.update_of_ne (Ne.symm hi)] using h.machine
  · by_cases hji : j = i
    · subst hji
      simp [hdue]
    · simpa [Function.update_of_ne hji, hji] using h.others j hj
  · rw [← h.state, ← hmachine]

lemma Backlog.handled {n : Nat} {due : List Subscriber} (h : Backlog n due s) (hnodup : due.Nodup)
    (hfsm : .fsm ∉ due) : Backlog n [] (run s (Components.handled due)) := by
  induction due generalizing s with
  | nil => exact h
  | cons i due ih =>
    obtain ⟨hi, hrest⟩ := List.nodup_cons.mp hnodup
    obtain ⟨hne, hfsm'⟩ : i ≠ .fsm ∧ .fsm ∉ due := by
      rw [List.mem_cons, not_or] at hfsm
      exact ⟨Ne.symm hfsm.1, hfsm.2⟩
    exact ih (h.pop hne hi) hrest hfsm'

lemma Backlog.tokens {n : Nat} (h : Backlog 0 [] s) (hn : n < 512) :
    Backlog n [] (run s (List.replicate n tokenRound).flatten) := by
  induction n with
  | zero => exact h
  | succ n ih =>
    rw [List.replicate_succ', List.flatten_append, run, Runs.exec_append]
    have hround := ((ih (by omega)).published hn).handled (by decide) (by decide)
    simpa [tokenRound, run] using hround

/-- The machine's queue is full. Its worker takes the interruption, and before it has pushed
`CancelGeneration` the place it has left is taken by the next token. -/
def lastPlace : List BusAction :=
  [.publish .llm (.llmToken 1 []), .pop .fsm {}, .push (.inr .llm)]

lemma handler_interruption (c : Components) (hstate : c.joint.dialogue.fsm.fsm.state = .thinking) :
    ((dialogueBus {} some).handler .fsm {} c (.userInterrupted {})).2 =
      [.cancelGeneration c.joint.dialogue.fsm.fsm.active.id] := by
  have hactive : ¬(c.joint.dialogue.fsm.fsm.state = .listening ∨ c.joint.dialogue.fsm.fsm.state = .idle) := by
    simp [hstate]
  exact (FsmWorld.handleUserInterrupted_effect c.joint.dialogue.fsm 0 hactive).2.2

/-- The pushes that follow the one into the machine's queue. -/
def later (e : Event) : List (Subscriber × Event) := [(.ttsBridge, e), (.manager, e), (.turnWriter, e)]

/-- The next token is published and the machine's worker takes the interruption. -/
lemma Backlog.interrupted {n : Nat} (h : Backlog n [] s) :
    let s' := run s [.publish .llm (.llmToken 1 []), .pop .fsm {}]
    let cancel := Event.cancelGeneration s.env.joint.dialogue.fsm.fsm.active.id
    s'.queue .fsm = { s.queue .fsm with q := List.replicate n (.llmToken 1 [])
                                        pops := (s.queue .fsm).pops + 1 } ∧
      s'.outbox (.inl .fsm) = (.fsm, cancel) :: later cancel ∧
      s'.outbox (.inr .llm) = (.fsm, .llmToken 1 []) :: later (.llmToken 1 []) := by
  intro s' cancel
  have hpop : (s.queue .fsm).tryPop = some (.userInterrupted {},
      { s.queue .fsm with q := List.replicate n (.llmToken 1 []), pops := (s.queue .fsm).pops + 1 }) := by
    simp only [BoundedQueue.tryPop, h.machine]
  have hpublish : s.step (dialogueBus {} some) (.publish .llm (.llmToken 1 [])) =
      { s with
        outbox := Function.update s.outbox (.inr .llm) ((.fsm, .llmToken 1 []) :: later (.llmToken 1 [])) } := by
    simp only [EventBus.step, h.outbox]
    rfl
  have hs' : s' = EventBus.step (dialogueBus {} some)
      (s.step (dialogueBus {} some) (.publish .llm (.llmToken 1 []))) (.pop .fsm {}) := rfl
  rw [hpublish] at hs'
  simp only [EventBus.step, ne_eq, reduceCtorEq, not_false_eq_true, Function.update_of_ne, h.outbox, hpop,
    handler_interruption s.env h.state] at hs'
  rw [hs']
  refine ⟨?_, ?_, ?_⟩
  · simp
  · simp [EventBusConfig.deliveries, dialogueBus, later, cancel]
  · simp

lemma Backlog.lastPlace {n : Nat} (h : Backlog n [] s) (hn : n + 1 = 512) :
    (run s Components.lastPlace).Waits .fsm .fsm ∧ (run s Components.lastPlace).Overfull .fsm := by
  obtain ⟨hqueue, hown, hllm⟩ := h.interrupted
  have hrun : run s Components.lastPlace = EventBus.step (dialogueBus {} some)
      (run s [.publish .llm (.llmToken 1 []), .pop .fsm {}]) (.push (.inr .llm)) := rfl
  rw [hrun]
  generalize run s [.publish .llm (.llmToken 1 []), .pop .fsm {}] = s' at hqueue hown hllm ⊢
  have hopen : (s'.queue .fsm).closed = false := by
    rw [hqueue]
    exact h.isOpen .fsm
  have hcapacity : (s'.queue .fsm).capacity = 512 := by
    rw [hqueue]
    exact h.capacity .fsm
  have hlength : (s'.queue .fsm).q.length = n := by
    rw [hqueue]
    exact List.length_replicate
  have hover : (s'.step (dialogueBus {} some) (.push (.inr .llm))).Overfull .fsm := by
    rw [EventBus.step_push (dialogueBus {} some) hllm hopen (by omega)]
    refine ⟨?_, ?_, ?_, ?_⟩
    · simp [EventBus.OwnPending, hown]
    · simpa [BoundedQueue.accept] using hopen
    · simp only [BoundedQueue.accept, Function.update_self, List.length_append, List.length_singleton]
      omega
    · simpa [BoundedQueue.accept, hqueue] using h.policy .fsm
  have hhead : (s'.step (dialogueBus {} some) (.push (.inr .llm))).outbox (.inl .fsm) = s'.outbox (.inl .fsm) := by
    rw [EventBus.step_push (dialogueBus {} some) hllm hopen (by omega)]
    simp
  refine ⟨⟨_, _, hhead.trans hown, ?_⟩, hover⟩
  exact (BoundedQueue.push_eq_none_iff _ _).2 ⟨hover.isOpen, hover.full, hover.policy⟩

/-- The machine is busy while an interruption and 511 tokens arrive; when it takes the interruption the
next token fills its queue again, and it waits for itself. -/
theorem machine_waits_for_itself :
    Deadlock.Deadlocked
        (run initial (opening ++ (List.replicate 511 tokenRound).flatten ++ Components.lastPlace)).Waits {.fsm} ∧
      ∀ as : List BusAction, (∀ i, .stop i ∈ as → i ≠ .fsm) →
        (run (run initial (opening ++ (List.replicate 511 tokenRound).flatten ++ Components.lastPlace)) as).queue .fsm =
          (run initial (opening ++ (List.replicate 511 tokenRound).flatten ++ Components.lastPlace)).queue .fsm := by
  have hbacklog := backlog_opening.tokens (n := 511) (by decide)
  obtain ⟨hwaits, hover⟩ := hbacklog.lastPlace rfl
  simp only [run, Runs.exec_append] at hwaits hover ⊢
  exact ⟨Deadlock.deadlocked_singleton hwaits, fun as hstop => hover.never_pops (dialogueBus {} some) as hstop⟩

end Components

end Acva
