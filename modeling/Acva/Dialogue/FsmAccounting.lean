import Acva.Dialogue.Fsm
import Mathlib.Data.List.Induction

/-!
# Turn accounting and stale events

The observer calls of every run nest: a turn is minted, labelled once when it ends, and only then
is the next one minted. The three counters are the label counts, and the machine rests in one of
five states between events. The second half says which late events leave the machine alone.
-/

namespace Acva

/-- The states the machine can rest in after `start()`. -/
def State.isResting (s : State) : Bool := s.isActive || s = .listening

/-- The turns ended so far with their labels, and the turn under way. -/
structure Ledger where
  closed : List (TurnId × OutcomeLabel) := []
  current : Option TurnId := none
  deriving DecidableEq, Repr

/-- Reads one action; a turn minted over an open one or a label without a turn spoils the ledger. -/
def Ledger.record : Option Ledger → FsmAction → Option Ledger
  | some l, .minted t => if l.current = none then some { l with current := some t } else none
  | some l, .outcome o => l.current.map fun t => { closed := l.closed ++ [(t, o)], current := none }
  | l, _ => l

def ledger (log : List FsmAction) : Option Ledger := (turnActions log).foldl Ledger.record (some {})

/-- How many closed turns carry the label. -/
def Ledger.count (l : Ledger) (o : OutcomeLabel) : Nat := (l.closed.map Prod.snd).count o

/-- The number of turns the machine has minted. -/
def FsmWorld.mints (w : FsmWorld) : Nat :=
  (turnActions w.log).countP fun a => match a with | .minted _ => true | _ => false

/-- The ledger is sound and agrees with the fields of the machine. -/
structure Accounted (w : FsmWorld) (l : Ledger) : Prop where
  sound : ledger w.log = some l
  current : l.current = if w.fsm.state.isActive then some w.fsm.active.id else none
  counted : w.fsm.counted = l.count
  resting : w.fsm.state.isResting

lemma State.active_of_resting {s : State} (h : s.isResting) (hs : s ≠ .listening) : s.isActive := by
  simpa [State.isResting, hs] using h

lemma Ledger.count_close (l : Ledger) (t : TurnId) (o o' : OutcomeLabel) :
    Ledger.count ⟨l.closed ++ [(t, o)], none⟩ o' = l.count o' + if o' = o then 1 else 0 := by
  by_cases h : o' = o
  · simp [Ledger.count, h]
  · simp [Ledger.count, h, Ne.symm h]

/-- Every event keeps the accounts. -/
theorem Accounted.step {w w' : FsmWorld} {e : Event} {l : Ledger} (h : Accounted w l)
    (hstep : TurnStep w w' e) : ∃ l', Accounted w' l' := by
  cases hstep with
  | mint before after id _ _ counted log _ =>
    have hcur : l.current = none := by
      rw [h.current]
      rcases before with hs | hs | hs <;> simp [hs, State.isActive]
    refine ⟨{ l with current := some w.turns.next }, ?_, ?_, ?_, ?_⟩
    · have hs := h.sound
      simp only [ledger] at hs
      simp [ledger, log, hs, Ledger.record, hcur]
    · simp [after, State.isActive, id]
    · rw [counted, h.counted]
      rfl
    · simp [after, State.isResting, State.isActive]
  | keep state active _ _ counted log =>
    refine ⟨l, ?_, ?_, ?_, ?_⟩
    · rw [ledger, log]
      exact h.sound
    · rcases state with hs | ⟨hs, hs'⟩
      · rw [hs, active, h.current]
      · rw [h.current, active, if_pos hs, if_pos hs']
    · rw [counted, h.counted]
    · rcases state with hs | ⟨_, hs'⟩
      · rw [hs]
        exact h.resting
      · simp [State.isResting, hs']
  | close o before after active _ counted log =>
    have hcur : l.current = some w.fsm.active.id := by
      rw [h.current, if_pos (State.active_of_resting h.resting before.1)]
    refine ⟨⟨l.closed ++ [(w.fsm.active.id, o)], none⟩, ?_, ?_, ?_, ?_⟩
    · have hs := h.sound
      simp only [ledger] at hs
      simp [ledger, log, hs, Ledger.record, hcur]
    · simp [after, State.isActive]
    · funext o'
      rw [counted, h.counted, Ledger.count_close]
    · simp [after, State.isResting]

/-! ### Runs -/

/-- The machine after a sequence of events, each with the time it is handled at. -/
def fsmRun (w : FsmWorld) (es : List (Time × Event)) : FsmWorld :=
  Runs.exec (fun w e => w.onEvent e.1 e.2) w es

/-- A machine on which `start()` has just been called. -/
def FsmWorld.started (turns : TurnFactory) (t : Time) : FsmWorld := ({ turns := turns } : FsmWorld).start t

/-- The number of turns that have ended. -/
def Fsm.ended (f : Fsm) : Nat := f.turnsCompleted + f.turnsInterrupted + f.turnsDiscarded

lemma Fsm.ended_eq (f : Fsm) :
    f.ended = f.counted .completed + f.counted .interrupted + f.counted .discarded := rfl

lemma accounted_started (turns : TurnFactory) (t : Time) : Accounted (FsmWorld.started turns t) {} := by
  refine ⟨rfl, rfl, ?_, rfl⟩
  funext o
  cases o <;> rfl

theorem accounted_run (turns : TurnFactory) (t : Time) (es : List (Time × Event)) :
    ∃ l, Accounted (fsmRun (FsmWorld.started turns t) es) l :=
  Runs.exec_invariant (fun w => ∃ l, Accounted w l)
    (fun w e ⟨_, h⟩ => h.step (turnStep w e.1 e.2)) ⟨_, accounted_started turns t⟩ es

lemma mints_of_record {as : List FsmAction} {l : Ledger}
    (h : as.foldl Ledger.record (some {}) = some l) :
    (as.countP fun a => match a with | .minted _ => true | _ => false) =
      l.closed.length + if l.current.isSome then 1 else 0 := by
  induction as using List.reverseRecOn generalizing l with
  | nil =>
    obtain rfl : l = {} := by simpa using h.symm
    rfl
  | append_singleton as a ih =>
    simp only [List.foldl_append, List.foldl_cons, List.foldl_nil] at h
    cases hl : as.foldl Ledger.record (some {}) with
    | none => cases a <;> simp [hl, Ledger.record] at h
    | some l0 =>
      rw [List.countP_append, ih hl, List.countP_singleton]
      rw [hl] at h
      cases a with
      | minted t =>
        by_cases hc : l0.current = none
        · obtain rfl : { l0 with current := some t } = l := by simpa [Ledger.record, hc] using h
          simp [hc]
        · simp [Ledger.record, hc] at h
      | outcome o =>
        cases hc : l0.current with
        | none => simp [Ledger.record, hc] at h
        | some t =>
          obtain rfl : ⟨l0.closed ++ [(t, o)], none⟩ = l := by simpa [Ledger.record, hc] using h
          simp
      | stateChanged p n =>
        obtain rfl : l0 = l := by simpa [Ledger.record] using h
        simp
      | published e =>
        obtain rfl : l0 = l := by simpa [Ledger.record] using h
        simp

lemma Ledger.closed_length (l : Ledger) :
    l.closed.length = l.count .completed + l.count .interrupted + l.count .discarded := by
  obtain ⟨closed, c⟩ := l
  induction closed with
  | nil => rfl
  | cons x xs ih =>
    obtain ⟨t, o⟩ := x
    simp only [Ledger.count, List.map_cons, List.count_cons, List.length_cons] at ih ⊢
    cases o <;> simp <;> omega

lemma Accounted.mints_eq {w : FsmWorld} {l : Ledger} (h : Accounted w l) :
    w.mints = w.fsm.ended + if w.fsm.state.isActive then 1 else 0 := by
  rw [FsmWorld.mints, mints_of_record h.sound, l.closed_length, Fsm.ended_eq, h.counted, h.current]
  cases w.fsm.state.isActive <;> rfl

lemma TurnStep.ended_le {w w' : FsmWorld} {e : Event} (h : TurnStep w w' e) : w.fsm.ended ≤ w'.fsm.ended := by
  have hle : ∀ o, w.fsm.counted o ≤ w'.fsm.counted o := by
    intro o
    cases h with
    | mint _ _ _ _ _ counted _ _ => simp [counted]
    | keep _ _ _ _ counted _ => simp [counted]
    | close o' _ _ _ _ counted _ => simp [counted]
  exact Nat.add_le_add (Nat.add_le_add (hle .completed) (hle .interrupted)) (hle .discarded)

/-- An event that does not end the turn under way keeps it and counts what it played. -/
lemma TurnStep.same_turn {w w' : FsmWorld} {e : Event} (h : TurnStep w w' e)
    (hact : w.fsm.state.isActive) (hend : w'.fsm.ended = w.fsm.ended) :
    w'.fsm.state.isActive ∧ w'.fsm.active = w.fsm.active ∧ w'.fsm.sentencesPlayed =
      w.fsm.sentencesPlayed + if e.isPlaybackOf w.fsm.active.id then 1 else 0 := by
  cases h with
  | mint before _ _ _ _ _ _ _ => rcases before with hs | hs | hs <;> simp [hs, State.isActive] at hact
  | keep state active _ played _ _ =>
    refine ⟨?_, active, played⟩
    rcases state with hs | ⟨_, hs'⟩
    · rwa [hs]
    · exact hs'
  | close o _ _ _ _ counted _ =>
    rw [Fsm.ended_eq, Fsm.ended_eq, counted] at hend
    cases o <;> simp at hend

/-- The sentence counter of a turn under way is the number of its playback reports, in 32 bits. -/
lemma played_since_mint (w : FsmWorld) (es : List (Time × Event)) (hact : w.fsm.state.isActive)
    (hend : (fsmRun w es).fsm.ended = w.fsm.ended) :
    (fsmRun w es).fsm.state.isActive ∧ (fsmRun w es).fsm.active = w.fsm.active ∧
      (fsmRun w es).fsm.sentencesPlayed = w.fsm.sentencesPlayed +
        UInt32.ofNat (es.countP fun e => e.2.isPlaybackOf w.fsm.active.id) := by
  induction es generalizing w with
  | nil => simp [fsmRun, hact]
  | cons e es ih =>
    have hstep := turnStep w e.1 e.2
    have hle := hstep.ended_le
    have hmono : (w.onEvent e.1 e.2).fsm.ended ≤ (fsmRun (w.onEvent e.1 e.2) es).fsm.ended :=
      Runs.exec_monotone (fun w => w.fsm.ended) (fun w e => (turnStep w e.1 e.2).ended_le) _ es
    have hrun : fsmRun w (e :: es) = fsmRun (w.onEvent e.1 e.2) es := rfl
    rw [hrun] at hend ⊢
    obtain ⟨hact', hid, hplayed⟩ := hstep.same_turn hact (by omega)
    obtain ⟨h1, h2, h3⟩ := ih (w.onEvent e.1 e.2) hact' (by omega)
    refine ⟨h1, h2.trans hid, ?_⟩
    rw [h3, hplayed, hid, List.countP_cons, UInt32.ofNat_add]
    by_cases hp : e.2.isPlaybackOf w.fsm.active.id = true
    · simp only [hp, if_true]
      rw [UInt32.add_assoc, UInt32.add_comm 1]
      rfl
    · simp only [hp, if_false, Bool.false_eq_true]
      simp

lemma one_le_ofNat_iff (n : Nat) : (1 : UInt32) ≤ UInt32.ofNat n ↔ n % 2 ^ 32 ≠ 0 := by
  rw [UInt32.le_iff_toNat_le, UInt32.toNat_ofNat', UInt32.toNat_one]
  omega

/-- An interruption counts the turn under way by whether the sentence counter is zero. -/
lemma counted_userInterrupted (w : FsmWorld) (now : Time) (u : UserInterrupted)
    (hact : w.fsm.state.isActive) :
    (w.onEvent now (.userInterrupted u)).fsm.counted = fun o => w.fsm.counted o +
      if o = (if 1 ≤ w.fsm.sentencesPlayed then .interrupted else .discarded) then 1 else 0 := by
  have hs : ¬(w.fsm.state = .listening ∨ w.fsm.state = .idle) := by
    rintro (hs | hs) <;> simp [hs, State.isActive] at hact
  simp only [FsmWorld.onEvent, FsmWorld.handleUserInterrupted, hs, if_false]
  funext o
  by_cases hp : 1 ≤ w.fsm.sentencesPlayed <;> cases o <;> simp [hp, Fsm.counted]

/-- The accounts of every run. Mints are the ended turns and the one under way; every ended turn was
labelled once, under the label its counter counts; an interruption counts the turn by the 32-bit
number of its playback reports since it was minted; and no run rests in a transient state. -/
theorem fsm_turn_accounting (turns : TurnFactory) (t : Time) (es : List (Time × Event)) :
    let w := fsmRun (FsmWorld.started turns t) es
    w.mints = w.fsm.turnsCompleted + w.fsm.turnsInterrupted + w.fsm.turnsDiscarded +
      (if w.fsm.state.isActive then 1 else 0) ∧
    (∃ l, ledger w.log = some l ∧
      l.current = (if w.fsm.state.isActive then some w.fsm.active.id else none) ∧
      w.fsm.turnsCompleted = l.count .completed ∧ w.fsm.turnsInterrupted = l.count .interrupted ∧
      w.fsm.turnsDiscarded = l.count .discarded) ∧
    (∀ pre tm ev mid, es = pre ++ (tm, .speechStarted ev) :: mid →
      let before := fsmRun (FsmWorld.started turns t) pre
      before.fsm.state = .listening → w.fsm.ended = before.fsm.ended → ∀ now ui,
        let heard := mid.countP fun e => e.2.isPlaybackOf before.turns.next
        let label : OutcomeLabel := if heard % 2 ^ 32 = 0 then .discarded else .interrupted
        (w.onEvent now (.userInterrupted ui)).fsm.counted =
          fun o => w.fsm.counted o + if o = label then 1 else 0) ∧
    w.fsm.state ≠ .completed ∧ w.fsm.state ≠ .interrupted := by
  intro w
  obtain ⟨l, h⟩ := accounted_run turns t es
  refine ⟨h.mints_eq, ⟨l, h.sound, h.current, congrFun h.counted .completed,
    congrFun h.counted .interrupted, congrFun h.counted .discarded⟩, ?_, ?_, ?_⟩
  · intro pre tm ev mid hes before hlisten hend now ui heard label
    let minted := before.onEvent tm (.speechStarted ev)
    have hrun : w = fsmRun minted mid := by
      simp only [w, fsmRun, hes, Runs.exec_append]
      rfl
    have hm : minted.fsm.state = .userSpeaking ∧ minted.fsm.active.id = before.turns.next ∧
        minted.fsm.sentencesPlayed = 0 ∧ minted.fsm.ended = before.fsm.ended := by
      simp [minted, FsmWorld.onEvent, FsmWorld.handleSpeechStarted, hlisten, Fsm.ended]
    obtain ⟨hact, hid, hplayed⟩ := played_since_mint minted mid (by simp [hm.1, State.isActive])
      (by rw [← hrun, hend, hm.2.2.2])
    rw [← hrun] at hact hid hplayed
    rw [hm.2.1, hm.2.2.1, UInt32.zero_add] at hplayed
    rw [counted_userInterrupted w now ui hact, hplayed]
    simp only [one_le_ofNat_iff, label, heard, ite_not]
  · intro hc
    have := h.resting
    simp [w, hc, State.isResting, State.isActive] at this
  · intro hc
    have := h.resting
    simp [w, hc, State.isResting, State.isActive] at this

/-- A first sentence played before the barge-in: the turn counts as interrupted. -/
theorem fsm_turn_accounting_barge_in :
    let es : List (Time × Event) := [(0, .speechStarted {}), (1, .playbackFinished ⟨1, 0⟩)]
    ((fsmRun (FsmWorld.started {} 0) es).onEvent 2 (.userInterrupted {})).fsm.counted .interrupted = 1 :=
  congrFun ((fsm_turn_accounting {} 0 [(0, .speechStarted {}), (1, .playbackFinished ⟨1, 0⟩)]).2.2.1
    [] 0 {} [(1, .playbackFinished ⟨1, 0⟩)] rfl rfl rfl 2 {}) .interrupted

/-- Playback reports during `UserSpeaking` only move the counter. -/
lemma run_playbacks (w : FsmWorld) (hs : w.fsm.state = .userSpeaking) (now : Time) (q : SequenceNo) (n : Nat) :
    fsmRun w (List.replicate n (now, .playbackFinished ⟨w.fsm.active.id, q⟩)) =
      { w with fsm := { w.fsm with sentencesPlayed := w.fsm.sentencesPlayed + UInt32.ofNat n } } := by
  induction n generalizing w with
  | zero => simp [fsmRun]
  | succ n ih =>
    have hstep : w.onEvent now (.playbackFinished ⟨w.fsm.active.id, q⟩) =
        { w with fsm := { w.fsm with sentencesPlayed := w.fsm.sentencesPlayed + 1 } } := by
      simp [FsmWorld.onEvent, FsmWorld.handlePlaybackFinished, hs]
    rw [List.replicate_succ, fsmRun, Runs.exec_cons, hstep, ← fsmRun]
    refine (ih { w with fsm := { w.fsm with sentencesPlayed := w.fsm.sentencesPlayed + 1 } } hs).trans ?_
    simp only [UInt32.add_assoc, Nat.add_comm n 1, UInt32.ofNat_add]
    rfl

/-- A turn that was heard until its counter is zero again is counted as discarded. -/
lemma discarded_of_wrap (n : Nat) (hpos : n ≠ 0) (hwrap : UInt32.ofNat n = 0) :
    let es : List (Time × Event) := (0, .speechStarted {}) :: List.replicate n (1, .playbackFinished ⟨1, 0⟩)
    let w := fsmRun (FsmWorld.started {} 0) es
    (1, .playbackFinished ⟨1, 0⟩) ∈ es ∧ w.fsm.active.id = 1 ∧
      (w.onEvent 2 (.userInterrupted { turn := 1 })).fsm.turnsInterrupted = w.fsm.turnsInterrupted ∧
      (w.onEvent 2 (.userInterrupted { turn := 1 })).fsm.turnsDiscarded = w.fsm.turnsDiscarded + 1 := by
  intro es w
  have hrun := run_playbacks ((FsmWorld.started {} 0).onEvent 0 (.speechStarted {})) rfl 1 0 n
  rw [hwrap] at hrun
  have hw : w = _ := hrun
  rw [hw]
  exact ⟨List.mem_cons_of_mem _ (List.mem_replicate.2 ⟨hpos, rfl⟩), rfl, rfl, rfl⟩

/-- After `2 ^ 32` playback reports the heard turn is counted as discarded. -/
theorem heard_turn_discarded_after_wrap :
    let es : List (Time × Event) :=
      (0, .speechStarted {}) :: List.replicate (2 ^ 32) (1, .playbackFinished ⟨1, 0⟩)
    let w := fsmRun (FsmWorld.started {} 0) es
    (1, .playbackFinished ⟨1, 0⟩) ∈ es ∧ w.fsm.active.id = 1 ∧
      (w.onEvent 2 (.userInterrupted { turn := 1 })).fsm.turnsInterrupted = w.fsm.turnsInterrupted ∧
      (w.onEvent 2 (.userInterrupted { turn := 1 })).fsm.turnsDiscarded = w.fsm.turnsDiscarded + 1 :=
  discarded_of_wrap (2 ^ 32) (by decide) rfl

/-! ### Stale events -/

/-- The event is a late one: it belongs to another turn than the active one. -/
def Event.StaleFor (a : TurnId) : Event → Prop
  | .llmSentence e => e.turn ≠ a
  | .llmFinished e => e.turn ≠ a
  | .playbackFinished e => e.turn ≠ a
  | _ => False

instance (a : TurnId) (e : Event) : Decidable (e.StaleFor a) := by
  unfold Event.StaleFor
  split <;> infer_instance

/-- The fields that decide how a turn goes on are the same. -/
def Fsm.SameProgress (f f' : Fsm) : Prop :=
  f'.state = f.state ∧ f'.active = f.active ∧ f'.outcome = f.outcome ∧
    f'.sentencesReceived = f.sentencesReceived ∧ f'.sentencesPlayed = f.sentencesPlayed ∧
    f'.llmFinishedSeen = f.llmFinishedSeen ∧ f'.turnsCompleted = f.turnsCompleted ∧
    f'.turnsInterrupted = f.turnsInterrupted ∧ f'.turnsDiscarded = f.turnsDiscarded

instance (f f' : Fsm) : Decidable (f.SameProgress f') := by
  unfold Fsm.SameProgress
  infer_instance

/-- The machine is waiting for nothing but the end of generation. -/
def Fsm.AwaitsFinish (f : Fsm) : Prop :=
  f.state = .thinking ∧ f.sentencesReceived = 0 ∨ f.state = .speaking ∧ f.sentencesPlayed = f.sentencesReceived

/-- Playback reports are compared with the active turn; the end of generation is harmless when it was
seen before and nothing waits for it; a sentence is always counted. -/
def Fsm.Ignores (f : Fsm) : Event → Prop
  | .llmSentence _ => False
  | .llmFinished _ => f.llmFinishedSeen ∧ ¬f.AwaitsFinish
  | _ => True

/-- A stale event leaves the machine alone exactly when it is one the machine ignores. -/
theorem stale_event_harmless_iff (w : FsmWorld) (now : Time) (e : Event)
    (hstale : e.StaleFor w.fsm.active.id) :
    w.fsm.SameProgress (w.onEvent now e).fsm ↔ w.fsm.Ignores e := by
  cases e with
  | llmSentence e =>
    have hne : w.fsm.sentencesReceived + 1 ≠ w.fsm.sentencesReceived := by
      intro h
      have := congrArg UInt32.toBitVec h
      simp at this
    have hrec : (w.onEvent now (.llmSentence e)).fsm.sentencesReceived = w.fsm.sentencesReceived + 1 := by
      simp only [FsmWorld.onEvent, FsmWorld.handleLlmSentence]
      split <;> rfl
    simp [Fsm.SameProgress, Fsm.Ignores, hrec, hne]
  | llmFinished e =>
    simp only [FsmWorld.onEvent, FsmWorld.handleLlmFinished, Fsm.Ignores, Fsm.AwaitsFinish]
    split
    · rename_i hs
      simp [FsmWorld.complete, Fsm.SameProgress, hs.1, hs.2]
    · split
      · rename_i hs
        simp [FsmWorld.complete, Fsm.SameProgress, hs.1, hs.2]
      · rename_i h1 h2
        simp only [Fsm.SameProgress, true_and, and_true, h1, h2, or_self, not_false_eq_true]
        exact eq_comm
  | playbackFinished e =>
    have hne : e.turn ≠ w.fsm.active.id := hstale
    simp [FsmWorld.onEvent, FsmWorld.handlePlaybackFinished, hne, Fsm.SameProgress, Fsm.Ignores]
  | _ => exact absurd hstale not_false

/-- A playback report of an earlier turn while turn 2 is being spoken. -/
theorem stale_playback_harmless :
    let w := fsmRun (FsmWorld.started { next := 2 } 0)
      [(0, .speechStarted {}), (0, .speechEnded {}), (0, .finalTranscript {}), (0, .llmSentence { turn := 2 })]
    Event.StaleFor w.fsm.active.id (.playbackFinished ⟨1, 0⟩) ∧
      w.fsm.SameProgress (w.onEvent 1 (.playbackFinished ⟨1, 0⟩)).fsm :=
  ⟨by decide, (stale_event_harmless_iff _ 1 (.playbackFinished ⟨1, 0⟩) (by decide)).2 trivial⟩

/-- While turn 1 is in `Thinking`, the end of a background generation (turn 0) completes it, and a
late sentence of another turn is counted and moves it to `Speaking`. -/
theorem stale_events_move_machine :
    let w := fsmRun (FsmWorld.started {} 0)
      [(0, .speechStarted {}), (0, .speechEnded {}), (0, .finalTranscript { text := [104, 105] })]
    w.fsm.active.id = 1 ∧ w.fsm.state = .thinking ∧
      Event.StaleFor w.fsm.active.id (.llmFinished { turn := kNoTurn }) ∧
      ¬w.fsm.SameProgress (w.onEvent 1 (.llmFinished { turn := kNoTurn })).fsm ∧
      (w.onEvent 1 (.llmFinished { turn := kNoTurn })).fsm.turnsCompleted = 1 ∧
      Event.StaleFor w.fsm.active.id (.llmSentence { turn := 7 }) ∧
      ¬w.fsm.SameProgress (w.onEvent 1 (.llmSentence { turn := 7 })).fsm ∧
      (w.onEvent 1 (.llmSentence { turn := 7 })).fsm.state = .speaking := by
  decide

end Acva
