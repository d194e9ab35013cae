import Acva.Dialogue.BargeIn
import Acva.Dialogue.FsmAccounting
import Acva.Dialogue.ManagerSteps

/-!
# Turn ids of utterances

The machine, the barge-in detector and the manager as the dialogue stack wires them: one turn
factory, and the machine's active turn as the manager's turn provider. Every component handles
events in any order. The machine keeps its turn id after the turn has ended, so a transcript that no
new turn was minted for is answered under an id that was used before.
-/

namespace Acva

structure DialogueWorld where
  fsm : FsmWorld := {}
  detector : BargeInDetector := {}
  manager : ManagerWorld := {}
  deriving DecidableEq, Repr

inductive DialogueAction
  | fsm (now : Time) (e : Event)
  | detector (now : Time) (aec : AecReading)
  | manager (now : Time) (gateOpen : Bool) (e : Event)
  | io (a : IoAction)
  deriving DecidableEq, Repr

/-- The answer of the turn provider takes the place of any other. -/
def IoAction.provide (id : TurnId) : IoAction → IoAction
  | .choose _ now => .choose id now
  | a => a

structure DialogueConfig where
  manager : ManagerConfig := {}
  bargeIn : BargeInConfig := {}
  deriving DecidableEq, Repr

namespace DialogueWorld

variable (cfg : DialogueConfig) (contentOf : Text → Option Text)

/-- The factory is shared: each component finds it as the last one left it. -/
def withFsm (s : DialogueWorld) (w : FsmWorld) : DialogueWorld :=
  { s with fsm := w, manager := { s.manager with turns := w.turns } }

def withManager (s : DialogueWorld) (w : ManagerWorld) : DialogueWorld :=
  { s with manager := w, fsm := { s.fsm with turns := w.turns } }

def step (s : DialogueWorld) : DialogueAction → DialogueWorld
  | .fsm now e => s.withFsm (s.fsm.onEvent now e)
  | .detector now aec =>
    let r := s.detector.onSpeechStarted cfg.bargeIn s.fsm.fsm now aec
    { s with detector := r.1, manager := s.manager.publish r.2 }
  | .manager now gateOpen e => s.withManager (s.manager.onEvent cfg.manager now gateOpen e)
  | .io a => s.withManager (s.manager.ioStep cfg.manager contentOf (a.provide s.fsm.fsm.active.id))

/-- `Fsm::start()` on a fresh system. -/
def started (now : Time) : DialogueWorld := { fsm := FsmWorld.started {} now }

end DialogueWorld

/-- A run watched: the turn ids under which transcripts were answered, latest first, and whether the
machine has minted since the last of them was fixed. -/
structure TurnIdMonitor where
  world : DialogueWorld
  used : List TurnId := []
  fresh : Bool := true
  deriving DecidableEq, Repr

namespace TurnIdMonitor

variable (cfg : DialogueConfig) (contentOf : Text → Option Text)

/-- The turn id that the action fixes for a transcript. -/
def chosen (m : TurnIdMonitor) : DialogueAction → Option TurnId
  | .io a => (ManagerAction.io (a.provide m.world.fsm.fsm.active.id)).chosen m.world.manager
  | _ => none

def step (m : TurnIdMonitor) (a : DialogueAction) : TurnIdMonitor :=
  { world := m.world.step cfg contentOf a
    used := (m.chosen a).toList ++ m.used
    fresh := match a with
      | .fsm _ e => m.fresh || m.world.fsm.fsm.mintsOn e
      | _ => m.fresh && (m.chosen a).isNone }

/-- An id is fixed only if the machine has none yet or has minted since the last one was fixed. -/
def MintedFor (m : TurnIdMonitor) (a : DialogueAction) : Prop :=
  (m.chosen a).isSome → m.world.fsm.fsm.active.id = kNoTurn ∨ m.fresh

instance (m : TurnIdMonitor) (a : DialogueAction) : Decidable (m.MintedFor a) := by
  unfold MintedFor
  infer_instance

/-- Ids come from one factory, and the machine's id is unused exactly while it is fresh. -/
structure Sound (m : TurnIdMonitor) : Prop where
  shared : m.world.manager.turns = m.world.fsm.turns
  used : ∀ t ∈ m.used, t < m.world.fsm.turns.next
  active : m.world.fsm.fsm.active.id < m.world.fsm.turns.next
  fresh : m.world.fsm.fsm.active.id ≠ kNoTurn → (m.world.fsm.fsm.active.id ∈ m.used ↔ m.fresh = false)

variable {cfg contentOf} {m : TurnIdMonitor}

lemma Sound.fsm (h : m.Sound) (now : Time) (e : Event) : (m.step cfg contentOf (.fsm now e)).Sound := by
  have hused : (m.step cfg contentOf (.fsm now e)).used = m.used := rfl
  have hfresh : (m.step cfg contentOf (.fsm now e)).fresh = (m.fresh || m.world.fsm.fsm.mintsOn e) := rfl
  have hworld : (m.step cfg contentOf (.fsm now e)).world.fsm = m.world.fsm.onEvent now e := rfl
  rcases FsmWorld.turn_after m.world.fsm now e with ⟨hmint, hid, hnext⟩ | ⟨hmint, hid, hnext⟩
  · refine ⟨rfl, ?_, ?_, fun _ => ?_⟩
    · intro t ht
      rw [hworld, hnext]
      exact (h.used t ht).trans (Nat.lt_succ_self _)
    · rw [hworld, hid, hnext]
      exact Nat.lt_succ_self _
    · rw [hused, hfresh, hmint, hworld, hid, Bool.or_true]
      have hnot : m.world.fsm.turns.next ∉ m.used := fun hmem => absurd (h.used _ hmem) (lt_irrefl _)
      simp [hnot]
  · refine ⟨rfl, ?_, ?_, ?_⟩
    · intro t ht
      rw [hworld, hnext]
      exact h.used t ht
    · rw [hworld, hnext, hid]
      exact h.active
    · rw [hworld, hid, hused, hfresh, hmint, Bool.or_false]
      exact h.fresh

lemma Sound.keep (h : m.Sound) {a : DialogueAction} (hchosen : m.chosen a = none)
    (hfresh : (m.step cfg contentOf a).fresh = m.fresh)
    (hfsm : (m.world.step cfg contentOf a).fsm.fsm = m.world.fsm.fsm)
    (hnext : (m.world.step cfg contentOf a).fsm.turns.next = m.world.fsm.turns.next)
    (hshared : (m.world.step cfg contentOf a).manager.turns = (m.world.step cfg contentOf a).fsm.turns) :
    (m.step cfg contentOf a).Sound := by
  have hused : (m.step cfg contentOf a).used = m.used := by simp [step, hchosen]
  have hworld : (m.step cfg contentOf a).world = m.world.step cfg contentOf a := rfl
  refine ⟨hshared, ?_, ?_, ?_⟩
  · rw [hused, hworld, hnext]
    exact h.used
  · rw [hworld, hfsm, hnext]
    exact h.active
  · rw [hworld, hfsm, hused, hfresh]
    exact h.fresh

lemma choose_effect (cfg : DialogueConfig) (contentOf : Text → Option Text) {b : IoAction} {id : TurnId} (h : m.Sound)
    (hid : m.chosen (.io b) = some id) :
    (id = m.world.fsm.fsm.active.id ∧ id ≠ kNoTurn ∧
        (m.world.step cfg contentOf (.io b)).fsm.turns.next = m.world.fsm.turns.next) ∨
      (m.world.fsm.fsm.active.id = kNoTurn ∧ id = m.world.fsm.turns.next ∧
        (m.world.step cfg contentOf (.io b)).fsm.turns.next = m.world.fsm.turns.next + 1) := by
  have hshared := h.shared
  simp only [chosen, ManagerAction.chosen] at hid
  split at hid
  · rename_i job provided now hio hb
    cases b with
    | choose q now' =>
      obtain ⟨rfl, rfl⟩ : m.world.fsm.fsm.active.id = provided ∧ now' = now := by
        simpa [IoAction.provide] using hb
      simp only [DialogueWorld.step, DialogueWorld.withManager, ManagerWorld.ioStep, IoAction.provide, hio,
        ManagerWorld.chooseTurn]
      by_cases hp : m.world.fsm.fsm.active.id = kNoTurn
      · right
        simp only [hp, ne_eq, not_true_eq_false, if_false, Option.some.injEq] at hid ⊢
        simp [← hid, hshared]
      · left
        simp only [hp, ne_eq, not_false_eq_true, if_true, Option.some.injEq] at hid ⊢
        simp [← hid, hp, hshared]
    | _ => simp [IoAction.provide] at hb
  · simp at hid

lemma Sound.choose (h : m.Sound) {b : IoAction} {id : TurnId} (hid : m.chosen (.io b) = some id) :
    (m.step cfg contentOf (.io b)).Sound := by
  have hused : (m.step cfg contentOf (.io b)).used = id :: m.used := by simp [step, hid]
  have hfresh : (m.step cfg contentOf (.io b)).fresh = false := by simp [step, hid]
  have hworld : (m.step cfg contentOf (.io b)).world = m.world.step cfg contentOf (.io b) := rfl
  have hfsm : (m.world.step cfg contentOf (.io b)).fsm.fsm = m.world.fsm.fsm := rfl
  rcases choose_effect cfg contentOf h hid with ⟨rfl, hne, hnext⟩ | ⟨hzero, rfl, hnext⟩
  · refine ⟨rfl, ?_, ?_, fun _ => ?_⟩
    · rw [hused, hworld, hnext]
      intro t ht
      rcases List.mem_cons.1 ht with rfl | ht
      · exact h.active
      · exact h.used t ht
    · rw [hworld, hfsm, hnext]
      exact h.active
    · rw [hworld, hfsm, hused, hfresh]
      simp
  · refine ⟨rfl, ?_, ?_, fun hne => absurd hzero hne⟩
    · rw [hused, hworld, hnext]
      intro t ht
      rcases List.mem_cons.1 ht with rfl | ht
      · exact Nat.lt_succ_self _
      · exact (h.used t ht).trans (Nat.lt_succ_self _)
    · rw [hworld, hfsm, hnext]
      exact h.active.trans (Nat.lt_succ_self _)

lemma Sound.step (h : m.Sound) (a : DialogueAction) : (m.step cfg contentOf a).Sound := by
  cases a with
  | fsm now e => exact h.fsm now e
  | detector now aec => exact h.keep rfl (by simp [TurnIdMonitor.step, chosen]) rfl rfl h.shared
  | manager now gateOpen e =>
    obtain ⟨_, _, hturns, _⟩ := ManagerWorld.onEvent_effect cfg.manager m.world.manager now gateOpen e
    refine h.keep rfl (by simp [TurnIdMonitor.step, chosen]) rfl ?_ rfl
    rw [← h.shared]
    exact ManagerWorld.next_of_turns hturns
  | io b =>
    cases hid : m.chosen (.io b) with
    | some id => exact h.choose hid
    | none =>
      refine h.keep hid (by simp [TurnIdMonitor.step, hid]) rfl ?_ rfl
      rw [← h.shared]
      exact ManagerWorld.ioStep_next cfg.manager contentOf _ _ hid

/-- Fixing an id repeats one exactly when the machine has a turn that was answered before. -/
lemma nodup_step (h : m.Sound) (a : DialogueAction) :
    (m.step cfg contentOf a).used.Nodup ↔ m.used.Nodup ∧ m.MintedFor a := by
  cases hid : m.chosen a with
  | none => simp [step, hid, MintedFor]
  | some id =>
    have hused : (m.step cfg contentOf a).used = id :: m.used := by simp [step, hid]
    cases a with
    | io b =>
      rw [hused, List.nodup_cons, MintedFor, hid]
      rcases choose_effect cfg contentOf h hid with ⟨rfl, hne, _⟩ | ⟨hzero, rfl, _⟩
      · rw [h.fresh hne]
        simp [hne, and_comm]
      · have hnot : m.world.fsm.turns.next ∉ m.used := fun hmem => absurd (h.used _ hmem) (lt_irrefl _)
        simp [hzero, hnot]
    | _ => simp [chosen] at hid

lemma nodup_run (h : m.Sound) (as : List DialogueAction) :
    (Runs.exec (step cfg contentOf) m as).used.Nodup ↔
      m.used.Nodup ∧ Runs.Along (step cfg contentOf) MintedFor m as := by
  apply Runs.exec_iff_along (I := Sound) (Q := fun m => m.used.Nodup)
  · exact fun m a hm => hm.step a
  · exact fun m a hm => nodup_step hm a
  · exact h

end TurnIdMonitor

/-- The ids under which transcripts are answered are distinct exactly in the runs in which, whenever
one is fixed, the machine has no turn or has minted one since the last id was fixed. -/
theorem turn_ids_distinct_iff (cfg : DialogueConfig) (contentOf : Text → Option Text) (now : Time)
    (as : List DialogueAction) :
    (Runs.exec (TurnIdMonitor.step cfg contentOf) { world := DialogueWorld.started now } as).used.Nodup ↔
      Runs.Along (TurnIdMonitor.step cfg contentOf) TurnIdMonitor.MintedFor
        { world := DialogueWorld.started now } as := by
  have h0 : TurnIdMonitor.Sound { world := DialogueWorld.started now } :=
    ⟨rfl, by simp, Nat.one_pos, fun h => absurd rfl h⟩
  rw [TurnIdMonitor.nodup_run h0]
  simp

/-- An utterance is answered as turn 1 and spoken; the next one interrupts it. The machine keeps id 1,
ignores the `SpeechStarted` while speaking, and the second transcript is answered as turn 1 again. -/
theorem barge_in_reuses_turn_id :
    let ms : Time := 1000000
    let hear : List DialogueAction := [.fsm 0 (.speechEnded {}), .fsm 0 (.finalTranscript { text := ascii "hello" }),
      .manager 0 true (.finalTranscript { text := ascii "hello" }), .io .advance, .io (.choose 0 0)]
    let as : List DialogueAction := .fsm 0 (.speechStarted {}) :: hear ++
      [.io .advance, .io .advance, .io (.curlInit true), .fsm 0 (.llmSentence { turn := 1 }),
        .fsm (500 * ms) (.speechStarted {}), .detector (500 * ms) {}, .fsm (500 * ms) (.userInterrupted { turn := 1 }),
        .manager (500 * ms) true (.userInterrupted { turn := 1 }), .io .progress, .io .advance, .io .advance,
        .io .advance] ++ hear
    let m := Runs.exec (TurnIdMonitor.step {} some) { world := DialogueWorld.started 0 } as
    .userInterrupted { turn := 1, ts := 500 * ms } ∈ m.world.manager.bus ∧ m.used = [1, 1] ∧ ¬m.used.Nodup := by
  decide +kernel

end Acva
