import Acva.Audio.Endpointer
import Acva.Lib.Runs
import Mathlib.Data.List.DropRight
import Mathlib.Tactic.Linarith

/-!
# What the endpointer decides

The history of an `Endpointer`: its calls, each with the thresholds in force and the outcome. The durations that
the endpointer accumulates are the totals of the frames of two phases of that history, the candidate for an
utterance and the quiet after the last speech.
-/

namespace Acva

/-- A call on the endpointer. -/
inductive EndpointerCall
  | frame (vadProbability : Rat) (frameDuration : Milliseconds) (frameTime : Time)
  | update (cfg : EndpointerConfig)
  | force (now : Time)
  deriving DecidableEq, Repr

structure EndpointerEntry where
  call : EndpointerCall
  cfg : EndpointerConfig
  outcome : FrameOutcome
  deriving DecidableEq, Repr

namespace EndpointerEntry

def isFrame (e : EndpointerEntry) : Bool :=
  match e.call with
  | .frame _ _ _ => true
  | _ => false

/-- A frame above the onset threshold. -/
def isOnset (e : EndpointerEntry) : Bool :=
  match e.call with
  | .frame vadProbability _ _ => decide (vadProbability ≥ e.cfg.onsetThreshold)
  | _ => false

/-- A frame below the offset threshold. -/
def isBelow (e : EndpointerEntry) : Bool :=
  match e.call with
  | .frame vadProbability _ _ => decide (vadProbability < e.cfg.offsetThreshold)
  | _ => false

def duration (e : EndpointerEntry) : Milliseconds :=
  match e.call with
  | .frame _ frameDuration _ => frameDuration
  | _ => 0

end EndpointerEntry

namespace Endpointing

/-- The end of a history since the last entry that stops a phase, from the first entry on that starts one. -/
def phase {α : Type*} (stop start : α → Bool) (log : List α) : List α :=
  (log.rtakeWhile (!stop ·)).dropWhile (!start ·)

variable {α : Type*} {stop start : α → Bool}

@[simp] lemma phase_nil : phase stop start [] = [] := rfl

lemma phase_concat (log : List α) (e : α) :
    phase stop start (log ++ [e]) =
      if stop e then [] else if phase stop start log ≠ [] ∨ start e then phase stop start log ++ [e] else [] := by
  unfold phase
  cases hstop : stop e with
  | true => rw [List.rtakeWhile_concat_neg _ _ _ (by simp [hstop]), if_pos rfl, List.dropWhile_nil]
  | false =>
    rw [List.rtakeWhile_concat_pos _ _ _ (by simp [hstop]), if_neg Bool.false_ne_true, List.dropWhile_append]
    by_cases hempty : (log.rtakeWhile (!stop ·)).dropWhile (!start ·) = []
    · rw [hempty]
      cases hstart : start e <;> simp [hstart]
    · rw [if_neg (by simpa using hempty), if_pos (Or.inl hempty)]

abbrev Log := List EndpointerEntry

/-- The entries since the frame that may have begun an utterance, while nothing has come of it. -/
def candidate (log : Log) : Log := phase (·.outcome ≠ .none) EndpointerEntry.isOnset log

/-- The entries since the frame below the offset that opened the quiet after the last onset frame. -/
def quietPhase (log : Log) : Log := phase EndpointerEntry.isOnset EndpointerEntry.isBelow log

def total (log : Log) : Milliseconds := (log.map EndpointerEntry.duration).sum

/-- The outcomes that begin or end an utterance. -/
def brackets (log : Log) : List FrameOutcome :=
  (log.map EndpointerEntry.outcome).filter fun o => o = .speechStarted ∨ o = .speechEnded

/-- An utterance has begun and not ended. -/
def UnderWay (log : Log) : Prop := (brackets log).getLast? = some .speechStarted

@[simp] lemma total_nil : total [] = 0 := rfl

@[simp] lemma total_append (log after : Log) : total (log ++ after) = total log + total after := by simp [total]

@[simp] lemma total_singleton (e : EndpointerEntry) : total [e] = e.duration := by simp [total]

lemma brackets_concat (log : Log) (e : EndpointerEntry) :
    brackets (log ++ [e]) =
      brackets log ++ if e.outcome = .speechStarted ∨ e.outcome = .speechEnded then [e.outcome] else [] := by
  simp only [brackets, List.map_append, List.filter_append, List.map_cons, List.map_nil, List.filter_cons,
    List.filter_nil, decide_eq_true_eq]

/-- What the outcome of an entry says about the history before it. -/
structure Decided (before : Log) (e : EndpointerEntry) : Prop where
  started : e.outcome = .speechStarted ↔
    ¬UnderWay before ∧ e.isOnset ∧ candidate before ≠ [] ∧ (∀ x ∈ candidate before, ¬x.isBelow) ∧
      e.cfg.minSpeechMs ≤ total ((candidate before).filter EndpointerEntry.isOnset) + e.duration
  ended : e.isFrame →
    (e.outcome = .speechEnded ↔ UnderWay before ∧ ¬e.isOnset ∧ quietPhase before ≠ [] ∧
      e.cfg.hangoverMs ≤ total (quietPhase before) + e.duration)
  first : e.isFrame → e.outcome = .speechEnded → ∀ passed x later, quietPhase before = passed ++ x :: later →
    passed ≠ [] → x.isFrame → total (passed ++ [x]) < x.cfg.hangoverMs
  falseStart : e.outcome = .falseStart → ¬UnderWay before ∧ candidate before ≠ []

/-- Outcomes that begin an utterance and outcomes that end one take turns. -/
def Alternate (outcomes : List FrameOutcome) : Prop :=
  ∀ k o, outcomes[k]? = some o → o = if k % 2 = 0 then .speechStarted else .speechEnded

structure Decisions (log : Log) : Prop where
  alternate : Alternate (brackets log)
  decided : ∀ before e after, log = before ++ e :: after → Decided before e

/-! ### The endpointer and its history -/

/-- One call on the endpointer. -/
def answer (p : Endpointer) : EndpointerCall → Endpointer × FrameOutcome
  | .frame vadProbability frameDuration frameTime => p.onFrame vadProbability frameDuration frameTime
  | .update cfg => (p.updateThresholds cfg, .none)
  | .force now => p.forceEndpoint now

/-- The endpointer after a call, and the history with the call's entry. -/
def step (s : Endpointer × Log) (c : EndpointerCall) : Endpointer × Log :=
  ((answer s.1 c).1, s.2 ++ [⟨c, s.1.cfg, (answer s.1 c).2⟩])

def history (cfg : EndpointerConfig) (calls : List EndpointerCall) : Log :=
  (Runs.exec step ({ cfg := cfg }, []) calls).2

def Ordered (cfg : EndpointerConfig) : Prop := cfg.offsetThreshold ≤ cfg.onsetThreshold

instance (cfg : EndpointerConfig) : Decidable (Ordered cfg) :=
  inferInstanceAs (Decidable (cfg.offsetThreshold ≤ cfg.onsetThreshold))

/-- The thresholds that a call puts in force are in order. -/
def OrderedCall : EndpointerCall → Prop
  | .update cfg => Ordered cfg
  | _ => True

instance (c : EndpointerCall) : Decidable (OrderedCall c) :=
  match c with
  | .update cfg => inferInstanceAs (Decidable (Ordered cfg))
  | .frame _ _ _ => isTrue trivial
  | .force _ => isTrue trivial

/-- No frame of a quiet phase but the one that opened it was late enough to end the utterance. -/
def Waiting (quiet : Log) : Prop :=
  ∀ passed x later, quiet = passed ++ x :: later → passed ≠ [] → x.isFrame →
    total (passed ++ [x]) < x.cfg.hangoverMs

/-- The state of the endpointer is a summary of the history. -/
structure Tracks (p : Endpointer) (log : Log) : Prop where
  ordered : Ordered p.cfg
  underWay : UnderWay log ↔ p.inUtterance
  parity : (brackets log).length % 2 = p.inUtterance.toNat
  quiet : p.state = .quiet → candidate log = []
  onset : p.state = .onset → candidate log ≠ [] ∧ (∀ x ∈ candidate log, ¬x.isBelow) ∧
    p.speechDur = total ((candidate log).filter EndpointerEntry.isOnset)
  speaking : p.state = .speaking → quietPhase log = []
  endpoint : p.state = .endpoint →
    quietPhase log ≠ [] ∧ p.quietDur = total (quietPhase log) ∧ Waiting (quietPhase log)

/-- What a call can do to the endpointer, by the state that it is in. -/
inductive Transition (p : Endpointer) (e : EndpointerEntry) (q : Endpointer) : Prop
  | idle (hp : p.state = .quiet) (honset : ¬e.isOnset) (ho : e.outcome = .none) (hq : q.state = .quiet)
  | appear (hp : p.state = .quiet) (honset : e.isOnset) (ho : e.outcome = .none) (hq : q.state = .onset)
      (hspeech : q.speechDur = e.duration)
  | grow (hp : p.state = .onset) (honset : e.isOnset) (ho : e.outcome = .none) (hq : q.state = .onset)
      (hspeech : q.speechDur = p.speechDur + e.duration) (hshort : q.speechDur < e.cfg.minSpeechMs)
  | mature (hp : p.state = .onset) (honset : e.isOnset) (ho : e.outcome = .speechStarted) (hq : q.state = .speaking)
      (hspeech : e.cfg.minSpeechMs ≤ p.speechDur + e.duration)
  | fail (hp : p.state = .onset) (honset : ¬e.isOnset) (ho : e.outcome = .falseStart) (hq : q.state = .quiet)
  | hold (hp : p.state = .onset) (honset : ¬e.isOnset) (hbelow : ¬e.isBelow) (ho : e.outcome = .none)
      (hq : q.state = .onset) (hspeech : q.speechDur = p.speechDur)
  | speak (hp : p.state = .speaking ∨ p.state = .endpoint) (honset : e.isOnset) (ho : e.outcome = .none)
      (hq : q.state = .speaking)
  | linger (hp : p.state = .speaking) (honset : ¬e.isOnset) (hbelow : ¬e.isBelow) (ho : e.outcome = .none)
      (hq : q.state = .speaking)
  | fade (hp : p.state = .speaking) (honset : ¬e.isOnset) (hbelow : e.isBelow) (ho : e.outcome = .none)
      (hq : q.state = .endpoint) (hquiet : q.quietDur = e.duration)
  | wait (hp : p.state = .endpoint) (honset : ¬e.isOnset) (ho : e.outcome = .none) (hq : q.state = .endpoint)
      (hquiet : q.quietDur = p.quietDur + e.duration) (hshort : e.isFrame → q.quietDur < e.cfg.hangoverMs)
  | finish (hp : p.state = .endpoint) (honset : ¬e.isOnset) (ho : e.outcome = .speechEnded) (hq : q.state = .quiet)
      (hlong : e.cfg.hangoverMs ≤ p.quietDur + e.duration)
  | cut (hp : p.state = .speaking ∨ p.state = .endpoint) (hframe : ¬e.isFrame) (ho : e.outcome = .speechEnded)
      (hq : q.state = .quiet)

lemma onFrame_transition (p : Endpointer) (vadProbability : Rat) (frameDuration : Milliseconds) (frameTime : Time) :
    Transition p ⟨.frame vadProbability frameDuration frameTime, p.cfg,
      (p.onFrame vadProbability frameDuration frameTime).2⟩ (p.onFrame vadProbability frameDuration frameTime).1 := by
  unfold Endpointer.onFrame
  cases hs : p.state with
  | quiet =>
    simp only
    split
    case isTrue honset => exact .appear hs honset rfl rfl rfl
    case isFalse honset => exact .idle hs honset rfl hs
  | onset =>
    simp only
    split
    case isTrue honset =>
      split
      case isTrue hlong => exact .mature hs honset rfl rfl hlong
      case isFalse hshort => exact .grow hs honset rfl rfl rfl (not_le.1 hshort)
    case isFalse honset =>
      split
      case isTrue => exact .fail hs honset rfl rfl
      case isFalse hbelow => exact .hold hs honset hbelow rfl hs rfl
  | speaking =>
    simp only
    split
    case isTrue honset => exact .speak (Or.inl hs) honset rfl rfl
    case isFalse honset =>
      split
      case isTrue hbelow => exact .fade hs honset hbelow rfl rfl rfl
      case isFalse hbelow => exact .linger hs honset hbelow rfl rfl
  | endpoint =>
    simp only [Endpointer.hangOver]
    split
    case isTrue honset => exact .speak (Or.inr hs) honset rfl rfl
    case isFalse honset =>
      split
      case isTrue hlong => exact .finish hs honset rfl rfl hlong
      case isFalse hshort => exact .wait hs honset rfl hs rfl fun _ => not_le.1 hshort

lemma updateThresholds_transition (p : Endpointer) (cfg : EndpointerConfig) :
    Transition p ⟨.update cfg, p.cfg, .none⟩ (p.updateThresholds cfg) := by
  cases hs : p.state with
  | quiet => exact .idle hs Bool.false_ne_true rfl hs
  | onset => exact .hold hs Bool.false_ne_true Bool.false_ne_true rfl hs rfl
  | speaking => exact .linger hs Bool.false_ne_true Bool.false_ne_true rfl hs
  | endpoint => exact .wait hs Bool.false_ne_true rfl hs (add_zero _).symm fun h => absurd h Bool.false_ne_true

lemma forceEndpoint_transition (p : Endpointer) (now : Time) :
    Transition p ⟨.force now, p.cfg, (p.forceEndpoint now).2⟩ (p.forceEndpoint now).1 := by
  unfold Endpointer.forceEndpoint
  cases hs : p.state with
  | quiet => exact .idle hs Bool.false_ne_true rfl hs
  | onset => exact .fail hs Bool.false_ne_true rfl rfl
  | speaking => exact .cut (Or.inl hs) Bool.false_ne_true rfl rfl
  | endpoint => exact .cut (Or.inr hs) Bool.false_ne_true rfl rfl

lemma answer_transition (p : Endpointer) (c : EndpointerCall) :
    Transition p ⟨c, p.cfg, (answer p c).2⟩ (answer p c).1 := by
  cases c with
  | frame vadProbability frameDuration frameTime => exact onFrame_transition p vadProbability frameDuration frameTime
  | update cfg => exact updateThresholds_transition p cfg
  | force now => exact forceEndpoint_transition p now

/-! ### Every step decides as the history says -/

variable {p q : Endpointer} {log : Log} {e : EndpointerEntry}

lemma candidate_concat (log : Log) (e : EndpointerEntry) :
    candidate (log ++ [e]) =
      if e.outcome ≠ .none then [] else if candidate log ≠ [] ∨ e.isOnset then candidate log ++ [e] else [] := by
  by_cases h : e.outcome = .none <;> simp [candidate, phase_concat, h]

lemma quietPhase_concat (log : Log) (e : EndpointerEntry) :
    quietPhase (log ++ [e]) =
      if e.isOnset then [] else if quietPhase log ≠ [] ∨ e.isBelow then quietPhase log ++ [e] else [] :=
  phase_concat log e

lemma candidate_grows {log : Log} {e : EndpointerEntry} (hne : candidate log ≠ []) (ho : e.outcome = .none) :
    candidate (log ++ [e]) = candidate log ++ [e] := by
  rw [candidate_concat, if_neg (by simp [ho]), if_pos (Or.inl hne)]

lemma underWay_concat (log : Log) (e : EndpointerEntry) :
    UnderWay (log ++ [e]) ↔ e.outcome = .speechStarted ∨ (e.outcome ≠ .speechEnded ∧ UnderWay log) := by
  unfold UnderWay
  rw [brackets_concat]
  cases e.outcome <;> simp

lemma Transition.brackets (h : Transition p e q) : Endpointer.Brackets p.inUtterance (q, e.outcome) := by
  cases h with
  | speak hp _ ho hq | cut hp _ ho hq =>
    have hin : p.inUtterance = true := by rcases hp with hp | hp <;> simp [Endpointer.inUtterance, hp]
    rw [hin]
    constructor <;> simp [ho, Endpointer.inUtterance, hq]
  | _ => constructor <;> simp_all [Endpointer.inUtterance]

lemma Transition.started (h : Transition p e q) (ho : e.outcome = .speechStarted) : q.state = .speaking := by
  cases h with
  | mature _ _ _ hq => exact hq
  | _ => simp_all

lemma Transition.ended (h : Transition p e q) (hframe : e.isFrame) (ho : e.outcome = .speechEnded) :
    p.state = .endpoint ∧ q.state = .quiet := by
  cases h with
  | finish hp _ _ hq => exact ⟨hp, hq⟩
  | cut _ hnot => exact absurd hframe hnot
  | _ => simp_all

lemma waiting_singleton (e : EndpointerEntry) : Waiting [e] := by
  intro passed x later hsplit hpassed
  have hlength := congrArg List.length hsplit
  have := List.length_pos_iff.2 hpassed
  simp only [List.length_append, List.length_cons, List.length_nil] at hlength
  omega

lemma split_concat {α : Type*} {log before after : List α} {e x : α} (h : log ++ [x] = before ++ e :: after) :
    (∃ rest, after = rest ++ [x] ∧ log = before ++ e :: rest) ∨ (after = [] ∧ log = before ∧ x = e) := by
  rcases List.eq_nil_or_concat' after with rfl | ⟨rest, y, rfl⟩
  · obtain ⟨hlog, hx⟩ := List.append_inj' h rfl
    exact Or.inr ⟨rfl, hlog, List.singleton_injective hx⟩
  · rw [← List.cons_append, ← List.append_assoc] at h
    obtain ⟨hlog, hx⟩ := List.append_inj' h rfl
    rw [List.singleton_injective hx]
    exact Or.inl ⟨rest, rfl, hlog⟩

lemma Waiting.concat (h : Waiting log) (hlast : e.isFrame → total (log ++ [e]) < e.cfg.hangoverMs) :
    Waiting (log ++ [e]) := by
  intro passed x later hsplit hpassed hx
  obtain ⟨rest, rfl, hlog⟩ | ⟨rfl, rfl, rfl⟩ := split_concat hsplit
  · exact h passed x rest hlog hpassed hx
  · exact hlast hx

lemma not_isBelow (hcfg : Ordered e.cfg) (honset : e.isOnset) : ¬e.isBelow := by
  obtain ⟨call, cfg, outcome⟩ := e
  cases call with
  | frame vadProbability frameDuration frameTime =>
    have habove : cfg.onsetThreshold ≤ vadProbability := of_decide_eq_true honset
    exact fun hbelow => absurd (of_decide_eq_true hbelow) (not_lt.2 (le_trans hcfg habove))
  | update _ => exact absurd honset Bool.false_ne_true
  | force _ => exact absurd honset Bool.false_ne_true

lemma Tracks.brackets_concat (h : Tracks p log) (hstep : Transition p e q) :
    (UnderWay (log ++ [e]) ↔ q.inUtterance) ∧
      (Endpointing.brackets (log ++ [e])).length % 2 = q.inUtterance.toNat := by
  obtain ⟨hstarted, hended, hother⟩ := hstep.brackets
  rw [underWay_concat, Endpointing.brackets_concat, List.length_append, h.underWay]
  have hparity := h.parity
  cases ho : e.outcome with
  | speechStarted =>
    obtain ⟨hbefore, hafter⟩ := hstarted ho
    rw [hbefore, Bool.toNat_false] at hparity
    simp only [hafter, true_or, if_true, List.length_singleton, Bool.toNat_true, true_and]
    omega
  | speechEnded =>
    obtain ⟨hbefore, hafter⟩ := hended ho
    rw [hbefore, Bool.toNat_true] at hparity
    simp only [hafter, or_true, if_true, List.length_singleton, Bool.toNat_false, reduceCtorEq, ne_eq,
      not_true_eq_false, false_and, or_false, Bool.false_eq_true, true_and]
    omega
  | none =>
    have := hother (by simp [ho]) (by simp [ho])
    simp_all
  | falseStart =>
    have := hother (by simp [ho]) (by simp [ho])
    simp_all

/-! Only the field about the state that the endpointer is in says something. -/

section States

variable (hcfg : Ordered q.cfg)
  (hbrackets : (UnderWay log ↔ q.inUtterance) ∧ (brackets log).length % 2 = q.inUtterance.toNat)
include hcfg hbrackets

lemma Tracks.of_quiet (hs : q.state = .quiet) (hcandidate : candidate log = []) : Tracks q log :=
  ⟨hcfg, hbrackets.1, hbrackets.2, fun _ => hcandidate, fun h => by simp [hs] at h, fun h => by simp [hs] at h,
    fun h => by simp [hs] at h⟩

lemma Tracks.of_onset (hs : q.state = .onset) (hne : candidate log ≠ []) (hbelow : ∀ x ∈ candidate log, ¬x.isBelow)
    (hspeech : q.speechDur = total ((candidate log).filter EndpointerEntry.isOnset)) : Tracks q log :=
  ⟨hcfg, hbrackets.1, hbrackets.2, fun h => by simp [hs] at h, fun _ => ⟨hne, hbelow, hspeech⟩,
    fun h => by simp [hs] at h, fun h => by simp [hs] at h⟩

lemma Tracks.of_speaking (hs : q.state = .speaking) (hphase : quietPhase log = []) : Tracks q log :=
  ⟨hcfg, hbrackets.1, hbrackets.2, fun h => by simp [hs] at h, fun h => by simp [hs] at h, fun _ => hphase,
    fun h => by simp [hs] at h⟩

lemma Tracks.of_endpoint (hs : q.state = .endpoint) (hne : quietPhase log ≠ [])
    (htotal : q.quietDur = total (quietPhase log)) (hwaiting : Waiting (quietPhase log)) : Tracks q log :=
  ⟨hcfg, hbrackets.1, hbrackets.2, fun h => by simp [hs] at h, fun h => by simp [hs] at h,
    fun h => by simp [hs] at h, fun _ => ⟨hne, htotal, hwaiting⟩⟩

end States

theorem Tracks.step (h : Tracks p log) (hstep : Transition p e q) (hcfg : Ordered e.cfg) (hq : Ordered q.cfg) :
    Tracks q (log ++ [e]) := by
  have hbrackets := h.brackets_concat hstep
  cases hstep with
  | idle hp hnot ho hs =>
    refine .of_quiet hq hbrackets hs ?_
    rw [candidate_concat, h.quiet hp, if_neg (by simp [ho]), if_neg (by simp [hnot])]
  | appear hp habove ho hs hspeech =>
    have hcandidate : candidate (log ++ [e]) = [e] := by
      rw [candidate_concat, h.quiet hp, if_neg (by simp [ho]), if_pos (Or.inr habove), List.nil_append]
    refine .of_onset hq hbrackets hs (by simp [hcandidate]) ?_ ?_
    · rw [hcandidate]
      intro x hx
      rw [List.mem_singleton.1 hx]
      exact not_isBelow hcfg habove
    · rw [hcandidate, hspeech, List.filter_cons_of_pos habove, List.filter_nil, total_singleton]
  | grow hp habove ho hs hspeech _ =>
    obtain ⟨hne, hbelow, hsum⟩ := h.onset hp
    have hcandidate := candidate_grows hne ho
    refine .of_onset hq hbrackets hs (by simp [hcandidate]) ?_ ?_
    · rw [hcandidate, List.forall_mem_append]
      exact ⟨hbelow, List.forall_mem_singleton.2 (not_isBelow hcfg habove)⟩
    · rw [hcandidate, hspeech, hsum, List.filter_append, total_append, List.filter_cons_of_pos habove, List.filter_nil,
        total_singleton]
  | mature hp habove ho hs _ => exact .of_speaking hq hbrackets hs (by rw [quietPhase_concat, if_pos habove])
  | fail hp hnot ho hs => exact .of_quiet hq hbrackets hs (by rw [candidate_concat, if_pos (by simp [ho])])
  | hold hp hnot hnotBelow ho hs hspeech =>
    obtain ⟨hne, hbelow, hsum⟩ := h.onset hp
    have hcandidate := candidate_grows hne ho
    refine .of_onset hq hbrackets hs (by simp [hcandidate]) ?_ ?_
    · rw [hcandidate, List.forall_mem_append]
      exact ⟨hbelow, List.forall_mem_singleton.2 hnotBelow⟩
    · rw [hcandidate, hspeech, hsum, List.filter_append, List.filter_cons_of_neg hnot, List.filter_nil,
        List.append_nil]
  | speak hp habove ho hs => exact .of_speaking hq hbrackets hs (by rw [quietPhase_concat, if_pos habove])
  | linger hp hnot hnotBelow ho hs =>
    refine .of_speaking hq hbrackets hs ?_
    rw [quietPhase_concat, h.speaking hp, if_neg hnot, if_neg (by simp [hnotBelow])]
  | fade hp hnot hbelow ho hs hquietDur =>
    have hphase : quietPhase (log ++ [e]) = [e] := by
      rw [quietPhase_concat, h.speaking hp, if_neg hnot, if_pos (Or.inr hbelow), List.nil_append]
    refine .of_endpoint hq hbrackets hs (by simp [hphase]) ?_ ?_
    · rw [hphase, hquietDur, total_singleton]
    · rw [hphase]
      exact waiting_singleton e
  | wait hp hnot ho hs hquietDur hshort =>
    obtain ⟨hne, hsum, hwaiting⟩ := h.endpoint hp
    have hphase : quietPhase (log ++ [e]) = quietPhase log ++ [e] := by
      rw [quietPhase_concat, if_neg hnot, if_pos (Or.inl hne)]
    refine .of_endpoint hq hbrackets hs (by simp [hphase]) ?_ ?_
    · rw [hphase, hquietDur, hsum, total_append, total_singleton]
    · rw [hphase]
      refine hwaiting.concat fun hframe => ?_
      rw [total_append, total_singleton, ← hsum, ← hquietDur]
      exact hshort hframe
  | finish hp hnot ho hs _ => exact .of_quiet hq hbrackets hs (by rw [candidate_concat, if_pos (by simp [ho])])
  | cut hp _ ho hs => exact .of_quiet hq hbrackets hs (by rw [candidate_concat, if_pos (by simp [ho])])

/-- A call has no outcome where it neither matures a candidate nor ends the utterance. -/
lemma decided_of_none (ho : e.outcome = .none)
    (hstart : UnderWay log ∨ ¬e.isOnset ∨ candidate log = [] ∨
      total ((candidate log).filter EndpointerEntry.isOnset) + e.duration < e.cfg.minSpeechMs)
    (hend : ¬(UnderWay log ∧ ¬e.isOnset ∧ quietPhase log ≠ [] ∧
      e.cfg.hangoverMs ≤ total (quietPhase log) + e.duration) ∨ ¬e.isFrame) : Decided log e := by
  refine ⟨iff_of_false (by simp [ho]) ?_, fun hframe => iff_of_false (by simp [ho]) ?_, by simp [ho], by simp [ho]⟩
  · rintro ⟨hclosed, honset, hne, -, hlong⟩
    rcases hstart with hopen | hnot | hnil | hshort
    · exact hclosed hopen
    · exact hnot honset
    · exact hne hnil
    · exact absurd hlong (not_le.2 hshort)
  · exact hend.resolve_right (not_not_intro hframe)

/-- What an outcome says of the history is read off the state before it. -/
theorem Tracks.decided (h : Tracks p log) (hstep : Transition p e q) : Decided log e := by
  have hopen (hp : p.state = .speaking ∨ p.state = .endpoint) : UnderWay log :=
    h.underWay.2 (by rcases hp with hp | hp <;> simp [Endpointer.inUtterance, hp])
  have hclosed (hp : p.state = .quiet ∨ p.state = .onset) : ¬UnderWay log := by
    rw [h.underWay]
    rcases hp with hp | hp <;> simp [Endpointer.inUtterance, hp]
  cases hstep with
  | idle hp hnot ho _ => exact decided_of_none ho (.inr (.inl hnot)) (.inl fun h => hclosed (.inl hp) h.1)
  | appear hp _ ho _ _ =>
    exact decided_of_none ho (.inr (.inr (.inl (h.quiet hp)))) (.inl fun h => hclosed (.inl hp) h.1)
  | grow hp _ ho _ hspeech hshort =>
    obtain ⟨_, _, hsum⟩ := h.onset hp
    rw [hspeech, hsum] at hshort
    exact decided_of_none ho (.inr (.inr (.inr hshort))) (.inl fun h => hclosed (.inr hp) h.1)
  | hold hp hnot _ ho _ _ => exact decided_of_none ho (.inr (.inl hnot)) (.inl fun h => hclosed (.inr hp) h.1)
  | mature hp habove ho _ hspeech =>
    obtain ⟨hne, hbelow, hsum⟩ := h.onset hp
    refine ⟨iff_of_true ho ⟨hclosed (.inr hp), habove, hne, hbelow, hsum ▸ hspeech⟩, fun _ => ?_, by simp [ho],
      by simp [ho]⟩
    exact iff_of_false (by simp [ho]) fun h => h.2.1 habove
  | fail hp hnot ho _ =>
    refine ⟨iff_of_false (by simp [ho]) fun h => hnot h.2.1, fun _ => ?_, by simp [ho],
      fun _ => ⟨hclosed (.inr hp), (h.onset hp).1⟩⟩
    exact iff_of_false (by simp [ho]) fun h => hclosed (.inr hp) h.1
  | speak hp habove ho _ => exact decided_of_none ho (.inl (hopen hp)) (.inl fun h => h.2.1 habove)
  | linger hp _ _ ho _ | fade hp _ _ ho _ _ =>
    exact decided_of_none ho (.inl (hopen (.inl hp))) (.inl fun h' => h'.2.2.1 (h.speaking hp))
  | wait hp hnot ho _ hquietDur hshort =>
    obtain ⟨_, hsum, _⟩ := h.endpoint hp
    by_cases hframe : e.isFrame
    · refine decided_of_none ho (.inr (.inl hnot)) (.inl fun h' => ?_)
      have := hshort hframe
      rw [hquietDur, hsum] at this
      exact absurd h'.2.2.2 (not_le.2 this)
    · exact decided_of_none ho (.inr (.inl hnot)) (.inr hframe)
  | finish hp hnot ho _ hlong =>
    obtain ⟨hne, hsum, hwaiting⟩ := h.endpoint hp
    refine ⟨iff_of_false (by simp [ho]) fun h => hnot h.2.1, fun _ => ?_, fun _ _ => hwaiting, by simp [ho]⟩
    exact iff_of_true ho ⟨hopen (.inr hp), hnot, hne, hsum ▸ hlong⟩
  | cut hp hframe ho _ =>
    exact ⟨iff_of_false (by simp [ho]) fun h => h.1 (hopen hp), fun h => absurd h hframe, fun h => absurd h hframe,
      by simp [ho]⟩

lemma cfg_onFrame (p : Endpointer) (vadProbability : Rat) (frameDuration : Milliseconds) (frameTime : Time) :
    (p.onFrame vadProbability frameDuration frameTime).1.cfg = p.cfg := by
  unfold Endpointer.onFrame Endpointer.hangOver
  cases p.state <;> simp only <;> split_ifs <;> rfl

lemma ordered_answer {c : EndpointerCall} (hp : Ordered p.cfg) (hc : OrderedCall c) : Ordered (answer p c).1.cfg := by
  cases c with
  | frame vadProbability frameDuration frameTime =>
    rw [answer, cfg_onFrame]
    exact hp
  | update cfg => exact hc
  | force now =>
    unfold answer Endpointer.forceEndpoint
    cases p.state <;> exact hp

lemma Alternate.concat (h : Alternate (brackets log)) (htracks : Tracks p log) (hstep : Transition p e q) :
    Alternate (brackets (log ++ [e])) := by
  obtain ⟨hstarted, hended, _⟩ := hstep.brackets
  have hparity := htracks.parity
  intro k o hk
  rw [brackets_concat] at hk
  split at hk
  · rcases Nat.lt_trichotomy k (brackets log).length with hlt | rfl | hgt
    · exact h k o (by rwa [List.getElem?_append_left hlt] at hk)
    · rw [List.getElem?_concat_length, Option.some.injEq] at hk
      subst hk
      rw [hparity]
      rcases ‹_ ∨ _› with ho | ho
      · rw [(hstarted ho).1, ho]
        rfl
      · rw [(hended ho).1, ho]
        rfl
    · rw [List.getElem?_eq_none (by rw [List.length_append, List.length_singleton]; omega)] at hk
      exact absurd hk (by simp)
  · rw [List.append_nil] at hk
    exact h k o hk

lemma Decisions.concat (h : Decisions log) (htracks : Tracks p log) (hstep : Transition p e q) :
    Decisions (log ++ [e]) := by
  refine ⟨h.alternate.concat htracks hstep, fun before x after hsplit => ?_⟩
  obtain ⟨rest, rfl, hlog⟩ | ⟨rfl, rfl, rfl⟩ := split_concat hsplit
  · exact h.decided before x rest hlog
  · exact htracks.decided hstep

lemma tracks_initial {cfg : EndpointerConfig} (hcfg : Ordered cfg) : Tracks { cfg := cfg } [] :=
  ⟨hcfg, by simp [UnderWay, brackets, Endpointer.inUtterance], rfl, fun _ => rfl, fun h => by simp at h,
    fun h => by simp at h, fun h => by simp at h⟩

lemma decisions_nil : Decisions [] := ⟨fun k o h => by simp [brackets] at h, fun before e after h => by simp at h⟩

/-- Utterances begin and end in turns. One begins exactly at an onset frame that ends a candidate without a frame
below the offset and with which the candidate's onset frames last for the minimum of speech. A frame ends
one exactly if, with it, the quiet since the first frame below the offset after the last onset frame lasts for the
hangover in force at that frame, and no frame of that quiet before it did. -/
theorem endpointer_decisions (cfg : EndpointerConfig) (calls : List EndpointerCall) (hcfg : Ordered cfg)
    (hcalls : ∀ c ∈ calls, OrderedCall c) : Decisions (history cfg calls) := by
  have hordered : Runs.Along step (fun _ c => OrderedCall c) ({ cfg := cfg }, []) calls :=
    Runs.Along.of_forall hcalls _
  have hrun := hordered.invariant (fun s => Tracks s.1 s.2 ∧ Decisions s.2) (fun s c hs hc => ?_)
    ⟨tracks_initial hcfg, decisions_nil⟩
  · exact hrun.2
  · obtain ⟨htracks, hdecisions⟩ := hs
    have hstep := answer_transition s.1 c
    exact ⟨htracks.step hstep htracks.ordered (ordered_answer htracks.ordered hc), hdecisions.concat htracks hstep⟩

/-- The thresholds are raised in the middle of an utterance, and it ends. -/
theorem utterance_decided :
    Decisions (history { minSpeechMs := 20, hangoverMs := 30 }
      [.frame 1 10 0, .frame 1 10 10, .update { onsetThreshold := 3 / 4, hangoverMs := 20 }, .frame (1 / 4) 10 20,
        .frame (1 / 2) 10 30]) :=
  endpointer_decisions _ _ (by decide +kernel) (by decide +kernel)

/-- The same run, with its outcomes. -/
example :
    (history { minSpeechMs := 20, hangoverMs := 30 }
      [.frame 1 10 0, .frame 1 10 10, .update { onsetThreshold := 3 / 4, hangoverMs := 20 }, .frame (1 / 4) 10 20,
        .frame (1 / 2) 10 30]).map EndpointerEntry.outcome = [.none, .speechStarted, .none, .none, .speechEnded] := by
  decide +kernel

end Endpointing

end Acva
