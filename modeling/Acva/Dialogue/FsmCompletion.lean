import Acva.Dialogue.FsmAccounting

/-!
# The end of an answer

The sentences of an answer are generated and played at the same time, and the machine closes the turn
with the event that completes both. Its counters have 32 bits: they tell whether all sentences have been
played as long as fewer than `2 ^ 32` of them are still to be played when the generation ends.
-/

namespace Acva

/-- `Answer t n r p f es`: the events `es` are what is left of an answer of `n` sentences in turn `t`,
after `r` sentences, `p` reports of playback and, if `f`, the end of the generation. -/
inductive Answer (t : TurnId) (n : Nat) : Nat → Nat → Bool → List (Time × Event) → Prop
  | done : Answer t n n n true []
  | sentence (now : Time) (e : LlmSentence) {r p : Nat} {es : List (Time × Event)} (hturn : e.turn = t)
      (hr : r < n) (h : Answer t n (r + 1) p false es) : Answer t n r p false ((now, .llmSentence e) :: es)
  | playback (now : Time) (e : SentenceRef) {r p : Nat} {f : Bool} {es : List (Time × Event)}
      (hturn : e.turn = t) (hp : p < r) (h : Answer t n r (p + 1) f es) :
      Answer t n r p f ((now, .playbackFinished e) :: es)
  | finish (now : Time) (e : LlmFinished) {p : Nat} {es : List (Time × Event)} (hturn : e.turn = t)
      (h : Answer t n n p true es) : Answer t n n p false ((now, .llmFinished e) :: es)

def Event.isSentenceOf (t : TurnId) : Event → Bool
  | .llmSentence e => e.turn = t
  | _ => false

def Event.isFinishOf (t : TurnId) : Event → Bool
  | .llmFinished e => e.turn = t
  | _ => false

/-- The sentences of turn `t` among the events. -/
def sentencesIn (t : TurnId) (es : List (Time × Event)) : Nat := es.countP fun e => e.2.isSentenceOf t

def playbacksIn (t : TurnId) (es : List (Time × Event)) : Nat := es.countP fun e => e.2.isPlaybackOf t

def finishedIn (t : TurnId) (es : List (Time × Event)) : Bool := es.any fun e => e.2.isFinishOf t

namespace Answer

variable {t : TurnId} {n r p : Nat} {f : Bool} {es : List (Time × Event)}

lemma received_le (h : Answer t n r p f es) : r ≤ n ∧ (f = true → r = n) := by
  induction h with
  | done => exact ⟨Nat.le_refl _, fun _ => rfl⟩
  | sentence now e hturn hr h ih => exact ⟨Nat.le_of_lt hr, fun hf => by cases hf⟩
  | playback now e hturn hp h ih => exact ih
  | finish now e hturn h ih => exact ⟨Nat.le_refl _, fun _ => rfl⟩

lemma played_le (h : Answer t n r p f es) : p ≤ n := by
  induction h with
  | done => exact Nat.le_refl _
  | sentence now e hturn hr h ih => exact ih
  | playback now e hturn hp h ih => omega
  | finish now e hturn h ih => exact ih

end Answer

/-! ### The machine during an answer -/

/-- The machine after `r` sentences and `p` reports of playback, with the turn still open. -/
structure Underway (t : TurnId) (c r p : Nat) (f : Bool) (w : FsmWorld) : Prop where
  id : w.fsm.active.id = t
  state : w.fsm.state = if r = 0 then .thinking else .speaking
  received : w.fsm.sentencesReceived = UInt32.ofNat r
  played : w.fsm.sentencesPlayed = UInt32.ofNat p
  seen : w.fsm.llmFinishedSeen = f
  completed : w.fsm.turnsCompleted = c

/-- The machine has just completed the turn. -/
def Closed (c : Nat) (w : FsmWorld) : Prop := w.fsm.state = .listening ∧ w.fsm.turnsCompleted = c + 1

lemma ofNat_succ_eq (n : Nat) : UInt32.ofNat n + 1 = UInt32.ofNat (n + 1) := by
  rw [UInt32.ofNat_add]
  rfl

/-- The counters agree exactly when all is played, with fewer than `2 ^ 32` sentences to go. -/
lemma ofNat_eq_iff_of_room {p n : Nat} (hle : p ≤ n) (hroom : n - p < 2 ^ 32) :
    UInt32.ofNat p = UInt32.ofNat n ↔ p = n := by
  constructor
  · intro heq
    have hnat := congrArg UInt32.toNat heq
    rw [UInt32.toNat_ofNat', UInt32.toNat_ofNat'] at hnat
    omega
  · intro heq
    rw [heq]

namespace Underway

variable {t : TurnId} {c r p n : Nat} {f : Bool} {w : FsmWorld}

lemma onSentence (h : Underway t c r p false w) (now : Time) (e : LlmSentence) :
    Underway t c (r + 1) p false (w.onEvent now (.llmSentence e)) := by
  have hreceived : w.fsm.sentencesReceived + 1 = UInt32.ofNat (r + 1) := by
    rw [h.received]
    exact ofNat_succ_eq r
  have hstate := h.state
  unfold FsmWorld.onEvent FsmWorld.handleLlmSentence
  by_cases hr : r = 0
  · rw [if_pos hr] at hstate
    simp only [hstate, if_true]
    exact ⟨h.id, rfl, hreceived, h.played, h.seen, h.completed⟩
  · rw [if_neg hr] at hstate
    have hne : ¬w.fsm.state = .thinking := by simp [hstate]
    simp only [hne, if_false]
    exact ⟨h.id, by simp [hstate], hreceived, h.played, h.seen, h.completed⟩

lemma onFinish (h : Underway t c n p false w) (hle : p ≤ n) (now : Time) (e : LlmFinished) :
    if UInt32.ofNat p = UInt32.ofNat n then Closed c (w.onEvent now (.llmFinished e))
    else Underway t c n p true (w.onEvent now (.llmFinished e)) := by
  have hstate := h.state
  have hequal : w.fsm.sentencesPlayed = w.fsm.sentencesReceived ↔ UInt32.ofNat p = UInt32.ofNat n := by
    rw [h.played, h.received]
  unfold FsmWorld.onEvent FsmWorld.handleLlmFinished
  by_cases hn : n = 0
  · have hp : p = n := by omega
    have hzero : w.fsm.sentencesReceived = 0 := by
      rw [h.received, hn]
      rfl
    rw [if_pos hn] at hstate
    rw [if_pos (by rw [hp])]
    simp only [if_pos (And.intro hstate hzero)]
    exact ⟨by simp [FsmWorld.complete], by simp [FsmWorld.complete, h.completed]⟩
  · rw [if_neg hn] at hstate
    have hne : ¬(w.fsm.state = .thinking ∧ w.fsm.sentencesReceived = 0) := by simp [hstate]
    simp only [if_neg hne]
    by_cases hp : UInt32.ofNat p = UInt32.ofNat n
    · rw [if_pos hp, if_pos ⟨hstate, hequal.mpr hp⟩]
      exact ⟨by simp [FsmWorld.complete], by simp [FsmWorld.complete, h.completed]⟩
    · rw [if_neg hp, if_neg (fun hboth => hp (hequal.mp hboth.2))]
      exact ⟨h.id, h.state, h.received, h.played, rfl, h.completed⟩

/-- A report of playback closes the turn if the counters agree and the generation has ended. -/
lemma onPlayback (h : Underway t c r p f w) (hp : p < r) (now : Time) (e : SentenceRef) (hturn : e.turn = t) :
    if f = true ∧ UInt32.ofNat (p + 1) = UInt32.ofNat r then Closed c (w.onEvent now (.playbackFinished e))
    else Underway t c r (p + 1) f (w.onEvent now (.playbackFinished e)) := by
  have hplayed : w.fsm.sentencesPlayed + 1 = UInt32.ofNat (p + 1) := by
    rw [h.played]
    exact ofNat_succ_eq p
  have hr : r ≠ 0 := by omega
  have hstate := h.state
  rw [if_neg hr] at hstate
  have hsame : ¬e.turn ≠ w.fsm.active.id := by simp [hturn, h.id]
  have hclose : (w.fsm.state = .speaking ∧ w.fsm.llmFinishedSeen = true ∧
      w.fsm.sentencesPlayed + 1 = w.fsm.sentencesReceived) ↔
        f = true ∧ UInt32.ofNat (p + 1) = UInt32.ofNat r := by
    rw [hplayed, h.received, h.seen]
    simp [hstate]
  unfold FsmWorld.onEvent FsmWorld.handlePlaybackFinished
  simp only [if_neg hsame]
  by_cases hlast : f = true ∧ UInt32.ofNat (p + 1) = UInt32.ofNat r
  · rw [if_pos hlast, if_pos (hclose.mpr hlast)]
    exact ⟨by simp [FsmWorld.complete], by simp [FsmWorld.complete, h.completed]⟩
  · rw [if_neg hlast, if_neg (hclose.not.mpr hlast)]
    exact ⟨h.id, h.state, h.received, hplayed, h.seen, h.completed⟩

end Underway

/-! ### Runs -/

/-- The machine of an answer of `n` sentences: closed once both are complete, and under way until then. -/
def Progress (t : TurnId) (c n r p : Nat) (f : Bool) (w : FsmWorld) : Prop :=
  if f = true ∧ p = n then Closed c w else Underway t c r p f w

/-- Fewer than `2 ^ 32` sentences are still to be played whenever the generation ends. -/
def RoomAtFinish (t : TurnId) (n p : Nat) (es : List (Time × Event)) : Prop :=
  ∀ before now e after, es = before ++ (now, .llmFinished e) :: after → n - (p + playbacksIn t before) < 2 ^ 32

section Counts

variable {t : TurnId} {now : Time} {e : Event} {n p : Nat} {es : List (Time × Event)}

lemma fsmRun_cons (w : FsmWorld) : fsmRun w ((now, e) :: es) = fsmRun (w.onEvent now e) es := rfl

lemma sentencesIn_cons : sentencesIn t ((now, e) :: es) = (if e.isSentenceOf t then 1 else 0) + sentencesIn t es := by
  unfold sentencesIn
  rw [List.countP_cons, Nat.add_comm]

lemma playbacksIn_cons : playbacksIn t ((now, e) :: es) = (if e.isPlaybackOf t then 1 else 0) + playbacksIn t es := by
  unfold playbacksIn
  rw [List.countP_cons, Nat.add_comm]

lemma finishedIn_cons : finishedIn t ((now, e) :: es) = (e.isFinishOf t || finishedIn t es) := rfl

lemma RoomAtFinish.tail (h : RoomAtFinish t n p ((now, e) :: es)) :
    RoomAtFinish t n (p + if e.isPlaybackOf t then 1 else 0) es := by
  intro before time finished after hes
  have hroom := h ((now, e) :: before) time finished after (by rw [hes]; rfl)
  rw [playbacksIn_cons] at hroom
  omega

end Counts

/-- The machine after any first part of what is left of an answer. -/
theorem Progress.run {t : TurnId} {c n r p : Nat} {f : Bool} {w : FsmWorld} {es : List (Time × Event)}
    (h : Progress t c n r p f w) (hanswer : Answer t n r p f es) (hroom : f = true → n - p < 2 ^ 32)
    (hfinish : RoomAtFinish t n p es) (before after : List (Time × Event)) (hes : es = before ++ after) :
    Progress t c n (r + sentencesIn t before) (p + playbacksIn t before) (f || finishedIn t before)
      (fsmRun w before) := by
  induction hanswer generalizing w before with
  | done =>
    obtain ⟨rfl, rfl⟩ := List.append_eq_nil_iff.mp hes.symm
    exact h
  | @sentence now e r p es hturn hr hrest ih =>
    cases before with
    | nil => exact h
    | cons x before =>
      obtain ⟨rfl, rfl⟩ := List.cons.inj hes
      have hopen : Underway t c r p false w := by simpa [Progress] using h
      have hstep : Progress t c n (r + 1) p false (w.onEvent now (.llmSentence e)) := by
        simpa [Progress] using hopen.onSentence now e
      have hrun := ih hstep (by simp) hfinish.tail before rfl
      rw [fsmRun_cons, sentencesIn_cons, playbacksIn_cons, finishedIn_cons]
      simpa [Event.isSentenceOf, Event.isPlaybackOf, Event.isFinishOf, hturn, Nat.add_assoc] using hrun
  | @playback now e r p f es hturn hp hrest ih =>
    cases before with
    | nil => simpa [sentencesIn, playbacksIn, finishedIn, fsmRun] using h
    | cons x before =>
      obtain ⟨rfl, rfl⟩ := List.cons.inj hes
      have hle := hrest.played_le
      have hreceived := hrest.received_le
      have hopen : Underway t c r p f w := by
        unfold Progress at h
        rwa [if_neg (by omega)] at h
      have hstep : Progress t c n r (p + 1) f (w.onEvent now (.playbackFinished e)) := by
        have hlast : (f = true ∧ UInt32.ofNat (p + 1) = UInt32.ofNat r) ↔ f = true ∧ p + 1 = n := by
          apply and_congr_right
          intro hf
          have hr := hreceived.2 hf
          have hleft := hroom hf
          rw [hr]
          apply ofNat_eq_iff_of_room <;> omega
        have hreport := hopen.onPlayback hp now e hturn
        simpa only [Progress, hlast] using hreport
      have htail := hfinish.tail
      rw [if_pos (by simp [Event.isPlaybackOf, hturn])] at htail
      have hrun := ih hstep (fun hf => by have := hroom hf; omega) htail before rfl
      rw [fsmRun_cons, sentencesIn_cons, playbacksIn_cons, finishedIn_cons]
      simpa [Event.isSentenceOf, Event.isPlaybackOf, Event.isFinishOf, hturn, Nat.add_assoc] using hrun
  | @finish now e p es hturn hrest ih =>
    cases before with
    | nil => exact h
    | cons x before =>
      obtain ⟨rfl, rfl⟩ := List.cons.inj hes
      have hopen : Underway t c n p false w := by simpa [Progress] using h
      have hleft : n - p < 2 ^ 32 := hfinish [] now e _ rfl
      have hstep : Progress t c n n p true (w.onEvent now (.llmFinished e)) := by
        simpa [Progress, ofNat_eq_iff_of_room hrest.played_le hleft] using hopen.onFinish hrest.played_le now e
      have hrun := ih hstep (fun _ => hleft) hfinish.tail before rfl
      rw [fsmRun_cons, sentencesIn_cons, playbacksIn_cons, finishedIn_cons]
      simpa [Event.isSentenceOf, Event.isPlaybackOf, Event.isFinishOf, hturn, Nat.add_assoc] using hrun

/-- The generation and the playback of an answer of `n` sentences are both complete. -/
def answered (t : TurnId) (n : Nat) (es : List (Time × Event)) : Prop :=
  finishedIn t es = true ∧ playbacksIn t es = n

instance (t : TurnId) (n : Nat) (es : List (Time × Event)) : Decidable (answered t n es) :=
  inferInstanceAs (Decidable (_ ∧ _))

/-- A turn whose answer is about to come. -/
structure Fresh (t : TurnId) (w : FsmWorld) : Prop where
  id : w.fsm.active.id = t
  state : w.fsm.state = .thinking
  received : w.fsm.sentencesReceived = 0
  played : w.fsm.sentencesPlayed = 0
  seen : w.fsm.llmFinishedSeen = false

lemma Fresh.underway {t : TurnId} {w : FsmWorld} (h : Fresh t w) : Underway t w.fsm.turnsCompleted 0 0 false w :=
  ⟨h.id, h.state, h.received, h.played, h.seen, rfl⟩

/-- The turn is completed with the event after which all is generated and played, and not before. -/
theorem turn_completed_when_answered {t : TurnId} {w : FsmWorld} (hfresh : Fresh t w) (n : Nat)
    (es : List (Time × Event)) (hanswer : Answer t n 0 0 false es) (hroom : RoomAtFinish t n 0 es)
    (before after : List (Time × Event)) (hes : es = before ++ after) :
    (fsmRun w before).fsm.turnsCompleted = w.fsm.turnsCompleted + (if answered t n before then 1 else 0) ∧
    (answered t n before → (fsmRun w before).fsm.state = .listening) ∧
    (¬answered t n before → 0 < sentencesIn t before → (fsmRun w before).fsm.state = .speaking) := by
  have hstart : Progress t w.fsm.turnsCompleted n 0 0 false w := by
    simpa [Progress] using hfresh.underway
  have hrun := hstart.run hanswer (by simp) hroom before after hes
  simp only [Nat.zero_add, Bool.false_or] at hrun
  change if answered t n before then _ else _ at hrun
  by_cases hdone : answered t n before
  · rw [if_pos hdone] at hrun
    rw [if_pos hdone]
    exact ⟨hrun.2, fun _ => hrun.1, fun hnot => absurd hdone hnot⟩
  · rw [if_neg hdone] at hrun
    rw [if_neg hdone]
    refine ⟨hrun.completed, fun h => absurd h hdone, fun _ hpos => ?_⟩
    rw [hrun.state, if_neg (by omega)]

lemma RoomAtFinish.of_lt {t : TurnId} {n p : Nat} (h : n < 2 ^ 32) (es : List (Time × Event)) :
    RoomAtFinish t n p es := by
  intro before now e after hes
  omega

/-- A machine that waits for the answer of turn 1. -/
def thinkingWorld : FsmWorld := { fsm := { state := .thinking, active := { id := 1 } } }

lemma fresh_thinkingWorld : Fresh 1 thinkingWorld := ⟨rfl, rfl, rfl, rfl, rfl⟩

/-- The first of two sentences is played before the second comes: the turn stays open. -/
theorem answer_of_two_sentences_completed :
    let first : List (Time × Event) := [(0, .llmSentence { turn := 1, seq := 0 }), (1, .playbackFinished ⟨1, 0⟩)]
    let last : List (Time × Event) := [(2, .llmSentence { turn := 1, seq := 1 }), (3, .llmFinished { turn := 1 }),
      (4, .playbackFinished ⟨1, 1⟩)]
    (fsmRun thinkingWorld first).fsm.turnsCompleted = 0 ∧ (fsmRun thinkingWorld first).fsm.state = .speaking ∧
      (fsmRun thinkingWorld (first ++ last)).fsm.turnsCompleted = 1 := by
  intro first last
  have hanswer : Answer 1 2 0 0 false (first ++ last) :=
    .sentence _ _ rfl (by decide) <| .playback _ _ rfl (by decide) <| .sentence _ _ rfl (by decide) <|
      .finish _ _ rfl <| .playback _ _ rfl (by decide) .done
  have hat := turn_completed_when_answered fresh_thinkingWorld 2 _ hanswer (.of_lt (by decide) _)
  have hfirst := hat first last rfl
  have hlast := hat (first ++ last) [] (List.append_nil _).symm
  exact ⟨hfirst.1, hfirst.2.2 (by decide) (by decide), hlast.1⟩

/-! ### The counters come round -/

section Late

variable (t : TurnId) (n : Nat)

/-- `k` sentences of the turn. -/
def sentences (k : Nat) : List (Time × Event) := List.replicate k (0, .llmSentence { turn := t })

/-- The end of the generation, and then `k` reports of playback. -/
def finishThenPlayed (k : Nat) : List (Time × Event) :=
  (0, .llmFinished { turn := t }) :: List.replicate k (0, .playbackFinished { turn := t })

lemma answer_played (k : Nat) (h : k ≤ n) :
    Answer t n n (n - k) true (List.replicate k (0, .playbackFinished { turn := t })) := by
  induction k with
  | zero => exact .done
  | succ k ih =>
    have hrest := ih (by omega)
    rw [show n - k = n - (k + 1) + 1 by omega] at hrest
    exact .playback 0 { turn := t } rfl (by omega) hrest

lemma answer_late (k : Nat) (h : k ≤ n) : Answer t n (n - k) 0 false (sentences t k ++ finishThenPlayed t n) := by
  induction k with
  | zero =>
    have hplayed := answer_played t n n (Nat.le_refl n)
    rw [Nat.sub_self] at hplayed
    exact .finish 0 { turn := t } rfl hplayed
  | succ k ih =>
    have hrest := ih (by omega)
    rw [show n - k = n - (k + 1) + 1 by omega] at hrest
    exact .sentence 0 { turn := t } rfl (by omega) hrest

lemma Underway.sentences {c r p : Nat} {w : FsmWorld} (h : Underway t c r p false w) (k : Nat) :
    Underway t c (r + k) p false (fsmRun w (sentences t k)) := by
  induction k generalizing r w with
  | zero => exact h
  | succ k ih =>
    have hrun := ih (h.onSentence 0 { turn := t })
    rwa [show r + 1 + k = r + (k + 1) by omega] at hrun

/-- With nothing played, the end of the generation closes a turn whose counter has come round. -/
lemma completed_of_wrap (hwrap : UInt32.ofNat 0 = UInt32.ofNat n) :
    let before := sentences 1 n ++ [(0, .llmFinished { turn := 1 })]
    Fresh 1 thinkingWorld ∧ Answer 1 n 0 0 false (sentences 1 n ++ finishThenPlayed 1 n) ∧
      (∃ after, sentences 1 n ++ finishThenPlayed 1 n = before ++ after) ∧ playbacksIn 1 before = 0 ∧
      (fsmRun thinkingWorld before).fsm.turnsCompleted = thinkingWorld.fsm.turnsCompleted + 1 := by
  intro before
  have hplayed : playbacksIn 1 before = 0 := by
    simp [before, playbacksIn, sentences, Event.isPlaybackOf]
  have hanswer := answer_late 1 n n (Nat.le_refl n)
  rw [Nat.sub_self] at hanswer
  have hrun := fresh_thinkingWorld.underway.sentences 1 n
  rw [Nat.zero_add] at hrun
  have hclosed := hrun.onFinish (Nat.zero_le n) 0 { turn := 1 }
  rw [if_pos hwrap] at hclosed
  unfold fsmRun at hclosed ⊢
  rw [Runs.exec_append]
  have hsplit : sentences 1 n ++ finishThenPlayed 1 n =
      before ++ List.replicate n (0, .playbackFinished { turn := 1 }) := by
    simp [before, finishThenPlayed]
  exact ⟨fresh_thinkingWorld, hanswer, ⟨_, hsplit⟩, hplayed, hclosed.2⟩

end Late

/-- An answer of `2 ^ 32` sentences is completed before any of them is played. -/
theorem turn_completed_unheard :
    let n := 2 ^ 32
    let before := sentences 1 n ++ [(0, .llmFinished { turn := 1 })]
    Fresh 1 thinkingWorld ∧ Answer 1 n 0 0 false (sentences 1 n ++ finishThenPlayed 1 n) ∧
      (∃ after, sentences 1 n ++ finishThenPlayed 1 n = before ++ after) ∧ playbacksIn 1 before = 0 ∧
      (fsmRun thinkingWorld before).fsm.turnsCompleted = thinkingWorld.fsm.turnsCompleted + 1 :=
  completed_of_wrap (2 ^ 32) rfl

end Acva
