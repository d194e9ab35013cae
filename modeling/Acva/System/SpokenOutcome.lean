import Acva.Dialogue.FsmAccounting
import Acva.Dialogue.TurnWriter
import Mathlib.Data.List.Nodup
import Mathlib.Data.List.Perm.Subperm

/-!
# Spoken and persisted outcome

The machine decides how a turn ended when the user interrupts it, the writer when the generation ends, by
the flag that `LlmFinished` carries. Each takes the turn's events from a queue of its own: the generation
publishes the sentences and then `LlmFinished`, the playback its reports, and the two queues may mix them
with each other and with the interruptions in different ways. `TurnProgress` counts what a component has
handled; the two components are compared with it, and with each other at the end.
-/

namespace Acva

/-- What is published of one turn: the texts of the sentences, whether the token is cancelled when
`LlmFinished` is, and the sequence numbers of the `PlaybackFinished`. -/
structure TurnScript where
  texts : List Text
  cancelled : Bool
  played : List Nat
  spoken : ∀ s ∈ texts, s ≠ []
  short : texts.length < 2 ^ 32
  once : played.Nodup
  among : ∀ i ∈ played, i < texts.length

/-- How much of it a component has handled: the sentences, the reports, the reports before `LlmFinished`,
and at the first interruption the reports and whether `LlmFinished` had been handled. -/
structure TurnProgress where
  sentences : Nat := 0
  played : Nat := 0
  finish : Option Nat := none
  interruption : Option (Nat × Bool) := none
  deriving DecidableEq, Repr

def TurnProgress.record (p : TurnProgress) : Event → TurnProgress
  | .llmSentence _ => { p with sentences := p.sentences + 1 }
  | .playbackFinished _ => { p with played := p.played + 1 }
  | .llmFinished _ => { p with finish := some p.played }
  | .userInterrupted _ => { p with interruption := p.interruption.or (some (p.played, p.finish.isSome)) }
  | _ => p

namespace TurnScript

/-- The events of turn `t` that a component can handle next: those of the generation and those of the
playback in the order in which they were published, interruptions at any time. -/
def Next (σ : TurnScript) (t : TurnId) (p : TurnProgress) : Event → Prop
  | .llmSentence e => e.turn = t ∧ e.seq.toNat = p.sentences ∧ σ.texts[p.sentences]? = some e.text
  | .playbackFinished e => e.turn = t ∧ σ.played[p.played]? = some e.seq.toNat
  | .llmFinished e => e.turn = t ∧ p.finish = none ∧ p.sentences = σ.texts.length ∧ e.cancelled = σ.cancelled
  | .userInterrupted e => e.turn = t
  | _ => False

instance (σ : TurnScript) (t : TurnId) (p : TurnProgress) : (e : Event) → Decidable (σ.Next t p e)
  | .llmSentence _ => inferInstanceAs (Decidable (_ ∧ _ ∧ _))
  | .playbackFinished _ => inferInstanceAs (Decidable (_ ∧ _))
  | .llmFinished _ => inferInstanceAs (Decidable (_ ∧ _ ∧ _ ∧ _))
  | .userInterrupted _ => inferInstanceAs (Decidable (_ = _))
  | .speechStarted _ | .speechEnded _ | .utteranceReady _ | .partialTranscript _ | .finalTranscript _
  | .llmStarted _ | .llmToken _ _ | .ttsStarted _ | .ttsAudioChunk _ _ | .ttsFinished _ | .playbackStarted _
  | .cancelGeneration _ | .pause | .resume | .errorEvent _ _ | .healthChanged _ _ _ => isFalse id

/-- The sentences that the first `n` reports are about, in sequence order. -/
def heard (σ : TurnScript) (n : Nat) : List Text := select σ.texts fun i => decide (i ∈ σ.played.take n)

/-- Generation and playback are both done, and were before any interruption. -/
def completed (σ : TurnScript) (p : TurnProgress) : Bool :=
  match p.interruption with
  | none => p.finish.isSome && p.played = σ.texts.length
  | some (n, finished) => finished && n = σ.texts.length

end TurnScript

/-- The machine or the writer handles an event. -/
inductive Handled
  | fsm (now : Time) (e : Event)
  | writer (nowMs : Int) (e : Event)
  deriving DecidableEq, Repr

/-- The machine and the writer, each with what it has handled of the turn. -/
structure SpokenWorld where
  fsm : FsmWorld
  writer : TurnWriter
  fsmSaw : TurnProgress := {}
  writerSaw : TurnProgress := {}

namespace SpokenWorld

def step (s : SpokenWorld) : Handled → SpokenWorld
  | .fsm now e => { s with fsm := s.fsm.onEvent now e, fsmSaw := s.fsmSaw.record e }
  | .writer nowMs e => { s with writer := s.writer.onEvent nowMs e, writerSaw := s.writerSaw.record e }

def Next (σ : TurnScript) (t : TurnId) (s : SpokenWorld) : Handled → Prop
  | .fsm _ e => σ.Next t s.fsmSaw e
  | .writer _ e => σ.Next t s.writerSaw e

instance (σ : TurnScript) (t : TurnId) (s : SpokenWorld) : (h : Handled) → Decidable (s.Next σ t h)
  | .fsm _ e => inferInstanceAs (Decidable (σ.Next t s.fsmSaw e))
  | .writer _ e => inferInstanceAs (Decidable (σ.Next t s.writerSaw e))

/-- Turn `t` has its transcript and both have handled `LlmStarted{t}`. -/
structure FreshTurn (t : TurnId) (s : SpokenWorld) : Prop where
  state : s.fsm.fsm.state = .thinking
  active : s.fsm.fsm.active.id = t
  outcome : s.fsm.fsm.outcome = .generating
  received : s.fsm.fsm.sentencesReceived = 0
  played : s.fsm.fsm.sentencesPlayed = 0
  finished : s.fsm.fsm.llmFinishedSeen = false
  entry : ∃ startedAt, s.writer.inFlight t = some { startedAt := startedAt }
  rows : s.writer.rowsOf t = []
  session : s.writer.session ≠ 0
  progress : s.fsmSaw = {} ∧ s.writerSaw = {}

/-- What is persisted for the turn is what the machine says was spoken of it. -/
structure OutcomeAgrees (σ : TurnScript) (t : TurnId) (s : SpokenWorld) : Prop where
  interrupted : s.fsm.fsm.outcome = .interrupted → ∃ n finished row,
    s.fsmSaw.interruption = some (n, finished) ∧ s.writer.rowsOf t = [row] ∧
      row.status = .interrupted ∧ row.text = spaceJoin (σ.heard n)
  discarded : s.fsm.fsm.outcome = .discarded → s.writer.rowsOf t = []
  completed : s.fsm.fsm.outcome = .completed → ∃ row,
    s.writer.rowsOf t = [row] ∧ row.status = .committed ∧ row.text = spaceJoin σ.texts

/-- Where the machine completes the turn the generation was not cancelled; where it is interrupted before,
the generation was, and the writer had as many reports when it ended as the machine when it was
interrupted. -/
def InTime (σ : TurnScript) (s : SpokenWorld) : Prop :=
  if σ.completed s.fsmSaw then σ.cancelled = false
  else ∀ n finished, s.fsmSaw.interruption = some (n, finished) →
    σ.cancelled = true ∧ s.writerSaw.finish = some n

end SpokenWorld

/-! ### What a component has handled -/

/-- No more than was published, and the generation's events in their order. -/
structure TurnScript.Reached (σ : TurnScript) (p : TurnProgress) : Prop where
  sentences : p.sentences ≤ σ.texts.length
  played : p.played ≤ σ.played.length
  finish : ∀ n, p.finish = some n → p.sentences = σ.texts.length ∧ n ≤ p.played
  interruption : ∀ n finished, p.interruption = some (n, finished) →
    n ≤ p.played ∧ (finished = true → p.finish.isSome)

namespace TurnScript

variable {σ : TurnScript} {p : TurnProgress} {t : TurnId} {e : Event}

lemma reached_nothing (σ : TurnScript) : σ.Reached {} := by
  refine ⟨Nat.zero_le _, Nat.zero_le _, ?_, ?_⟩
  · intro n hn
    cases hn
  · intro n finished hn
    cases hn

/-- A sentence is played at most once, so the reports are no more than the sentences. -/
lemma played_length_le (σ : TurnScript) : σ.played.length ≤ σ.texts.length := by
  have hsub : σ.played ⊆ List.range σ.texts.length := fun i hi => List.mem_range.2 (σ.among i hi)
  simpa using (σ.once.subperm hsub).length_le

lemma Reached.record (h : σ.Reached p) (he : σ.Next t p e) : σ.Reached (p.record e) := by
  cases e with
  | llmSentence e =>
    have hlt : p.sentences < σ.texts.length := (List.getElem?_eq_some_iff.1 he.2.2).1
    refine ⟨hlt, h.played, ?_, h.interruption⟩
    intro n hn
    have hall := (h.finish n hn).1
    omega
  | playbackFinished e =>
    have hlt : p.played < σ.played.length := (List.getElem?_eq_some_iff.1 he.2).1
    refine ⟨h.sentences, hlt, ?_, ?_⟩
    · intro n hn
      exact ⟨(h.finish n hn).1, Nat.le_succ_of_le (h.finish n hn).2⟩
    · intro n finished hn
      exact ⟨Nat.le_succ_of_le (h.interruption n finished hn).1, (h.interruption n finished hn).2⟩
  | llmFinished e =>
    refine ⟨h.sentences, h.played, ?_, ?_⟩
    · rintro n ⟨⟩
      exact ⟨he.2.2.1, le_rfl⟩
    · intro n finished hn
      exact ⟨(h.interruption n finished hn).1, fun _ => rfl⟩
  | userInterrupted u =>
    refine ⟨h.sentences, h.played, h.finish, ?_⟩
    intro n finished hn
    cases hp : p.interruption with
    | some x =>
      have hx : some x = some (n, finished) := by simpa [TurnProgress.record, hp] using hn
      exact h.interruption n finished (hp.trans hx)
    | none =>
      obtain ⟨rfl, rfl⟩ : p.played = n ∧ p.finish.isSome = finished := by
        simpa [TurnProgress.record, hp] using hn
      exact ⟨le_rfl, id⟩
  | _ => exact absurd he not_false

lemma Reached.ofNat_eq_iff (h : σ.Reached p) :
    UInt32.ofNat p.played = UInt32.ofNat p.sentences ↔ p.played = p.sentences := by
  have hplayed := h.played.trans σ.played_length_le
  have hsentences := h.sentences
  have hb := σ.short
  refine ⟨fun heq => ?_, fun heq => by rw [heq]⟩
  have hnat := congrArg UInt32.toNat heq
  rw [UInt32.toNat_ofNat', UInt32.toNat_ofNat', Nat.mod_eq_of_lt (by omega), Nat.mod_eq_of_lt (by omega)] at hnat
  exact hnat

/-- How the machine ends the turn. -/
def outcome (σ : TurnScript) (p : TurnProgress) : TurnOutcome :=
  if σ.completed p then .completed
  else match p.interruption with
    | some (0, _) => .discarded
    | _ => .interrupted

/-! ### The sentences heard -/

lemma heard_length {n : Nat} (hn : n ≤ σ.played.length) : (σ.heard n).length = n := by
  have hnodup : (σ.played.take n).Nodup := σ.once.sublist (List.take_sublist _ _)
  have hlength : (σ.played.take n).length = n := by rw [List.length_take, Nat.min_eq_left hn]
  calc (σ.heard n).length = ((List.range σ.texts.length).filter fun i => decide (i ∈ σ.played.take n)).length :=
        select_length _ _
    _ = (σ.played.take n).length := by
        refine List.Perm.length_eq ((List.perm_ext_iff_of_nodup (List.nodup_range.filter _) hnodup).2 fun i => ?_)
        simp only [List.mem_filter, List.mem_range, decide_eq_true_eq]
        exact ⟨fun h => h.2, fun h => ⟨σ.among i (List.mem_of_mem_take h), h⟩⟩
    _ = n := hlength

lemma heard_sublist {m n : Nat} (h : m ≤ n) : (σ.heard m).Sublist (σ.heard n) := by
  refine List.Sublist.filterMap _ (List.monotone_filter_right _ fun i hi => ?_)
  simp only [decide_eq_true_eq] at hi ⊢
  exact (List.take_prefix_take_left h).subset hi

lemma heard_eq_nil_iff {n : Nat} (hn : n ≤ σ.played.length) : σ.heard n = [] ↔ n = 0 := by
  rw [← List.length_eq_zero_iff, heard_length hn]

lemma heard_inj {m n : Nat} (hm : m ≤ σ.played.length) (hn : n ≤ σ.played.length) (hm0 : m ≠ 0) (hn0 : n ≠ 0)
    (h : spaceJoin (σ.heard m) = spaceJoin (σ.heard n)) : m = n := by
  rcases Nat.le_total m n with hle | hle
  · have hne : σ.heard m ≠ [] := fun hnil => hm0 ((heard_eq_nil_iff hm).1 hnil)
    have hlength := length_eq_of_spaceJoin_eq (heard_sublist hle) hne h
    rwa [heard_length hm, heard_length hn] at hlength
  · have hne : σ.heard n ≠ [] := fun hnil => hn0 ((heard_eq_nil_iff hn).1 hnil)
    have hlength := length_eq_of_spaceJoin_eq (heard_sublist hle) hne h.symm
    rw [heard_length hm, heard_length hn] at hlength
    exact hlength.symm

end TurnScript

/-! ### The machine follows the order -/

/-- The machine in the middle of turn `t`. -/
structure FsmRuns (t : TurnId) (p : TurnProgress) (f : Fsm) : Prop where
  active : f.active.id = t
  state : f.state = if p.sentences = 0 then .thinking else .speaking
  outcome : f.outcome = .generating ∨ f.outcome = .speaking
  received : f.sentencesReceived = UInt32.ofNat p.sentences
  played : f.sentencesPlayed = UInt32.ofNat p.played
  finished : f.llmFinishedSeen = p.finish.isSome

/-- The machine is in the middle of turn `t`, or over with it. -/
inductive FsmFollows (σ : TurnScript) (t : TurnId) (p : TurnProgress) (f : Fsm) : Prop
  | running (uninterrupted : p.interruption = none) (undone : σ.completed p = false) (runs : FsmRuns t p f)
  | resting (state : f.state = .listening) (outcome : f.outcome = σ.outcome p)
      (done : p.interruption = none → σ.completed p = true)

namespace FsmFollows

variable {σ : TurnScript} {t : TurnId} {p : TurnProgress} {w : FsmWorld} {e : Event} {now : Time}

/-- In `Listening` the events of an answer only move counters. -/
lemma listening (now : Time) (hs : w.fsm.state = .listening) (he : σ.Next t p e) :
    (w.onEvent now e).fsm.state = .listening ∧ (w.onEvent now e).fsm.outcome = w.fsm.outcome := by
  cases e with
  | llmSentence e => simp [FsmWorld.onEvent, FsmWorld.handleLlmSentence, hs]
  | llmFinished e => simp [FsmWorld.onEvent, FsmWorld.handleLlmFinished, hs]
  | playbackFinished e =>
    by_cases ht : e.turn = w.fsm.active.id <;>
      simp [FsmWorld.onEvent, FsmWorld.handlePlaybackFinished, hs, ht]
  | userInterrupted u => simp [FsmWorld.onEvent, FsmWorld.handleUserInterrupted, hs]
  | _ => exact absurd he not_false

lemma outcome_record (hp : σ.Reached p) (hdone : p.interruption = none → σ.completed p = true)
    (he : σ.Next t p e) :
    σ.outcome (p.record e) = σ.outcome p ∧
      ((p.record e).interruption = none → σ.completed (p.record e) = true) := by
  cases hi : p.interruption with
  | some x =>
    have hsame : (p.record e).interruption = some x := by
      cases e with
      | userInterrupted u => simp [TurnProgress.record, hi]
      | llmSentence e => exact hi
      | playbackFinished e => exact hi
      | llmFinished e => exact hi
      | _ => exact absurd he not_false
    refine ⟨?_, fun hnone => absurd (hsame.symm.trans hnone) (by simp)⟩
    simp only [TurnScript.outcome, TurnScript.completed, hsame, hi]
  | none =>
    have hcompleted := hdone hi
    have hd := hcompleted
    simp only [TurnScript.completed, hi, Bool.and_eq_true, decide_eq_true_eq] at hd
    obtain ⟨n, hn⟩ := Option.isSome_iff_exists.1 hd.1
    have hall := (hp.finish n hn).1
    cases e with
    | llmSentence e =>
      have hlt : p.sentences < σ.texts.length := (List.getElem?_eq_some_iff.1 he.2.2).1
      omega
    | llmFinished e => exact absurd (hn.symm.trans he.2.1) (by simp)
    | playbackFinished e =>
      have hlt : p.played < σ.played.length := (List.getElem?_eq_some_iff.1 he.2).1
      have hle := σ.played_length_le
      omega
    | userInterrupted u =>
      have hcompleted' : σ.completed (p.record (.userInterrupted u)) = true := by
        simp [TurnScript.completed, TurnProgress.record, hi, hd]
      exact ⟨by simp only [TurnScript.outcome, hcompleted, hcompleted', if_true], fun _ => hcompleted'⟩
    | _ => exact absurd he not_false

lemma complete {p : TurnProgress} (hd : σ.completed p = true) (v : FsmWorld) :
    FsmFollows σ t p (v.complete now).fsm := by
  refine .resting ?_ ?_ fun _ => hd
  · simp [FsmWorld.complete]
  · simp [FsmWorld.complete, TurnScript.outcome, hd]

lemma ofNat_succ (n : Nat) : UInt32.ofNat (n + 1) = UInt32.ofNat n + 1 := UInt32.ofNat_add n 1

lemma llmSentence (h : FsmRuns t p w.fsm) (hp : σ.Reached p) (hi : p.interruption = none) {e : LlmSentence}
    (he : σ.Next t p (.llmSentence e)) :
    FsmFollows σ t (p.record (.llmSentence e)) (w.onEvent now (.llmSentence e)).fsm := by
  have hfin : p.finish = none := by
    cases hfin : p.finish with
    | none => rfl
    | some n =>
      have hlt : p.sentences < σ.texts.length := (List.getElem?_eq_some_iff.1 he.2.2).1
      have hall := (hp.finish n hfin).1
      omega
  have hund : σ.completed (p.record (.llmSentence e)) = false := by
    simp [TurnScript.completed, TurnProgress.record, hi, hfin]
  have hrec : w.fsm.sentencesReceived + 1 = UInt32.ofNat (p.sentences + 1) := by rw [h.received, ofNat_succ]
  have hstate := h.state
  simp only [FsmWorld.onEvent, FsmWorld.handleLlmSentence]
  by_cases hnone : p.sentences = 0
  · rw [if_pos hnone] at hstate
    rw [if_pos hstate]
    exact .running hi hund ⟨h.active, by simp [TurnProgress.record], .inr (by simp), hrec, h.played, h.finished⟩
  · rw [if_neg hnone] at hstate
    rw [if_neg (by simp [hstate])]
    exact .running hi hund ⟨h.active, by simp [TurnProgress.record, hstate], h.outcome, hrec, h.played, h.finished⟩

lemma llmFinished (h : FsmRuns t p w.fsm) (hp : σ.Reached p) (hi : p.interruption = none) {e : LlmFinished}
    (he : σ.Next t p (.llmFinished e)) :
    FsmFollows σ t (p.record (.llmFinished e)) (w.onEvent now (.llmFinished e)).fsm := by
  have hall : p.sentences = σ.texts.length := he.2.2.1
  have hdone : σ.completed (p.record (.llmFinished e)) = true ↔ p.played = p.sentences := by
    simp [TurnScript.completed, TurnProgress.record, hi, hall]
  have hle := hp.played.trans σ.played_length_le
  have hstate := h.state
  simp only [FsmWorld.onEvent, FsmWorld.handleLlmFinished]
  by_cases hnone : p.sentences = 0
  · rw [if_pos hnone] at hstate
    have hzero : w.fsm.sentencesReceived = 0 := by rw [h.received, hnone]; rfl
    rw [if_pos ⟨hstate, hzero⟩]
    exact complete (hdone.2 (by omega)) _
  · rw [if_neg hnone] at hstate
    rw [if_neg (by simp [hstate])]
    by_cases heq : p.played = p.sentences
    · rw [if_pos ⟨hstate, by rw [h.played, h.received, heq]⟩]
      exact complete (hdone.2 heq) _
    · have hne : ¬(w.fsm.state = .speaking ∧ w.fsm.sentencesPlayed = w.fsm.sentencesReceived) := by
        rintro ⟨_, hcounts⟩
        rw [h.played, h.received, hp.ofNat_eq_iff] at hcounts
        exact heq hcounts
      rw [if_neg hne]
      have hopen : σ.completed (p.record (.llmFinished e)) = false := Bool.eq_false_iff.2 (hdone.not.2 heq)
      exact .running hi hopen ⟨h.active, by simp [TurnProgress.record, hstate, hnone], h.outcome, h.received,
        h.played, rfl⟩

lemma playbackFinished (h : FsmRuns t p w.fsm) (hp : σ.Reached p) (hi : p.interruption = none) {e : SentenceRef}
    (he : σ.Next t p (.playbackFinished e)) :
    FsmFollows σ t (p.record (.playbackFinished e)) (w.onEvent now (.playbackFinished e)).fsm := by
  have hp' := hp.record he
  have hplay : w.fsm.sentencesPlayed + 1 = UInt32.ofNat (p.played + 1) := by rw [h.played, ofNat_succ]
  have hdone : σ.completed (p.record (.playbackFinished e)) =
      (p.finish.isSome && decide (p.played + 1 = σ.texts.length)) := by
    simp [TurnScript.completed, TurnProgress.record, hi]
  have hiff : w.fsm.sentencesPlayed + 1 = w.fsm.sentencesReceived ↔ p.played + 1 = p.sentences := by
    rw [hplay, h.received]
    exact hp'.ofNat_eq_iff
  have hfull : p.finish.isSome = true → p.sentences = σ.texts.length := by
    intro hsome
    obtain ⟨n, hn⟩ := Option.isSome_iff_exists.1 hsome
    exact (hp.finish n hn).1
  simp only [FsmWorld.onEvent, FsmWorld.handlePlaybackFinished]
  rw [if_neg (by simp [he.1, h.active])]
  by_cases hlast : p.finish.isSome ∧ p.played + 1 = p.sentences
  · have hstate : w.fsm.state = .speaking := by rw [h.state, if_neg (by omega)]
    rw [if_pos ⟨hstate, h.finished.trans hlast.1, hiff.2 hlast.2⟩]
    have hcompleted : σ.completed (p.record (.playbackFinished e)) = true := by
      rw [hdone, hlast.2, hfull hlast.1]
      simp [hlast.1]
    exact complete hcompleted _
  · have hne : ¬(w.fsm.state = .speaking ∧ w.fsm.llmFinishedSeen = true ∧
        w.fsm.sentencesPlayed + 1 = w.fsm.sentencesReceived) := by
      rintro ⟨_, hfin, heq⟩
      exact hlast ⟨h.finished.symm.trans hfin, hiff.1 heq⟩
    rw [if_neg hne]
    refine .running hi ?_ ⟨h.active, h.state, h.outcome, h.received, hplay, h.finished⟩
    rw [hdone, Bool.and_eq_false_iff, decide_eq_false_iff_not]
    by_cases hfin : p.finish.isSome
    · exact .inr fun hlen => hlast ⟨hfin, hlen.trans (hfull hfin).symm⟩
    · exact .inl (by simpa using hfin)

lemma userInterrupted (h : FsmRuns t p w.fsm) (hp : σ.Reached p) (hi : p.interruption = none)
    (hund : σ.completed p = false) (u : UserInterrupted) :
    FsmFollows σ t (p.record (.userInterrupted u)) (w.onEvent now (.userInterrupted u)).fsm := by
  have hactive : ¬(w.fsm.state = .listening ∨ w.fsm.state = .idle) := by
    rw [h.state]
    by_cases hnone : p.sentences = 0 <;> simp [hnone]
  have hheard : w.fsm.sentencesPlayed ≥ 1 ↔ p.played ≠ 0 := by
    have hle := hp.played.trans σ.played_length_le
    have hb := σ.short
    rw [ge_iff_le, h.played, one_le_ofNat_iff, Nat.mod_eq_of_lt (by omega)]
  have hund' : σ.completed (p.record (.userInterrupted u)) = false := by
    simpa [TurnScript.completed, TurnProgress.record, hi] using hund
  have hout : σ.outcome (p.record (.userInterrupted u)) = if p.played = 0 then .discarded else .interrupted := by
    rw [TurnScript.outcome, hund']
    cases hn : p.played <;> simp [TurnProgress.record, hi, hn]
  simp only [FsmWorld.onEvent, FsmWorld.handleUserInterrupted, hactive, if_false]
  refine .resting (by simp) ?_ (by simp [TurnProgress.record, hi])
  rw [hout]
  by_cases hnone : p.played = 0
  · have hnot : ¬w.fsm.sentencesPlayed ≥ 1 := fun hge => hheard.1 hge hnone
    simp [hnot, hnone]
  · have hyes : w.fsm.sentencesPlayed ≥ 1 := hheard.2 hnone
    simp [hyes, hnone]

lemma step (now : Time) (h : FsmFollows σ t p w.fsm) (hp : σ.Reached p) (he : σ.Next t p e) :
    FsmFollows σ t (p.record e) (w.onEvent now e).fsm := by
  cases h with
  | resting state outcome done =>
    obtain ⟨hs, ho⟩ := listening now state he
    obtain ⟨hout, hdone⟩ := outcome_record hp done he
    exact .resting hs (ho.trans (outcome.trans hout.symm)) hdone
  | running hi hund hruns =>
    cases e with
    | llmSentence e => exact llmSentence hruns hp hi he
    | llmFinished e => exact llmFinished hruns hp hi he
    | playbackFinished e => exact playbackFinished hruns hp hi he
    | userInterrupted u => exact userInterrupted hruns hp hi hund u
    | _ => exact absurd he not_false

end FsmFollows

/-! ### The writer follows the order -/

/-- The rows of a turn whose `LlmFinished` came after `n` reports. -/
def Persisted (σ : TurnScript) (n : Nat) (rows : List TurnRow) : Prop :=
  if σ.cancelled then
    if n = 0 then rows = []
    else ∃ row, rows = [row] ∧ row.status = .interrupted ∧ row.text = spaceJoin (σ.heard n)
  else ∃ row, rows = [row] ∧ row.status = .committed ∧ row.text = spaceJoin σ.texts

/-- The writer has the turn's entry until the generation finishes, and its rows afterwards. -/
structure WriterFollows (σ : TurnScript) (t : TurnId) (p : TurnProgress) (w : TurnWriter) : Prop where
  session : w.session ≠ 0
  entry : p.finish = none → (∃ st, w.inFlight t = some st ∧
    st.Tracks (σ.texts.take p.sentences) (σ.played.take p.played)) ∧ w.rowsOf t = []
  rows : ∀ n, p.finish = some n → w.inFlight t = none ∧ Persisted σ n (w.rowsOf t)

namespace WriterFollows

variable {σ : TurnScript} {t : TurnId} {p : TurnProgress} {w : TurnWriter} {e : Event}

lemma llmFinished (h : WriterFollows σ t p w) (hp : σ.Reached p) (now : Int) {e : LlmFinished}
    (he : σ.Next t p (.llmFinished e)) :
    WriterFollows σ t (p.record (.llmFinished e)) (w.onEvent now (.llmFinished e)) := by
  obtain ⟨rfl, hfin, hall, hcancelled⟩ := he
  obtain ⟨⟨st, hst, htracks⟩, hrows⟩ := h.entry hfin
  obtain ⟨hnone, hposted⟩ := w.rowsOf_finished now hst h.session
  rw [hall, List.take_length] at htracks
  have hkept : st.kept e.cancelled = if σ.cancelled then σ.heard p.played else σ.texts := by
    rw [htracks.kept σ.spoken, hcancelled]
    cases σ.cancelled with
    | true => simp [TurnScript.heard]
    | false => simpa using select_true σ.texts
  have hne : ∀ s ∈ st.kept e.cancelled, s ≠ [] := by
    intro s hs
    rw [htracks.kept σ.spoken] at hs
    exact σ.spoken s (mem_of_mem_select hs)
  have htext : (st.row w.session now e).text = spaceJoin (st.kept e.cancelled) := foldl_appendSentence _ hne
  have hnil := TurnScript.heard_eq_nil_iff hp.played
  refine ⟨by rw [w.onEvent_session]; exact h.session, by simp [TurnProgress.record], ?_⟩
  rintro n ⟨⟩
  refine ⟨hnone, ?_⟩
  rw [hposted, hrows, List.nil_append, Persisted]
  cases hc : σ.cancelled with
  | false =>
    rw [hc] at hcancelled
    simp only [hc, Bool.false_eq_true, if_false] at hkept ⊢
    rw [if_neg (by simp [hcancelled])]
    exact ⟨_, rfl, by simp [AssistantState.row, hcancelled], by rw [htext, hkept]⟩
  | true =>
    rw [hc] at hcancelled
    simp only [hc, if_true] at hkept ⊢
    by_cases hn : p.played = 0
    · rw [if_pos hn, if_pos ⟨hcancelled, by rw [hkept, hnil, hn]⟩]
    · rw [if_neg hn, if_neg (by rw [hkept, hnil]; exact fun hand => hn hand.2)]
      exact ⟨_, rfl, by simp [AssistantState.row, hcancelled], by rw [htext, hkept]⟩

lemma step (h : WriterFollows σ t p w) (hp : σ.Reached p) (now : Int) (he : σ.Next t p e) :
    WriterFollows σ t (p.record e) (w.onEvent now e) := by
  have hsession : (w.onEvent now e).session ≠ 0 := by
    rw [w.onEvent_session]
    exact h.session
  have hb := σ.short
  cases e with
  | llmSentence e =>
    obtain ⟨rfl, hseq, htext⟩ := he
    have hlt : p.sentences < σ.texts.length := (List.getElem?_eq_some_iff.1 htext).1
    have hlength : (σ.texts.take p.sentences).length = p.sentences := by
      rw [List.length_take, Nat.min_eq_left hlt.le]
    refine ⟨hsession, fun hfin => ?_, fun n hn => ?_⟩
    · obtain ⟨⟨st, hst, htracks⟩, hrows⟩ := h.entry hfin
      have htracks' := htracks.onSentence (e := e) (by rw [hlength, hseq]) (by omega)
      refine ⟨⟨st.onSentence e, by simp [TurnWriter.onEvent, TurnWriter.handleSentence, hst], ?_⟩, hrows⟩
      rwa [TurnProgress.record, List.take_add_one, htext]
    · have hall := (hp.finish n hn).1
      omega
  | llmFinished e => exact h.llmFinished hp now he
  | playbackFinished e =>
    obtain ⟨rfl, hnext⟩ := he
    have hlt : e.seq.toNat < σ.texts.length := σ.among _ (List.mem_of_getElem? hnext)
    refine ⟨hsession, fun hfin => ?_, fun n hn => ?_⟩
    · obtain ⟨⟨st, hst, htracks⟩, hrows⟩ := h.entry hfin
      have htracks' := htracks.onPlayback (e := e) (by omega)
      refine ⟨⟨st.onPlayback e, by simp [TurnWriter.onEvent, TurnWriter.handlePlaybackFinished, hst], ?_⟩, hrows⟩
      rwa [TurnProgress.record, List.take_add_one, hnext]
    · obtain ⟨hnone, hrows⟩ := h.rows n hn
      exact ⟨by simp [TurnWriter.onEvent, TurnWriter.handlePlaybackFinished, hnone], hrows⟩
  | userInterrupted u => exact ⟨hsession, h.entry, h.rows⟩
  | _ => exact absurd he not_false

end WriterFollows

/-! ### Agreement -/

namespace SpokenWorld

variable {σ : TurnScript} {t : TurnId} {s : SpokenWorld}

/-- The machine and the writer follow the orders in which they handle the turn's events. -/
structure Follows (σ : TurnScript) (t : TurnId) (s : SpokenWorld) : Prop where
  fsmReached : σ.Reached s.fsmSaw
  writerReached : σ.Reached s.writerSaw
  fsm : FsmFollows σ t s.fsmSaw s.fsm.fsm
  writer : WriterFollows σ t s.writerSaw s.writer

lemma FreshTurn.follows (h : s.FreshTurn t) (σ : TurnScript) : s.Follows σ t := by
  obtain ⟨startedAt, hentry⟩ := h.entry
  obtain ⟨hfsm, hwriter⟩ := h.progress
  refine ⟨?_, ?_, ?_, ?_⟩
  · rw [hfsm]
    exact σ.reached_nothing
  · rw [hwriter]
    exact σ.reached_nothing
  · rw [hfsm]
    exact .running rfl rfl ⟨h.active, h.state, .inl h.outcome, h.received, h.played, h.finished⟩
  · rw [hwriter]
    refine ⟨h.session, fun _ => ⟨⟨_, hentry, ⟨0, rfl⟩, rfl, by simp⟩, h.rows⟩, by simp⟩

lemma Follows.step (h : s.Follows σ t) (x : Handled) (hx : s.Next σ t x) : (s.step x).Follows σ t := by
  cases x with
  | fsm now e => exact ⟨h.fsmReached.record hx, h.writerReached, h.fsm.step now h.fsmReached hx, h.writer⟩
  | writer nowMs e => exact ⟨h.fsmReached, h.writerReached.record hx, h.fsm, h.writer.step h.writerReached nowMs hx⟩

lemma agrees_of_open (h : s.fsm.fsm.outcome = .generating ∨ s.fsm.fsm.outcome = .speaking) :
    s.OutcomeAgrees σ t := by
  refine ⟨fun ho => ?_, fun ho => ?_, fun ho => ?_⟩ <;>
  · rw [ho] at h
    simp at h

/-- A turn that the machine completes has a committed row unless its generation was cancelled. -/
lemma Follows.agrees_completed_iff (h : s.Follows σ t) {n : Nat} (hfin : s.writerSaw.finish = some n)
    (ho : s.fsm.fsm.outcome = .completed) : s.OutcomeAgrees σ t ↔ σ.cancelled = false := by
  obtain ⟨_, hrows⟩ := h.writer.rows n hfin
  rw [Persisted] at hrows
  constructor
  · intro hagree
    obtain ⟨row, hrow, hstatus, _⟩ := hagree.completed ho
    by_contra hc
    rw [Bool.not_eq_false] at hc
    rw [if_pos hc] at hrows
    by_cases hn : n = 0
    · rw [if_pos hn, hrow] at hrows
      cases hrows
    · rw [if_neg hn] at hrows
      obtain ⟨row', hrow', hstatus', _⟩ := hrows
      obtain rfl : row = row' := by simpa [hrow] using hrow'
      exact absurd (hstatus.symm.trans hstatus') (by decide)
  · intro hc
    rw [if_neg (by simp [hc])] at hrows
    exact ⟨by simp [ho], by simp [ho], fun _ => hrows⟩

/-- A turn that the machine ends early has the row of the sentences heard, or none, if the generation was
cancelled and finished with as many reports. -/
lemma Follows.agrees_interrupted_iff (h : s.Follows σ t) {n m : Nat} {finished : Bool}
    (hfin : s.writerSaw.finish = some m) (hi : s.fsmSaw.interruption = some (n, finished))
    (ho : s.fsm.fsm.outcome = if n = 0 then .discarded else .interrupted) :
    s.OutcomeAgrees σ t ↔ σ.cancelled = true ∧ m = n := by
  obtain ⟨_, hrows⟩ := h.writer.rows m hfin
  rw [Persisted] at hrows
  have hm : m ≤ σ.played.length := (h.writerReached.finish m hfin).2.trans h.writerReached.played
  have hn : n ≤ σ.played.length := (h.fsmReached.interruption n finished hi).1.trans h.fsmReached.played
  constructor
  · intro hagree
    have hcancelled : σ.cancelled = true := by
      by_contra hc
      rw [if_neg hc] at hrows
      obtain ⟨row, hrow, hstatus, _⟩ := hrows
      by_cases hn0 : n = 0
      · rw [if_pos hn0] at ho
        exact absurd (hrow.symm.trans (hagree.discarded ho)) (by simp)
      · rw [if_neg hn0] at ho
        obtain ⟨_, _, row', _, hrow', hstatus', _⟩ := hagree.interrupted ho
        obtain rfl : row = row' := by simpa [hrow] using hrow'
        exact absurd (hstatus.symm.trans hstatus') (by decide)
    refine ⟨hcancelled, ?_⟩
    rw [if_pos hcancelled] at hrows
    by_cases hn0 : n = 0
    · rw [if_pos hn0] at ho
      by_contra hne
      rw [if_neg (by omega)] at hrows
      obtain ⟨row, hrow, _⟩ := hrows
      exact absurd (hrow.symm.trans (hagree.discarded ho)) (by simp)
    · rw [if_neg hn0] at ho
      obtain ⟨n', finished', row, hi', hrow, _, htext⟩ := hagree.interrupted ho
      obtain ⟨rfl, _⟩ : n = n' ∧ finished = finished' := by simpa [hi] using hi'
      have hm0 : m ≠ 0 := by
        intro hm0
        rw [if_pos hm0, hrow] at hrows
        cases hrows
      rw [if_neg hm0] at hrows
      obtain ⟨row', hrow', _, htext'⟩ := hrows
      obtain rfl : row = row' := by simpa [hrow] using hrow'
      exact TurnScript.heard_inj hm hn hm0 hn0 (htext'.symm.trans htext)
  · rintro ⟨hcancelled, rfl⟩
    rw [if_pos hcancelled] at hrows
    by_cases hm0 : m = 0
    · rw [if_pos hm0] at ho hrows
      exact ⟨by simp [ho], fun _ => hrows, by simp [ho]⟩
    · rw [if_neg hm0] at ho hrows
      obtain ⟨row, hrow⟩ := hrows
      exact ⟨fun _ => ⟨m, finished, row, hi, hrow⟩, by simp [ho], by simp [ho]⟩

lemma Follows.agrees_iff (h : s.Follows σ t) {m : Nat} (hfin : s.writerSaw.finish = some m) :
    s.OutcomeAgrees σ t ↔ s.InTime σ := by
  rw [InTime]
  cases h.fsm with
  | running hi hund hruns =>
    refine iff_of_true (agrees_of_open hruns.outcome) ?_
    rw [if_neg (by simp [hund])]
    intro n finished hsome
    exact absurd (hi.symm.trans hsome) (by simp)
  | resting _ ho hdone =>
    rw [TurnScript.outcome] at ho
    by_cases hcompleted : σ.completed s.fsmSaw = true
    · rw [if_pos hcompleted] at ho ⊢
      exact h.agrees_completed_iff hfin ho
    · rw [if_neg hcompleted] at ho ⊢
      cases hi : s.fsmSaw.interruption with
      | none => exact absurd (hdone hi) hcompleted
      | some x =>
        obtain ⟨n, finished⟩ := x
        have ho' : s.fsm.fsm.outcome = if n = 0 then .discarded else .interrupted := by
          rw [ho, hi]
          cases n <;> rfl
        rw [h.agrees_interrupted_iff hfin hi ho', hfin]
        simp only [Option.some.injEq, Prod.mk.injEq]
        constructor
        · rintro ⟨hc, rfl⟩ n' finished' ⟨rfl, _⟩
          exact ⟨hc, rfl⟩
        · intro hall
          exact hall n finished ⟨rfl, rfl⟩

end SpokenWorld

/-- Whatever the two queues look like: once the writer has handled `LlmFinished`, what is persisted agrees
with the machine's verdict exactly when a turn that the machine completes was not cancelled, and one that
is interrupted before was, with as many reports handled by the writer before `LlmFinished` as by the
machine before the interruption. -/
theorem persisted_outcome_agrees_iff (σ : TurnScript) (t : TurnId) (s : SpokenWorld) (hs : s.FreshTurn t)
    (order : List Handled) (hord : Runs.Along SpokenWorld.step (SpokenWorld.Next σ t) s order)
    (hfin : (Runs.exec SpokenWorld.step s order).writerSaw.finish.isSome) :
    (Runs.exec SpokenWorld.step s order).OutcomeAgrees σ t ↔
      (Runs.exec SpokenWorld.step s order).InTime σ := by
  have h : (Runs.exec SpokenWorld.step s order).Follows σ t :=
    hord.invariant (SpokenWorld.Follows σ t) (fun _ x hf hx => hf.step x hx) (hs.follows σ)
  obtain ⟨m, hm⟩ := Option.isSome_iff_exists.1 hfin
  exact h.agrees_iff hm

/-- Turn 1 after its transcript and `LlmStarted`. -/
def SpokenWorld.turnOne : SpokenWorld :=
  { fsm := fsmRun (FsmWorld.started {} 0)
      [(0, .speechStarted {}), (0, .speechEnded {}), (0, .finalTranscript { text := ascii "hi" })]
    writer := ({ session := 1 } : TurnWriter).onEvent 0 (.llmStarted 1) }

lemma SpokenWorld.turnOne_fresh : SpokenWorld.turnOne.FreshTurn 1 :=
  ⟨rfl, rfl, rfl, rfl, rfl, rfl, ⟨0, rfl⟩, rfl, by decide, rfl, rfl⟩

/-- Two sentences, of which the first is played. -/
def TurnScript.twoSentences (cancelled : Bool) : TurnScript :=
  { texts := [ascii "One.", ascii "Two."], cancelled := cancelled, played := [0], spoken := by decide
    short := by decide, once := by decide, among := by decide }

/-- An event that reaches the writer right after the machine. -/
def bothHandle (now : Nat) (e : Event) : List Handled := [.fsm now e, .writer now e]

/-- One of two sentences is heard, then the turn is interrupted and the generation cancelled. -/
theorem interrupted_while_generating_agrees :
    let order : List Handled := bothHandle 1 (.llmSentence { turn := 1, seq := 0, text := ascii "One." }) ++
      bothHandle 2 (.llmSentence { turn := 1, seq := 1, text := ascii "Two." }) ++
      bothHandle 3 (.playbackFinished ⟨1, 0⟩) ++ bothHandle 4 (.userInterrupted { turn := 1 }) ++
      bothHandle 5 (.llmFinished { turn := 1, cancelled := true })
    (Runs.exec SpokenWorld.step .turnOne order).OutcomeAgrees (.twoSentences true) 1 :=
  (persisted_outcome_agrees_iff (.twoSentences true) 1 _ SpokenWorld.turnOne_fresh _ (by decide +kernel)
    (by decide +kernel)).2 (by
      rintro n finished h
      cases (h : some (1, false) = some (n, finished))
      exact ⟨rfl, rfl⟩)

/-- The generation finishes before playback does and the user interrupts after the first sentence: the
machine says `Interrupted`, the row is committed and has both sentences. -/
theorem interrupted_after_generation_committed :
    let order : List Handled := bothHandle 1 (.llmSentence { turn := 1, seq := 0, text := ascii "One." }) ++
      bothHandle 2 (.llmSentence { turn := 1, seq := 1, text := ascii "Two." }) ++
      bothHandle 3 (.llmFinished { turn := 1 }) ++ bothHandle 4 (.playbackFinished ⟨1, 0⟩) ++
      bothHandle 5 (.userInterrupted { turn := 1 })
    let s := Runs.exec SpokenWorld.step .turnOne order
    Runs.Along SpokenWorld.step (SpokenWorld.Next (.twoSentences false) 1) .turnOne order ∧
      s.fsm.fsm.outcome = .interrupted ∧
      (s.writer.rowsOf 1).map (fun r => (r.status, r.text)) = [(.committed, ascii "One. Two.")] ∧
      ¬s.OutcomeAgrees (.twoSentences false) 1 := by
  refine ⟨by decide +kernel, by decide +kernel, by decide +kernel, fun h => ?_⟩
  obtain ⟨_, _, row, _, hrow, hstatus, _⟩ := h.interrupted (by decide +kernel)
  have hcommitted := congrArg (List.map TurnRow.status) hrow
  rw [List.map_singleton, hstatus] at hcommitted
  exact absurd hcommitted (by decide +kernel)

/-- The other way round: the interruption comes first, but the token is not cancelled yet when `LlmFinished` is
published. -/
example :
    let s := Runs.exec SpokenWorld.step .turnOne
      (bothHandle 1 (.llmSentence { turn := 1, seq := 0, text := ascii "One." }) ++
        bothHandle 2 (.llmSentence { turn := 1, seq := 1, text := ascii "Two." }) ++
        bothHandle 3 (.playbackFinished ⟨1, 0⟩) ++ bothHandle 4 (.userInterrupted { turn := 1 }) ++
        bothHandle 5 (.llmFinished { turn := 1 }))
    (s.fsm.fsm.outcome, (s.writer.rowsOf 1).map fun r => (r.status, r.text)) =
      (.interrupted, [(.committed, ascii "One. Two.")]) := by
  decide +kernel

end Acva
