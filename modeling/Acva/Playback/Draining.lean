import Acva.Playback.Engine
import Acva.Playback.Tape

/-!
# Draining the playback queue

`render_into` does to the chunks of the engine what `play` does to a tape, unless the prefill gate holds the
turn back. The gate is decided once: nothing is taken from the queue while it is shut.
-/

namespace Acva

namespace PlaybackEngine

/-- What is still to be heard: the rest of the chunk under the cursor and the queue. -/
def upcoming (e : PlaybackEngine) : List AudioChunk :=
  (if e.current.turn = kNoTurn then [] else [e.current.skip e.pos]) ++ e.queue.q

/-- An engine that plays the turn: an empty cursor has no samples, and the queue holds the turn's chunks. -/
structure Playing (e : PlaybackEngine) (t : TurnId) : Prop where
  turn : t ≠ kNoTurn
  idle : e.current.turn = kNoTurn → e.exhausted
  queued : ∀ c ∈ e.queue.q, c.turn = t

/-- The gate is open for the turn, will open at the next look, or has nothing to hold back. -/
def Flows (e : PlaybackEngine) (t : TurnId) : Prop :=
  e.prefillTargetSamples = 0 ∨ e.primedTurn = t ∨ e.prefillTargetSamples ≤ e.queue.pendingSamplesFor t ∨
    e.queue.q = []

instance (e : PlaybackEngine) (t : TurnId) : Decidable (e.Flows t) := by
  unfold Flows
  infer_instance

variable {e : PlaybackEngine} {t : TurnId}

lemma finishCurrent_queue (e : PlaybackEngine) : e.finishCurrent.queue = e.queue := by
  unfold finishCurrent
  split <;> rfl

lemma finishCurrent_gate (e : PlaybackEngine) (t : TurnId) :
    e.finishCurrent.gated t = e.gated t ∧ (e.finishCurrent.Flows t ↔ e.Flows t) := by
  unfold finishCurrent
  split
  · exact ⟨rfl, Iff.rfl⟩
  · exact ⟨rfl, Iff.rfl⟩

lemma play_finishCurrent (hex : e.exhausted) {n : Nat} (hn : 0 < n) :
    e.finishCurrent.current.turn = kNoTurn ∧ e.finishCurrent.exhausted ∧
      ∃ posts, e.finishCurrent.postbox = posts.foldl BoundedQueue.post e.postbox ∧
        play n e.upcoming = ((play n e.queue.q).1, posts ++ (play n e.queue.q).2) := by
  by_cases hcur : e.current.turn = kNoTurn
  · have hfinish : e.finishCurrent = e := by rw [finishCurrent, if_pos hcur]
    rw [hfinish]
    exact ⟨hcur, hex, [], rfl, by rw [upcoming, if_pos hcur]; rfl⟩
  · rw [finishCurrent, if_neg hcur]
    refine ⟨rfl, rfl, e.current.mark, ?_, ?_⟩
    · cases hend : e.current.endOfSentence <;> simp [AudioChunk.mark, hend]
    · have hlength : (e.current.skip e.pos).samples.length = 0 := by
        simpa [exhausted, Nat.sub_eq_zero_iff_le] using hex
      rw [upcoming, if_neg hcur, List.singleton_append, play_past _ (by omega), hlength, Nat.sub_zero,
        AudioChunk.skip_mark]

lemma gated_eq_false (hflows : e.Flows t) (hq : e.queue.q ≠ []) : e.gated t = false := by
  simp only [gated, Bool.and_eq_false_iff, decide_eq_false_iff_not, Nat.not_lt, Decidable.not_not]
  rcases hflows with h | h | h | h
  · exact .inl (.inl (.inl (by simp [h])))
  · exact .inl (.inr h)
  · exact .inr h
  · exact absurd h hq

lemma prime_flows (ht : t ≠ kNoTurn) : (e.prime t).prefillTargetSamples = 0 ∨ (e.prime t).primedTurn = t := by
  by_cases hzero : e.prefillTargetSamples = 0
  · exact .inl (by simp [prime, hzero])
  · exact .inr (by simp [prime, Nat.pos_of_ne_zero hzero, ht])

lemma prime_frame (e : PlaybackEngine) (t : TurnId) :
    (e.prime t).queue = e.queue ∧ (e.prime t).current = e.current ∧ (e.prime t).pos = e.pos ∧
      (e.prime t).postbox = e.postbox := by
  unfold prime
  split <;> exact ⟨rfl, rfl, rfl, rfl⟩

lemma dequeueActive_of_turn {p : PlaybackQueue} {c : AudioChunk} {cs : List AudioChunk} (hq : p.q = c :: cs)
    (hc : c.turn = t) : ∃ p', p.dequeueActive t = (p', some c) ∧ p'.q = cs := by
  simp [PlaybackQueue.dequeueActive, PlaybackQueue.skipStale, hq, hc]

lemma refill_empty (e : PlaybackEngine) (rem : Nat) (hq : e.queue.q = []) :
    (e.refill t rem).2 = false ∧ (e.refill t rem).1.queue.q = [] ∧ (e.refill t rem).1.postbox = e.postbox ∧
      (e.refill t rem).1.current = e.current ∧ (e.refill t rem).1.pos = e.pos := by
  obtain ⟨hqueue, hcurrent, hpos, hpostbox⟩ := prime_frame e t
  unfold refill
  split
  · exact ⟨rfl, hq, rfl, rfl, rfl⟩
  · have hdequeue : (e.prime t).queue.dequeueActive t = ({ e.queue with drops := e.queue.drops }, none) := by
      simp [hqueue, PlaybackQueue.dequeueActive, PlaybackQueue.skipStale, hq]
    rw [hdequeue]
    exact ⟨rfl, hq, hpostbox, hcurrent, hpos⟩

lemma refill_cons (ht : t ≠ kNoTurn) (hflows : e.Flows t) (rem : Nat) {c : AudioChunk} {cs : List AudioChunk}
    (hq : e.queue.q = c :: cs) (hc : c.turn = t) :
    (e.refill t rem).2 = true ∧ (e.refill t rem).1.queue.q = cs ∧ (e.refill t rem).1.postbox = e.postbox ∧
      (e.refill t rem).1.current = c ∧ (e.refill t rem).1.pos = 0 ∧ (e.refill t rem).1.Flows t := by
  obtain ⟨hqueue, _, _, hpostbox⟩ := prime_frame e t
  have hgate : e.gated t = false := gated_eq_false hflows (by simp [hq])
  obtain ⟨p', hdequeue, hp'⟩ := dequeueActive_of_turn (hqueue ▸ hq) hc
  unfold refill
  simp only [hgate, Bool.false_eq_true, if_false, hdequeue]
  refine ⟨trivial, hp', hpostbox, trivial, trivial, ?_⟩
  rcases prime_flows (e := e) ht with h | h
  · exact .inl h
  · exact .inr (.inl h)

lemma upcoming_of_idle (h : e.current.turn = kNoTurn) : e.upcoming = e.queue.q := by
  rw [upcoming, if_pos h, List.nil_append]

lemma upcoming_of_current (h : e.current.turn ≠ kNoTurn) : e.upcoming = e.current.skip e.pos :: e.queue.q := by
  rw [upcoming, if_neg h, List.singleton_append]

lemma length_block (e : PlaybackEngine) (rem : Nat) :
    (e.block rem).length = min rem (e.current.skip e.pos).samples.length := by
  simp [block, AudioChunk.skip]

lemma play_advance (h : e.current.turn ≠ kNoTurn) (rem : Nat) :
    play rem e.upcoming = play (rem - (e.block rem).length) (e.advance rem).upcoming := by
  have hlength := length_block e rem
  rw [upcoming_of_current h, upcoming_of_current (e := e.advance rem) h,
    play_skip (k := (e.block rem).length) _ (by omega) (by omega), AudioChunk.skip_skip]
  rfl

/-- The head of the loop: the queue has run dry, or a chunk with samples left to play is under the cursor
and the loop is nearer to its end. -/
lemma next_play (h : e.Playing t) (hflows : e.Flows t) (rem : Nat) (hrem : 0 < rem) :
    ∃ posts, (e.next t rem).1.postbox = posts.foldl BoundedQueue.post e.postbox ∧
      (e.next t rem).1.Playing t ∧ (e.next t rem).1.Flows t ∧
      ((e.next t rem).2 = false ∧ (e.next t rem).1.upcoming = [] ∧ play rem e.upcoming = ([], posts) ∨
        (e.next t rem).2 = true ∧ (e.next t rem).1.current.turn ≠ kNoTurn ∧
        play rem e.upcoming =
          ((play rem (e.next t rem).1.upcoming).1, posts ++ (play rem (e.next t rem).1.upcoming).2) ∧
        rem - ((e.next t rem).1.block rem).length + (e.next t rem).1.queue.q.length <
          rem + e.queue.q.length) := by
  by_cases hex : e.exhausted
  · obtain ⟨hidle, hdone, posts, hpost, hplay⟩ := play_finishCurrent hex hrem
    have hnext : e.next t rem = e.finishCurrent.refill t rem := by rw [next, if_pos hex]
    have hqueue := finishCurrent_queue e
    have hflows' := (finishCurrent_gate e t).2.mpr hflows
    rw [hnext]
    refine ⟨posts, ?_⟩
    cases hq : e.queue.q with
    | nil =>
      obtain ⟨hstop, hempty, hbox, hcur, hpos⟩ := refill_empty (t := t) e.finishCurrent rem (hqueue ▸ hq)
      have hidle' : (e.finishCurrent.refill t rem).1.current.turn = kNoTurn := by rw [hcur, hidle]
      refine ⟨hbox.trans hpost, ⟨h.turn, fun _ => ?_, by simp [hempty]⟩, .inr (.inr (.inr hempty)),
        .inl ⟨hstop, ?_, ?_⟩⟩
      · rw [exhausted, hcur, hpos]
        exact hdone
      · rw [upcoming_of_idle hidle', hempty]
      · rw [hplay, hq]
        simp
    | cons c cs =>
      have hc : c.turn = t := h.queued c (by simp [hq])
      obtain ⟨hgo, hrest, hbox, hcur, hpos, hopen⟩ :=
        refill_cons h.turn hflows' rem (hqueue ▸ hq) hc
      have hturn : (e.finishCurrent.refill t rem).1.current.turn ≠ kNoTurn := by
        rw [hcur, hc]
        exact h.turn
      refine ⟨hbox.trans hpost, ⟨h.turn, fun hno => absurd hno hturn, ?_⟩, hopen, .inr ⟨hgo, hturn, ?_, ?_⟩⟩
      · intro d hd
        exact h.queued d (by rw [hq]; exact List.mem_cons_of_mem _ (hrest ▸ hd))
      · rw [upcoming_of_current hturn, hcur, hpos, hrest, AudioChunk.skip_zero, hplay, hq]
      · rw [hrest, List.length_cons]
        omega
  · have hnext : e.next t rem = (e, true) := by rw [next, if_neg hex]
    rw [hnext]
    have hturn : e.current.turn ≠ kNoTurn := fun hno => hex (h.idle hno)
    refine ⟨[], rfl, h, hflows, .inr ⟨rfl, hturn, rfl, ?_⟩⟩
    have hpos : 0 < (e.block rem).length := by
      rw [length_block]
      simp only [exhausted, decide_eq_true_eq, ge_iff_le, Nat.not_le] at hex
      simp only [AudioChunk.skip_samples, List.length_drop]
      omega
    have hle : (e.block rem).length ≤ rem := by
      rw [length_block]
      omega
    simp only
    omega

/-- The loop plays the tape: it posts what ends on the way, in order. -/
theorem renderLoop_play (h : e.Playing t) (hflows : e.Flows t) (fuel rem : Nat)
    (hfuel : rem + e.queue.q.length ≤ fuel) :
    (renderLoop t fuel e rem).1.upcoming = (play rem e.upcoming).1 ∧
      (renderLoop t fuel e rem).1.postbox = (play rem e.upcoming).2.foldl BoundedQueue.post e.postbox ∧
      (renderLoop t fuel e rem).1.Playing t ∧ (renderLoop t fuel e rem).1.Flows t := by
  induction fuel generalizing e rem with
  | zero =>
    obtain rfl : rem = 0 := by omega
    simpa [renderLoop] using ⟨h, hflows⟩
  | succ fuel ih =>
    cases rem with
    | zero => simpa [renderLoop] using ⟨h, hflows⟩
    | succ rem =>
      obtain ⟨posts, hbox, hplaying, hopen, hcase⟩ := next_play h hflows (rem + 1) (Nat.succ_pos rem)
      rcases hcase with ⟨hstop, hempty, hplay⟩ | ⟨hgo, hturn, hplay, hless⟩
      · simp only [renderLoop, hstop, Bool.false_eq_true, if_false, hplay]
        exact ⟨hempty, hbox, hplaying, hopen⟩
      · have hadvance : ((e.next t (rem + 1)).1.advance (rem + 1)).Playing t :=
          ⟨hplaying.turn, fun hno => absurd hno hturn, hplaying.queued⟩
        obtain ⟨hup, hpost, hrun, hflow⟩ := ih hadvance hopen
          (rem + 1 - ((e.next t (rem + 1)).1.block (rem + 1)).length) (by
            have hqueue : ((e.next t (rem + 1)).1.advance (rem + 1)).queue = (e.next t (rem + 1)).1.queue := rfl
            rw [hqueue]
            omega)
        simp only [renderLoop, hgo, if_true]
        rw [hplay, play_advance hturn (rem + 1)]
        refine ⟨hup, ?_, hrun, hflow⟩
        rw [hpost, List.foldl_append, ← hbox]
        rfl

lemma gated_of_not_flows (ht : t ≠ kNoTurn) (hflows : ¬e.Flows t) : e.gated t = true := by
  simp only [Flows, not_or, Nat.not_le] at hflows
  obtain ⟨hprefill, hprimed, hpending, _⟩ := hflows
  simp [gated, Nat.pos_of_ne_zero hprefill, ht, hprimed, hpending]

lemma renderLoop_gated (hgate : e.gated t = true) (fuel rem : Nat) :
    (renderLoop t fuel e rem).1.queue = e.queue ∧ (renderLoop t fuel e rem).1.gated t = true := by
  induction fuel generalizing e rem with
  | zero => cases rem <;> exact ⟨rfl, hgate⟩
  | succ fuel ih =>
    cases rem with
    | zero => exact ⟨rfl, hgate⟩
    | succ rem =>
      by_cases hex : e.exhausted
      · have hgate' := (finishCurrent_gate e t).1.trans hgate
        have hstop : e.next t (rem + 1) =
            ({ e.finishCurrent with
              prefillSilenceFrames := e.finishCurrent.prefillSilenceFrames + (rem + 1) }, false) := by
          rw [next, if_pos hex, refill, if_pos hgate']
        simp only [renderLoop, hstop, Bool.false_eq_true, if_false]
        exact ⟨finishCurrent_queue e, hgate'⟩
      · have hgo : e.next t (rem + 1) = (e, true) := by rw [next, if_neg hex]
        simp only [renderLoop, hgo, if_true]
        exact ih (e := e.advance (rem + 1)) hgate _

/-- After its loop `render_into` only counts and feeds the loopback sink. -/
lemma renderInto_eq (e : PlaybackEngine) (t : TurnId) (frames : Nat) :
    ∃ played loopback, (e.renderInto t frames).1 =
      { (renderLoop t (frames + e.queue.q.length + 1) e frames).1 with
        framesPlayed := played, loopback := loopback } := by
  simp only [renderInto]
  split
  · exact ⟨_, _, rfl⟩
  · exact ⟨_, _, rfl⟩

end PlaybackEngine

/-! ### Callback after callback -/

namespace PlaybackWorld

/-- After `n` callbacks, the `k`-th for `frames k` samples. -/
def after (t : TurnId) (frames : Nat → Nat) (w : PlaybackWorld) : Nat → PlaybackWorld
  | 0 => w
  | n + 1 => (w.after t frames n).render t (frames n)

/-- The turn is being played and the publisher has caught up. -/
structure Ready (w : PlaybackWorld) (t : TurnId) : Prop where
  playing : w.engine.Playing t
  box : w.engine.postbox.Overwrites kPostboxCapacity
  relayed : w.engine.postbox.q = []

/-- What is left of a burst after the postbox overflowed. -/
def keepLast (l : List SentenceRef) : List SentenceRef := l.drop (l.length - kPostboxCapacity)

variable {w : PlaybackWorld} {t : TurnId}

lemma render_play (h : w.Ready t) (hflows : w.engine.Flows t) (n : Nat) :
    (w.render t n).engine.upcoming = (play n w.engine.upcoming).1 ∧
      (w.render t n).published = w.published ++ keepLast (play n w.engine.upcoming).2 ∧
      (w.render t n).Ready t ∧ (w.render t n).engine.Flows t := by
  obtain ⟨played, loopback, heq⟩ := PlaybackEngine.renderInto_eq w.engine t n
  obtain ⟨hup, hbox, hplaying, hopen⟩ :=
    PlaybackEngine.renderLoop_play h.playing hflows (n + w.engine.queue.q.length + 1) n (Nat.le_succ _)
  obtain ⟨hkept, hover⟩ := h.box.foldl_post (play n w.engine.upcoming).2
  rw [← hbox] at hkept hover
  rw [h.relayed, List.nil_append, List.length_nil, Nat.zero_add] at hkept
  simp only [render, heq]
  refine ⟨hup, ?_, ⟨⟨hplaying.turn, hplaying.idle, hplaying.queued⟩, ?_, rfl⟩, hopen⟩
  · simp only [BoundedQueue.drain, hkept, keepLast]
  · exact ⟨hover.isOpen, hover.policy, hover.capacity, hover.pos, Nat.zero_le _⟩

lemma render_gated (hgate : w.engine.gated t = true) (n : Nat) :
    (w.render t n).engine.queue = w.engine.queue ∧ (w.render t n).engine.gated t = true := by
  obtain ⟨played, loopback, heq⟩ := PlaybackEngine.renderInto_eq w.engine t n
  obtain ⟨hqueue, hgate'⟩ :=
    PlaybackEngine.renderLoop_gated hgate (n + w.engine.queue.q.length + 1) n
  simp only [render, heq]
  exact ⟨hqueue, hgate'⟩

lemma after_gated (frames : Nat → Nat) (hgate : w.engine.gated t = true) (n : Nat) :
    (w.after t frames n).engine.queue = w.engine.queue ∧ (w.after t frames n).engine.gated t = true := by
  induction n with
  | zero => exact ⟨rfl, hgate⟩
  | succ n ih =>
    obtain ⟨hqueue, hgate'⟩ := render_gated ih.2 (frames n)
    exact ⟨hqueue.trans ih.1, hgate'⟩

/-- While the turn flows the engine follows the tape; a burst reaches the bus as far as the postbox
holds it. -/
theorem after_play (frames : Nat → Nat) (h : w.Ready t) (hflows : w.engine.Flows t) (n : Nat) :
    (w.after t frames n).engine.upcoming = tapeAfter frames w.engine.upcoming n ∧
      (w.after t frames n).published =
        w.published ++ (List.range n).flatMap fun k => keepLast (endedIn frames w.engine.upcoming k) := by
  have hrun : (w.after t frames n).engine.upcoming = tapeAfter frames w.engine.upcoming n ∧
      (w.after t frames n).published =
        w.published ++ ((List.range n).flatMap fun k => keepLast (endedIn frames w.engine.upcoming k)) ∧
      (w.after t frames n).Ready t ∧ (w.after t frames n).engine.Flows t := by
    induction n with
    | zero => exact ⟨rfl, (List.append_nil _).symm, h, hflows⟩
    | succ n ih =>
      obtain ⟨hup, hpub, hready, hopen⟩ := ih
      obtain ⟨hup', hpub', hready', hopen'⟩ := render_play hready hopen (frames n)
      refine ⟨?_, ?_, hready', hopen'⟩
      · rw [after, hup', hup, tapeAfter]
      · rw [after, hpub', hpub, hup, List.range_succ, List.flatMap_append, List.flatMap_singleton, List.append_assoc]
        rfl
  exact ⟨hrun.1, hrun.2.1⟩

lemma keepLast_eq {l : List SentenceRef} (h : l.length ≤ kPostboxCapacity) : keepLast l = l := by
  rw [keepLast, Nat.sub_eq_zero_of_le h, List.drop_zero]

lemma length_keepLast (l : List SentenceRef) : (keepLast l).length = min l.length kPostboxCapacity := by
  rw [keepLast, List.length_drop]
  omega

lemma length_le_of_flatMap (f : Nat → List SentenceRef) (n : Nat)
    (h : ((List.range n).flatMap f).length ≤ ((List.range n).flatMap fun k => keepLast (f k)).length) :
    ∀ k < n, (f k).length ≤ kPostboxCapacity := by
  have hle : ∀ m, ((List.range m).flatMap fun k => keepLast (f k)).length ≤ ((List.range m).flatMap f).length := by
    intro m
    induction m with
    | zero => simp
    | succ m ih =>
      have hmin := length_keepLast (f m)
      simp only [List.range_succ, List.flatMap_append, List.flatMap_singleton, List.length_append]
      omega
  induction n with
  | zero => exact fun k hk => absurd hk (Nat.not_lt_zero k)
  | succ n ih =>
    have hmin := length_keepLast (f n)
    have hprev := hle n
    simp only [List.range_succ, List.flatMap_append, List.flatMap_singleton, List.length_append] at h
    intro k hk
    rcases Nat.lt_succ_iff_lt_or_eq.mp hk with hk | rfl
    · exact ih (by omega) k hk
    · omega

/-- From some callback on the queue is empty and every sentence on the tape has been announced once. -/
def Drains (w : PlaybackWorld) (t : TurnId) (frames : Nat → Nat) : Prop :=
  ∃ N, ∀ n, N ≤ n → (w.after t frames n).engine.queue.q = [] ∧
    (w.after t frames n).published = w.published ++ marks w.engine.upcoming

/-- Playback finishes what is queued if and only if the gate lets the turn through (no prefill, the turn
primed already, or enough of it queued) and no callback passes more ends of sentences than the
postbox holds. -/
theorem playback_drains_iff (w : PlaybackWorld) (t : TurnId) (h : w.Ready t) (frames : Nat → Nat)
    (hframes : ∀ k, 0 < frames k) :
    w.Drains t frames ↔ w.engine.Flows t ∧ ∀ k, ((ends w.engine.upcoming).filter fun p =>
      asked frames k ≤ p ∧ p < asked frames (k + 1)).length ≤ kPostboxCapacity := by
  constructor
  · rintro ⟨N, hN⟩
    have hflows : w.engine.Flows t := by
      by_contra hshut
      have hgate := PlaybackEngine.gated_of_not_flows h.playing.turn hshut
      have hempty := (hN N (Nat.le_refl N)).1
      rw [(after_gated frames hgate N).1] at hempty
      exact hshut (.inr (.inr (.inr hempty)))
    refine ⟨hflows, fun k => ?_⟩
    rw [← length_endedIn]
    have hk : N + k + 1 ≥ N := by omega
    have hpub := (hN (N + k + 1) hk).2
    rw [(after_play frames h hflows (N + k + 1)).2, List.append_cancel_left_eq,
      ← marks_tapeAfter frames w.engine.upcoming (N + k + 1)] at hpub
    refine length_le_of_flatMap (endedIn frames w.engine.upcoming) (N + k + 1) ?_ k (by omega)
    have hlength := congrArg List.length hpub
    rw [List.length_append] at hlength
    omega
  · rintro ⟨hflows, hfits⟩
    obtain ⟨N, hN⟩ := tapeAfter_eq_nil frames hframes w.engine.upcoming
    refine ⟨N, fun n hn => ?_⟩
    obtain ⟨hup, hpub⟩ := after_play frames h hflows n
    rw [hN n hn] at hup
    refine ⟨(List.append_eq_nil_iff.mp hup).2, ?_⟩
    have hall : (fun k => keepLast (endedIn frames w.engine.upcoming k)) = endedIn frames w.engine.upcoming := by
      funext k
      exact keepLast_eq (length_endedIn frames w.engine.upcoming k ▸ hfits k)
    have hmarks := marks_tapeAfter frames w.engine.upcoming n
    rw [hN n hn] at hmarks
    rw [hpub, hall, ← hmarks]
    exact congrArg _ (List.append_nil _).symm

/-- Two sentences with enough audio for a prefill of four samples, read by buffers of two. -/
theorem primed_sentences_drain :
    let cs : List AudioChunk := [{ turn := 1, samples := [1, 2, 3] }, { turn := 1, endOfSentence := true },
      { turn := 1, seq := 1, samples := [4, 5] }, { turn := 1, seq := 1, samples := [6], endOfSentence := true }]
    let w : PlaybackWorld := { engine := { prefillTargetSamples := 4, queue := { q := cs } } }
    marks w.engine.upcoming = [⟨1, 0⟩, ⟨1, 1⟩] ∧ w.Drains 1 fun _ => 2 :=
  ⟨by decide, (playback_drains_iff _ 1 ⟨⟨by decide, by decide, by decide⟩,
    ⟨rfl, rfl, rfl, by decide, by decide⟩, rfl⟩ (fun _ => 2) (fun _ => Nat.two_pos)).mpr
    ⟨by decide, fun _ => Nat.le_trans (List.length_filter_le _ _) (by decide)⟩⟩

/-- The synthesis of the only sentence failed and its empty last chunk is queued. With the default prefill
of 100 ms at 48 kHz it is never taken, and no `PlaybackFinished` is posted. -/
theorem short_answer_stranded :
    let queue : PlaybackQueue := { q := [{ turn := 1, endOfSentence := true }] }
    let w : PlaybackWorld := { engine := { prefillTargetSamples := prefillTarget 100 48000, queue := queue } }
    marks w.engine.upcoming = [⟨1, 0⟩] ∧ ¬w.Drains 1 fun _ => 480 := by
  refine ⟨by decide, fun ⟨N, hN⟩ => ?_⟩
  have hempty := (hN N (Nat.le_refl N)).1
  rw [(after_gated (fun _ => 480) (by decide) N).1] at hempty
  cases hempty

end PlaybackWorld

end Acva
