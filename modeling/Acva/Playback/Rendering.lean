import Acva.Lib.Runs
import Acva.Playback.Draining

/-!
# The loop of `render_into`

`RenderLog` runs `render_into` one round of its loop at a time, so that chunks may be queued and the active turn
may change between two rounds. It records what was taken from the queue, what was posted and what each call
wrote. A call that runs out of audio returns before the loopback sink sees its buffer.
-/

namespace Acva

lemma PlaybackQueue.skipStale_eq_nil {active : TurnId} {cs : List AudioChunk} :
    PlaybackQueue.skipStale active cs = [] ↔ (cs.any fun c => c.turn = active) = false := by
  induction cs with
  | nil => simp [PlaybackQueue.skipStale]
  | cons c cs ih =>
    by_cases hc : c.turn = active
    · simp [PlaybackQueue.skipStale, hc]
    · rw [PlaybackQueue.skipStale, if_neg hc, ih]
      simp [hc]

lemma PlaybackQueue.dequeueActive_isSome (p : PlaybackQueue) (active : TurnId) :
    (p.dequeueActive active).2.isSome = p.q.any fun c => c.turn = active := by
  simp only [PlaybackQueue.dequeueActive]
  cases hskip : PlaybackQueue.skipStale active p.q with
  | nil => rw [PlaybackQueue.skipStale_eq_nil.1 hskip, Option.isSome_none]
  | cons c cs =>
    have hany : (p.q.any fun c => c.turn = active) ≠ false := fun hno => by
      rw [PlaybackQueue.skipStale_eq_nil.2 hno] at hskip
      cases hskip
    rw [Option.isSome_some, eq_comm]
    simpa using hany

namespace PlaybackEngine

variable {e : PlaybackEngine} {active : TurnId}

/-- The chunk that a round of the loop takes from the queue. -/
def takes (e : PlaybackEngine) (active : TurnId) : Option AudioChunk :=
  if e.exhausted && !e.gated active then (e.queue.dequeueActive active).2 else none

/-- The events that a round of the loop posts. -/
def posts (e : PlaybackEngine) : List SentenceRef :=
  if e.exhausted && e.current.turn ≠ kNoTurn then e.current.mark else []

/-- The samples of the current chunk that are not written yet. -/
def rest (e : PlaybackEngine) : List Int16 := e.current.samples.drop e.pos

/-- The chunk under the cursor. -/
def cursor (e : PlaybackEngine) : List AudioChunk := if e.current.turn = kNoTurn then [] else [e.current]

/-- The gate lets the turn through and there is a chunk of it. -/
def supplies (e : PlaybackEngine) (active : TurnId) : Bool :=
  !e.gated active && e.queue.q.any fun c => c.turn = active

/-! ### One round -/

/-- What a round does at its head, whatever it finds. -/
structure Rounds (e e' : PlaybackEngine) : Prop where
  postbox : e'.postbox = e.posts.foldl BoundedQueue.post e.postbox
  queue : e'.queue.q.Sublist e.queue.q
  loopback : e'.loopback = e.loopback

lemma next_kept (rem : Nat) (h : e.exhausted = false) : e.next active rem = (e, true) := by
  rw [next, if_neg (by simp [h])]

lemma takes_of_kept (h : e.exhausted = false) : e.takes active = none := by simp [takes, h]

lemma posts_of_kept (h : e.exhausted = false) : e.posts = [] := by simp [posts, h]

lemma finishCurrent_rounds (h : e.exhausted) : e.Rounds e.finishCurrent := by
  unfold finishCurrent
  by_cases hturn : e.current.turn = kNoTurn
  · rw [if_pos hturn]
    exact ⟨by simp [posts, hturn], List.Sublist.refl _, rfl⟩
  · rw [if_neg hturn]
    refine ⟨?_, List.Sublist.refl _, rfl⟩
    cases hend : e.current.endOfSentence <;> simp [posts, h, hturn, AudioChunk.mark, hend]

lemma refill_rounds (e : PlaybackEngine) (active : TurnId) (rem : Nat) :
    (e.refill active rem).1.postbox = e.postbox ∧ (e.refill active rem).1.queue.q.Sublist e.queue.q ∧
      (e.refill active rem).1.loopback = e.loopback := by
  have hprime : (e.prime active).loopback = e.loopback := by
    unfold prime
    split <;> rfl
  obtain ⟨hqueue, _, _, hpostbox⟩ := prime_frame e active
  have hsub := PlaybackQueue.dequeueActive_sublist (e.prime active).queue active
  rw [hqueue] at hsub
  unfold refill
  split
  · exact ⟨rfl, List.Sublist.refl _, rfl⟩
  · rw [hqueue]
    split
    · rename_i q hdequeue
      rw [hdequeue] at hsub
      exact ⟨hpostbox, hsub, hprime⟩
    · rename_i q c hdequeue
      rw [hdequeue] at hsub
      exact ⟨hpostbox, hsub, hprime⟩

lemma next_rounds (e : PlaybackEngine) (active : TurnId) (rem : Nat) : e.Rounds (e.next active rem).1 := by
  cases hex : e.exhausted with
  | false =>
    rw [next_kept rem hex]
    exact ⟨by simp [posts_of_kept hex], List.Sublist.refl _, rfl⟩
  | true =>
    have hfinish := finishCurrent_rounds hex
    obtain ⟨hpostbox, hqueue, hloopback⟩ := refill_rounds e.finishCurrent active rem
    rw [next, if_pos hex]
    exact ⟨hpostbox.trans hfinish.postbox, hqueue.trans hfinish.queue, hloopback.trans hfinish.loopback⟩

lemma next_stops (rem : Nat) (hex : e.exhausted) (htakes : e.takes active = none) :
    (e.next active rem).2 = false ∧ (e.next active rem).1.current = e.finishCurrent.current ∧
      (e.next active rem).1.pos = e.finishCurrent.pos := by
  obtain ⟨hgate, _⟩ := finishCurrent_gate e active
  obtain ⟨hqueue, hcurrent, hpos, _⟩ := prime_frame e.finishCurrent active
  rw [next, if_pos hex, refill, hgate]
  cases hgated : e.gated active with
  | true => exact ⟨rfl, rfl, rfl⟩
  | false =>
    have hnone : (e.queue.dequeueActive active).2 = none := by simpa [takes, hex, hgated] using htakes
    rw [if_neg (by simp), hqueue, finishCurrent_queue]
    split
    · exact ⟨rfl, hcurrent, hpos⟩
    · rename_i q c hdequeue
      rw [hdequeue] at hnone
      cases hnone

lemma next_takes (rem : Nat) {c : AudioChunk} (htakes : e.takes active = some c) :
    (e.next active rem).2 = true ∧ (e.next active rem).1.current = c ∧ (e.next active rem).1.pos = 0 ∧
      e.exhausted ∧ c ∈ e.queue.q ∧ (e.next active rem).1.queue.q.length < e.queue.q.length := by
  have hboth : e.exhausted = true ∧ e.gated active = false := by
    by_contra hnot
    rw [takes, if_neg (by simpa using hnot)] at htakes
    cases htakes
  obtain ⟨hex, hgated⟩ := hboth
  have hdequeue : (e.queue.dequeueActive active).2 = some c := by simpa [takes, hex, hgated] using htakes
  obtain ⟨hgate, _⟩ := finishCurrent_gate e active
  obtain ⟨hqueue, _, _, _⟩ := prime_frame e.finishCurrent active
  have hsub := PlaybackQueue.skipStale_sublist active e.queue.q
  rw [next, if_pos hex, refill, hgate, hgated, if_neg (by simp), hqueue, finishCurrent_queue]
  simp only [PlaybackQueue.dequeueActive] at hdequeue ⊢
  cases hskip : PlaybackQueue.skipStale active e.queue.q with
  | nil => simp [hskip] at hdequeue
  | cons d ds =>
    rw [hskip] at hdequeue hsub
    obtain rfl : d = c := Option.some.inj hdequeue
    exact ⟨rfl, rfl, rfl, hex, hsub.subset List.mem_cons_self, hsub.length_le⟩

/-- A round takes a chunk exactly when it needs one and is supplied. -/
lemma takes_isSome (e : PlaybackEngine) (active : TurnId) :
    (e.takes active).isSome ↔ e.exhausted ∧ e.supplies active := by
  have hdequeue := e.queue.dequeueActive_isSome active
  cases hex : e.exhausted <;> cases hgated : e.gated active <;> simp [takes, supplies, hex, hgated, hdequeue]

lemma next_goes_iff (e : PlaybackEngine) (active : TurnId) (rem : Nat) :
    (e.next active rem).2 = true ↔ (e.exhausted → e.supplies active) := by
  cases hex : e.exhausted with
  | false => simp [next_kept rem hex]
  | true =>
    have hsupplies := takes_isSome e active
    cases htakes : e.takes active with
    | none =>
      rw [htakes, hex] at hsupplies
      simpa [(next_stops rem hex htakes).1] using hsupplies
    | some c =>
      rw [htakes, hex] at hsupplies
      simpa [(next_takes rem htakes).1] using hsupplies

lemma next_progress {rem : Nat} (hrem : 0 < rem) (hgo : (e.next active rem).2 = true) :
    rem - ((e.next active rem).1.block rem).length + (e.next active rem).1.queue.q.length <
      rem + e.queue.q.length := by
  have hle : ((e.next active rem).1.block rem).length ≤ rem := List.length_take_le _ _
  cases hex : e.exhausted with
  | false =>
    rw [next_kept rem hex] at hle ⊢
    have hpos : 0 < (e.block rem).length := by
      simp only [exhausted, decide_eq_false_iff_not, ge_iff_le, Nat.not_le] at hex
      simp only [block, List.length_take, List.length_drop]
      omega
    dsimp only at hle ⊢
    omega
  | true =>
    cases htakes : e.takes active with
    | none =>
      rw [(next_stops rem hex htakes).1] at hgo
      cases hgo
    | some c =>
      have hless := (next_takes rem htakes).2.2.2.2.2
      omega

/-! ### Accounts of the samples -/

lemma exhausted_iff (e : PlaybackEngine) : e.exhausted ↔ e.rest = [] := by simp [exhausted, rest]

lemma posts_eq (h : e.exhausted) : e.posts = marks e.cursor := by
  by_cases hturn : e.current.turn = kNoTurn
  · simp [posts, cursor, hturn, marks]
  · simp [posts, cursor, h, hturn, marks]

/-- With the samples `heard` so far, the chunks taken from the queue and the events posted. -/
structure Accounted (e : PlaybackEngine) (heard : List Int16) (dequeued : List AudioChunk)
    (posted : List SentenceRef) : Prop where
  tagged : ∀ c ∈ e.queue.q, c.turn ≠ kNoTurn
  idle : e.current.turn = kNoTurn → e.rest = []
  samples : heard ++ e.rest = dequeued.flatMap AudioChunk.samples
  posted : ∃ consumed, dequeued = consumed ++ e.cursor ∧ posted = marks consumed

variable {heard : List Int16} {dequeued : List AudioChunk} {posted : List SentenceRef}

lemma Accounted.consumed (h : e.Accounted heard dequeued posted) (hex : e.exhausted) :
    heard = dequeued.flatMap AudioChunk.samples ∧ posted ++ e.posts = marks dequeued := by
  obtain ⟨consumed, rfl, rfl⟩ := h.posted
  have hsamples := h.samples
  rw [(exhausted_iff e).1 hex, List.append_nil] at hsamples
  exact ⟨hsamples, by rw [posts_eq hex, marks, marks, marks, List.flatMap_append]⟩

lemma finishCurrent_empty (hex : e.exhausted) :
    e.finishCurrent.rest = [] ∧ e.finishCurrent.cursor = [] := by
  unfold finishCurrent
  by_cases hturn : e.current.turn = kNoTurn
  · rw [if_pos hturn]
    exact ⟨(exhausted_iff e).1 hex, by rw [cursor, if_pos hturn]⟩
  · rw [if_neg hturn]
    exact ⟨rfl, rfl⟩

lemma Accounted.next (h : e.Accounted heard dequeued posted) (active : TurnId) (rem : Nat) :
    (e.next active rem).1.Accounted heard (dequeued ++ (e.takes active).toList) (posted ++ e.posts) := by
  have htagged : ∀ c ∈ (e.next active rem).1.queue.q, c.turn ≠ kNoTurn := fun c hc =>
    h.tagged c ((next_rounds e active rem).queue.subset hc)
  cases hex : e.exhausted with
  | false =>
    rw [takes_of_kept hex, posts_of_kept hex, next_kept rem hex]
    simpa using h
  | true =>
    obtain ⟨hheard, hposted⟩ := h.consumed hex
    cases htakes : e.takes active with
    | none =>
      obtain ⟨_, hcurrent, hpos⟩ := next_stops rem hex htakes
      obtain ⟨hrest, hcursor⟩ := finishCurrent_empty hex
      have hrest' : (e.next active rem).1.rest = [] := by
        rw [PlaybackEngine.rest, hcurrent, hpos]
        exact hrest
      have hcursor' : (e.next active rem).1.cursor = [] := by
        rw [PlaybackEngine.cursor, hcurrent]
        exact hcursor
      refine ⟨htagged, fun _ => hrest', ?_, dequeued, ?_, hposted⟩
      · simp [hrest', hheard]
      · simp [hcursor']
    | some c =>
      obtain ⟨_, hcurrent, hpos, _, hmem, _⟩ := next_takes rem htakes
      have hturn := h.tagged c hmem
      refine ⟨htagged, fun hno => absurd (hcurrent ▸ hno) hturn, ?_, dequeued, ?_, hposted⟩
      · simp [PlaybackEngine.rest, hcurrent, hpos, hheard]
      · simp [PlaybackEngine.cursor, hcurrent, hturn]

lemma Accounted.advance (h : e.Accounted heard dequeued posted) (rem : Nat) :
    (e.advance rem).Accounted (heard ++ e.block rem) dequeued posted := by
  have hrest : (e.advance rem).rest = e.rest.drop (e.block rem).length := by
    simp [PlaybackEngine.rest, PlaybackEngine.advance, List.drop_drop]
  have hblock : e.block rem ++ e.rest.drop (e.block rem).length = e.rest := by
    have htake : e.block rem = e.rest.take rem := rfl
    rw [htake, List.length_take]
    by_cases hle : rem ≤ e.rest.length
    · rw [min_eq_left hle, List.take_append_drop]
    · rw [min_eq_right (Nat.le_of_not_le hle), List.take_of_length_le (Nat.le_of_not_le hle), List.drop_length,
        List.append_nil]
  refine ⟨h.tagged, fun hno => ?_, ?_, h.posted⟩
  · rw [hrest, h.idle hno, List.drop_nil]
  · rw [hrest, List.append_assoc, hblock]
    exact h.samples

lemma Accounted.played (h : e.Accounted heard dequeued posted) :
    ∃ consumed, dequeued = consumed ++ e.cursor ∧ posted = marks consumed ∧
      consumed.flatMap AudioChunk.samples <+: heard := by
  obtain ⟨consumed, hdequeued, hposted⟩ := h.posted
  have hsamples := h.samples
  rw [hdequeued, List.flatMap_append] at hsamples
  have hrest : e.rest.length ≤ (e.cursor.flatMap AudioChunk.samples).length := by
    by_cases hturn : e.current.turn = kNoTurn
    · rw [h.idle hturn]
      exact Nat.zero_le _
    · simp [PlaybackEngine.cursor, hturn, PlaybackEngine.rest]
  have hlength := congrArg List.length hsamples
  simp only [List.length_append] at hlength
  refine ⟨consumed, hdequeued, hposted, ?_⟩
  exact List.prefix_of_prefix_length_le ⟨_, hsamples.symm⟩ (List.prefix_append heard e.rest) (by omega)

lemma Accounted.withQueue (h : e.Accounted heard dequeued posted) {q : PlaybackQueue}
    (hq : ∀ c ∈ q.q, c.turn ≠ kNoTurn) : ({ e with queue := q } : PlaybackEngine).Accounted heard dequeued posted :=
  ⟨hq, h.idle, h.samples, h.posted⟩

end PlaybackEngine

/-! ### Calls -/

/-- A call that has not returned, with the samples it has copied. -/
structure RenderTask where
  frames : Nat
  written : List Int16 := []
  deriving DecidableEq, Repr

/-- A call that has returned: the samples it copied, the buffer, and the block it passed to the loopback sink. -/
structure RenderReturn where
  frames : Nat
  written : List Int16
  out : List Int16
  emitted : Option (List Int16)
  deriving DecidableEq, Repr

/-- `round active` is the next round of the loop, for which `active_turn_()` gives `active`. -/
inductive RenderAction
  | enqueue (c : AudioChunk)
  | tryEnqueue (c : AudioChunk)
  | clear
  | invalidateBefore (t : TurnId)
  | call (frames : Nat)
  | round (active : TurnId)
  | publish
  deriving DecidableEq, Repr

structure RenderLog where
  engine : PlaybackEngine := {}
  task : Option RenderTask := none
  returned : List RenderReturn := []
  dequeued : List AudioChunk := []
  posted : List SentenceRef := []
  relayed : List SentenceRef := []
  deriving DecidableEq, Repr

namespace RenderLog

def withQueue (w : RenderLog) (q : PlaybackQueue) : RenderLog := { w with engine := { w.engine with queue := q } }

/-- The loop has filled the buffer, which goes to the sink. -/
def fill (w : RenderLog) (t : RenderTask) : RenderLog :=
  { w with
    engine := { w.engine with
      framesPlayed := w.engine.framesPlayed + t.frames
      loopback := w.engine.loopback.map (· ++ [t.written]) }
    task := none
    returned := w.returned ++ [⟨t.frames, t.written, t.written, w.engine.loopback.map fun _ => t.written⟩] }

/-- The rest of the buffer is silence. -/
def giveUp (w : RenderLog) (t : RenderTask) : RenderLog :=
  { w with
    task := none
    returned := w.returned ++
      [⟨t.frames, t.written, t.written ++ List.replicate (t.frames - t.written.length) 0, none⟩] }

/-- The head of the loop and the copy after it. -/
def turn (w : RenderLog) (t : RenderTask) (active : TurnId) : RenderLog :=
  let rem := t.frames - t.written.length
  let n := w.engine.next active rem
  let w := { w with
    dequeued := w.dequeued ++ (w.engine.takes active).toList
    posted := w.posted ++ w.engine.posts }
  if n.2 then { w with engine := n.1.advance rem, task := some { t with written := t.written ++ n.1.block rem } }
  else { w with engine := n.1 }.giveUp t

def round (w : RenderLog) (active : TurnId) : RenderLog :=
  match w.task with
  | none => w
  | some t => if t.frames ≤ t.written.length then w.fill t else w.turn t active

/-- The publisher thread relays one event. -/
def publish (w : RenderLog) : RenderLog :=
  match w.engine.postbox.tryPop with
  | none => w
  | some (x, postbox) => { w with engine := { w.engine with postbox := postbox }, relayed := w.relayed ++ [x] }

def step (w : RenderLog) : RenderAction → RenderLog
  | .enqueue c => w.withQueue (w.engine.queue.enqueue c).1
  | .tryEnqueue c => w.withQueue (w.engine.queue.tryEnqueue c).1
  | .clear => w.withQueue w.engine.queue.clear.1
  | .invalidateBefore t => w.withQueue (w.engine.queue.invalidateBefore t).1
  | .call frames => if w.task.isSome then w else { w with task := some { frames := frames } }
  | .round active => w.round active
  | .publish => w.publish

/-- An engine as it is made, with a queue for `cap` chunks and perhaps a loopback sink. -/
def create (prefillTargetSamples cap : Nat) (sink : Bool) : RenderLog :=
  { engine := {
      prefillTargetSamples := prefillTargetSamples
      queue := { cap := cap }
      loopback := if sink then some [] else none } }

/-- All real samples written so far. -/
def heard (w : RenderLog) : List Int16 :=
  w.returned.flatMap RenderReturn.written ++ (w.task.map RenderTask.written).getD []

/-- What is queued has a turn id. -/
def Tagged : RenderAction → Prop
  | .enqueue c | .tryEnqueue c => c.turn ≠ kNoTurn
  | _ => True

instance (a : RenderAction) : Decidable (Tagged a) :=
  match a with
  | .enqueue c | .tryEnqueue c => inferInstanceAs (Decidable (c.turn ≠ kNoTurn))
  | .clear | .invalidateBefore _ | .call _ | .round _ | .publish => isTrue trivial

/-- The buffer is the samples copied and silence after them. -/
def Padded (r : RenderReturn) : Prop :=
  r.written.length ≤ r.frames ∧ r.out = r.written ++ List.replicate (r.frames - r.written.length) 0

structure Faithful (w : RenderLog) : Prop where
  accounted : w.engine.Accounted w.heard w.dequeued w.posted
  relayed : w.engine.postbox.Relays kPostboxCapacity w.posted w.relayed
  returned : ∀ r ∈ w.returned, Padded r
  task : ∀ t, w.task = some t → t.written.length ≤ t.frames

variable {w : RenderLog} {t : RenderTask}

lemma faithful_create (prefillTargetSamples cap : Nat) (sink : Bool) :
    (create prefillTargetSamples cap sink).Faithful := by
  refine ⟨⟨by simp [create], fun _ => rfl, rfl, [], rfl, rfl⟩, ⟨⟨rfl, rfl, rfl, by decide, Nat.zero_le _⟩, ?_, rfl⟩,
    ?_, ?_⟩
  · exact List.Sublist.refl _
  · simp [create]
  · simp [create]

lemma Faithful.withQueue (h : w.Faithful) {q : PlaybackQueue} (hq : ∀ c ∈ q.q, c.turn ≠ kNoTurn) :
    (w.withQueue q).Faithful :=
  ⟨h.accounted.withQueue hq, h.relayed, h.returned, h.task⟩

/-- A chunk that is queued, unless the queue is full, belongs to a turn. -/
lemma Faithful.offer (h : w.Faithful) {c : AudioChunk} (hc : c.turn ≠ kNoTurn) {q : PlaybackQueue} {p : Prop}
    [Decidable p] (hq : q.q = w.engine.queue.q ++ (if p then [] else [c])) : (w.withQueue q).Faithful := by
  refine h.withQueue fun d hd => ?_
  rw [hq] at hd
  rcases List.mem_append.1 hd with hd | hd
  · exact h.accounted.tagged d hd
  · split at hd
    · cases hd
    · rw [List.mem_singleton.1 hd]
      exact hc

lemma Faithful.fill (h : w.Faithful) (htask : w.task = some t) (hfull : t.frames ≤ t.written.length) :
    (w.fill t).Faithful := by
  have hheard : (w.fill t).heard = w.heard := by simp [heard, RenderLog.fill, htask]
  have hlen := h.task t htask
  refine ⟨?_, h.relayed, ?_, by simp [RenderLog.fill]⟩
  · rw [hheard]
    exact ⟨h.accounted.tagged, h.accounted.idle, h.accounted.samples, h.accounted.posted⟩
  · simp only [RenderLog.fill, List.forall_mem_append, List.forall_mem_singleton]
    refine ⟨h.returned, hlen, ?_⟩
    rw [Nat.sub_eq_zero_of_le hfull, List.replicate_zero, List.append_nil]

lemma Faithful.giveUp (h : w.Faithful) (htask : w.task = some t) : (w.giveUp t).Faithful := by
  have hheard : (w.giveUp t).heard = w.heard := by simp [heard, RenderLog.giveUp, htask]
  refine ⟨?_, h.relayed, ?_, by simp [RenderLog.giveUp]⟩
  · rw [hheard]
    exact h.accounted
  · simp only [RenderLog.giveUp, List.forall_mem_append, List.forall_mem_singleton]
    exact ⟨h.returned, h.task t htask, rfl⟩

lemma Faithful.turn (h : w.Faithful) (htask : w.task = some t) (active : TurnId) :
    (w.turn t active).Faithful := by
  have hnext := h.accounted.next active (t.frames - t.written.length)
  have hrelayed := h.relayed.posts w.engine.posts
  rw [← (PlaybackEngine.next_rounds w.engine active (t.frames - t.written.length)).postbox] at hrelayed
  have hlen := h.task t htask
  unfold RenderLog.turn
  simp only
  split
  · refine ⟨?_, hrelayed, h.returned, ?_⟩
    · have hadvance := hnext.advance (t.frames - t.written.length)
      simpa [heard, htask] using hadvance
    · intro u hu
      obtain rfl := Option.some.inj hu
      have hblock : ((w.engine.next active (t.frames - t.written.length)).1.block
          (t.frames - t.written.length)).length ≤ t.frames - t.written.length := List.length_take_le _ _
      simp only [List.length_append]
      omega
  · refine Faithful.giveUp (t := t) ⟨?_, hrelayed, h.returned, h.task⟩ htask
    exact hnext

lemma Faithful.round (h : w.Faithful) (active : TurnId) : (w.round active).Faithful := by
  unfold RenderLog.round
  split
  · exact h
  · rename_i t htask
    split
    · rename_i hfull
      exact h.fill htask hfull
    · exact h.turn htask active

lemma Faithful.publish (h : w.Faithful) : w.publish.Faithful := by
  unfold RenderLog.publish
  split
  · exact h
  · rename_i x postbox hpop
    exact ⟨⟨h.accounted.tagged, h.accounted.idle, h.accounted.samples, h.accounted.posted⟩, h.relayed.tryPop hpop,
      h.returned, h.task⟩

lemma Faithful.step (h : w.Faithful) {a : RenderAction} (ha : Tagged a) : (w.step a).Faithful := by
  have hqueued := h.accounted.tagged
  cases a with
  | enqueue c => exact h.offer ha (w.engine.queue.enqueue_queue c).1
  | tryEnqueue c => exact h.offer ha (w.engine.queue.tryEnqueue_queue c).1
  | clear => exact h.withQueue (by simp [PlaybackQueue.clear])
  | invalidateBefore n => exact h.withQueue fun d hd => hqueued d (List.mem_filter.1 hd).1
  | call frames =>
    unfold RenderLog.step
    cases htask : w.task with
    | some t =>
      simp only [Option.isSome_some, if_true]
      exact h
    | none =>
      have haccounted := h.accounted
      simp only [Option.isSome_none, Bool.false_eq_true, if_false]
      refine ⟨?_, h.relayed, h.returned, ?_⟩
      · simpa [heard, htask] using haccounted
      · intro t ht
        obtain rfl := Option.some.inj ht
        exact Nat.zero_le _
  | round active => exact h.round active
  | publish => exact h.publish

/-! ### A call returns -/

/-- Bounds the rounds that the call in progress can still make. -/
def workLeft (w : RenderLog) : Nat :=
  match w.task with
  | none => 0
  | some t => t.frames - t.written.length + w.engine.queue.q.length + 1

lemma round_workLeft (htask : w.task = some t) (active : TurnId) : (w.round active).workLeft < w.workLeft := by
  have hwork : w.workLeft = t.frames - t.written.length + w.engine.queue.q.length + 1 := by rw [workLeft, htask]
  rw [hwork]
  unfold round
  rw [htask]
  simp only
  split
  · simp [workLeft, fill]
  · rename_i hleft
    unfold turn
    simp only
    split
    · rename_i hgo
      have hless := PlaybackEngine.next_progress (by omega) hgo
      simp only [workLeft, List.length_append, PlaybackEngine.advance]
      omega
    · simp [workLeft, giveUp]

lemma rounds_idle (hidle : w.task = none) (actives : List TurnId) :
    Runs.exec step w (actives.map .round) = w := by
  induction actives with
  | nil => rfl
  | cons active actives ih =>
    have hstep : w.step (.round active) = w := by simp [step, round, hidle]
    rw [List.map_cons, Runs.exec_cons, hstep, ih]

lemma rounds_return (w : RenderLog) (actives : List TurnId) (hmany : w.workLeft ≤ actives.length) :
    (Runs.exec step w (actives.map .round)).task = none := by
  induction actives generalizing w with
  | nil =>
    cases htask : w.task with
    | none => exact htask
    | some t => simp [workLeft, htask] at hmany
  | cons active actives ih =>
    cases htask : w.task with
    | none =>
      rw [rounds_idle htask]
      exact htask
    | some t =>
      have hless := round_workLeft htask active
      rw [List.length_cons] at hmany
      exact ih (w.round active) (by omega)

lemma turn_goes {active : TurnId} {rem : Nat} (hrem : t.frames - t.written.length = rem)
    (hgo : (w.engine.next active rem).2 = true) :
    (w.turn t active).task = some { t with written := t.written ++ (w.engine.next active rem).1.block rem } ∧
      (w.turn t active).engine = (w.engine.next active rem).1.advance rem ∧
      (w.turn t active).returned = w.returned ∧
      t.frames - (t.written ++ (w.engine.next active rem).1.block rem).length =
        rem - ((w.engine.next active rem).1.block rem).length := by
  simp only [turn, hrem, hgo, if_true, true_and]
  rw [List.length_append]
  omega

/-- The rounds of a call for which the active turn stays the same are the loop of `renderLoop`. -/
lemma rounds_eq_renderLoop (active : TurnId) (fuel : Nat) (htask : w.task = some t)
    (hfuel : t.frames - t.written.length + w.engine.queue.q.length < fuel) :
    ∃ (n : Nat) (w' : RenderLog), Runs.exec step w (List.replicate n (.round active)) =
        (if (w.engine.renderLoop active fuel (t.frames - t.written.length)).2.2 then w'.fill else w'.giveUp)
          { t with written := t.written ++ (w.engine.renderLoop active fuel (t.frames - t.written.length)).2.1 } ∧
      w'.engine = (w.engine.renderLoop active fuel (t.frames - t.written.length)).1 ∧ w'.returned = w.returned := by
  induction fuel generalizing w t with
  | zero => omega
  | succ fuel ih =>
    have hstep : ∀ as, Runs.exec step w (.round active :: as) = Runs.exec step (w.round active) as := fun _ => rfl
    by_cases hfull : t.frames ≤ t.written.length
    · have hrem : t.frames - t.written.length = 0 := Nat.sub_eq_zero_of_le hfull
      refine ⟨1, w, ?_, ?_, rfl⟩
      · rw [List.replicate_one, hstep, Runs.exec_nil, round, htask]
        simp only [if_pos hfull, hrem, PlaybackEngine.renderLoop, List.append_nil, if_true]
      · rw [hrem]
        rfl
    · obtain ⟨rem, hrem⟩ : ∃ rem, t.frames - t.written.length = rem + 1 :=
        ⟨t.frames - t.written.length - 1, by omega⟩
      have hround : w.round active = w.turn t active := by simp only [round, htask, if_neg hfull]
      by_cases hgo : (w.engine.next active (rem + 1)).2
      · have hless := PlaybackEngine.next_progress (by omega : 0 < rem + 1) hgo
        obtain ⟨hturn, hengine, hreturned, hrest⟩ := turn_goes hrem hgo
        have hbound : rem + 1 - ((w.engine.next active (rem + 1)).1.block (rem + 1)).length +
            (w.turn t active).engine.queue.q.length < fuel := by
          rw [hengine]
          change _ + (w.engine.next active (rem + 1)).1.queue.q.length < fuel
          omega
        obtain ⟨n, w', hrun, hw', hsame⟩ := ih hturn (by simpa only [hrest] using hbound)
        simp only [hrest, hengine] at hrun hw'
        refine ⟨n + 1, w', ?_, ?_, hsame.trans hreturned⟩
        · rw [List.replicate_succ, hstep, hround, hrun, hrem]
          simp only [PlaybackEngine.renderLoop, hgo, if_true, List.append_assoc]
        · rw [hw', hrem]
          simp only [PlaybackEngine.renderLoop, hgo, if_true]
      · rw [Bool.not_eq_true] at hgo
        refine ⟨1, { w with
          engine := (w.engine.next active (rem + 1)).1
          dequeued := w.dequeued ++ (w.engine.takes active).toList
          posted := w.posted ++ w.engine.posts }, ?_, ?_, rfl⟩
        · rw [List.replicate_one, hstep, Runs.exec_nil, hround, hrem]
          simp only [turn, hrem, hgo, PlaybackEngine.renderLoop, Bool.false_eq_true, if_false, List.append_nil]
        · rw [hrem]
          simp only [PlaybackEngine.renderLoop, hgo, Bool.false_eq_true, if_false]

/-- A call during which the active turn stays the same does what `renderInto` computes. -/
theorem rounds_eq_renderInto (w : RenderLog) (hidle : w.task = none) (active : TurnId) (frames : Nat) :
    ∃ n, let w' := Runs.exec step w (.call frames :: List.replicate n (.round active))
      w'.task = none ∧ w'.engine = (w.engine.renderInto active frames).1 ∧
        w'.returned.map RenderReturn.out =
          w.returned.map RenderReturn.out ++ [(w.engine.renderInto active frames).2] := by
  have hcall : w.step (.call frames) = { w with task := some { frames := frames } } := by simp [step, hidle]
  obtain ⟨n, w', hrun, hengine, hreturned⟩ := rounds_eq_renderLoop (w := { w with task := some { frames := frames } })
    (t := { frames := frames }) active (frames + w.engine.queue.q.length + 1) rfl (Nat.lt_succ_self _)
  simp only [List.length_nil, Nat.sub_zero, List.nil_append] at hrun hengine
  refine ⟨n, ?_⟩
  simp only [Runs.exec_cons, hcall, hrun, PlaybackEngine.renderInto]
  cases hfilled : (w.engine.renderLoop active (frames + w.engine.queue.q.length + 1) frames).2.2 with
  | true => simp [fill, hengine, hreturned]
  | false => simp [giveUp, hengine, hreturned]

/-! ### What is played, and what is announced -/

/-- Every call writes a whole buffer of samples and silence after them; the samples written and the rest of the
current chunk are those of the chunks taken; and the ends announced are those of the chunks taken before the
current one, whose samples are all written. A call returns, and once the current chunk is used up its end is
announced by the next round that needs a sample. -/
theorem render_into_faithful (prefillTargetSamples cap : Nat) (sink : Bool) (as : List RenderAction)
    (htagged : ∀ a ∈ as, Tagged a) :
    let w := Runs.exec step (create prefillTargetSamples cap sink) as
    (∀ r ∈ w.returned, r.out.length = r.frames ∧ ∃ silence : Nat, r.out = r.written ++ List.replicate silence 0) ∧
      w.heard ++ w.engine.rest = w.dequeued.flatMap AudioChunk.samples ∧
      (∃ consumed, w.dequeued = consumed ++ w.engine.cursor ∧ w.posted = marks consumed ∧
        consumed.flatMap AudioChunk.samples <+: w.heard) ∧
      (∀ t active, w.task = some t → t.written.length < t.frames → w.engine.rest = [] →
        (w.step (.round active)).posted = marks w.dequeued) ∧
      (w.relayed ++ w.engine.postbox.q).Sublist w.posted ∧
      w.relayed.length + w.engine.postbox.q.length + w.engine.postbox.drops = w.posted.length ∧
      ∀ actives : List TurnId, w.workLeft ≤ actives.length → (Runs.exec step w (actives.map .round)).task = none := by
  intro w
  have h : w.Faithful := Runs.Along.invariant Faithful (fun _ _ hw ha => hw.step ha)
    (Runs.Along.of_forall htagged _) (faithful_create prefillTargetSamples cap sink)
  refine ⟨fun r hr => ?_, h.accounted.samples, h.accounted.played, ?_, h.relayed.order, h.relayed.counted,
    rounds_return w⟩
  · obtain ⟨hlen, hout⟩ := h.returned r hr
    refine ⟨?_, _, hout⟩
    rw [hout, List.length_append, List.length_replicate]
    omega
  · intro t active htask hleft hrest
    obtain ⟨_, hposted⟩ := h.accounted.consumed ((PlaybackEngine.exhausted_iff w.engine).2 hrest)
    have hround : (w.step (.round active)).posted = w.posted ++ w.engine.posts := by
      simp only [step, round, htask, turn, if_neg (Nat.not_le.2 hleft)]
      split <;> rfl
    rw [hround, hposted]

/-- A sentence of two samples in a buffer of three. -/
theorem sentence_then_silence :
    let w := Runs.exec step (create 0 0 true)
      [.enqueue { turn := 1, samples := [5, 6], endOfSentence := true }, .call 3, .round 1, .round 1]
    w.returned = [⟨3, [5, 6], [5, 6, 0], none⟩] ∧ w.posted = [⟨1, 0⟩] ∧
      w.heard ++ w.engine.rest = w.dequeued.flatMap AudioChunk.samples :=
  ⟨by decide, by decide, (render_into_faithful 0 0 true _ (by decide)).2.1⟩

/-! ### What the loopback sink sees -/

/-- Each sample of the buffer that is not silence is at the same place in the block passed to the sink. -/
def Tapped (r : RenderReturn) : Prop :=
  ∀ (i : Nat) (x : Int16), r.written[i]? = some x → ∃ block : List Int16, r.emitted = some block ∧ block[i]? = some x

/-- A call that has written samples and needs another chunk is supplied with one. -/
def Supplied (w : RenderLog) : RenderAction → Prop
  | .round active => ∀ t, w.task = some t → t.written ≠ [] → t.written.length < t.frames →
      w.engine.exhausted → w.engine.supplies active
  | _ => True

/-- The sink is attached and has the blocks of the calls that have returned. -/
def Attached (w : RenderLog) : Prop := w.engine.loopback = some (w.returned.filterMap RenderReturn.emitted)

lemma tapped_of_none {r : RenderReturn} (hnone : r.emitted = none) : Tapped r ↔ r.written = [] := by
  constructor
  · intro h
    cases hwritten : r.written with
    | nil => rfl
    | cons x xs =>
      obtain ⟨block, hblock, _⟩ := h 0 x (by simp [hwritten])
      rw [hnone] at hblock
      cases hblock
  · intro hnil i x hx
    simp [hnil] at hx

lemma round_tapped (h : w.Attached) (active : TurnId) :
    (w.round active).Attached ∧
      ((∀ r ∈ (w.round active).returned, Tapped r) ↔ (∀ r ∈ w.returned, Tapped r) ∧ w.Supplied (.round active)) := by
  unfold round
  cases htask : w.task with
  | none => exact ⟨h, by simp [Supplied, htask]⟩
  | some t =>
    have hone : w.Supplied (.round active) ↔ (t.written ≠ [] → t.written.length < t.frames →
        w.engine.exhausted → w.engine.supplies active) := by simp [Supplied, htask]
    have hloopback := (PlaybackEngine.next_rounds w.engine active (t.frames - t.written.length)).loopback
    have hattached : w.engine.loopback = some (w.returned.filterMap RenderReturn.emitted) := h
    rw [hone]
    dsimp only
    by_cases hfull : t.frames ≤ t.written.length
    · rw [if_pos hfull]
      have htapped : Tapped ⟨t.frames, t.written, t.written, some t.written⟩ := fun i x hx => ⟨_, rfl, hx⟩
      constructor
      · simp [Attached, fill, hattached]
      · simp only [fill, hattached, Option.map_some, List.forall_mem_append, List.forall_mem_singleton]
        exact and_congr_right fun _ => iff_of_true htapped fun _ hless => absurd hless (Nat.not_lt.2 hfull)
    · rw [if_neg hfull]
      have hgoes := PlaybackEngine.next_goes_iff w.engine active (t.frames - t.written.length)
      cases hgo : (w.engine.next active (t.frames - t.written.length)).2 with
      | true =>
        rw [hgo] at hgoes
        simp only [turn, hgo, if_true]
        refine ⟨?_, (and_iff_left fun _ _ => hgoes.1 rfl).symm⟩
        exact hloopback.trans hattached
      | false =>
        rw [hgo] at hgoes
        have hstops : ¬(w.engine.exhausted → w.engine.supplies active) := fun hsupplied => by
          simpa using hgoes.2 hsupplied
        have htapped := tapped_of_none (r := ⟨t.frames, t.written,
          t.written ++ List.replicate (t.frames - t.written.length) 0, none⟩) rfl
        simp only [turn, hgo, Bool.false_eq_true, if_false, giveUp]
        constructor
        · simp only [Attached, List.filterMap_append, List.filterMap_cons_none, List.filterMap_nil, List.append_nil]
          exact hloopback.trans hattached
        · simp only [List.forall_mem_append, List.forall_mem_singleton]
          refine and_congr_right fun _ => htapped.trans ⟨fun hnil hne => absurd hnil hne, fun hsupplied => ?_⟩
          by_contra hne
          exact hstops (hsupplied hne (Nat.not_le.1 hfull))

/-- The sink gets the samples of every call, at the places they have in the buffer, exactly when no call that has
written samples runs out of them before its buffer is full. -/
theorem emitted_samples_iff (prefillTargetSamples cap : Nat) (as : List RenderAction) :
    let w := Runs.exec step (create prefillTargetSamples cap true) as
    w.engine.loopback = some (w.returned.filterMap RenderReturn.emitted) ∧
      ((∀ r ∈ w.returned, Tapped r) ↔ Runs.Along step Supplied (create prefillTargetSamples cap true) as) := by
  have hstep : ∀ (w : RenderLog) (a : RenderAction), w.Attached → (w.step a).Attached ∧
      ((∀ r ∈ (w.step a).returned, Tapped r) ↔ (∀ r ∈ w.returned, Tapped r) ∧ w.Supplied a) := by
    intro w a h
    cases a with
    | round active => exact round_tapped h active
    | call frames =>
      simp only [step, Supplied, and_true]
      split <;> exact ⟨h, Iff.rfl⟩
    | publish =>
      simp only [step, publish, Supplied, and_true]
      split <;> exact ⟨h, Iff.rfl⟩
    | _ => exact ⟨h, (and_iff_left trivial).symm⟩
  have hstart : (create prefillTargetSamples cap true).Attached := rfl
  refine ⟨Runs.exec_invariant Attached (fun w a h => (hstep w a h).1) hstart as, ?_⟩
  refine (Runs.exec_iff_along (Q := fun w : RenderLog => ∀ r ∈ w.returned, Tapped r) (fun w a h => (hstep w a h).1)
    (fun w a h => (hstep w a h).2) hstart as).trans ?_
  exact and_iff_right (by simp [create])

/-- A buffer that ends in an underrun is not passed on. -/
theorem underrun_not_emitted :
    ¬∀ r ∈ (Runs.exec step (create 0 0 true)
      [.enqueue { turn := 1, samples := [5, 6] }, .call 4, .round 1, .round 1]).returned, Tapped r := by
  intro h
  obtain ⟨block, hblock, _⟩ := h ⟨4, [5, 6], [5, 6, 0, 0], none⟩ (by decide) 0 5 rfl
  cases hblock

end RenderLog

end Acva
