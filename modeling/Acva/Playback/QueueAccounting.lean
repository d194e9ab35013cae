import Acva.Lib.Runs
import Acva.Playback.Queue

/-!
# Accounts of the playback queue

`QueueLog` runs the queue beside a record of what its callers see: the chunks they offer, the calls that
return `false` and the chunks that leave. `enqueue_blocking` is a call that begins and then makes attempts
until one succeeds or its token is cancelled; other calls may come between two attempts.
-/

namespace Acva

/-- `attempt i` is the next round of the loop of the `i`-th call of `enqueue_blocking` that has not returned. -/
inductive QueueCall
  | enqueue (chunk : AudioChunk)
  | enqueueBlocking (chunk : AudioChunk)
  | attempt (i : Nat) (cancelled : Bool)
  | dequeueActive (active : TurnId)
  | invalidateBefore (nextTurn : TurnId)
  | clear
  deriving DecidableEq, Repr

/-- `offered` counts the calls that offer a chunk, `failed` those that returned `false`, `rejected` the calls
of `enqueue` among these; `taken` pairs a chunk with the turn it was asked for. -/
structure QueueLog where
  queue : PlaybackQueue := {}
  waiting : List AudioChunk := []
  offered : Nat := 0
  failed : Nat := 0
  rejected : Nat := 0
  accepted : List AudioChunk := []
  taken : List (TurnId × AudioChunk) := []
  deriving DecidableEq, Repr

namespace QueueLog

def enqueue (w : QueueLog) (chunk : AudioChunk) : QueueLog :=
  let r := w.queue.enqueue chunk
  let w := { w with queue := r.1, offered := w.offered + 1 }
  if r.2 then { w with accepted := w.accepted ++ [chunk] }
  else { w with failed := w.failed + 1, rejected := w.rejected + 1 }

/-- One round of the loop of `enqueue_blocking`: the queue, then the token. -/
def attempt (w : QueueLog) (i : Nat) (cancelled : Bool) : QueueLog :=
  match w.waiting[i]? with
  | none => w
  | some chunk =>
    let r := w.queue.tryEnqueue chunk
    if r.2 then { w with queue := r.1, waiting := w.waiting.eraseIdx i, accepted := w.accepted ++ [chunk] }
    else if cancelled then { w with waiting := w.waiting.eraseIdx i, failed := w.failed + 1 }
    else w

def dequeueActive (w : QueueLog) (active : TurnId) : QueueLog :=
  let r := w.queue.dequeueActive active
  { w with queue := r.1, taken := w.taken ++ r.2.toList.map fun chunk => (active, chunk) }

def step (w : QueueLog) : QueueCall → QueueLog
  | .enqueue chunk => w.enqueue chunk
  | .enqueueBlocking chunk => { w with waiting := w.waiting ++ [chunk], offered := w.offered + 1 }
  | .attempt i cancelled => w.attempt i cancelled
  | .dequeueActive active => w.dequeueActive active
  | .invalidateBefore nextTurn => { w with queue := (w.queue.invalidateBefore nextTurn).1 }
  | .clear => { w with queue := w.queue.clear.1 }

/-- A queue as it is made, with room for `cap` chunks. -/
def create (cap : Nat) : QueueLog := { queue := { cap := cap } }

/-- What every call keeps. -/
structure Accounted (cap : Nat) (w : QueueLog) : Prop where
  capacity : w.queue.cap = cap
  bounded : cap ≠ 0 → w.queue.q.length ≤ cap
  offers : w.offered = w.queue.enqueued + w.failed + w.waiting.length
  conserved : w.queue.enqueued + w.rejected = w.queue.dequeued + w.queue.q.length + w.queue.drops
  rejected : w.rejected ≤ w.queue.drops
  entered : w.accepted.length = w.queue.enqueued
  handed : w.taken.length = w.queue.dequeued
  order : (w.taken.map Prod.snd ++ w.queue.q).Sublist w.accepted
  turns : ∀ p ∈ w.taken, p.2.turn = p.1

variable {cap : Nat} {w : QueueLog}

lemma Accounted.pushed (h : w.Accounted cap) (chunk : AudioChunk) (hroom : w.queue.full = false) :
    let q := w.queue.push chunk
    q.cap = cap ∧ (cap ≠ 0 → q.q.length ≤ cap) ∧ q.enqueued = w.queue.enqueued + 1 ∧
      (w.accepted ++ [chunk]).length = q.enqueued ∧ q.q.length = w.queue.q.length + 1 ∧
      (w.taken.map Prod.snd ++ q.q).Sublist (w.accepted ++ [chunk]) := by
  intro q
  have hlength : q.q.length = w.queue.q.length + 1 := by simp [q, PlaybackQueue.push]
  refine ⟨h.capacity, fun hcap => ?_, rfl, ?_, hlength, ?_⟩
  · have hless : w.queue.q.length < cap := by
      rw [← h.capacity] at hcap ⊢
      simpa [PlaybackQueue.full, hcap] using hroom
    omega
  · rw [List.length_append, h.entered]
    rfl
  · change (w.taken.map Prod.snd ++ (w.queue.q ++ [chunk])).Sublist _
    rw [← List.append_assoc]
    exact h.order.append (List.Sublist.refl _)

lemma Accounted.enqueue (h : w.Accounted cap) (chunk : AudioChunk) : (w.enqueue chunk).Accounted cap := by
  have hoffers := h.offers
  have hconserved := h.conserved
  by_cases hfull : w.queue.full
  · simp only [QueueLog.enqueue, PlaybackQueue.enqueue, hfull, if_true, Bool.false_eq_true, if_false]
    refine ⟨h.capacity, h.bounded, ?_, ?_, Nat.succ_le_succ h.rejected, h.entered, h.handed, h.order, h.turns⟩
    · dsimp only
      omega
    · dsimp only
      omega
  · rw [Bool.not_eq_true] at hfull
    obtain ⟨hcap, hbounded, henq, hentered, hlength, horder⟩ := h.pushed chunk hfull
    simp only [QueueLog.enqueue, PlaybackQueue.enqueue, hfull, if_true, Bool.false_eq_true, if_false]
    refine ⟨hcap, hbounded, ?_, ?_, h.rejected, hentered, h.handed, horder, h.turns⟩
    · dsimp only
      omega
    · dsimp only
      rw [henq, hlength]
      change _ = w.queue.dequeued + _ + w.queue.drops
      omega

lemma Accounted.attempt (h : w.Accounted cap) (i : Nat) (cancelled : Bool) :
    (w.attempt i cancelled).Accounted cap := by
  unfold QueueLog.attempt
  split
  · exact h
  · rename_i chunk hwaiting
    have hoffers := h.offers
    have hconserved := h.conserved
    have hi : i < w.waiting.length := (List.getElem?_eq_some_iff.1 hwaiting).1
    have herase : (w.waiting.eraseIdx i).length + 1 = w.waiting.length := by
      rw [List.length_eraseIdx_of_lt hi]
      omega
    by_cases hfull : w.queue.full
    · simp only [PlaybackQueue.tryEnqueue, hfull, if_true, Bool.false_eq_true, if_false]
      split
      · refine ⟨h.capacity, h.bounded, ?_, h.conserved, h.rejected, h.entered, h.handed, h.order, h.turns⟩
        dsimp only
        omega
      · exact h
    · rw [Bool.not_eq_true] at hfull
      obtain ⟨hcap, hbounded, henq, hentered, hlength, horder⟩ := h.pushed chunk hfull
      simp only [PlaybackQueue.tryEnqueue, hfull, if_true, Bool.false_eq_true, if_false]
      refine ⟨hcap, hbounded, ?_, ?_, h.rejected, hentered, h.handed, horder, h.turns⟩
      · dsimp only
        omega
      · dsimp only
        rw [henq, hlength]
        change _ = w.queue.dequeued + _ + w.queue.drops
        omega

lemma Accounted.dropped (h : w.Accounted cap) {q : PlaybackQueue} (hcap : q.cap = w.queue.cap)
    (hq : q.q.Sublist w.queue.q) (hdrops : q.drops + q.q.length = w.queue.drops + w.queue.q.length)
    (henq : q.enqueued = w.queue.enqueued) (hdeq : q.dequeued = w.queue.dequeued) :
    ({ w with queue := q } : QueueLog).Accounted cap := by
  have hlength := hq.length_le
  have hconserved := h.conserved
  have hrejected := h.rejected
  refine ⟨hcap.trans h.capacity, fun hne => hlength.trans (h.bounded hne), ?_, ?_, ?_, h.entered.trans henq.symm,
    h.handed.trans hdeq.symm, ?_, h.turns⟩
  · rw [henq]
    exact h.offers
  · dsimp only
    omega
  · dsimp only
    omega
  · exact ((List.Sublist.refl _).append hq).trans h.order

lemma Accounted.dequeueActive (h : w.Accounted cap) (active : TurnId) :
    (w.dequeueActive active).Accounted cap := by
  have hskip := PlaybackQueue.skipStale_sublist active w.queue.q
  have hlength := hskip.length_le
  have hconserved := h.conserved
  simp only [QueueLog.dequeueActive, PlaybackQueue.dequeueActive]
  split
  · rename_i hrest
    rw [hrest, List.length_nil] at hlength
    have hdropped := h.dropped (q := { w.queue with q := [], drops := w.queue.drops + (w.queue.q.length - 0) }) rfl
      (List.nil_sublist _) (by simp) rfl rfl
    simpa [hrest] using hdropped
  · rename_i chunk rest hrest
    have hturn : chunk.turn = active := by
      have hfind := PlaybackQueue.head?_skipStale active w.queue.q
      rw [hrest] at hfind
      simpa using List.find?_some hfind.symm
    rw [hrest] at hskip hlength
    rw [List.length_cons] at hlength
    refine ⟨h.capacity, fun hne => ?_, h.offers, ?_, ?_, h.entered, ?_, ?_, ?_⟩
    · have := h.bounded hne
      dsimp only
      omega
    · simp only [hrest, List.length_cons]
      omega
    · exact h.rejected.trans (Nat.le_add_right _ _)
    · rw [List.length_append, h.handed]
      rfl
    · have horder := ((List.Sublist.refl (w.taken.map Prod.snd)).append hskip).trans h.order
      simpa [List.append_assoc] using horder
    · intro p hp
      rcases List.mem_append.1 hp with hp | hp
      · exact h.turns p hp
      · rw [show p = (active, chunk) by simpa using hp]
        exact hturn

lemma Accounted.step (h : w.Accounted cap) (a : QueueCall) : (w.step a).Accounted cap := by
  cases a with
  | enqueue chunk => exact h.enqueue chunk
  | enqueueBlocking chunk =>
    refine ⟨h.capacity, h.bounded, ?_, h.conserved, h.rejected, h.entered, h.handed, h.order, h.turns⟩
    have hoffers := h.offers
    simp only [QueueLog.step, List.length_append, List.length_singleton]
    omega
  | attempt i cancelled => exact h.attempt i cancelled
  | dequeueActive active => exact h.dequeueActive active
  | invalidateBefore nextTurn =>
    have hkept := List.filter_sublist (p := fun c : AudioChunk => nextTurn ≤ c.turn) (l := w.queue.q)
    have hlength := hkept.length_le
    refine h.dropped rfl hkept ?_ rfl rfl
    simp only [PlaybackQueue.invalidateBefore]
    omega
  | clear => exact h.dropped rfl (List.nil_sublist _) (by simp [PlaybackQueue.clear]) rfl rfl

lemma accounted_create (cap : Nat) : (create cap).Accounted cap :=
  ⟨rfl, fun _ => Nat.zero_le _, rfl, rfl, Nat.le_refl _, rfl, rfl, List.Sublist.refl _, by simp [create]⟩

/-- The playback queue under any sequence of calls. -/
theorem playback_queue_accounts (cap : Nat) (calls : List QueueCall) :
    let w := Runs.exec step (create cap) calls
    (cap ≠ 0 → w.queue.q.length ≤ cap) ∧
      w.offered = w.queue.enqueued + w.failed + w.waiting.length ∧
      w.rejected ≤ w.queue.drops ∧
      w.queue.enqueued = w.queue.dequeued + w.queue.q.length + (w.queue.drops - w.rejected) ∧
      w.accepted.length = w.queue.enqueued ∧ w.taken.length = w.queue.dequeued ∧
      (∀ p ∈ w.taken, p.2.turn = p.1) ∧ (w.taken.map Prod.snd).Sublist w.accepted ∧
      (∀ active, (w.step (.dequeueActive active)).taken =
        w.taken ++ (w.queue.q.find? (·.turn = active)).toList.map fun chunk => (active, chunk)) ∧
      ∀ n, (w.step (.invalidateBefore n)).queue.q = w.queue.q.filter fun c => n ≤ c.turn := by
  intro w
  have h : w.Accounted cap := Runs.exec_invariant (Accounted cap) (fun w a hw => hw.step a) (accounted_create cap) calls
  have hconserved := h.conserved
  have hrejected := h.rejected
  refine ⟨h.bounded, h.offers, h.rejected, ?_, h.entered, h.handed, h.turns, ?_, fun active => ?_,
    fun n => rfl⟩
  · omega
  · exact (List.sublist_append_left _ _).trans h.order
  · rw [← PlaybackQueue.dequeueActive_snd]
    rfl

end QueueLog

end Acva
