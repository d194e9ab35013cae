import Acva.Event.Event

/-!
# The playback queue

`PlaybackQueue`: the FIFO of synthesized audio between the TTS bridge and the audio callback. Each
function here is one critical section; `enqueue_blocking` is a loop of attempts around `tryEnqueue`.
-/

namespace Acva

structure AudioChunk where
  turn : TurnId := kNoTurn
  seq : SequenceNo := 0
  samples : List Int16 := []
  endOfSentence : Bool := false
  deriving DecidableEq, Repr

def AudioChunk.ref (c : AudioChunk) : SentenceRef := ⟨c.turn, c.seq⟩

/-- A `cap` of 0 means unbounded. -/
structure PlaybackQueue where
  q : List AudioChunk := []
  cap : Nat := 0
  drops : Nat := 0
  enqueued : Nat := 0
  dequeued : Nat := 0
  deriving DecidableEq, Repr

namespace PlaybackQueue

def full (p : PlaybackQueue) : Bool := p.cap ≠ 0 && p.q.length ≥ p.cap

def push (p : PlaybackQueue) (chunk : AudioChunk) : PlaybackQueue :=
  { p with q := p.q ++ [chunk], enqueued := p.enqueued + 1 }

def enqueue (p : PlaybackQueue) (chunk : AudioChunk) : PlaybackQueue × Bool :=
  if p.full then ({ p with drops := p.drops + 1 }, false) else (p.push chunk, true)

/-- The attempt that `enqueue_blocking` repeats until it succeeds or the token is cancelled. -/
def tryEnqueue (p : PlaybackQueue) (chunk : AudioChunk) : PlaybackQueue × Bool :=
  if p.full then (p, false) else (p.push chunk, true)

/-- Drops stale chunks at the head; the next chunk is one of the active turn. -/
def skipStale (active : TurnId) : List AudioChunk → List AudioChunk
  | [] => []
  | c :: cs => if c.turn = active then c :: cs else skipStale active cs

def dequeueActive (p : PlaybackQueue) (active : TurnId) : PlaybackQueue × Option AudioChunk :=
  let rest := skipStale active p.q
  let drops := p.drops + (p.q.length - rest.length)
  match rest with
  | [] => ({ p with q := [], drops := drops }, none)
  | c :: cs => ({ p with q := cs, drops := drops, dequeued := p.dequeued + 1 }, some c)

def invalidateBefore (p : PlaybackQueue) (nextTurn : TurnId) : PlaybackQueue × Nat :=
  let kept := p.q.filter fun c => nextTurn ≤ c.turn
  let dropped := p.q.length - kept.length
  ({ p with q := kept, drops := p.drops + dropped }, dropped)

def clear (p : PlaybackQueue) : PlaybackQueue × Nat := ({ p with q := [], drops := p.drops + p.q.length }, p.q.length)

def pendingSamplesFor (p : PlaybackQueue) (turn : TurnId) : Nat :=
  ((p.q.filter fun c => c.turn = turn).map fun c => c.samples.length).sum

/-! ### Adding and taking chunks -/

lemma enqueue_queue (p : PlaybackQueue) (chunk : AudioChunk) :
    (p.enqueue chunk).1.q = p.q ++ (if p.full then [] else [chunk]) ∧
      (p.enqueue chunk).1.enqueued = p.enqueued + (if p.full then [] else [chunk]).length := by
  unfold enqueue
  split <;> simp [push]

lemma tryEnqueue_queue (p : PlaybackQueue) (chunk : AudioChunk) :
    (p.tryEnqueue chunk).1.q = p.q ++ (if p.full then [] else [chunk]) ∧
      (p.tryEnqueue chunk).1.enqueued = p.enqueued + (if p.full then [] else [chunk]).length := by
  unfold tryEnqueue
  split <;> simp [push]

/-- The chunks that stand in `p'` behind those of `p`, if `p` has lost none. -/
def gained (p p' : PlaybackQueue) : List AudioChunk := if p.q <+: p'.q then p'.q.drop p.q.length else []

lemma gained_append {p p' : PlaybackQueue} {new : List AudioChunk} (h : p'.q = p.q ++ new) : p.gained p' = new := by
  simp [gained, h]

lemma gained_sublist {p p' : PlaybackQueue} (h : p'.q.Sublist p.q) : p.gained p' = [] := by
  unfold gained
  split
  · exact List.drop_eq_nil_of_le h.length_le
  · rfl

lemma skipStale_sublist (active : TurnId) (cs : List AudioChunk) : (skipStale active cs).Sublist cs := by
  induction cs with
  | nil => exact .refl _
  | cons c cs ih =>
    unfold skipStale
    split
    · exact .refl _
    · exact ih.cons c

lemma dequeueActive_sublist (p : PlaybackQueue) (active : TurnId) : (p.dequeueActive active).1.q.Sublist p.q := by
  have hskip := skipStale_sublist active p.q
  simp only [dequeueActive]
  split
  · exact List.nil_sublist _
  · rename_i c cs hrest
    rw [hrest] at hskip
    exact (List.sublist_cons_self c cs).trans hskip

lemma head?_skipStale (active : TurnId) (cs : List AudioChunk) :
    (skipStale active cs).head? = cs.find? (·.turn = active) := by
  induction cs with
  | nil => rfl
  | cons c cs ih =>
    unfold skipStale
    by_cases hturn : c.turn = active
    · rw [if_pos hturn, List.find?_cons_of_pos (by simpa using hturn), List.head?_cons]
    · rw [if_neg hturn, List.find?_cons_of_neg (by simpa using hturn), ih]

lemma dequeueActive_snd (p : PlaybackQueue) (active : TurnId) :
    (p.dequeueActive active).2 = p.q.find? (·.turn = active) := by
  rw [← head?_skipStale]
  unfold dequeueActive
  cases skipStale active p.q <;> rfl

lemma turn_of_dequeueActive {p : PlaybackQueue} {active : TurnId} {c : AudioChunk}
    (h : (p.dequeueActive active).2 = some c) : c.turn = active := by
  rw [dequeueActive_snd] at h
  simpa using List.find?_some h

end PlaybackQueue

end Acva
