import Acva.Event.BoundedQueue
import Acva.Lib.Runs
import Mathlib.Data.List.Infix
import Mathlib.Data.List.Nodup

/-!
# Stopping a worker

`Subscription` and `MemoryThread` have the same loop: while `running_` is set, pop an item and handle it.
`stop()` and the destructor clear `running_`, close the queue and join the thread. Exceptions of a handler
are swallowed. Items carry the number under which they were accepted.
-/

namespace Acva

/-- Before the test of `running_`, inside `pop`, inside the handler, and out of the loop. -/
inductive WorkerStage (α : Type*)
  | testing
  | popping
  | handling (x : α)
  | exited
  deriving DecidableEq, Repr

/-- Not called, `running_` cleared, the queue closed as well, and returned from the join. -/
inductive StopStage
  | idle
  | cleared
  | closed
  | returned
  deriving DecidableEq, Repr

/-- `due` are the items that were accepted when the stop began. -/
structure QueueWorker (α : Type*) where
  queue : BoundedQueue (Nat × α)
  running : Bool := true
  worker : WorkerStage (Nat × α) := .testing
  stopper : StopStage := .idle
  accepted : List (Nat × α) := []
  due : List (Nat × α) := []
  executed : List (Nat × α) := []
  deriving DecidableEq, Repr

inductive WorkerAction (α : Type*)
  | push (value : α)
  | work
  | stop
  deriving DecidableEq, Repr

def WorkerStage.inFlight {α : Type*} : WorkerStage α → List α
  | .handling x => [x]
  | _ => []

namespace QueueWorker

variable {α : Type*}

def create (capacity : Nat) (policy : OverflowPolicy) : QueueWorker α :=
  { queue := { capacity := capacity, policy := policy } }

/-- A push that has to wait is not a step. A `post` of `MemoryThread` that finds `running_` cleared pushes nothing,
one that tested it before is a push. -/
def push (s : QueueWorker α) (value : α) : QueueWorker α :=
  match s.queue.push (s.accepted.length, value) with
  | some (queue, true) => { s with queue := queue, accepted := s.accepted ++ [(s.accepted.length, value)] }
  | some (queue, false) => { s with queue := queue }
  | none => s

/-- The loop of `run`. -/
def work (s : QueueWorker α) : QueueWorker α :=
  match s.worker with
  | .testing => { s with worker := if s.running then .popping else .exited }
  | .popping =>
    match s.queue.pop with
    | some (some x, queue) => { s with queue := queue, worker := .handling x }
    | some (none, _) => { s with worker := .exited }
    | none => s
  | .handling x => { s with executed := s.executed ++ [x], worker := .testing }
  | .exited => s

def stop (s : QueueWorker α) : QueueWorker α :=
  match s.stopper with
  | .idle => { s with running := false, stopper := .cleared, due := s.accepted }
  | .cleared => { s with queue := s.queue.close, stopper := .closed }
  | .closed =>
    match s.worker with
    | .exited => { s with stopper := .returned }
    | _ => s
  | .returned => s

def step (s : QueueWorker α) : WorkerAction α → QueueWorker α
  | .push value => s.push value
  | .work => s.work
  | .stop => s.stop

/-- What was accepted before the stop has been executed, once and in the order of acceptance. -/
structure Drained (s : QueueWorker α) : Prop where
  executed : s.due <+: s.executed
  order : s.executed.Sublist s.accepted
  once : s.executed.Nodup

/-- The items that the worker still takes once `running_` is cleared: one if it is past the test. -/
def slots (s : QueueWorker α) : Nat :=
  match s.worker with
  | .popping => 1
  | _ => 0

/-- When the stop begins, nothing was overwritten and the worker will take all that is queued; later no push
overwrites an item accepted before. -/
def LeavesNothing (s : QueueWorker α) : WorkerAction α → Prop
  | .stop => s.stopper = .idle →
      s.accepted.length = s.executed.length + s.worker.inFlight.length + s.queue.q.length ∧
        s.queue.q.length ≤ s.slots
  | .push _ => s.stopper ≠ .idle → s.queue.policy = .dropOldest → s.queue.closed = false →
      ∀ x ∈ s.queue.evicted, s.due.length ≤ x.1
  | .work => True

instance (s : QueueWorker α) (a : WorkerAction α) : Decidable (s.LeavesNothing a) :=
  match a with
  | .stop => inferInstanceAs (Decidable (_ → _))
  | .push _ => inferInstanceAs (Decidable (_ → _))
  | .work => isTrue trivial

/-! ### What the worker will have executed -/

/-- Numbers tell the items apart and grow in the order of acceptance. -/
structure Sound (s : QueueWorker α) : Prop where
  numbered : s.accepted.map Prod.fst = List.range s.accepted.length
  order : (s.executed ++ s.worker.inFlight ++ s.queue.q).Sublist s.accepted
  due : s.stopper ≠ .idle → s.due <+: s.accepted
  cleared : s.stopper ≠ .idle → s.running = false
  returned : s.stopper = .returned → s.worker = .exited

/-- All that the worker executes before it leaves, if `running_` is cleared. -/
def final (s : QueueWorker α) : List (Nat × α) :=
  s.executed ++ s.worker.inFlight ++ s.queue.q.take s.slots

/-- Once the stop has begun, the worker will have executed what is due. -/
def Covers (s : QueueWorker α) : Prop := s.stopper ≠ .idle → s.due <+: s.final

variable {s : QueueWorker α}

lemma sound_create (capacity : Nat) (policy : OverflowPolicy) : (create capacity policy : QueueWorker α).Sound :=
  ⟨rfl, List.Sublist.refl _, fun h => absurd rfl h, fun h => absurd rfl h, fun h => by cases h⟩

lemma Sound.pairwise (h : s.Sound) : s.accepted.Pairwise fun x y => x.1 < y.1 := by
  have hrange : (s.accepted.map Prod.fst).Pairwise (· < ·) := by
    rw [h.numbered]
    exact List.pairwise_lt_range
  exact List.pairwise_map.mp hrange

lemma Sound.lt_length (h : s.Sound) {x : Nat × α} (hx : x ∈ s.accepted) : x.1 < s.accepted.length := by
  rw [← List.mem_range, ← h.numbered]
  exact List.mem_map_of_mem hx

/-- An accepted item is due exactly if its number is small enough. -/
lemma Sound.mem_due_iff (h : s.Sound) (hstop : s.stopper ≠ .idle) {x : Nat × α} (hx : x ∈ s.accepted) :
    x ∈ s.due ↔ x.1 < s.due.length := by
  obtain ⟨rest, hrest⟩ := h.due hstop
  have hnumbers : (s.due ++ rest).map Prod.fst = List.range (s.due.length + rest.length) := by
    rw [hrest, h.numbered, ← hrest, List.length_append]
  rw [List.map_append, List.range_add] at hnumbers
  obtain ⟨hdue, hlater⟩ := List.append_inj hnumbers (by simp)
  constructor
  · intro hmem
    rw [← List.mem_range, ← hdue]
    exact List.mem_map_of_mem hmem
  · intro hlt
    rw [← hrest] at hx
    apply (List.mem_append.mp hx).resolve_right
    intro hmem
    have hnumber : x.1 ∈ (List.range rest.length).map (s.due.length + ·) := by
      rw [← hlater]
      exact List.mem_map_of_mem hmem
    obtain ⟨i, _, hi⟩ := List.mem_map.mp hnumber
    omega

/-! ### The steps -/

/-- A push is refused or waits, and then it leaves the items alone; or it is accepted at the end. -/
lemma push_cases (s : QueueWorker α) (value : α) :
    (∃ drops, s.push value = { s with queue := { s.queue with drops := drops } } ∧
      (s.queue.policy = .dropOldest → s.queue.closed = true)) ∨
    ∃ queue : BoundedQueue (Nat × α), s.queue.closed = false ∧
      (s.queue.evicted ≠ [] → s.queue.policy = .dropOldest) ∧
      queue.q = s.queue.q.drop s.queue.evicted.length ++ [(s.accepted.length, value)] ∧
      s.push value = { s with queue := queue, accepted := s.accepted ++ [(s.accepted.length, value)] } := by
  unfold push
  cases hpush : s.queue.push (s.accepted.length, value) with
  | none =>
    left
    obtain ⟨_, _, hpolicy⟩ := (s.queue.push_eq_none_iff _).mp hpush
    refine ⟨s.queue.drops, rfl, fun hold => ?_⟩
    rw [hpolicy] at hold
    cases hold
  | some r =>
    obtain ⟨queue, verdict⟩ := r
    cases verdict with
    | false =>
      left
      obtain ⟨hqueue, _⟩ := BoundedQueue.push_refused hpush
      refine ⟨queue.drops, ?_, fun hold => ?_⟩
      · dsimp only
        rw [← hqueue]
      · by_contra hopen
        rw [BoundedQueue.policy_of_refused (by simpa using hopen) hpush] at hold
        cases hold
    | true =>
      right
      obtain ⟨hopen, hevicted, hq, _⟩ := BoundedQueue.push_accepted hpush
      exact ⟨queue, hopen, hevicted, hq, rfl⟩

/-- A turn of the worker: the test, an item taken, the queue found closed and empty, or an item handled. -/
lemma work_cases (s : QueueWorker α) :
    s.work = s ∨
    (s.worker = .testing ∧ s.work = { s with worker := if s.running then .popping else .exited }) ∨
    (∃ (x : Nat × α) (queue : BoundedQueue (Nat × α)), s.worker = .popping ∧ s.queue.q = x :: queue.q ∧
      s.work = { s with queue := queue, worker := .handling x }) ∨
    (s.worker = .popping ∧ s.queue.q = [] ∧ s.work = { s with worker := .exited }) ∨
    ∃ x, s.worker = .handling x ∧ s.work = { s with executed := s.executed ++ [x], worker := .testing } := by
  unfold work
  cases hworker : s.worker with
  | testing => exact .inr (.inl ⟨rfl, rfl⟩)
  | popping =>
    unfold BoundedQueue.pop
    cases hpop : s.queue.tryPop with
    | some r =>
      obtain ⟨x, queue⟩ := r
      exact .inr (.inr (.inl ⟨x, queue, rfl, (BoundedQueue.tryPop_eq_some hpop).1, rfl⟩))
    | none =>
      by_cases hclosed : s.queue.closed = true
      · have hempty : s.queue.q = [] := BoundedQueue.tryPop_eq_none hpop
        exact .inr (.inr (.inr (.inl ⟨rfl, hempty, by simp [hclosed]⟩)))
      · exact .inl (by simp [hclosed])
  | handling x => exact .inr (.inr (.inr (.inr ⟨x, rfl, rfl⟩)))
  | exited => exact .inl rfl

lemma stop_cases (s : QueueWorker α) :
    (s.stopper ≠ .idle ∧ s.stop = s) ∨
    (s.stopper = .idle ∧ s.stop = { s with running := false, stopper := .cleared, due := s.accepted }) ∨
    (s.stopper = .cleared ∧ s.stop = { s with queue := s.queue.close, stopper := .closed }) ∨
    (s.stopper = .closed ∧ s.worker = .exited ∧ s.stop = { s with stopper := .returned }) := by
  unfold stop
  cases hstopper : s.stopper with
  | idle => exact .inr (.inl ⟨rfl, rfl⟩)
  | cleared => exact .inr (.inr (.inl ⟨rfl, rfl⟩))
  | closed =>
    cases hworker : s.worker with
    | exited => exact .inr (.inr (.inr ⟨rfl, rfl, by simp⟩))
    | _ => exact .inl ⟨by simp, rfl⟩
  | returned => exact .inl ⟨by simp, rfl⟩

lemma Sound.push (h : s.Sound) (value : α) : (s.push value).Sound := by
  rcases s.push_cases value with ⟨drops, heq, _⟩ | ⟨queue, _, _, hq, heq⟩
  · rw [heq]
    exact ⟨h.numbered, h.order, h.due, h.cleared, h.returned⟩
  · rw [heq]
    refine ⟨?_, ?_, fun hstop => (h.due hstop).trans (List.prefix_append _ _), h.cleared, h.returned⟩
    · simp [h.numbered, List.range_succ]
    · dsimp only
      rw [hq, ← List.append_assoc]
      apply List.Sublist.append_right
      exact ((List.drop_sublist _ _).append_left _).trans h.order

lemma Sound.work (h : s.Sound) : s.work.Sound := by
  have horder := h.order
  rcases s.work_cases with heq | ⟨hworker, heq⟩ | ⟨x, queue, hworker, hq, heq⟩ | ⟨hworker, hq, heq⟩ |
    ⟨x, hworker, heq⟩
  · rw [heq]
    exact h
  · rw [heq]
    refine ⟨h.numbered, ?_, h.due, h.cleared, fun hret => ?_⟩
    · rw [hworker] at horder
      cases hrun : s.running <;> simpa [WorkerStage.inFlight] using horder
    · have hexited := h.returned hret
      rw [hworker] at hexited
      cases hexited
  · rw [heq]
    refine ⟨h.numbered, ?_, h.due, h.cleared, fun hret => ?_⟩
    · rw [hworker, hq] at horder
      simpa [WorkerStage.inFlight] using horder
    · have hexited := h.returned hret
      rw [hworker] at hexited
      cases hexited
  · rw [heq]
    refine ⟨h.numbered, ?_, h.due, h.cleared, fun _ => rfl⟩
    rw [hworker] at horder
    simpa [WorkerStage.inFlight] using horder
  · rw [heq]
    refine ⟨h.numbered, ?_, h.due, h.cleared, fun hret => ?_⟩
    · rw [hworker] at horder
      simpa [WorkerStage.inFlight] using horder
    · have hexited := h.returned hret
      rw [hworker] at hexited
      cases hexited

lemma Sound.stop (h : s.Sound) : s.stop.Sound := by
  rcases s.stop_cases with ⟨_, heq⟩ | ⟨_, heq⟩ | ⟨hstopper, heq⟩ | ⟨hstopper, hworker, heq⟩
  · rw [heq]
    exact h
  · rw [heq]
    exact ⟨h.numbered, h.order, fun _ => List.prefix_refl _, fun _ => rfl, fun hret => by cases hret⟩
  · have hbegun : s.stopper ≠ .idle := by simp [hstopper]
    rw [heq]
    exact ⟨h.numbered, h.order, fun _ => h.due hbegun, fun _ => h.cleared hbegun, fun hret => by cases hret⟩
  · have hbegun : s.stopper ≠ .idle := by simp [hstopper]
    rw [heq]
    exact ⟨h.numbered, h.order, fun _ => h.due hbegun, fun _ => h.cleared hbegun, fun _ => hworker⟩

lemma Sound.step (h : s.Sound) (a : WorkerAction α) : (s.step a).Sound := by
  cases a with
  | push value => exact h.push value
  | work => exact h.work
  | stop => exact h.stop

/-! ### What a step changes about the items that will have been executed -/

lemma Sound.lt_of_mem_queue (h : s.Sound) {x y : Nat × α} (hx : x ∈ s.executed ++ s.worker.inFlight)
    (hy : y ∈ s.queue.q) : x.1 < y.1 :=
  (List.pairwise_append.mp (h.pairwise.sublist h.order)).2.2 x hx y hy

lemma Sound.mem_accepted_of_queue (h : s.Sound) {x : Nat × α} (hx : x ∈ s.queue.q) : x ∈ s.accepted :=
  h.order.subset (List.mem_append_right _ hx)

lemma Sound.new_notMem_due (h : s.Sound) (hstop : s.stopper ≠ .idle) (value : α) :
    (s.accepted.length, value) ∉ s.due := by
  intro hmem
  have hlt := h.lt_length ((h.due hstop).subset hmem)
  exact Nat.lt_irrefl _ hlt

/-- What is due is covered by an item that is taken next only if it is covered without it, or that item is due. -/
lemma prefix_concat_iff_of_notMem {due base : List (Nat × α)} {x : Nat × α} (hx : x ∉ due) :
    due <+: base ++ [x] ↔ due <+: base := by
  rw [List.prefix_concat_iff]
  constructor
  · rintro (rfl | hdue)
    · exact absurd (List.mem_append_right _ (List.mem_singleton_self x)) hx
    · exact hdue
  · exact .inr

/-- A queued item that is not due is not needed: the worker covers what is due exactly if it has taken it. -/
lemma Sound.evicted_not_due_iff (h : s.Sound) (hstop : s.stopper ≠ .idle) {x : Nat × α} {xs : List (Nat × α)}
    (hq : s.queue.q = x :: xs) :
    s.due <+: s.executed ++ s.worker.inFlight ++ [x] ∧ s.due.length ≤ x.1 ↔
      s.due <+: s.executed ++ s.worker.inFlight := by
  have hx : x ∈ s.queue.q := by simp [hq]
  have hmem := h.mem_due_iff hstop (h.mem_accepted_of_queue hx)
  constructor
  · rintro ⟨hdue, hlength⟩
    have hnot : x ∉ s.due := by
      rw [hmem]
      omega
    exact (prefix_concat_iff_of_notMem hnot).mp hdue
  · intro hdue
    refine ⟨hdue.trans (List.prefix_append _ _), ?_⟩
    by_contra hlength
    have hlt := h.lt_of_mem_queue (hdue.subset (hmem.mpr (by omega))) hx
    exact Nat.lt_irrefl _ hlt

/-- The item behind a queued one cannot be the only one missing. -/
lemma Sound.second_iff (h : s.Sound) (hstop : s.stopper ≠ .idle) {x y : Nat × α} {xs : List (Nat × α)}
    (hq : s.queue.q = x :: xs) (hy : y ∈ xs) :
    s.due <+: s.executed ++ s.worker.inFlight ++ [y] ↔ s.due <+: s.executed ++ s.worker.inFlight := by
  have hx : x ∈ s.queue.q := by simp [hq]
  have hsorted : x.1 < y.1 := by
    have hqueue := h.pairwise.sublist ((List.sublist_append_right _ _).trans h.order)
    rw [hq, List.pairwise_cons] at hqueue
    exact hqueue.1 y hy
  rw [List.prefix_concat_iff]
  constructor
  · rintro (hdue | hdue)
    · have hylt : y.1 < s.due.length := by
        apply (h.mem_due_iff hstop (h.mem_accepted_of_queue (by simp [hq, hy]))).mp
        simp [hdue]
      have hxdue : x ∈ s.due := (h.mem_due_iff hstop (h.mem_accepted_of_queue hx)).mpr (hsorted.trans hylt)
      rw [hdue] at hxdue
      rcases List.mem_append.mp hxdue with htaken | hlast
      · exact absurd (h.lt_of_mem_queue htaken hx) (Nat.lt_irrefl _)
      · rw [List.mem_singleton.mp hlast] at hsorted
        exact absurd hsorted (Nat.lt_irrefl _)
    · exact hdue
  · exact .inr

/-- Overwriting the head leaves the worker with the item behind it, or with the new one. -/
lemma Sound.covers_overwritten_iff (h : s.Sound) (hstop : s.stopper ≠ .idle) {x : Nat × α} {xs : List (Nat × α)}
    (hq : s.queue.q = x :: xs) (value : α) :
    s.due <+: s.executed ++ s.worker.inFlight ++ (xs ++ [(s.accepted.length, value)]).take 1 ↔
      s.due <+: s.executed ++ s.worker.inFlight := by
  cases xs with
  | nil => exact prefix_concat_iff_of_notMem (h.new_notMem_due hstop value)
  | cons y ys =>
    have htake : (y :: ys ++ [(s.accepted.length, value)]).take 1 = [y] := rfl
    rw [htake]
    exact h.second_iff hstop hq (by simp)

lemma inFlight_of_slots_pos (h : s.slots ≠ 0) : s.slots = 1 ∧ s.worker.inFlight = [] := by
  unfold slots at *
  cases hworker : s.worker with
  | popping => exact ⟨rfl, rfl⟩
  | _ => simp [hworker] at h

/-- What the worker will still run covers the due jobs after a push exactly if it did so before and none of the
overwritten jobs is due. -/
lemma Sound.due_prefix_push_iff (h : s.Sound) (hstop : s.stopper ≠ .idle) (value : α) :
    s.due <+: s.executed ++ s.worker.inFlight ++
        (s.queue.q.drop s.queue.evicted.length ++ [(s.accepted.length, value)]).take s.slots ↔
      s.due <+: s.executed ++ s.worker.inFlight ++ s.queue.q.take s.slots ∧
        ∀ x ∈ s.queue.evicted, s.due.length ≤ x.1 := by
  by_cases hslots : s.slots = 0
  · rw [hslots, List.take_zero, List.take_zero, List.append_nil, iff_self_and]
    intro hdue x hx
    have hmem : x ∈ s.queue.q := by
      rw [← s.queue.evicted_append_drop]
      exact List.mem_append_left _ hx
    by_contra hlength
    have hxdue := (h.mem_due_iff hstop (h.mem_accepted_of_queue hmem)).mpr (by omega)
    exact absurd (h.lt_of_mem_queue (hdue.subset hxdue) hmem) (Nat.lt_irrefl _)
  · obtain ⟨hone, _⟩ := inFlight_of_slots_pos hslots
    rw [hone]
    by_cases hnone : s.queue.evicted = []
    · -- nothing is overwritten: the new item matters only to an empty queue
      simp only [hnone, List.length_nil, List.drop_zero, List.not_mem_nil, false_implies, implies_true, and_true]
      cases hqueue : s.queue.q with
      | nil =>
        rw [List.take_nil, List.append_nil]
        exact prefix_concat_iff_of_notMem (h.new_notMem_due hstop value)
      | cons x xs => rfl
    · unfold BoundedQueue.evicted at hnone ⊢
      by_cases hfull : s.queue.capacity ≤ s.queue.q.length
      · rw [if_pos hfull] at hnone ⊢
        cases hqueue : s.queue.q with
        | nil => simp [hqueue] at hnone
        | cons x xs =>
          have hiff := h.evicted_not_due_iff hstop hqueue
          have hover := h.covers_overwritten_iff hstop hqueue value
          simpa using hover.trans hiff.symm
      · rw [if_neg hfull] at hnone
        exact absurd rfl hnone

lemma Sound.covers_push (h : s.Sound) (value : α) :
    (s.push value).Covers ↔ s.Covers ∧ s.LeavesNothing (.push value) := by
  rcases s.push_cases value with ⟨drops, heq, hold⟩ | ⟨queue, hopen, hevicted, hq, heq⟩
  · -- refused: the queue keeps its items and is closed if it could overwrite any
    have hcovers : (s.push value).Covers ↔ s.Covers := by
      rw [heq]
      rfl
    rw [hcovers, iff_self_and]
    intro _ _ hpolicy hclosed
    rw [hold hpolicy] at hclosed
    cases hclosed
  · by_cases hstop : s.stopper = .idle
    · rw [heq]
      simp [Covers, LeavesNothing, hstop]
    · have hleaves : s.LeavesNothing (.push value) ↔ ∀ x ∈ s.queue.evicted, s.due.length ≤ x.1 := by
        constructor
        · intro hl x hx
          exact hl hstop (hevicted (List.ne_nil_of_mem hx)) hopen x hx
        · intro hl _ _ _
          exact hl
      have hafter : (s.push value).Covers ↔ s.due <+: s.executed ++ s.worker.inFlight ++
          (s.queue.q.drop s.queue.evicted.length ++ [(s.accepted.length, value)]).take s.slots := by
        rw [heq, ← hq]
        exact ⟨fun hc => hc hstop, fun hc _ => hc⟩
      have hbefore : s.Covers ↔ s.due <+: s.executed ++ s.worker.inFlight ++ s.queue.q.take s.slots :=
        ⟨fun hc => hc hstop, fun hc _ => hc⟩
      rw [hafter, hbefore, hleaves]
      exact h.due_prefix_push_iff hstop value

lemma final_work (hrunning : s.running = false) : s.work.final = s.final := by
  unfold final slots
  rcases s.work_cases with heq | ⟨hworker, heq⟩ | ⟨x, queue, hworker, hq, heq⟩ | ⟨hworker, hq, heq⟩ |
    ⟨x, hworker, heq⟩
  · rw [heq]
  · rw [heq]
    simp [hworker, hrunning, WorkerStage.inFlight]
  · rw [heq]
    simp [hworker, hq, WorkerStage.inFlight]
  · rw [heq]
    simp [hworker, hq, WorkerStage.inFlight]
  · rw [heq]
    simp [hworker, WorkerStage.inFlight]

lemma stopper_work : s.work.stopper = s.stopper ∧ s.work.due = s.due := by
  rcases s.work_cases with heq | ⟨_, heq⟩ | ⟨_, _, _, _, heq⟩ | ⟨_, _, heq⟩ | ⟨_, _, heq⟩
  all_goals
    rw [heq]
    exact ⟨rfl, rfl⟩

lemma Sound.covers_work (h : s.Sound) : s.work.Covers ↔ s.Covers ∧ s.LeavesNothing .work := by
  obtain ⟨hstopper, hdue⟩ := stopper_work (s := s)
  have htrue : s.LeavesNothing .work := trivial
  by_cases hstop : s.stopper = .idle
  · simp [Covers, hstopper, hstop, htrue]
  · unfold Covers
    rw [hstopper, hdue, final_work (h.cleared hstop)]
    simp [htrue]

/-- The worker will have executed everything accepted exactly if nothing is missing and it takes all that is
queued. -/
lemma Sound.accepted_prefix_iff (h : s.Sound) :
    s.accepted <+: s.final ↔
      s.accepted.length = s.executed.length + s.worker.inFlight.length + s.queue.q.length ∧
        s.queue.q.length ≤ s.slots := by
  have hlength := h.order.length_le
  rw [List.length_append, List.length_append] at hlength
  constructor
  · intro hprefix
    have hle := hprefix.length_le
    unfold final at hle
    rw [List.length_append, List.length_append, List.length_take] at hle
    omega
  · rintro ⟨htotal, hslots⟩
    have hall : s.executed ++ s.worker.inFlight ++ s.queue.q = s.accepted := by
      apply h.order.eq_of_length
      rw [List.length_append, List.length_append, htotal]
    unfold final
    rw [List.take_of_length_le hslots, hall]

lemma Sound.covers_stop (h : s.Sound) : s.stop.Covers ↔ s.Covers ∧ s.LeavesNothing .stop := by
  rcases s.stop_cases with ⟨hbegun, heq⟩ | ⟨hstopper, heq⟩ | ⟨hstopper, heq⟩ | ⟨hstopper, _, heq⟩
  · rw [heq, iff_self_and]
    intro _ hidle
    exact absurd hidle hbegun
  · have hcovers : s.stop.Covers ↔ s.accepted <+: s.final := by
      rw [heq]
      exact ⟨fun hc => hc (by simp), fun hc _ => hc⟩
    rw [hcovers, h.accepted_prefix_iff]
    simp [Covers, LeavesNothing, hstopper]
  · rw [heq]
    simp [Covers, LeavesNothing, hstopper]
    rfl
  · rw [heq]
    simp [Covers, LeavesNothing, hstopper]
    rfl

lemma Sound.covers_step (h : s.Sound) (a : WorkerAction α) : (s.step a).Covers ↔ s.Covers ∧ s.LeavesNothing a := by
  cases a with
  | push value => exact h.covers_push value
  | work => exact h.covers_work
  | stop => exact h.covers_stop

lemma Sound.drained_iff (h : s.Sound) (hreturned : s.stopper = .returned) : s.Drained ↔ s.Covers := by
  have hbegun : s.stopper ≠ .idle := by simp [hreturned]
  have hfinal : s.final = s.executed := by simp [final, slots, h.returned hreturned, WorkerStage.inFlight]
  constructor
  · intro hdrained _
    rw [hfinal]
    exact hdrained.executed
  · intro hcovers
    have horder : s.executed.Sublist s.accepted := by
      have hall := h.order
      rw [List.append_assoc] at hall
      exact (List.sublist_append_left _ _).trans hall
    refine ⟨?_, horder, ?_⟩
    · rw [← hfinal]
      exact hcovers hbegun
    · apply (h.pairwise.sublist horder).imp
      intro x y hlt heq
      rw [heq] at hlt
      exact Nat.lt_irrefl _ hlt

/-- A stop that returns has drained the queue exactly if, when it began, nothing had been overwritten and the
worker was about to take all that was queued, and no later push overwrote an item of before. -/
theorem stop_drains_iff (capacity : Nat) (policy : OverflowPolicy) (as : List (WorkerAction α))
    (hreturned : (Runs.exec step (create capacity policy : QueueWorker α) as).stopper = .returned) :
    (Runs.exec step (create capacity policy) as).Drained ↔
      Runs.Along step LeavesNothing (create capacity policy : QueueWorker α) as := by
  have hsound := sound_create (α := α) capacity policy
  have hrun : (Runs.exec step (create capacity policy : QueueWorker α) as).Sound :=
    Runs.exec_invariant Sound (fun s a h => Sound.step h a) hsound as
  have hcovers : (create capacity policy : QueueWorker α).Covers := fun h => absurd rfl h
  rw [hrun.drained_iff hreturned,
    Runs.exec_iff_along (I := Sound) (Q := Covers)
      (fun s a h => Sound.step h a) (fun s a h => h.covers_step a) hsound as]
  exact and_iff_right hcovers

/-- Two jobs are accepted and executed before the stop. -/
theorem idle_worker_drains :
    (Runs.exec step (create 4 .dropNewest) [.push "user turn", .work, .work, .push "assistant turn", .work, .work,
      .work, .work, .stop, .stop, .work, .stop]).Drained := by
  apply (stop_drains_iff 4 .dropNewest _ (by decide)).mpr
  decide

/-- The stop begins while the worker handles the first job: the second was accepted and is never executed. -/
theorem busy_worker_leaves_a_job :
    ∃ s : QueueWorker String, s = Runs.exec step (create 4 .dropNewest) [.work, .push "user turn", .work,
      .push "assistant turn", .stop, .stop, .work, .work, .stop] ∧
      s.stopper = .returned ∧ s.due = [(0, "user turn"), (1, "assistant turn")] ∧
      s.executed = [(0, "user turn")] ∧ ¬s.Drained := by
  refine ⟨_, rfl, by decide, by decide, by decide, ?_⟩
  intro h
  exact absurd h.executed (by decide)

end QueueWorker

end Acva
