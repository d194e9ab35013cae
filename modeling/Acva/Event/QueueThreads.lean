import Acva.Event.BoundedQueue
import Acva.Lib.Runs

/-!
# A queue shared by threads

Any number of threads push, pop and close. A step is one critical section; a `Block` producer that finds
no room lets go of the lock and tests again when it wakes up, which is a step of its own. The world keeps
the items in the order in which they were accepted, handed out and overwritten.
-/

namespace Acva

/-- `waiting` holds the item of a producer inside `not_full_.wait`. -/
structure QueueThreads (ι α : Type*) where
  queue : BoundedQueue α
  waiting : ι → Option α := fun _ => none
  accepted : List α := []
  popped : List α := []
  evicted : List α := []

inductive QueueAction (ι α : Type*)
  | push (t : ι) (value : α)
  | wake (t : ι)
  | pop
  | tryPop
  | popUntil (expired : Bool)
  | close

namespace QueueThreads

variable {ι α : Type*} [DecidableEq ι]

def create (capacity : Nat) (policy : OverflowPolicy) : QueueThreads ι α :=
  { queue := { capacity := capacity, policy := policy } }

/-- The critical section of `push`, from its start or from the wait on. -/
def pushNow (w : QueueThreads ι α) (t : ι) (value : α) : QueueThreads ι α :=
  match w.queue.push value with
  | none => { w with waiting := Function.update w.waiting t (some value) }
  | some (queue, true) =>
    { w with queue := queue
             waiting := Function.update w.waiting t none
             accepted := w.accepted ++ [value]
             evicted := w.evicted ++ w.queue.evicted }
  | some (queue, false) => { w with queue := queue, waiting := Function.update w.waiting t none }

/-- The end of a pop; one that has to wait is not a step. -/
def taken (w : QueueThreads ι α) (r : Option (Option α × BoundedQueue α)) : QueueThreads ι α :=
  match r with
  | some (some x, queue) => { w with queue := queue, popped := w.popped ++ [x] }
  | _ => w

def step (w : QueueThreads ι α) : QueueAction ι α → QueueThreads ι α
  | .push t value => if (w.waiting t).isSome then w else w.pushNow t value
  | .wake t =>
    match w.waiting t with
    | some value => w.pushNow t value
    | none => w
  | .pop => w.taken w.queue.pop
  | .tryPop => w.taken (w.queue.tryPop.map fun r => (some r.1, r.2))
  | .popUntil expired => w.taken (w.queue.popUntil expired)
  | .close => { w with queue := w.queue.close }

/-- The head of the queue, if there is one, is handed out. -/
def takeFront (w : QueueThreads ι α) : QueueThreads ι α :=
  match w.queue.tryPop with
  | some (x, queue) => { w with queue := queue, popped := w.popped ++ [x] }
  | none => w

omit [DecidableEq ι] in
lemma taken_pop (w : QueueThreads ι α) : w.taken w.queue.pop = w.takeFront := by
  unfold taken takeFront BoundedQueue.pop
  cases w.queue.tryPop with
  | none => cases w.queue.closed <;> rfl
  | some r => rfl

omit [DecidableEq ι] in
lemma taken_tryPop (w : QueueThreads ι α) :
    w.taken (w.queue.tryPop.map fun r => (some r.1, r.2)) = w.takeFront := by
  unfold taken takeFront
  cases w.queue.tryPop <;> rfl

omit [DecidableEq ι] in
lemma taken_popUntil (w : QueueThreads ι α) (expired : Bool) :
    w.taken (w.queue.popUntil expired) = w.takeFront := by
  unfold taken takeFront BoundedQueue.popUntil
  cases w.queue.tryPop with
  | none => cases w.queue.closed <;> cases expired <;> rfl
  | some r => rfl

/-- Every step is a critical section of `push`, a pop or the close. -/
lemma step_cases (w : QueueThreads ι α) (a : QueueAction ι α) :
    w.step a = w ∨ (∃ t value, w.step a = w.pushNow t value) ∨ w.step a = w.takeFront ∨
      w.step a = { w with queue := w.queue.close } := by
  cases a with
  | push t value =>
    simp only [step]
    split
    · exact .inl rfl
    · exact .inr (.inl ⟨t, value, rfl⟩)
  | wake t =>
    simp only [step]
    split
    · exact .inr (.inl ⟨t, _, rfl⟩)
    · exact .inl rfl
  | pop => exact .inr (.inr (.inl (taken_pop w)))
  | tryPop => exact .inr (.inr (.inl (taken_tryPop w)))
  | popUntil expired => exact .inr (.inr (.inl (taken_popUntil w expired)))
  | close => exact .inr (.inr (.inr rfl))

/-! ### The accounts -/

/-- The bound, the order and the counts of a queue of the given capacity and policy. -/
structure Accounted (n : Nat) (p : OverflowPolicy) (w : QueueThreads ι α) : Prop where
  capacity : w.queue.capacity = n
  policy : w.queue.policy = p
  bounded : w.queue.q.length ≤ n
  order : (w.popped ++ w.queue.q).Sublist w.accepted
  pushes : w.queue.pushes = w.accepted.length
  pops : w.queue.pops = w.popped.length
  count : w.accepted.length = w.popped.length + w.queue.q.length + w.evicted.length
  evicted : p ≠ .dropOldest → w.evicted = []
  drops : p = .dropOldest → w.queue.drops = w.evicted.length

variable {n : Nat} {p : OverflowPolicy} {w : QueueThreads ι α}

omit [DecidableEq ι] in
lemma Accounted.accepted {queue : BoundedQueue α} {value : α} (hpos : 0 < n) (h : w.Accounted n p)
    (hpush : w.queue.push value = some (queue, true)) (waiting : ι → Option α) :
    ({ w with queue := queue
              waiting := waiting
              accepted := w.accepted ++ [value]
              evicted := w.evicted ++ w.queue.evicted } : QueueThreads ι α).Accounted n p := by
  have hcapacity : 0 < w.queue.capacity := by rw [h.capacity]; exact hpos
  obtain ⟨_, hevicted, hq, hqueue⟩ := BoundedQueue.push_accepted hpush
  have hdrops := BoundedQueue.drops_of_accepted hcapacity hpush
  have hsplit := congrArg List.length w.queue.evicted_append_drop
  rw [List.length_append] at hsplit
  have hroom := w.queue.length_drop_evicted (h.capacity ▸ h.bounded) hcapacity
  have hcount := h.count
  refine ⟨?_, ?_, ?_, ?_, ?_, ?_, ?_, ?_, ?_⟩
  · rw [hqueue]
    exact h.capacity
  · rw [hqueue]
    exact h.policy
  · rw [← h.capacity, hq, List.length_append]
    exact hroom
  · dsimp only
    rw [hq, ← List.append_assoc]
    apply List.Sublist.append _ (List.Sublist.refl _)
    exact (List.Sublist.append_left (List.drop_sublist _ _) _).trans h.order
  · rw [hqueue]
    simp [h.pushes]
  · rw [hqueue]
    exact h.pops
  · simp only [hq, List.length_append, List.length_singleton]
    omega
  · intro hpolicy
    have hnone : w.queue.evicted = [] := by
      by_contra hsome
      exact hpolicy (h.policy.symm.trans (hevicted hsome))
    rw [h.evicted hpolicy, hnone]
    rfl
  · intro hpolicy
    rw [hdrops, h.drops hpolicy, List.length_append]

omit [DecidableEq ι] in
lemma Accounted.refused {queue : BoundedQueue α} {value : α} (h : w.Accounted n p)
    (hpush : w.queue.push value = some (queue, false)) (waiting : ι → Option α) :
    ({ w with queue := queue, waiting := waiting } : QueueThreads ι α).Accounted n p := by
  obtain ⟨hqueue, hdrops⟩ := BoundedQueue.push_refused hpush
  refine ⟨?_, ?_, ?_, ?_, ?_, ?_, ?_, h.evicted, fun hpolicy => ?_⟩
  · rw [hqueue]
    exact h.capacity
  · rw [hqueue]
    exact h.policy
  · rw [hqueue]
    exact h.bounded
  · rw [hqueue]
    exact h.order
  · rw [hqueue]
    exact h.pushes
  · rw [hqueue]
    exact h.pops
  · rw [hqueue]
    exact h.count
  · rw [hdrops (h.policy.trans hpolicy)]
    exact h.drops hpolicy

lemma Accounted.pushNow (hpos : 0 < n) (h : w.Accounted n p) (t : ι) (value : α) :
    (w.pushNow t value).Accounted n p := by
  unfold QueueThreads.pushNow
  split
  · exact ⟨h.capacity, h.policy, h.bounded, h.order, h.pushes, h.pops, h.count, h.evicted, h.drops⟩
  · rename_i queue hpush
    exact h.accepted hpos hpush _
  · rename_i queue hpush
    exact h.refused hpush _

omit [DecidableEq ι] in
lemma Accounted.takeFront (h : w.Accounted n p) : w.takeFront.Accounted n p := by
  unfold QueueThreads.takeFront
  split
  · rename_i x queue hpop
    obtain ⟨hq, hqueue⟩ := BoundedQueue.tryPop_eq_some hpop
    have hlength := congrArg List.length hq
    rw [List.length_cons] at hlength
    have hbounded := h.bounded
    have hcount := h.count
    rw [hqueue]
    refine ⟨h.capacity, h.policy, ?_, ?_, h.pushes, ?_, ?_, h.evicted, h.drops⟩
    · dsimp only
      omega
    · dsimp only
      rw [List.append_assoc, List.singleton_append, ← hq]
      exact h.order
    · simp [h.pops]
    · simp only [List.length_append, List.length_singleton]
      omega
  · exact h

lemma Accounted.step (hpos : 0 < n) (h : w.Accounted n p) (a : QueueAction ι α) :
    (w.step a).Accounted n p := by
  rcases w.step_cases a with hstep | ⟨t, value, hstep⟩ | hstep | hstep
  · rw [hstep]
    exact h
  · rw [hstep]
    exact h.pushNow hpos t value
  · rw [hstep]
    exact h.takeFront
  · rw [hstep]
    exact ⟨h.capacity, h.policy, h.bounded, h.order, h.pushes, h.pops, h.count, h.evicted, h.drops⟩

omit [DecidableEq ι] in
lemma accounted_create (n : Nat) (p : OverflowPolicy) :
    (create n p : QueueThreads ι α).Accounted n p :=
  ⟨rfl, rfl, Nat.zero_le _, List.Sublist.refl _, rfl, rfl, rfl, fun _ => rfl, fun _ => rfl⟩

omit [DecidableEq ι] in
/-- Where nothing is overwritten, what was accepted was handed out or is still queued. -/
lemma Accounted.accepted_eq (h : w.Accounted n p) (hpolicy : p ≠ .dropOldest) :
    w.accepted = w.popped ++ w.queue.q := by
  have hcount := h.count
  rw [h.evicted hpolicy, List.length_nil] at hcount
  apply (h.order.eq_of_length _).symm
  rw [List.length_append]
  omega

/-! ### After the close -/

/-- Nothing is accepted any more, and nothing is lost. -/
structure Closing (c w : QueueThreads ι α) : Prop where
  closed : w.queue.closed = true
  accepted : w.accepted = c.accepted
  rest : w.popped ++ w.queue.q = c.popped ++ c.queue.q

lemma Closing.step {c : QueueThreads ι α} (h : c.Closing w) (a : QueueAction ι α) : c.Closing (w.step a) := by
  rcases w.step_cases a with hstep | ⟨t, value, hstep⟩ | hstep | hstep
  · rw [hstep]
    exact h
  · have hpush : w.queue.push value = some (w.queue, false) := by simp [BoundedQueue.push, h.closed]
    rw [hstep]
    simp only [pushNow, hpush]
    exact ⟨h.closed, h.accepted, h.rest⟩
  · rw [hstep]
    unfold takeFront
    split
    · rename_i x queue hpop
      obtain ⟨hq, hqueue⟩ := BoundedQueue.tryPop_eq_some hpop
      refine ⟨?_, h.accepted, ?_⟩
      · rw [hqueue]
        exact h.closed
      · dsimp only
        rw [List.append_assoc, List.singleton_append, ← hq]
        exact h.rest
    · exact h
  · rw [hstep]
    exact ⟨rfl, h.accepted, h.rest⟩

lemma exec_pop (w : QueueThreads ι α) :
    let w' := Runs.exec step w (List.replicate w.queue.q.length .pop)
    w'.popped = w.popped ++ w.queue.q ∧ w'.queue.q = [] := by
  generalize hq : w.queue.q = q
  induction q generalizing w with
  | nil => simp [hq]
  | cons x q ih =>
    have hstep : w.step .pop = { w with queue := { w.queue with q := q, pops := w.queue.pops + 1 }
                                        popped := w.popped ++ [x] } := by
      simp [step, taken_pop, takeFront, BoundedQueue.tryPop, hq]
    have hrest := ih (w.step .pop) (by rw [hstep])
    rw [List.length_cons, List.replicate_succ, Runs.exec_cons]
    simpa [hstep] using hrest

/-- A bounded queue under any use by any number of threads. -/
theorem queue_accounts {n : Nat} (hpos : 0 < n) (p : OverflowPolicy) (as : List (QueueAction ι α)) :
    let w := Runs.exec step (create n p) as
    w.queue.q.length ≤ n ∧ w.popped.Sublist w.accepted ∧
      w.queue.pushes = w.queue.pops + w.queue.q.length + w.evicted.length ∧
      (p ≠ .dropOldest → w.evicted = [] ∧ w.accepted = w.popped ++ w.queue.q) ∧
      ∀ before after, as = before ++ .close :: after →
        let c := Runs.exec step (create n p) before
        w.accepted = c.accepted ∧ w.popped ++ w.queue.q = c.popped ++ c.queue.q ∧
          (Runs.exec step w (List.replicate w.queue.q.length .pop)).popped = c.popped ++ c.queue.q := by
  intro w
  have h : w.Accounted n p :=
    Runs.exec_invariant (Accounted n p) (fun w a hw => hw.step hpos a) (accounted_create n p) as
  refine ⟨h.bounded, ?_, ?_, fun hpolicy => ⟨h.evicted hpolicy, h.accepted_eq hpolicy⟩, ?_⟩
  · exact (List.sublist_append_left _ _).trans h.order
  · rw [h.pushes, h.pops, h.count]
  · rintro before after rfl c
    have hclosing : c.Closing w := by
      have hw : w = Runs.exec step { c with queue := c.queue.close } after := by
        simp only [w, Runs.exec_append, Runs.exec_cons]
        rfl
      have hstart : c.Closing { c with queue := c.queue.close } := ⟨rfl, rfl, rfl⟩
      rw [hw]
      exact Runs.exec_invariant c.Closing (fun w a hw => hw.step a) hstart after
    refine ⟨hclosing.accepted, hclosing.rest, ?_⟩
    rw [(exec_pop w).1]
    exact hclosing.rest

/-- The second producer waits for the first item to be taken, the third one for a room that never comes. -/
theorem contended_queue_accounts :
    let as : List (QueueAction Nat Nat) := [.push 0 5, .push 1 6, .push 2 7, .pop, .wake 1, .wake 2, .close, .wake 2]
    let w := Runs.exec step (create 1 .block) as
    w.accepted = [5, 6] ∧ w.accepted = w.popped ++ w.queue.q := by
  refine ⟨by decide, ?_⟩
  exact ((queue_accounts Nat.one_pos .block _).2.2.2.1 (by decide)).2

end QueueThreads

end Acva
