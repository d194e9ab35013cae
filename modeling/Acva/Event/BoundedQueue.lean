import Mathlib.Tactic.Common

/-!
# Bounded queues

`BoundedQueue`: a deque with a capacity and an overflow policy behind one lock. Each function here is
one critical section; a `push` that has to wait for space is not a step.
-/

namespace Acva

inductive OverflowPolicy
  | dropOldest
  | dropNewest
  | block
  deriving DecidableEq, Repr

structure BoundedQueue (α : Type*) where
  capacity : Nat
  policy : OverflowPolicy
  q : List α := []
  closed : Bool := false
  pushes : Nat := 0
  pops : Nat := 0
  drops : Nat := 0
  deriving DecidableEq, Repr

namespace BoundedQueue

variable {α : Type*}

def accept (b : BoundedQueue α) (value : α) : BoundedQueue α :=
  { b with q := b.q ++ [value], pushes := b.pushes + 1 }

/-- The queue and whether the item was accepted; nothing while a `Block` producer has to wait. -/
def push (b : BoundedQueue α) (value : α) : Option (BoundedQueue α × Bool) :=
  if b.closed then some (b, false)
  else if b.capacity ≤ b.q.length then
    match b.policy with
    | .dropOldest => some (({ b with q := b.q.tail, drops := b.drops + 1 }).accept value, true)
    | .dropNewest => some ({ b with drops := b.drops + 1 }, false)
    | .block => none
  else some (b.accept value, true)

def tryPop (b : BoundedQueue α) : Option (α × BoundedQueue α) :=
  match b.q with
  | [] => none
  | x :: xs => some (x, { b with q := xs, pops := b.pops + 1 })

/-- Nothing while the consumer has to wait; then an item, or none once the queue is closed and empty. -/
def pop (b : BoundedQueue α) : Option (Option α × BoundedQueue α) :=
  match b.tryPop with
  | some (x, b') => some (some x, b')
  | none => if b.closed then some (none, b) else none

/-- The deadline ends the wait, but an item that is there is still taken. -/
def popUntil (b : BoundedQueue α) (expired : Bool) : Option (Option α × BoundedQueue α) :=
  match b.tryPop with
  | some (x, b') => some (some x, b')
  | none => if b.closed || expired then some (none, b) else none

def close (b : BoundedQueue α) : BoundedQueue α := { b with closed := true }

/-- A consumer pops until the queue is empty. -/
def drain (b : BoundedQueue α) : List α × BoundedQueue α :=
  (b.q, { b with q := [], pops := b.pops + b.q.length })

lemma drain_of_tryPop {b b' : BoundedQueue α} {x : α} (h : b.tryPop = some (x, b')) :
    b.drain = (x :: b'.drain.1, b'.drain.2) := by
  cases hq : b.q with
  | nil => simp [tryPop, hq] at h
  | cons y ys =>
    simp only [tryPop, hq, Option.some.injEq, Prod.mk.injEq] at h
    obtain ⟨rfl, rfl⟩ := h
    simp [drain, hq]
    omega

lemma drain_of_tryPop_none {b : BoundedQueue α} (h : b.tryPop = none) : b.drain = ([], b) := by
  cases hq : b.q with
  | nil =>
    obtain ⟨capacity, policy, q, closed, pushes, pops, drops⟩ := b
    subst hq
    rfl
  | cons y ys => simp [tryPop, hq] at h

/-! ### Queues that make the producer wait -/

/-- A producer has to wait only for room in an open `Block` queue. -/
lemma push_eq_none_iff (b : BoundedQueue α) (value : α) :
    b.push value = none ↔ b.closed = false ∧ b.capacity ≤ b.q.length ∧ b.policy = .block := by
  unfold push
  by_cases hclosed : b.closed = true
  · simp [hclosed]
  · by_cases hfull : b.capacity ≤ b.q.length
    · cases hpolicy : b.policy <;> simp [hclosed, hfull]
    · simp [hclosed, hfull]

/-- A push into a `Block` queue that does not wait finds it closed, or with room for the item. -/
lemma push_of_block {b : BoundedQueue α} {value : α} {r : BoundedQueue α × Bool} (hpolicy : b.policy = .block)
    (h : b.push value = some r) :
    b.closed = true ∧ r.1 = b ∨ b.closed = false ∧ b.q.length < b.capacity ∧ r.1 = b.accept value := by
  unfold push at h
  by_cases hclosed : b.closed = true
  · rw [if_pos hclosed] at h
    cases h
    exact .inl ⟨hclosed, rfl⟩
  · rw [if_neg hclosed] at h
    by_cases hfull : b.capacity ≤ b.q.length
    · rw [if_pos hfull, hpolicy] at h
      cases h
    · rw [if_neg hfull] at h
      cases h
      exact .inr ⟨by simpa using hclosed, by omega, rfl⟩

lemma tryPop_eq_some {b b' : BoundedQueue α} {x : α} (h : b.tryPop = some (x, b')) :
    b.q = x :: b'.q ∧ b' = { b with q := b'.q, pops := b.pops + 1 } := by
  unfold tryPop at h
  cases hq : b.q with
  | nil => simp [hq] at h
  | cons y ys =>
    simp only [hq, Option.some.injEq, Prod.mk.injEq] at h
    obtain ⟨rfl, rfl⟩ := h
    exact ⟨rfl, rfl⟩

lemma tryPop_eq_none {b : BoundedQueue α} (h : b.tryPop = none) : b.q = [] := by
  unfold tryPop at h
  cases hq : b.q with
  | nil => rfl
  | cons x xs => simp [hq] at h

/-- A `Block` queue within its capacity. -/
structure Blocking (b : BoundedQueue α) : Prop where
  policy : b.policy = .block
  bounded : b.q.length ≤ b.capacity

lemma Blocking.push {b : BoundedQueue α} {value : α} {r : BoundedQueue α × Bool} (h : b.Blocking)
    (hpush : b.push value = some r) : r.1.Blocking := by
  rcases push_of_block h.policy hpush with ⟨_, hr⟩ | ⟨_, hlt, hr⟩
  · rw [hr]
    exact h
  · rw [hr]
    refine ⟨h.policy, ?_⟩
    simp only [accept, List.length_append, List.length_singleton]
    omega

lemma Blocking.tryPop {b b' : BoundedQueue α} {x : α} (h : b.Blocking) (hpop : b.tryPop = some (x, b')) :
    b'.Blocking ∧ b'.q.length < b'.capacity := by
  obtain ⟨hq, hrest⟩ := tryPop_eq_some hpop
  have hcapacity : b'.capacity = b.capacity := by rw [hrest]
  have hpolicy : b'.policy = b.policy := by rw [hrest]
  have hlength : b'.q.length + 1 = b.q.length := by rw [hq, List.length_cons]
  have hbounded := h.bounded
  exact ⟨⟨hpolicy.trans h.policy, by omega⟩, by omega⟩

lemma Blocking.close {b : BoundedQueue α} (h : b.Blocking) : b.close.Blocking := ⟨h.policy, h.bounded⟩

/-! ### Queues that drop the oldest item -/

/-- Pushing without looking at the result. -/
def post (b : BoundedQueue α) (value : α) : BoundedQueue α :=
  match b.push value with
  | some r => r.1
  | none => b

lemma mem_post {b : BoundedQueue α} {value x : α} (h : x ∈ (b.post value).q) : x ∈ b.q ∨ x = value := by
  have haccept : ∀ c : BoundedQueue α, (∀ y ∈ c.q, y ∈ b.q) → x ∈ (c.accept value).q → x ∈ b.q ∨ x = value := by
    intro c hc hx
    rcases List.mem_append.mp hx with hx | hx
    · exact .inl (hc x hx)
    · exact .inr (List.mem_singleton.mp hx)
  unfold post push at h
  split at h
  · rename_i r hr
    split at hr
    · cases hr
      exact .inl h
    · split at hr
      · split at hr
        · cases hr
          exact haccept _ (fun y hy => List.mem_of_mem_tail hy) h
        · cases hr
          exact .inl h
        · cases hr
      · cases hr
        exact haccept b (fun y hy => hy) h
  · exact .inl h

lemma mem_of_tryPop {b b' : BoundedQueue α} {x : α} (h : b.tryPop = some (x, b')) :
    x ∈ b.q ∧ ∀ y ∈ b'.q, y ∈ b.q := by
  unfold tryPop at h
  cases hq : b.q with
  | nil => simp [hq] at h
  | cons z zs =>
    simp only [hq, Option.some.injEq, Prod.mk.injEq] at h
    obtain ⟨rfl, rfl⟩ := h
    exact ⟨List.mem_cons_self, fun y hy => List.mem_cons_of_mem _ hy⟩

/-- The item that a push drops to make room. -/
def evicted (b : BoundedQueue α) : List α := if b.capacity ≤ b.q.length then b.q.take 1 else []

/-- A push that is refused changes no more than the count of drops, and that only under `DropNewest`. -/
lemma push_refused {b b' : BoundedQueue α} {value : α} (h : b.push value = some (b', false)) :
    b' = { b with drops := b'.drops } ∧ (b.policy = .dropOldest → b' = b) := by
  unfold push at h
  split at h
  · cases h
    exact ⟨rfl, fun _ => rfl⟩
  · split at h
    · split at h
      · cases h
      · rename_i hpolicy
        cases h
        refine ⟨rfl, fun hold => ?_⟩
        rw [hpolicy] at hold
        cases hold
      · cases h
    · cases h

/-- An open queue refuses only under `DropNewest`. -/
lemma policy_of_refused {b b' : BoundedQueue α} {value : α} (hopen : b.closed = false)
    (h : b.push value = some (b', false)) : b.policy = .dropNewest := by
  unfold push at h
  rw [if_neg (by simp [hopen])] at h
  split at h
  · split at h
    · cases h
    · assumption
    · cases h
  · cases h

lemma drop_evicted_of_full {b : BoundedQueue α} (hfull : b.capacity ≤ b.q.length) :
    b.q.drop b.evicted.length = b.q.tail := by
  rw [evicted, if_pos hfull, List.length_take]
  cases b.q with
  | nil => rfl
  | cons x xs => simp

/-- A push that is accepted finds the queue open; the item goes to the end, and only `DropOldest` makes room
for it. -/
lemma push_accepted {b b' : BoundedQueue α} {value : α} (h : b.push value = some (b', true)) :
    b.closed = false ∧ (b.evicted ≠ [] → b.policy = .dropOldest) ∧
      b'.q = b.q.drop b.evicted.length ++ [value] ∧
      b' = { b with q := b'.q, pushes := b.pushes + 1, drops := b'.drops } := by
  unfold push at h
  split at h
  · cases h
  · rename_i hopen
    refine ⟨by simpa using hopen, ?_⟩
    split at h
    · rename_i hfull
      split at h
      · rename_i hpolicy
        cases h
        refine ⟨fun _ => hpolicy, ?_, rfl⟩
        rw [drop_evicted_of_full hfull]
        rfl
      · cases h
      · cases h
    · rename_i hroom
      have hnone : b.evicted = [] := by rw [evicted, if_neg hroom]
      cases h
      simp [accept, hnone]

lemma drops_of_accepted {b b' : BoundedQueue α} {value : α} (hpos : 0 < b.capacity)
    (h : b.push value = some (b', true)) : b'.drops = b.drops + b.evicted.length := by
  unfold push at h
  split at h
  · cases h
  · split at h
    · rename_i hfull
      have hlength : b.evicted.length = 1 := by
        rw [evicted, if_pos hfull, List.length_take]
        omega
      split at h
      · cases h
        rw [hlength]
        rfl
      · cases h
      · cases h
    · rename_i hroom
      cases h
      rw [evicted, if_neg hroom]
      rfl

lemma evicted_append_drop (b : BoundedQueue α) : b.evicted ++ b.q.drop b.evicted.length = b.q := by
  unfold evicted
  split
  · rw [List.length_take]
    cases b.q with
    | nil => rfl
    | cons x xs => simp
  · rfl

lemma length_drop_evicted (b : BoundedQueue α) (hbounded : b.q.length ≤ b.capacity) (hpos : 0 < b.capacity) :
    (b.q.drop b.evicted.length).length + 1 ≤ b.capacity := by
  unfold evicted
  split
  · rw [List.length_drop, List.length_take]
    omega
  · rw [List.length_nil, List.drop_zero]
    omega

/-- An open queue of the given capacity that makes room by dropping its head. -/
structure Overwrites (b : BoundedQueue α) (n : Nat) : Prop where
  isOpen : b.closed = false
  policy : b.policy = .dropOldest
  capacity : b.capacity = n
  pos : 0 < n
  bounded : b.q.length ≤ n

variable {b : BoundedQueue α} {n : Nat}

lemma Overwrites.post_eq (h : b.Overwrites n) (value : α) :
    (b.post value).q = (b.q ++ [value]).drop (b.q.length + 1 - n) ∧ (b.post value).Overwrites n := by
  have hcap := h.capacity
  have hpos := h.pos
  have hbounded := h.bounded
  by_cases hfull : b.capacity ≤ b.q.length
  · have hlength : b.q.length + 1 - n = 1 := by omega
    have hpost : b.post value = ({ b with q := b.q.tail, drops := b.drops + 1 }).accept value := by
      simp [post, push, h.isOpen, hfull, h.policy]
    rw [hpost, hlength]
    refine ⟨?_, h.isOpen, h.policy, hcap, hpos, ?_⟩
    · cases hq : b.q with
      | nil =>
        rw [hq, List.length_nil] at hfull
        omega
      | cons x xs => simp [accept]
    · simp only [accept, List.length_append, List.length_tail, List.length_singleton]
      omega
  · have hlength : b.q.length + 1 - n = 0 := by omega
    have hpost : b.post value = b.accept value := by
      simp [post, push, h.isOpen, hfull]
    rw [hpost, hlength]
    refine ⟨rfl, h.isOpen, h.policy, hcap, hpos, ?_⟩
    simp only [accept, List.length_append, List.length_singleton]
    omega

/-- What a burst leaves in the queue: the last `n` items. -/
theorem Overwrites.foldl_post (h : b.Overwrites n) (values : List α) :
    (values.foldl post b).q = (b.q ++ values).drop (b.q.length + values.length - n) ∧
      (values.foldl post b).Overwrites n := by
  induction values generalizing b with
  | nil =>
    have hbounded := h.bounded
    have hzero : b.q.length - n = 0 := by omega
    simp [h, hzero]
  | cons v vs ih =>
    obtain ⟨hq, hpost⟩ := h.post_eq v
    obtain ⟨hrun, hover⟩ := ih hpost
    refine ⟨?_, hover⟩
    rw [List.foldl_cons, hrun, hq]
    have hdrop : (b.q ++ [v]).drop (b.q.length + 1 - n) ++ vs =
        (b.q ++ v :: vs).drop (b.q.length + 1 - n) := by
      rw [← List.drop_append_of_le_length (by simp)]
      simp
    rw [hdrop, List.drop_drop]
    congr 1
    have hpos := h.pos
    simp only [List.length_drop, List.length_append, List.length_cons, List.length_nil]
    omega

lemma Overwrites.push (h : b.Overwrites n) (value : α) : b.push value = some (b.post value, true) := by
  by_cases hfull : b.capacity ≤ b.q.length
  · simp [post, BoundedQueue.push, h.isOpen, hfull, h.policy]
  · simp [post, BoundedQueue.push, h.isOpen, hfull]

/-- Of the items posted, those popped and those still in the queue are in order, and the others are counted as
drops. -/
structure Relays (b : BoundedQueue α) (n : Nat) (posted popped : List α) : Prop where
  overwrites : b.Overwrites n
  order : (popped ++ b.q).Sublist posted
  counted : popped.length + b.q.length + b.drops = posted.length

variable {posted popped : List α}

lemma Relays.post (h : b.Relays n posted popped) (value : α) : (b.post value).Relays n (posted ++ [value]) popped := by
  have hpos := h.overwrites.pos
  have hcap := h.overwrites.capacity
  have hpush := h.overwrites.push value
  obtain ⟨_, _, hq, _⟩ := push_accepted hpush
  have hdrops := drops_of_accepted (by omega) hpush
  have hcut := congrArg List.length b.evicted_append_drop
  have hcounted := h.counted
  rw [List.length_append] at hcut
  refine ⟨(h.overwrites.post_eq value).2, ?_, ?_⟩
  · rw [hq, ← List.append_assoc]
    have hdrop : (popped ++ b.q.drop b.evicted.length).Sublist (popped ++ b.q) :=
      (List.Sublist.refl _).append (List.drop_sublist _ _)
    exact (hdrop.trans h.order).append (List.Sublist.refl _)
  · rw [hq, hdrops]
    simp only [List.length_append, List.length_singleton]
    omega

lemma Relays.posts (h : b.Relays n posted popped) (values : List α) :
    (values.foldl BoundedQueue.post b).Relays n (posted ++ values) popped := by
  induction values generalizing b posted with
  | nil => simpa using h
  | cons v vs ih => simpa using ih (h.post v)

lemma Relays.tryPop (h : b.Relays n posted popped) {x : α} {b' : BoundedQueue α} (hpop : b.tryPop = some (x, b')) :
    b'.Relays n posted (popped ++ [x]) := by
  obtain ⟨hq, hrest⟩ := tryPop_eq_some hpop
  have hover := h.overwrites
  have hcounted := h.counted
  have hbounded := hover.bounded
  have horder := h.order
  rw [hq] at horder hcounted hbounded
  rw [List.length_cons] at hcounted hbounded
  have hdrops : b'.drops = b.drops := by rw [hrest]
  refine ⟨⟨?_, ?_, ?_, hover.pos, by omega⟩, by simpa using horder, ?_⟩
  · rw [hrest]
    exact hover.isOpen
  · rw [hrest]
    exact hover.policy
  · rw [hrest]
    exact hover.capacity
  · rw [hdrops, List.length_append, List.length_singleton]
    omega

end BoundedQueue

end Acva
