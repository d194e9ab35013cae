import Acva.Event.BoundedQueue
import Acva.Lib.Runs
import Mathlib.Data.List.Nodup

/-!
# Delivery on the bus

Threads publish, register subscriptions and handle events while nothing is stopped. `publish_event` takes a
snapshot of `subs_` and then pushes into the matching queues one by one, without the lock; each push is a step.
A handler that publishes does so as one of the publishing threads. Every published event carries its thread and
the number of its publication there.
-/

namespace Acva

structure Published (κ ε : Type*) where
  publisher : κ
  serial : Nat
  event : ε
  deriving DecidableEq, Repr

/-- `target` is none for `subscribe_all`, where the target type is `Event` itself. `handled` says of each event
whether the handler threw. -/
structure Subscription (κ τ ε : Type*) where
  target : Option τ
  queue : BoundedQueue (Published κ ε)
  handling : Option (Published κ ε) := none
  handled : List (Published κ ε × Bool) := []
  accepted : List (Published κ ε) := []
  evicted : List (Published κ ε) := []
  deriving DecidableEq, Repr

namespace Subscription

variable {κ τ ε : Type*}

def Matches (typeOf : ε → τ) (sub : Subscription κ τ ε) (e : ε) : Prop :=
  sub.target = none ∨ sub.target = some (typeOf e)

instance [DecidableEq τ] (typeOf : ε → τ) (sub : Subscription κ τ ε) (e : ε) : Decidable (sub.Matches typeOf e) :=
  inferInstanceAs (Decidable (_ ∨ _))

/-- The verdict of the queue is ignored. -/
def push (sub : Subscription κ τ ε) (x : Published κ ε) : Option (Subscription κ τ ε) :=
  match sub.queue.push x with
  | none => none
  | some (queue, true) =>
    some { sub with queue := queue, accepted := sub.accepted ++ [x], evicted := sub.evicted ++ sub.queue.evicted }
  | some (queue, false) => some { sub with queue := queue }

/-- The worker pops once its handler has returned. -/
def pop (sub : Subscription κ τ ε) : Subscription κ τ ε :=
  match sub.handling, sub.queue.tryPop with
  | none, some (x, queue) => { sub with queue := queue, handling := some x }
  | _, _ => sub

/-- The handler returns or throws; either way the loop goes on. -/
def finish (sub : Subscription κ τ ε) (threw : Bool) : Subscription κ τ ε :=
  match sub.handling with
  | some x => { sub with handling := none, handled := sub.handled ++ [(x, threw)] }
  | none => sub

/-- What the subscriber has handled, is handling and has queued. -/
def items (sub : Subscription κ τ ε) : List (Published κ ε) :=
  sub.handled.map Prod.fst ++ sub.handling.toList ++ sub.queue.q

/-- What the handler has not returned from. -/
def waiting (sub : Subscription κ τ ε) : List (Published κ ε) := sub.handling.toList ++ sub.queue.q

end Subscription

/-- One call of `publish_event`; `known` is the number of subscriptions registered when it began. -/
structure Publication (ε : Type*) where
  event : ε
  serial : Nat
  known : Nat
  deriving DecidableEq, Repr

/-- Outside `publish_event`, before the snapshot, and with the rest of the snapshot still to visit. -/
inductive PublishStage (ε : Type*)
  | idle
  | entered (p : Publication ε)
  | pushing (p : Publication ε) (rest : List Nat)
  deriving DecidableEq, Repr

/-- A subscription is named by its place in `subs_`, which only grows. -/
structure DeliveryBus (κ τ ε : Type*) where
  subs : List (Subscription κ τ ε) := []
  published : Nat := 0
  begun : κ → Nat := fun _ => 0
  stage : κ → PublishStage ε := fun _ => .idle
  returned : List (κ × Publication ε) := []

inductive DeliveryAction (κ τ ε : Type*)
  | register (target : Option τ) (capacity : Nat) (policy : OverflowPolicy)
  | publish (k : κ) (e : ε)
  | proceed (k : κ)
  | pop (i : Nat)
  | finish (i : Nat) (threw : Bool)

namespace DeliveryBus

variable {κ τ ε : Type*} [DecidableEq κ] [DecidableEq τ]

def setStage (s : DeliveryBus κ τ ε) (k : κ) (stage : PublishStage ε) : DeliveryBus κ τ ε :=
  { s with stage := Function.update s.stage k stage }

/-- The thread `k` goes on inside `publish_event`: it takes the snapshot, visits one subscription, or returns.
A push that has to wait is not a step. -/
def proceed (typeOf : ε → τ) (s : DeliveryBus κ τ ε) (k : κ) : DeliveryBus κ τ ε :=
  match s.stage k with
  | .idle => s
  | .entered p => s.setStage k (.pushing p (List.range s.subs.length))
  | .pushing p [] => { s.setStage k .idle with returned := s.returned ++ [(k, p)] }
  | .pushing p (i :: rest) =>
    match s.subs[i]? with
    | none => s
    | some sub =>
      if sub.Matches typeOf p.event then
        match sub.push ⟨k, p.serial, p.event⟩ with
        | none => s
        | some sub' => { s.setStage k (.pushing p rest) with subs := s.subs.set i sub' }
      else s.setStage k (.pushing p rest)

def modifySub (s : DeliveryBus κ τ ε) (i : Nat) (f : Subscription κ τ ε → Subscription κ τ ε) :
    DeliveryBus κ τ ε :=
  match s.subs[i]? with
  | some sub => { s with subs := s.subs.set i (f sub) }
  | none => s

def step (typeOf : ε → τ) (s : DeliveryBus κ τ ε) : DeliveryAction κ τ ε → DeliveryBus κ τ ε
  | .register target capacity policy =>
    { s with subs := s.subs ++ [{ target := target, queue := { capacity := capacity, policy := policy } }] }
  | .publish k e =>
    match s.stage k with
    | .idle =>
      { s.setStage k (.entered ⟨e, s.begun k, s.subs.length⟩) with
        published := s.published + 1
        begun := Function.update s.begun k (s.begun k + 1) }
    | _ => s
  | .proceed k => s.proceed typeOf k
  | .pop i => s.modifySub i Subscription.pop
  | .finish i threw => s.modifySub i (Subscription.finish · threw)

/-- The worker of subscription `i` alone, with a verdict for each call of its handler. -/
def work (i : Nat) (threw : List Bool) : List (DeliveryAction κ τ ε) := threw.flatMap fun b => [.pop i, .finish i b]

/-- What holds of the deliveries in any state: a publication that has returned is exactly once at every `Block`
subscription that matches and was registered when it began; nothing is where it does not match; each subscriber
handles the events of one thread in the order of their publication; what was accepted is handled or still
there, in order, unless `DropOldest` overwrote it; and whatever the handler has thrown and goes on to throw, its
worker hands it the events that wait, one after another. -/
structure Delivered (typeOf : ε → τ) (s : DeliveryBus κ τ ε) : Prop where
  once : ∀ k p, (k, p) ∈ s.returned → ∀ i < p.known, ∀ sub, s.subs[i]? = some sub → sub.queue.policy = .block →
    sub.Matches typeOf p.event →
    sub.items.filter (fun x => x.publisher = k ∧ x.serial = p.serial) = [⟨k, p.serial, p.event⟩]
  matching : ∀ sub ∈ s.subs, ∀ x ∈ sub.items, sub.Matches typeOf x.event
  order : ∀ sub ∈ s.subs, ∀ k,
    ((sub.handled.map Prod.fst).filter (·.publisher = k)).Pairwise fun x y => x.serial < y.serial
  unskipped : ∀ sub ∈ s.subs, sub.items.Sublist sub.accepted ∧
    (sub.queue.policy ≠ .dropOldest → sub.items = sub.accepted) ∧
    ∀ x ∈ sub.accepted, x ∈ sub.items ∨ x ∈ sub.evicted
  resumes : ∀ (i : Nat) sub, s.subs[i]? = some sub → ∀ threw : List Bool,
    ∃ sub', (Runs.exec (step typeOf) s (work i threw)).subs[i]? = some sub' ∧
      sub'.handled = sub.handled ++ sub.waiting.zip threw

end DeliveryBus

/-! ### One subscription -/

namespace Subscription

variable {κ τ ε : Type*} {sub sub' : Subscription κ τ ε} {typeOf : ε → τ}

/-- The queue is open and holds, after what was handled, what was accepted and not overwritten. -/
structure Sound (typeOf : ε → τ) (sub : Subscription κ τ ε) : Prop where
  isOpen : sub.queue.closed = false
  order : sub.items.Sublist sub.accepted
  kept : sub.queue.policy ≠ .dropOldest → sub.items = sub.accepted
  found : ∀ x ∈ sub.accepted, x ∈ sub.items ∨ x ∈ sub.evicted
  matching : ∀ x ∈ sub.accepted, sub.Matches typeOf x.event
  increasing : sub.accepted.Pairwise fun x y => x.publisher = y.publisher → x.serial < y.serial

/-- A push that is over leaves the subscription as it was, but for a dropped item, or appends the event. Only a
`DropNewest` queue can refuse it. -/
lemma push_cases {x : Published κ ε} (hopen : sub.queue.closed = false) (h : sub.push x = some sub') :
    (∃ drops, sub.queue.policy = .dropNewest ∧ sub' = { sub with queue := { sub.queue with drops := drops } }) ∨
    ∃ queue : BoundedQueue (Published κ ε), (sub.queue.evicted ≠ [] → sub.queue.policy = .dropOldest) ∧
      queue.q = sub.queue.q.drop sub.queue.evicted.length ++ [x] ∧ queue.policy = sub.queue.policy ∧
      queue.closed = false ∧
      sub' = { sub with
        queue := queue
        accepted := sub.accepted ++ [x]
        evicted := sub.evicted ++ sub.queue.evicted } := by
  unfold push at h
  split at h
  · cases h
  · rename_i queue hpush
    right
    obtain ⟨_, hevicted, hq, hqueue⟩ := BoundedQueue.push_accepted hpush
    refine ⟨queue, hevicted, hq, ?_, ?_, by simpa using h.symm⟩
    · rw [hqueue]
    · rw [hqueue]
      exact hopen
  · rename_i queue hpush
    left
    obtain ⟨hqueue, _⟩ := BoundedQueue.push_refused hpush
    refine ⟨queue.drops, BoundedQueue.policy_of_refused hopen hpush, ?_⟩
    rw [← hqueue]
    simpa using h.symm

lemma Sound.push {x : Published κ ε} (h : sub.Sound typeOf) (hmatch : sub.Matches typeOf x.event)
    (hnew : ∀ y ∈ sub.accepted, y.publisher = x.publisher → y.serial < x.serial) (hpush : sub.push x = some sub') :
    sub'.Sound typeOf := by
  rcases push_cases h.isOpen hpush with ⟨drops, _, rfl⟩ | ⟨queue, hevicted, hq, hpolicy, hclosed, rfl⟩
  · exact ⟨h.isOpen, h.order, h.kept, h.found, h.matching, h.increasing⟩
  · have hsplit := sub.queue.evicted_append_drop
    have hitems : ∀ y ∈ sub.items, y ∈ sub.queue.evicted ∨
        y ∈ sub.handled.map Prod.fst ++ sub.handling.toList ++ sub.queue.q.drop sub.queue.evicted.length := by
      intro y hy
      unfold items at hy
      rw [← hsplit] at hy
      simp only [List.mem_append] at hy ⊢
      tauto
    refine ⟨hclosed, ?_, ?_, ?_, ?_, ?_⟩
    · unfold items
      dsimp only
      rw [hq, ← List.append_assoc]
      apply List.Sublist.append_right
      exact ((List.drop_sublist _ _).append_left _).trans h.order
    · intro hne
      dsimp only at hne
      rw [hpolicy] at hne
      have hnone : sub.queue.evicted = [] := by
        by_contra hsome
        exact hne (hevicted hsome)
      unfold items
      dsimp only
      rw [hq, hnone, List.length_nil, List.drop_zero, ← List.append_assoc, ← h.kept hne]
      rfl
    · intro y hy
      unfold items
      dsimp only
      rw [hq, ← List.append_assoc, List.mem_append, List.mem_append (t := sub.queue.evicted)]
      rcases List.mem_append.mp hy with hy | hy
      · rcases h.found y hy with hy | hy
        · rcases hitems y hy with hy | hy
          · exact .inr (.inr hy)
          · exact .inl (.inl hy)
        · exact .inr (.inl hy)
      · exact .inl (.inr hy)
    · intro y hy
      rcases List.mem_append.mp hy with hy | hy
      · exact h.matching y hy
      · rw [List.mem_singleton.mp hy]
        exact hmatch
    · rw [List.pairwise_append]
      refine ⟨h.increasing, List.pairwise_singleton _ _, ?_⟩
      intro y hy z hz hsame
      rw [List.mem_singleton.mp hz] at hsame ⊢
      exact hnew y hy hsame

/-- A push keeps what counts for the publishers and appends at most the event; a `Block` queue takes it. -/
lemma push_frame {x : Published κ ε} (hopen : sub.queue.closed = false) (h : sub.push x = some sub') :
    sub'.target = sub.target ∧ sub'.queue.policy = sub.queue.policy ∧ sub.accepted ⊆ sub'.accepted ∧
      (∀ y ∈ sub'.accepted, y ∈ sub.accepted ∨ y = x) ∧ (sub.queue.policy = .block → x ∈ sub'.accepted) := by
  rcases push_cases hopen h with ⟨drops, hrefused, rfl⟩ | ⟨queue, _, _, hpolicy, _, rfl⟩
  · refine ⟨rfl, rfl, List.Subset.refl _, fun y hy => .inl hy, fun hblock => ?_⟩
    rw [hrefused] at hblock
    cases hblock
  · refine ⟨rfl, hpolicy, List.subset_append_left _ _, ?_, fun _ => by simp⟩
    intro y hy
    rcases List.mem_append.mp hy with hy | hy
    · exact .inl hy
    · exact .inr (List.mem_singleton.mp hy)

/-- Items may have moved along; nothing was accepted or lost. -/
structure SameItems (sub sub' : Subscription κ τ ε) : Prop where
  items : sub'.items = sub.items
  target : sub'.target = sub.target
  accepted : sub'.accepted = sub.accepted
  evicted : sub'.evicted = sub.evicted
  policy : sub'.queue.policy = sub.queue.policy
  closed : sub'.queue.closed = sub.queue.closed

lemma sameItems_pop (sub : Subscription κ τ ε) : sub.SameItems sub.pop := by
  unfold pop
  split
  · rename_i x queue hnone hpop
    obtain ⟨hq, hqueue⟩ := BoundedQueue.tryPop_eq_some hpop
    refine ⟨?_, rfl, rfl, rfl, ?_, ?_⟩
    · simp [items, hnone, hq]
    · rw [hqueue]
    · rw [hqueue]
  · exact ⟨rfl, rfl, rfl, rfl, rfl, rfl⟩

lemma sameItems_finish (sub : Subscription κ τ ε) (threw : Bool) : sub.SameItems (sub.finish threw) := by
  unfold finish
  split
  · rename_i x hsome
    refine ⟨?_, rfl, rfl, rfl, rfl, rfl⟩
    simp [items, hsome]
  · exact ⟨rfl, rfl, rfl, rfl, rfl, rfl⟩

/-- The worker takes the next event, if there is one, and the handler returns or throws. -/
lemma finish_pop (sub : Subscription κ τ ε) (threw : Bool) :
    (sub.pop.finish threw).handled = sub.handled ++ sub.waiting.zip [threw] ∧
      (sub.pop.finish threw).waiting = sub.waiting.tail := by
  cases hhandling : sub.handling with
  | some x => simp [pop, finish, waiting, hhandling]
  | none =>
    cases hpop : sub.queue.tryPop with
    | none =>
      have hq := BoundedQueue.tryPop_eq_none hpop
      simp [pop, finish, waiting, hhandling, hpop, hq]
    | some r =>
      obtain ⟨x, queue⟩ := r
      obtain ⟨hq, -⟩ := BoundedQueue.tryPop_eq_some hpop
      simp [pop, finish, waiting, hhandling, hpop, hq]

lemma Sound.of_sameItems (h : sub.Sound typeOf) (hsame : sub.SameItems sub') : sub'.Sound typeOf := by
  refine ⟨hsame.closed.trans h.isOpen, ?_, ?_, ?_, ?_, ?_⟩
  · rw [hsame.items, hsame.accepted]
    exact h.order
  · rw [hsame.policy, hsame.items, hsame.accepted]
    exact h.kept
  · rw [hsame.items, hsame.accepted, hsame.evicted]
    exact h.found
  · unfold Matches
    rw [hsame.accepted, hsame.target]
    exact h.matching
  · rw [hsame.accepted]
    exact h.increasing

end Subscription

/-! ### The publishing threads -/

namespace DeliveryBus

variable {κ τ ε : Type*} {s s' : DeliveryBus κ τ ε} {typeOf : ε → τ}

/-- The first serial number of the thread `k` that subscription `i` cannot have received yet. -/
def limit (s : DeliveryBus κ τ ε) (k : κ) (i : Nat) : Nat :=
  match s.stage k with
  | .idle => s.begun k
  | .entered p => p.serial
  | .pushing p rest => if i ∈ rest then p.serial else p.serial + 1

/-- If subscription `i` is a `Block` one that matches, it has received the publication. -/
def Has (typeOf : ε → τ) (s : DeliveryBus κ τ ε) (k : κ) (p : Publication ε) (i : Nat) : Prop :=
  ∀ sub, s.subs[i]? = some sub → sub.queue.policy = .block → sub.Matches typeOf p.event →
    ⟨k, p.serial, p.event⟩ ∈ sub.accepted

/-- A call of a thread is its last one, and was begun when at most the present subscriptions were registered. -/
def Latest (s : DeliveryBus κ τ ε) (k : κ) (p : Publication ε) : Prop :=
  p.serial + 1 = s.begun k ∧ p.known ≤ s.subs.length

structure Sound (typeOf : ε → τ) (s : DeliveryBus κ τ ε) : Prop where
  subs : ∀ (i : Nat) sub, s.subs[i]? = some sub → sub.Sound typeOf
  entered : ∀ k p, s.stage k = .entered p → s.Latest k p
  pushing : ∀ k p rest, s.stage k = .pushing p rest → s.Latest k p ∧ rest.Nodup
  earlier : ∀ (i : Nat) sub, s.subs[i]? = some sub → ∀ x ∈ sub.accepted, x.serial < s.limit x.publisher i
  visited : ∀ k p rest, s.stage k = .pushing p rest → ∀ i < p.known, i ∉ rest → s.Has typeOf k p i
  returned : ∀ k p, (k, p) ∈ s.returned → p.known ≤ s.subs.length ∧ ∀ i < p.known, s.Has typeOf k p i

lemma sound_initial : ({} : DeliveryBus κ τ ε).Sound typeOf := by
  refine ⟨?_, ?_, ?_, ?_, ?_, ?_⟩
  · intro i sub h
    simp at h
  · intro k p h
    cases h
  · intro k p rest h
    cases h
  · intro i sub h
    simp at h
  · intro k p rest h
    cases h
  · intro k p h
    cases h

/-- A subscription of `s'` that `s` has too has received at least as much. -/
def Grows (s s' : DeliveryBus κ τ ε) : Prop :=
  ∀ (i : Nat) sub', s'.subs[i]? = some sub' → i < s.subs.length →
    ∃ sub, s.subs[i]? = some sub ∧ sub'.target = sub.target ∧ sub'.queue.policy = sub.queue.policy ∧
      sub.accepted ⊆ sub'.accepted

lemma Has.grow {k : κ} {p : Publication ε} {i : Nat} (h : s.Has typeOf k p i) (hgrows : Grows s s')
    (hi : i < s.subs.length) : s'.Has typeOf k p i := by
  intro sub' hsub' hpolicy hmatch
  obtain ⟨sub, hsub, htarget, hsame, hsubset⟩ := hgrows i sub' hsub' hi
  apply hsubset
  apply h sub hsub (hsame.symm.trans hpolicy)
  unfold Subscription.Matches at hmatch ⊢
  rw [← htarget]
  exact hmatch

lemma grows_refl (h : s'.subs = s.subs) : Grows s s' := by
  intro i sub' hsub' _
  rw [h] at hsub'
  exact ⟨sub', hsub', rfl, rfl, List.Subset.refl _⟩

/-- A list with one item replaced has that item there and the old ones elsewhere. -/
lemma getElem?_set_cases {α : Type*} {l : List α} {i j : Nat} {a b : α} (h : (l.set i a)[j]? = some b) :
    j = i ∧ b = a ∨ j ≠ i ∧ l[j]? = some b := by
  rw [List.getElem?_set] at h
  by_cases hij : i = j
  · rw [if_pos hij] at h
    split at h
    · exact .inl ⟨hij.symm, (Option.some.inj h).symm⟩
    · cases h
  · rw [if_neg hij] at h
    exact .inr ⟨fun heq => hij heq.symm, h⟩

lemma grows_set {i : Nat} {sub sub' : Subscription κ τ ε} (hsubs : s'.subs = s.subs.set i sub')
    (hsub : s.subs[i]? = some sub) (htarget : sub'.target = sub.target)
    (hpolicy : sub'.queue.policy = sub.queue.policy) (hsubset : sub.accepted ⊆ sub'.accepted) : Grows s s' := by
  intro j other hother _
  rw [hsubs] at hother
  rcases getElem?_set_cases hother with ⟨rfl, rfl⟩ | ⟨_, hold⟩
  · exact ⟨sub, hsub, htarget, hpolicy, hsubset⟩
  · exact ⟨other, hold, rfl, rfl, List.Subset.refl _⟩

/-- What a step of a worker or a registration changes is nothing to the publishing threads. -/
lemma Sound.of_grows (h : s.Sound typeOf) (hgrows : Grows s s') (hlength : s.subs.length ≤ s'.subs.length)
    (hbegun : s'.begun = s.begun) (hstage : s'.stage = s.stage) (hreturned : s'.returned = s.returned)
    (hsubs : ∀ (i : Nat) sub', s'.subs[i]? = some sub' → sub'.Sound typeOf)
    (hearlier : ∀ (i : Nat) sub', s'.subs[i]? = some sub' → ∀ x ∈ sub'.accepted, x.serial < s.limit x.publisher i) :
    s'.Sound typeOf := by
  have hlimit : ∀ k i, s'.limit k i = s.limit k i := by
    intro k i
    unfold limit
    rw [hstage, hbegun]
  have hlatest : ∀ k p, s.Latest k p → s'.Latest k p := by
    intro k p hl
    refine ⟨?_, hl.2.trans hlength⟩
    rw [hbegun]
    exact hl.1
  refine ⟨hsubs, ?_, ?_, ?_, ?_, ?_⟩
  · intro k p hp
    rw [hstage] at hp
    exact hlatest k p (h.entered k p hp)
  · intro k p rest hp
    rw [hstage] at hp
    exact ⟨hlatest k p (h.pushing k p rest hp).1, (h.pushing k p rest hp).2⟩
  · intro i sub' hsub' x hx
    rw [hlimit]
    exact hearlier i sub' hsub' x hx
  · intro k p rest hp i hi hnot
    rw [hstage] at hp
    have hknown := (h.pushing k p rest hp).1.2
    exact (h.visited k p rest hp i hi hnot).grow hgrows (by omega)
  · intro k p hp
    rw [hreturned] at hp
    obtain ⟨hknown, hhas⟩ := h.returned k p hp
    exact ⟨hknown.trans hlength, fun i hi => (hhas i hi).grow hgrows (by omega)⟩

lemma Sound.register (h : s.Sound typeOf) (target : Option τ) (capacity : Nat) (policy : OverflowPolicy) :
    ({ s with subs := s.subs ++ [{ target := target, queue := { capacity := capacity, policy := policy } }] } :
      DeliveryBus κ τ ε).Sound typeOf := by
  have hcases : ∀ (i : Nat) (sub' : Subscription κ τ ε),
      (s.subs ++ [{ target := target, queue := { capacity := capacity, policy := policy } }])[i]? = some sub' →
      s.subs[i]? = some sub' ∨ sub' = { target := target, queue := { capacity := capacity, policy := policy } } := by
    intro i sub' hsub'
    rw [List.getElem?_append] at hsub'
    split at hsub'
    · exact .inl hsub'
    · right
      have hmem := List.mem_of_getElem? hsub'
      exact List.mem_singleton.mp hmem
  refine h.of_grows ?_ ?_ rfl rfl rfl ?_ ?_
  · intro i sub' hsub' hi
    dsimp only at hsub'
    rw [List.getElem?_append_left hi] at hsub'
    exact ⟨sub', hsub', rfl, rfl, List.Subset.refl _⟩
  · simp
  · intro i sub' hsub'
    rcases hcases i sub' hsub' with hold | rfl
    · exact h.subs i sub' hold
    · refine ⟨rfl, List.Sublist.refl _, fun _ => rfl, ?_, ?_, List.Pairwise.nil⟩
      · intro x hx
        cases hx
      · intro x hx
        cases hx
  · intro i sub' hsub' x hx
    rcases hcases i sub' hsub' with hold | rfl
    · exact h.earlier i sub' hold x hx
    · cases hx

lemma Sound.modifySub (h : s.Sound typeOf) (i : Nat) (f : Subscription κ τ ε → Subscription κ τ ε)
    (hf : ∀ sub : Subscription κ τ ε, sub.SameItems (f sub)) : (s.modifySub i f).Sound typeOf := by
  unfold DeliveryBus.modifySub
  split
  · rename_i sub hsub
    have hsame := hf sub
    have hgrows : Grows s { s with subs := s.subs.set i (f sub) } := by
      apply grows_set rfl hsub hsame.target hsame.policy
      rw [hsame.accepted]
      exact List.Subset.refl _
    refine h.of_grows hgrows (by simp) rfl rfl rfl ?_ ?_
    · intro j sub' hsub'
      rcases getElem?_set_cases hsub' with ⟨rfl, rfl⟩ | ⟨_, hold⟩
      · exact (h.subs j sub hsub).of_sameItems hsame
      · exact h.subs j sub' hold
    · intro j sub' hsub' x hx
      rcases getElem?_set_cases hsub' with ⟨rfl, rfl⟩ | ⟨_, hold⟩
      · rw [hsame.accepted] at hx
        exact h.earlier j sub hsub x hx
      · exact h.earlier j sub' hold x hx
  · exact h

/-- The subscriptions stay as they are, and what they have received is below the limit of the new stage. -/
lemma Sound.earlier_of_limit {k : κ} (h : s.Sound typeOf) (hsubs : s'.subs = s.subs)
    (hlimit : ∀ i < s.subs.length, s.limit k i ≤ s'.limit k i) (i : Nat) (sub' : Subscription κ τ ε)
    (hsub' : s'.subs[i]? = some sub') : sub'.Sound typeOf ∧
      ∀ x ∈ sub'.accepted, (x.publisher = k → x.serial < s'.limit k i) ∧
        (x.publisher ≠ k → ∃ sub, s.subs[i]? = some sub ∧ x ∈ sub.accepted) := by
  rw [hsubs] at hsub'
  refine ⟨h.subs i sub' hsub', fun x hx => ⟨fun hk => ?_, fun _ => ⟨sub', hsub', hx⟩⟩⟩
  have hx' := h.earlier i sub' hsub' x hx
  rw [hk] at hx'
  exact lt_of_lt_of_le hx' (hlimit i (List.getElem?_eq_some_iff.mp hsub').1)

variable [DecidableEq κ]

/-- The thread `k` goes on to another stage, and may have delivered to subscriptions on the way. -/
lemma Sound.of_stage (k : κ) {stage : PublishStage ε} (begun : Nat) (h : s.Sound typeOf) (hgrows : Grows s s')
    (hlength : s'.subs.length = s.subs.length) (hstage : s'.stage = Function.update s.stage k stage)
    (hbegun : s'.begun = Function.update s.begun k begun)
    (hreturned : ∀ k' p, (k', p) ∈ s'.returned → (k', p) ∈ s.returned ∨
      p.known ≤ s.subs.length ∧ ∀ i < p.known, s.Has typeOf k' p i)
    (hsubs : ∀ (i : Nat) sub', s'.subs[i]? = some sub' → sub'.Sound typeOf ∧
      ∀ x ∈ sub'.accepted, (x.publisher = k → x.serial < s'.limit k i) ∧
        (x.publisher ≠ k → ∃ sub, s.subs[i]? = some sub ∧ x ∈ sub.accepted))
    (hentered : ∀ p, stage = .entered p → p.serial + 1 = begun ∧ p.known ≤ s.subs.length)
    (hpushing : ∀ p rest, stage = .pushing p rest → p.serial + 1 = begun ∧ p.known ≤ s.subs.length ∧ rest.Nodup ∧
      ∀ i < p.known, i ∉ rest → s'.Has typeOf k p i) : s'.Sound typeOf := by
  have hother : ∀ k', k' ≠ k → s'.stage k' = s.stage k' ∧ s'.begun k' = s.begun k' := by
    intro k' hne
    rw [hstage, hbegun]
    exact ⟨Function.update_of_ne hne _ _, Function.update_of_ne hne _ _⟩
  have hself : s'.stage k = stage ∧ s'.begun k = begun := by
    rw [hstage, hbegun]
    exact ⟨Function.update_self _ _ _, Function.update_self _ _ _⟩
  have hlatest : ∀ k' p, k' ≠ k → s.Latest k' p → s'.Latest k' p := by
    intro k' p hne hl
    unfold Latest
    rw [(hother k' hne).2, hlength]
    exact hl
  refine ⟨fun i sub' hsub' => (hsubs i sub' hsub').1, ?_, ?_, ?_, ?_, ?_⟩
  · intro k' p hp
    by_cases hk : k' = k
    · subst hk
      obtain ⟨hserial, hknown⟩ := hentered p (hself.1.symm.trans hp)
      exact ⟨hserial.trans hself.2.symm, hknown.trans hlength.ge⟩
    · exact hlatest k' p hk (h.entered k' p ((hother k' hk).1.symm.trans hp))
  · intro k' p rest hp
    by_cases hk : k' = k
    · subst hk
      obtain ⟨hserial, hknown, hnodup, _⟩ := hpushing p rest (hself.1.symm.trans hp)
      exact ⟨⟨hserial.trans hself.2.symm, hknown.trans hlength.ge⟩, hnodup⟩
    · obtain ⟨hl, hnodup⟩ := h.pushing k' p rest ((hother k' hk).1.symm.trans hp)
      exact ⟨hlatest k' p hk hl, hnodup⟩
  · intro i sub' hsub' x hx
    obtain ⟨hown, hothers⟩ := (hsubs i sub' hsub').2 x hx
    by_cases hk : x.publisher = k
    · rw [hk]
      exact hown hk
    · obtain ⟨sub, hsub, hmem⟩ := hothers hk
      have hx' := h.earlier i sub hsub x hmem
      unfold limit at hx' ⊢
      rw [(hother _ hk).1, (hother _ hk).2]
      exact hx'
  · intro k' p rest hp i hi hnot
    by_cases hk : k' = k
    · subst hk
      exact (hpushing p rest (hself.1.symm.trans hp)).2.2.2 i hi hnot
    · have hp' := (hother k' hk).1.symm.trans hp
      have hknown := (h.pushing k' p rest hp').1.2
      exact (h.visited k' p rest hp' i hi hnot).grow hgrows (by omega)
  · intro k' p hp
    have hold : p.known ≤ s.subs.length ∧ ∀ i < p.known, s.Has typeOf k' p i := by
      rcases hreturned k' p hp with hold | hnew
      · exact h.returned k' p hold
      · exact hnew
    exact ⟨hold.1.trans hlength.ge, fun i hi => (hold.2 i hi).grow hgrows (by omega)⟩

lemma Sound.publish [DecidableEq τ] (h : s.Sound typeOf) (k : κ) (e : ε) :
    (s.step typeOf (.publish k e)).Sound typeOf := by
  simp only [step]
  split
  · rename_i hidle
    refine h.of_stage k _ (grows_refl rfl) rfl rfl rfl (fun _ _ hp => .inl hp) ?_ ?_ ?_
    · apply h.earlier_of_limit
      · rfl
      · intro i _
        simp [limit, setStage, hidle]
    · intro p hp
      cases hp
      exact ⟨rfl, le_rfl⟩
    · intro p rest hp
      cases hp
  · exact h

lemma Sound.snapshot {k : κ} {p : Publication ε} (h : s.Sound typeOf) (hstage : s.stage k = .entered p) :
    (s.setStage k (.pushing p (List.range s.subs.length))).Sound typeOf := by
  obtain ⟨hserial, hknown⟩ := h.entered k p hstage
  refine h.of_stage k (s.begun k) (grows_refl rfl) rfl rfl (by simp [setStage])
    (fun _ _ hp => .inl hp) ?_ ?_ ?_
  · apply h.earlier_of_limit
    · rfl
    · intro i hi
      simp [limit, setStage, hstage, hi]
  · intro p' hp
    cases hp
  · intro p' rest hp
    cases hp
    refine ⟨hserial, hknown, List.nodup_range, fun i hi hnot => ?_⟩
    rw [List.mem_range] at hnot
    omega

lemma Sound.publishReturns {k : κ} {p : Publication ε} (h : s.Sound typeOf) (hstage : s.stage k = .pushing p []) :
    ({ s.setStage k .idle with returned := s.returned ++ [(k, p)] } : DeliveryBus κ τ ε).Sound typeOf := by
  obtain ⟨⟨hserial, hknown⟩, _⟩ := h.pushing k p [] hstage
  refine h.of_stage k (s.begun k) (grows_refl rfl) rfl rfl (by simp [setStage]) ?_ ?_ ?_ ?_
  · intro k' p' hp
    rcases List.mem_append.mp hp with hold | hnew
    · exact .inl hold
    · cases List.mem_singleton.mp hnew
      exact .inr ⟨hknown, fun i hi => h.visited k p [] hstage i hi (by simp)⟩
  · apply h.earlier_of_limit
    · rfl
    · intro i _
      simp [limit, setStage, hstage, hserial]
  · intro p' hp
    cases hp
  · intro p' rest hp
    cases hp

/-- Whoever is still to be visited after `i` was so before. -/
lemma limit_le_visited {k : κ} {p : Publication ε} {i : Nat} {rest : List Nat}
    (hstage : s.stage k = .pushing p (i :: rest)) (j : Nat) :
    s.limit k j ≤ (s.setStage k (.pushing p rest)).limit k j := by
  simp only [limit, setStage, hstage, Function.update_self, List.mem_cons]
  by_cases hj : j ∈ rest
  · simp [hj]
  · rw [if_neg hj]
    split <;> omega

lemma Sound.passOver {k : κ} {p : Publication ε} {i : Nat} {rest : List Nat} {sub : Subscription κ τ ε}
    (h : s.Sound typeOf) (hstage : s.stage k = .pushing p (i :: rest)) (hsub : s.subs[i]? = some sub)
    (hmatch : ¬sub.Matches typeOf p.event) : (s.setStage k (.pushing p rest)).Sound typeOf := by
  obtain ⟨⟨hserial, hknown⟩, hnodup⟩ := h.pushing k p _ hstage
  refine h.of_stage k (s.begun k) (grows_refl rfl) rfl rfl (by simp [setStage])
    (fun _ _ hp => .inl hp) ?_ ?_ ?_
  · apply h.earlier_of_limit
    · rfl
    · intro j _
      exact limit_le_visited hstage j
  · intro p' hp
    cases hp
  · intro p' rest' hp
    cases hp
    refine ⟨hserial, hknown, (List.nodup_cons.mp hnodup).2, fun j hj hnot => ?_⟩
    by_cases hij : j = i
    · subst hij
      intro sub' hsub' _ hmatch'
      have hsame : sub = sub' := Option.some.inj (hsub.symm.trans hsub')
      subst hsame
      exact absurd hmatch' hmatch
    · exact h.visited k p _ hstage j hj (by simp [hij, hnot])

lemma Sound.deliver {k : κ} {p : Publication ε} {i : Nat} {rest : List Nat} {sub sub' : Subscription κ τ ε}
    (h : s.Sound typeOf) (hstage : s.stage k = .pushing p (i :: rest)) (hsub : s.subs[i]? = some sub)
    (hmatch : sub.Matches typeOf p.event) (hpush : sub.push ⟨k, p.serial, p.event⟩ = some sub') :
    ({ s.setStage k (.pushing p rest) with subs := s.subs.set i sub' } : DeliveryBus κ τ ε).Sound typeOf := by
  obtain ⟨⟨hserial, hknown⟩, hnodup⟩ := h.pushing k p _ hstage
  have hi : i < s.subs.length := (List.getElem?_eq_some_iff.mp hsub).1
  have hsound := h.subs i sub hsub
  have hnew : ∀ y ∈ sub.accepted, y.publisher = k → y.serial < p.serial := by
    intro y hy hk
    have hlt := h.earlier i sub hsub y hy
    simpa [limit, hk, hstage] using hlt
  have hlimit : (s.setStage k (.pushing p rest)).limit k i = p.serial + 1 := by
    simp [limit, setStage, (List.nodup_cons.mp hnodup).1]
  obtain ⟨htarget, hpolicy, hsubset, hmem, hblock⟩ := Subscription.push_frame hsound.isOpen hpush
  refine h.of_stage k (s.begun k) (grows_set rfl hsub htarget hpolicy hsubset) (by simp) rfl
    (by simp [setStage]) (fun _ _ hp => .inl hp) ?_ ?_ ?_
  · intro j other hother
    rcases getElem?_set_cases hother with ⟨rfl, rfl⟩ | ⟨_, hold⟩
    · refine ⟨hsound.push hmatch hnew hpush, fun x hx => ⟨fun hk => ?_, fun hk => ⟨sub, hsub, ?_⟩⟩⟩
      · change x.serial < (s.setStage k (.pushing p rest)).limit k j
        rw [hlimit]
        rcases hmem x hx with hold | rfl
        · exact (hnew x hold hk).trans (Nat.lt_succ_self _)
        · exact Nat.lt_succ_self _
      · rcases hmem x hx with hold | rfl
        · exact hold
        · exact absurd rfl hk
    · refine ⟨h.subs j other hold, fun x hx => ⟨fun hk => ?_, fun _ => ⟨other, hold, hx⟩⟩⟩
      have hlt := h.earlier j other hold x hx
      rw [hk] at hlt
      exact lt_of_lt_of_le hlt (limit_le_visited hstage j)
  · intro p' hp
    cases hp
  · intro p' rest' hp
    cases hp
    refine ⟨hserial, hknown, (List.nodup_cons.mp hnodup).2, fun j hj hnot => ?_⟩
    by_cases hij : j = i
    · intro other hother hblocks _
      rcases getElem?_set_cases hother with ⟨_, rfl⟩ | ⟨hne, _⟩
      · exact hblock (hpolicy.symm.trans hblocks)
      · exact absurd hij hne
    · exact (h.visited k p _ hstage j hj (by simp [hij, hnot])).grow (grows_set rfl hsub htarget hpolicy hsubset)
        (by omega)

lemma Sound.proceed [DecidableEq τ] (h : s.Sound typeOf) (k : κ) : (s.proceed typeOf k).Sound typeOf := by
  unfold DeliveryBus.proceed
  split
  · exact h
  · rename_i p hstage
    exact h.snapshot hstage
  · rename_i p hstage
    exact h.publishReturns hstage
  · rename_i p i rest hstage
    split
    · exact h
    · rename_i sub hsub
      split
      · rename_i hmatch
        split
        · exact h
        · rename_i sub' hpush
          exact h.deliver hstage hsub hmatch hpush
      · rename_i hmatch
        exact h.passOver hstage hsub hmatch

lemma Sound.step [DecidableEq τ] (h : s.Sound typeOf) (a : DeliveryAction κ τ ε) : (s.step typeOf a).Sound typeOf := by
  cases a with
  | register target capacity policy => exact h.register target capacity policy
  | publish k e => exact h.publish k e
  | proceed k => exact h.proceed k
  | pop i => exact h.modifySub i _ Subscription.sameItems_pop
  | finish i threw => exact h.modifySub i _ fun sub => sub.sameItems_finish threw

/-! ### What the subscribers receive -/

/-- The numbers of one thread grow, so a number occurs once. -/
lemma filter_serial_eq {xs : List (Published κ ε)} {x : Published κ ε} (hmem : x ∈ xs)
    (hincreasing : xs.Pairwise fun x y => x.publisher = y.publisher → x.serial < y.serial) :
    xs.filter (fun y => y.publisher = x.publisher ∧ y.serial = x.serial) = [x] := by
  obtain ⟨before, after, rfl⟩ := List.append_of_mem hmem
  rw [List.pairwise_append, List.pairwise_cons] at hincreasing
  obtain ⟨_, ⟨hafter, _⟩, hbefore⟩ := hincreasing
  have hnone : ∀ ys : List (Published κ ε), (∀ y ∈ ys, y.publisher = x.publisher → y.serial ≠ x.serial) →
      ys.filter (fun y => y.publisher = x.publisher ∧ y.serial = x.serial) = [] := by
    intro ys hys
    rw [List.filter_eq_nil_iff]
    intro y hy hsame
    rw [decide_eq_true_eq] at hsame
    exact hys y hy hsame.1 hsame.2
  rw [List.filter_append, List.filter_cons, hnone before, hnone after]
  · simp
  · intro y hy hsame hserial
    have hlt := hafter y hy hsame.symm
    omega
  · intro y hy hsame hserial
    have hlt := hbefore y hy x (by simp) hsame
    omega

lemma exec_work [DecidableEq τ] (typeOf : ε → τ) {i : Nat} {sub : Subscription κ τ ε} (hsub : s.subs[i]? = some sub)
    (threw : List Bool) : ∃ sub', (Runs.exec (step typeOf) s (work i threw)).subs[i]? = some sub' ∧
      sub'.handled = sub.handled ++ sub.waiting.zip threw := by
  induction threw generalizing s sub with
  | nil => exact ⟨sub, hsub, by simp⟩
  | cons b threw ih =>
    obtain ⟨hi, heq⟩ := List.getElem?_eq_some_iff.mp hsub
    have hnext : (s.step typeOf (.pop i) |>.step typeOf (.finish i b)).subs[i]? = some (sub.pop.finish b) := by
      simp [step, modifySub, hi, heq]
    obtain ⟨hhandled, hwaiting⟩ := sub.finish_pop b
    obtain ⟨sub', hsub', hrest⟩ := ih hnext
    refine ⟨sub', hsub', ?_⟩
    rw [hrest, hhandled, hwaiting, List.append_assoc]
    congr 1
    cases sub.waiting <;> simp

lemma Sound.delivered [DecidableEq τ] (h : s.Sound typeOf) : s.Delivered typeOf := by
  have hsub : ∀ sub ∈ s.subs, sub.Sound typeOf := by
    intro sub hsub
    obtain ⟨i, hi⟩ := List.getElem?_of_mem hsub
    exact h.subs i sub hi
  refine ⟨?_, ?_, ?_, ?_, fun i sub hi => exec_work typeOf hi⟩
  · intro k p hp i hi sub hsub hpolicy hmatch
    have hsound := h.subs i sub hsub
    have hmem := (h.returned k p hp).2 i hi sub hsub hpolicy hmatch
    rw [hsound.kept (by simp [hpolicy])]
    exact filter_serial_eq hmem hsound.increasing
  · intro sub hs x hx
    exact (hsub sub hs).matching x ((hsub sub hs).order.subset hx)
  · intro sub hs k
    have hhandled : (sub.handled.map Prod.fst).Sublist sub.accepted := by
      have hitems := (hsub sub hs).order
      unfold Subscription.items at hitems
      rw [List.append_assoc] at hitems
      exact (List.sublist_append_left _ _).trans hitems
    have hincreasing := ((hsub sub hs).increasing.sublist hhandled).filter (fun x => decide (x.publisher = k))
    apply hincreasing.imp_of_mem
    intro x y hx hy hlt
    have hxk : x.publisher = k := by simpa using (List.mem_filter.mp hx).2
    have hyk : y.publisher = k := by simpa using (List.mem_filter.mp hy).2
    exact hlt (hxk.trans hyk.symm)
  · intro sub hs
    exact ⟨(hsub sub hs).order, (hsub sub hs).kept, (hsub sub hs).found⟩

/-- Whatever the threads do while nothing is stopped, the bus has delivered what it should. -/
theorem bus_delivers [DecidableEq τ] (typeOf : ε → τ) (as : List (DeliveryAction κ τ ε)) :
    (Runs.exec (step typeOf) {} as).Delivered typeOf := by
  apply Sound.delivered
  exact Runs.exec_invariant (Sound typeOf) (fun s a h => h.step a) sound_initial as

example : (Runs.exec (step id) ({} : DeliveryBus Unit Bool Bool)
    [.register none 2 .block, .register (some false) 2 .block, .publish () true, .proceed (), .proceed (),
      .proceed (), .proceed (), .pop 0, .finish 0 true]).returned = [((), ⟨true, 0, 2⟩)] := by
  decide

end DeliveryBus

end Acva
