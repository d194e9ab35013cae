import Acva.Event.BoundedQueue
import Acva.Lib.Deadlock
import Acva.Lib.Runs
import Mathlib.Data.List.Nodup

/-!
# The event bus

`EventBus::publish_event` pushes the event into the queue of one subscription after the other, and a
subscription's worker handles what it pops from its queue. A handler publishes on its worker's thread:
while it waits for room in a queue, its own queue is not drained. `outbox` holds the pushes that a thread
still has to make for what it publishes.
-/

namespace Acva

/-- The subscriptions with `subscribe_all` and the `Block` policy, in the order of `subs_`. `ν` is what a
handler reads from outside, `β` what other threads do to the components. -/
structure EventBusConfig (ι ε σ ν β : Type*) where
  subs : List ι
  queueCapacity : ι → Nat
  handler : ι → ν → σ → ε → σ × List ε
  other : β → σ → σ
  nodup : subs.Nodup
  subscribed : ∀ i, i ∈ subs
  publishesOnce : ∀ i input env e, (handler i input env e).2.length ≤ 1

/-- `ι` are the subscriptions' workers and `κ` the other threads that publish. -/
structure EventBus (ι κ ε σ : Type*) where
  queue : ι → BoundedQueue ε
  outbox : ι ⊕ κ → List (ι × ε)
  env : σ

inductive EventBusAction (ι κ ε ν β : Type*)
  | pop (i : ι) (input : ν)
  | publish (k : κ) (e : ε)
  | push (t : ι ⊕ κ)
  | stop (i : ι)
  | other (b : β)

variable {ι κ ε σ ν β : Type*}

/-- The pushes of `publish_event` for each of the events. -/
def EventBusConfig.deliveries (cfg : EventBusConfig ι ε σ ν β) (es : List ε) : List (ι × ε) :=
  es.flatMap fun e => cfg.subs.map fun i => (i, e)

namespace EventBus

/-- The bus before anything is published. -/
def started (cfg : EventBusConfig ι ε σ ν β) (env : σ) : EventBus ι κ ε σ :=
  { queue := fun i => { capacity := cfg.queueCapacity i, policy := .block }
    outbox := fun _ => []
    env := env }

variable [DecidableEq ι] [DecidableEq κ]

/-- A worker pops once its handler has returned. A push that finds no room is not a step. A worker that
is stopped may be past the test of `running_`, so it may still pop. -/
def step (cfg : EventBusConfig ι ε σ ν β) (s : EventBus ι κ ε σ) : EventBusAction ι κ ε ν β → EventBus ι κ ε σ
  | .pop i input =>
    match s.outbox (.inl i), (s.queue i).tryPop with
    | [], some (e, q) =>
      let r := cfg.handler i input s.env e
      { queue := Function.update s.queue i q
        outbox := Function.update s.outbox (.inl i) (cfg.deliveries r.2)
        env := r.1 }
    | _, _ => s
  | .publish k e =>
    match s.outbox (.inr k) with
    | [] => { s with outbox := Function.update s.outbox (.inr k) (cfg.deliveries [e]) }
    | _ => s
  | .push t =>
    match s.outbox t with
    | [] => s
    | (j, e) :: rest =>
      match (s.queue j).push e with
      | none => s
      | some r =>
        { s with queue := Function.update s.queue j r.1, outbox := Function.update s.outbox t rest }
  | .stop i => { s with queue := Function.update s.queue i (s.queue i).close }
  | .other b => { s with env := cfg.other b s.env }

/-- The worker `i` is blocked on a push into the queue that only `j` drains. -/
def Waits (s : EventBus ι κ ε σ) (i j : ι) : Prop :=
  ∃ e rest, s.outbox (.inl i) = (j, e) :: rest ∧ (s.queue j).push e = none

/-- The worker `j` publishes an event that is not in its own queue yet. -/
def OwnPending (s : EventBus ι κ ε σ) (j : ι) : Prop := j ∈ (s.outbox (.inl j)).map Prod.fst

/-- No other thread takes the last place in the queue of a worker whose own push is still to come. -/
def KeepsRoom (s : EventBus ι κ ε σ) : EventBusAction ι κ ε ν β → Prop
  | .push t => ∀ d ∈ (s.outbox t).head?, t ≠ .inl d.1 → s.OwnPending d.1 → (s.queue d.1).closed = false →
      (s.queue d.1).q.length + 1 < (s.queue d.1).capacity
  | _ => True

instance (s : EventBus ι κ ε σ) (a : EventBusAction ι κ ε ν β) : Decidable (s.KeepsRoom a) :=
  match a with
  | .push t =>
    match h : (s.outbox t).head? with
    | none => isTrue (by simp [KeepsRoom, h])
    | some d => decidable_of_iff (t ≠ .inl d.1 → d.1 ∈ (s.outbox (.inl d.1)).map Prod.fst →
        (s.queue d.1).closed = false → (s.queue d.1).q.length + 1 < (s.queue d.1).capacity)
        (by simp [KeepsRoom, OwnPending, h])
  | .pop _ _ | .publish _ _ | .stop _ | .other _ => isTrue trivial

/-! ### Publishing when there is room -/

lemma step_push (cfg : EventBusConfig ι ε σ ν β) {s : EventBus ι κ ε σ} {t : ι ⊕ κ} {j : ι} {e : ε}
    {rest : List (ι × ε)} (hout : s.outbox t = (j, e) :: rest) (hopen : (s.queue j).closed = false)
    (hfree : (s.queue j).q.length < (s.queue j).capacity) :
    s.step cfg (.push t : EventBusAction ι κ ε ν β) =
      { s with queue := Function.update s.queue j ((s.queue j).accept e)
               outbox := Function.update s.outbox t rest } := by
  have hpush : (s.queue j).push e = some ((s.queue j).accept e, true) := by
    simp [BoundedQueue.push, hopen, Nat.not_le.mpr hfree]
  simp only [step, hout, hpush]

/-- The pushes of one event into the queues of `rest`. -/
lemma exec_push {cfg : EventBusConfig ι ε σ ν β} {s : EventBus ι κ ε σ} {t : ι ⊕ κ} {e : ε} {rest : List ι}
    (hnodup : rest.Nodup) (hout : s.outbox t = rest.map fun i => (i, e))
    (hroom : ∀ i ∈ rest, (s.queue i).closed = false ∧ (s.queue i).q.length < (s.queue i).capacity) :
    Runs.exec (step cfg) s (List.replicate rest.length (.push t)) =
      { s with queue := fun i => if i ∈ rest then (s.queue i).accept e else s.queue i
               outbox := Function.update s.outbox t [] } := by
  induction rest generalizing s with
  | nil =>
    have hsame : Function.update s.outbox t [] = s.outbox := by
      rw [Function.update_eq_self_iff, hout]
      rfl
    simp [hsame]
  | cons j rest ih =>
    obtain ⟨hj, hrest⟩ := List.nodup_cons.mp hnodup
    obtain ⟨hopen, hfree⟩ := hroom j List.mem_cons_self
    have hstep := step_push cfg hout hopen hfree
    rw [List.length_cons, List.replicate_succ, Runs.exec_cons, hstep, ih hrest]
    · simp only [Function.update_idem]
      congr 1
      funext i
      by_cases hij : i = j
      · subst hij
        simp [hj]
      · simp [hij]
    · simp
    · intro i hi
      have hij : i ≠ j := fun heq => hj (heq ▸ hi)
      simpa [hij] using hroom i (List.mem_cons_of_mem _ hi)

/-- A published event reaches every queue if all have room. -/
theorem exec_publish {cfg : EventBusConfig ι ε σ ν β} {s : EventBus ι κ ε σ} {k : κ} (e : ε)
    (hout : s.outbox (.inr k) = [])
    (hroom : ∀ i, (s.queue i).closed = false ∧ (s.queue i).q.length < (s.queue i).capacity) :
    Runs.exec (step cfg) s (.publish k e :: List.replicate cfg.subs.length (.push (.inr k))) =
      { s with queue := fun i => (s.queue i).accept e } := by
  have hstep : s.step cfg (.publish k e : EventBusAction ι κ ε ν β) =
      { s with outbox := Function.update s.outbox (.inr k) (cfg.subs.map fun i => (i, e)) } := by
    simp [step, hout, EventBusConfig.deliveries]
  have hsame : Function.update s.outbox (.inr k) [] = s.outbox := by
    rw [Function.update_eq_self_iff, hout]
  rw [Runs.exec_cons, hstep, exec_push (e := e) cfg.nodup (by simp)]
  · simp [cfg.subscribed, hsame]
  · intro i _
    exact hroom i

lemma step_pop_quiet {cfg : EventBusConfig ι ε σ ν β} {s : EventBus ι κ ε σ} {i : ι} {input : ν} {e : ε}
    {q : BoundedQueue ε} (hout : s.outbox (.inl i) = []) (hpop : (s.queue i).tryPop = some (e, q))
    (hquiet : (cfg.handler i input s.env e).2 = []) :
    s.step cfg (.pop i input) =
      { s with queue := Function.update s.queue i q, env := (cfg.handler i input s.env e).1 } := by
  have hsame : Function.update s.outbox (.inl i) [] = s.outbox := by
    rw [Function.update_eq_self_iff, hout]
  simp [step, hout, hpop, hquiet, EventBusConfig.deliveries, hsame]

/-! ### What a worker still has to push -/

/-- What holds in every state of a run that keeps room. -/
structure Sound (cfg : EventBusConfig ι ε σ ν β) (s : EventBus ι κ ε σ) : Prop where
  queues : ∀ j, (s.queue j).Blocking
  remaining : ∀ i, (s.outbox (.inl i)).map Prod.fst <:+ cfg.subs
  reserved : ∀ j, s.OwnPending j → (s.queue j).closed = false → (s.queue j).q.length < (s.queue j).capacity

variable {cfg : EventBusConfig ι ε σ ν β} {s : EventBus ι κ ε σ}

omit [DecidableEq ι] [DecidableEq κ] in
lemma sound_started (env : σ) : (started cfg env : EventBus ι κ ε σ).Sound cfg := by
  refine ⟨fun j => ⟨rfl, Nat.zero_le _⟩, fun i => List.nil_suffix, fun j hj => ?_⟩
  cases hj

omit [DecidableEq ι] in
lemma deliveries_suffix (i : ι) (input : ν) (env : σ) (e : ε) :
    (cfg.deliveries (cfg.handler i input env e).2).map Prod.fst <:+ cfg.subs := by
  have honce := cfg.publishesOnce i input env e
  match hes : (cfg.handler i input env e).2 with
  | [] => exact List.nil_suffix
  | [x] => simp [EventBusConfig.deliveries, Function.comp_def]
  | x :: y :: es =>
    rw [hes] at honce
    simp at honce

/-- Only the worker `i` has its outbox changed. -/
lemma ownPending_update {i j : ι} {q : ι → BoundedQueue ε} {out : List (ι × ε)} {env : σ} (hji : j ≠ i) :
    OwnPending ⟨q, Function.update s.outbox (.inl i) out, env⟩ j ↔ s.OwnPending j := by
  have hne : (.inl j : ι ⊕ κ) ≠ .inl i := by simpa using hji
  simp only [OwnPending, Function.update_of_ne hne]

lemma Sound.pop (h : s.Sound cfg) (i : ι) (input : ν) : (s.step cfg (.pop i input)).Sound cfg := by
  simp only [step]
  split
  · rename_i e q hout hpop
    obtain ⟨hblocking, hroom⟩ := (h.queues i).tryPop hpop
    refine ⟨?_, fun j => ?_, fun j hj hopen => ?_⟩
    · exact (Function.forall_update_iff s.queue fun _ b => b.Blocking).2 ⟨hblocking, fun j _ => h.queues j⟩
    · by_cases hji : j = i
      · subst hji
        simpa using deliveries_suffix j input s.env e
      · simpa [Function.update_of_ne, hji] using h.remaining j
    · by_cases hji : j = i
      · subst hji
        simpa using hroom
      · rw [ownPending_update hji] at hj
        simp only [Function.update_of_ne hji] at hopen ⊢
        exact h.reserved j hj hopen
  · exact h

lemma Sound.publish (h : s.Sound cfg) (k : κ) (e : ε) :
    (s.step cfg (.publish k e : EventBusAction ι κ ε ν β)).Sound cfg := by
  simp only [step]
  split
  · refine ⟨h.queues, fun i => ?_, fun j hj hopen => h.reserved j ?_ hopen⟩
    · simpa using h.remaining i
    · simpa [OwnPending] using hj
  · exact h

lemma Sound.push (h : s.Sound cfg) (t : ι ⊕ κ) (hroom : s.KeepsRoom (.push t : EventBusAction ι κ ε ν β)) :
    (s.step cfg (.push t : EventBusAction ι κ ε ν β)).Sound cfg := by
  simp only [step]
  cases hout : s.outbox t with
  | nil => exact h
  | cons d rest =>
    obtain ⟨j, e⟩ := d
    dsimp only
    split
    · exact h
    · rename_i r hpush
      -- whatever is still to be pushed was so before
      have hbefore : ∀ i, (Function.update s.outbox t rest (.inl i)).map Prod.fst <:+
          (s.outbox (.inl i)).map Prod.fst := by
        intro i
        by_cases ht : Sum.inl i = t
        · subst ht
          rw [Function.update_self, hout]
          exact List.suffix_cons _ _
        · simp [Function.update_of_ne ht]
      refine ⟨?_, fun i => (hbefore i).trans (h.remaining i), fun i hi hopen => ?_⟩
      · exact (Function.forall_update_iff s.queue fun _ b => b.Blocking).2
          ⟨(h.queues j).push hpush, fun i _ => h.queues i⟩
      · have hpending : s.OwnPending i := (hbefore i).mem hi
        by_cases hij : i = j
        · subst hij
          simp only [Function.update_self] at hopen ⊢
          rcases BoundedQueue.push_of_block (h.queues i).policy hpush with ⟨hclosed, hr⟩ | ⟨hfree, _, hr⟩
          · rw [hr, hclosed] at hopen
            cases hopen
          · -- a worker's own push comes once: none is left after it
            have hother : t ≠ .inl i := by
              rintro rfl
              have hnodup := (h.remaining i).sublist.nodup cfg.nodup
              rw [hout, List.map_cons, List.nodup_cons] at hnodup
              apply hnodup.1
              simpa [OwnPending] using hi
            have hlt := hroom (i, e) (by rw [hout]; rfl) hother hpending hfree
            rw [hr]
            simpa [BoundedQueue.accept] using hlt
        · simp only [Function.update_of_ne hij] at hopen ⊢
          exact h.reserved i hpending hopen

lemma Sound.stop (h : s.Sound cfg) (i : ι) : (s.step cfg (.stop i : EventBusAction ι κ ε ν β)).Sound cfg := by
  simp only [step]
  refine ⟨?_, h.remaining, fun j hj hopen => ?_⟩
  · exact (Function.forall_update_iff s.queue fun _ b => b.Blocking).2 ⟨(h.queues i).close, fun j _ => h.queues j⟩
  · by_cases hji : j = i
    · subst hji
      simp [BoundedQueue.close] at hopen
    · simp only [Function.update_of_ne hji] at hopen ⊢
      exact h.reserved j hj hopen

lemma Sound.step (h : s.Sound cfg) (a : EventBusAction ι κ ε ν β) (hroom : s.KeepsRoom a) :
    (s.step cfg a).Sound cfg := by
  cases a with
  | pop i input => exact h.pop i input
  | publish k e => exact h.publish k e
  | push t => exact h.push t hroom
  | stop i => exact h.stop i
  | other b => exact ⟨h.queues, h.remaining, h.reserved⟩

/-! ### Who waits for whom -/

lemma idxOf_lt_of_suffix {l rest : List ι} {j k : ι} (hnodup : l.Nodup) (hsuffix : k :: rest <:+ l) (hj : j ∈ l)
    (hnot : j ∉ k :: rest) : l.idxOf j < l.idxOf k := by
  obtain ⟨before, rfl⟩ := hsuffix
  have hbefore : j ∈ before := (List.mem_append.mp hj).resolve_right hnot
  have hk : k ∉ before := fun hmem => (List.disjoint_of_nodup_append hnodup) hmem List.mem_cons_self
  rw [List.idxOf_append_of_mem hbefore, List.idxOf_append_of_notMem hk]
  have hlt := List.idxOf_lt_length_of_mem hbefore
  omega

omit [DecidableEq κ] in
/-- A worker whose queue is full has made its own push: it waits for a later subscription. -/
lemma Sound.waits_later (h : s.Sound cfg) {i j k : ι} (hij : s.Waits i j) (hjk : s.Waits j k) :
    cfg.subs.idxOf j < cfg.subs.idxOf k := by
  obtain ⟨e, rest, _, hfull⟩ := hij
  obtain ⟨e', rest', hout, _⟩ := hjk
  obtain ⟨hopen, hcapacity, _⟩ := (BoundedQueue.push_eq_none_iff _ _).1 hfull
  have hremaining := h.remaining j
  rw [hout, List.map_cons] at hremaining
  apply idxOf_lt_of_suffix cfg.nodup hremaining (cfg.subscribed j)
  intro hmem
  have hpending : s.OwnPending j := by
    unfold OwnPending
    rw [hout]
    exact hmem
  have hroom := h.reserved j hpending hopen
  omega

omit [DecidableEq κ] in
lemma Sound.not_deadlocked (h : s.Sound cfg) (D : Set ι) : ¬Deadlock.Deadlocked s.Waits D := by
  apply Deadlock.not_deadlocked_of_rank (cfg.subs.idxOf ·) cfg.subs.length
  · intro i
    exact List.idxOf_lt_length_of_mem (cfg.subscribed i)
  · intro i j k hij hjk
    exact h.waits_later hij hjk

/-- A run in which no other thread takes the last place in the queue of a publishing worker has no
deadlock. -/
theorem not_deadlocked_of_keepsRoom (cfg : EventBusConfig ι ε σ ν β) (env : σ)
    (as : List (EventBusAction ι κ ε ν β)) (h : Runs.Along (step cfg) KeepsRoom (started cfg env) as) (D : Set ι) :
    ¬Deadlock.Deadlocked (Runs.exec (step cfg) (started cfg env : EventBus ι κ ε σ) as).Waits D := by
  have hsound := h.invariant (Sound cfg) (fun s a hs ha => hs.step a ha) (sound_started env)
  exact hsound.not_deadlocked D

/-- The worker `j` has filled up while its own push is still to come. -/
structure Overfull (s : EventBus ι κ ε σ) (j : ι) : Prop where
  pending : s.OwnPending j
  isOpen : (s.queue j).closed = false
  full : (s.queue j).capacity ≤ (s.queue j).q.length
  policy : (s.queue j).policy = .block

omit [DecidableEq ι] [DecidableEq κ] in
lemma Overfull.keep {s' : EventBus ι κ ε σ} {j : ι} (h : s.Overfull j) (hqueue : s'.queue j = s.queue j)
    (hpending : s'.OwnPending j) : s'.Overfull j ∧ s'.queue j = s.queue j := by
  refine ⟨⟨hpending, ?_, ?_, ?_⟩, hqueue⟩
  · rw [hqueue]
    exact h.isOpen
  · rw [hqueue]
    exact h.full
  · rw [hqueue]
    exact h.policy

lemma Overfull.step {j : ι} (h : s.Overfull j) {a : EventBusAction ι κ ε ν β} (hstop : ∀ i, a = .stop i → i ≠ j) :
    (s.step cfg a).Overfull j ∧ (s.step cfg a).queue j = s.queue j := by
  cases a with
  | pop i input =>
    simp only [EventBus.step]
    split
    · rename_i e q hout hpop
      have hne : j ≠ i := by
        rintro rfl
        have hpending := h.pending
        simp [OwnPending, hout] at hpending
      apply h.keep
      · exact Function.update_of_ne hne q s.queue
      · exact (ownPending_update hne).2 h.pending
    · exact ⟨h, rfl⟩
  | publish k e =>
    simp only [EventBus.step]
    split
    · apply h.keep
      · rfl
      · simpa [OwnPending] using h.pending
    · exact ⟨h, rfl⟩
  | push t =>
    simp only [EventBus.step]
    cases hout : s.outbox t with
    | nil => exact ⟨h, rfl⟩
    | cons d rest =>
      obtain ⟨k, e⟩ := d
      dsimp only
      split
      · exact ⟨h, rfl⟩
      · rename_i r hpush
        have hne : j ≠ k := by
          rintro rfl
          have hblocked := (BoundedQueue.push_eq_none_iff _ e).2 ⟨h.isOpen, h.full, h.policy⟩
          rw [hblocked] at hpush
          cases hpush
        apply h.keep
        · exact Function.update_of_ne hne r.1 s.queue
        · by_cases ht : t = .inl j
          · subst ht
            have hpending := h.pending
            simp only [OwnPending, hout, List.map_cons, List.mem_cons, hne, false_or] at hpending
            simpa [OwnPending] using hpending
          · simpa [OwnPending, Function.update_of_ne (Ne.symm ht)] using h.pending
  | stop i =>
    have hne : j ≠ i := Ne.symm (hstop i rfl)
    apply h.keep
    · exact Function.update_of_ne hne _ s.queue
    · exact h.pending
  | other b => exact h.keep rfl h.pending

omit [DecidableEq ι] [DecidableEq κ] in
lemma Sound.not_overfull (h : s.Sound cfg) (j : ι) : ¬s.Overfull j := by
  intro hover
  have hroom := h.reserved j hover.pending hover.isOpen
  have hfull := hover.full
  omega

/-- A push that does not keep room takes the place that a worker needs for itself. -/
lemma Sound.overfull_of_push (h : s.Sound cfg) {t : ι ⊕ κ}
    (hroom : ¬s.KeepsRoom (.push t : EventBusAction ι κ ε ν β)) :
    ∃ j, (s.step cfg (.push t : EventBusAction ι κ ε ν β)).Overfull j := by
  cases hout : s.outbox t with
  | nil => simp [KeepsRoom, hout] at hroom
  | cons d rest =>
    obtain ⟨j, e⟩ := d
    simp only [KeepsRoom, hout, List.head?_cons, Option.mem_def, Option.some.injEq, forall_eq', Classical.not_imp,
      Nat.not_lt] at hroom
    obtain ⟨hother, hpending, hopen, hlast⟩ := hroom
    have hfree := h.reserved j hpending hopen
    rw [step_push cfg hout hopen hfree]
    refine ⟨j, ?_, ?_, ?_, ?_⟩
    · simpa [OwnPending, Function.update_of_ne (Ne.symm hother)] using hpending
    · simpa [BoundedQueue.accept] using hopen
    · simpa [BoundedQueue.accept] using hlast
    · simpa [BoundedQueue.accept] using (h.queues j).policy

/-- The condition is exact: as soon as a push does not keep room, a worker is overfull. -/
theorem never_overfull_iff (cfg : EventBusConfig ι ε σ ν β) (env : σ) (as : List (EventBusAction ι κ ε ν β)) :
    (∀ before, before <+: as → ∀ j, ¬(Runs.exec (EventBus.step cfg) (started cfg env) before).Overfull j) ↔
      Runs.Along (EventBus.step cfg) KeepsRoom (started cfg env) as := by
  apply Runs.prefixes_iff_along (I := Sound cfg) (Q := fun s => ∀ j, ¬s.Overfull j)
  · intro s hs j
    exact hs.not_overfull j
  · intro s a hs ha
    exact hs.step a ha
  · intro s a hs hover
    cases a with
    | push t =>
      by_contra hroom
      obtain ⟨j, hj⟩ := hs.overfull_of_push hroom
      exact hover j hj
    | _ => trivial
  · exact sound_started env

/-- Once a thread has taken that last place, the worker handles no further event until it is stopped. -/
theorem Overfull.never_pops {j : ι} (h : s.Overfull j) (cfg : EventBusConfig ι ε σ ν β)
    (as : List (EventBusAction ι κ ε ν β)) (hstop : ∀ i, .stop i ∈ as → i ≠ j) :
    (Runs.exec (EventBus.step cfg) s as).queue j = s.queue j := by
  induction as generalizing s with
  | nil => rfl
  | cons a as ih =>
    obtain ⟨hnext, hqueue⟩ := h.step (fun i hi => hstop i (hi ▸ List.mem_cons_self))
    rw [Runs.exec_cons, ih hnext (fun i hi => hstop i (List.mem_cons_of_mem _ hi)), hqueue]

end EventBus

end Acva
