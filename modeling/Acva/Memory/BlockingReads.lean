import Acva.Event.Worker
import Mathlib.Logic.Function.Basic

/-!
# Reads on worker threads

`MemoryThread::read` submits a job and waits for its future. A job that `post` refuses is answered by an exception,
and so is one that is still queued when the `MemoryThread` is destroyed, because its promise goes with the queue.
`Manager::io_loop` (through `PromptBuilder::build`) and `Summarizer::worker_loop` read without a handler, so an
exception ends their thread.
-/

namespace Acva

/-- The loops that read from the memory thread. -/
inductive ReadLoop
  | managerIo
  | summarizerWorker
  deriving DecidableEq, Repr

/-- Waiting for work, in `post` before and after its test of `running_`, inside `get()` for the job of that number,
busy with what was read, or left by an exception. A loop may read several times before it waits again. -/
inductive LoopStage
  | waiting
  | testing
  | pushing
  | awaiting (job : Nat)
  | busy
  | ended
  deriving DecidableEq, Repr

/-- A job is one of a loop or of someone who does not wait for it. -/
structure MemoryReads (ι : Type*) where
  thread : QueueWorker (Option ι)
  loops : ι → LoopStage := fun _ => .waiting
  destroyed : Bool := false

inductive ReadAction (ι : Type*)
  | submit (c : ι)
  | test (c : ι)
  | push (c : ι)
  | get (c : ι)
  | finish (c : ι)
  | post
  | work
  | stop
  | destroy
  deriving DecidableEq, Repr

namespace MemoryReads

variable {ι : Type*} [DecidableEq ι]

def create (capacity : Nat) : MemoryReads ι := { thread := .create capacity .dropNewest }

def setLoop (s : MemoryReads ι) (c : ι) (stage : LoopStage) : MemoryReads ι :=
  { s with loops := Function.update s.loops c stage }

def Executed (s : MemoryReads ι) (job : Nat) : Prop := job ∈ s.thread.executed.map Prod.fst

instance (s : MemoryReads ι) (job : Nat) : Decidable (s.Executed job) := inferInstanceAs (Decidable (_ ∈ _))

/-- The future is ready with a value, ready with an exception, or neither. -/
def get (s : MemoryReads ι) (c : ι) : MemoryReads ι :=
  match s.loops c with
  | .awaiting job =>
    if s.Executed job then s.setLoop c .busy
    else if s.destroyed then s.setLoop c .ended
    else s
  | _ => s

def step (s : MemoryReads ι) : ReadAction ι → MemoryReads ι
  | .submit c =>
    match s.loops c with
    | .waiting | .busy => s.setLoop c .testing
    | _ => s
  | .test c =>
    match s.loops c with
    | .testing => s.setLoop c (if s.thread.running then .pushing else .ended)
    | _ => s
  | .push c =>
    match s.loops c with
    | .pushing =>
      let thread := s.thread.push (some c)
      { s with thread := thread }.setLoop c
        (if s.thread.accepted.length < thread.accepted.length then .awaiting s.thread.accepted.length else .ended)
    | _ => s
  | .get c => s.get c
  | .finish c =>
    match s.loops c with
    | .busy => s.setLoop c .waiting
    | _ => s
  | .post => { s with thread := s.thread.push none }
  | .work => { s with thread := s.thread.work }
  | .stop => { s with thread := s.thread.stop }
  | .destroy => if s.thread.stopper = .returned then { s with destroyed := true } else s

/-- No loop was left by an exception. -/
def Alive (s : MemoryReads ι) : Prop := ∀ c, s.loops c ≠ .ended

/-- A submit finds the memory thread running and its queue open and with room, and no job that a loop waits for is
left behind when the thread is destroyed. -/
def Served (s : MemoryReads ι) : ReadAction ι → Prop
  | .test c => s.loops c = .testing → s.thread.running = true
  | .push c => s.loops c = .pushing → s.thread.queue.closed = false ∧ s.thread.queue.q.length < s.thread.queue.capacity
  | .get c =>
    match s.loops c with
    | .awaiting job => s.destroyed = true → s.Executed job
    | _ => True
  | _ => True

instance (s : MemoryReads ι) (a : ReadAction ι) : Decidable (s.Served a) := by
  unfold Served
  split
  · infer_instance
  · infer_instance
  · split <;> infer_instance
  · infer_instance

end MemoryReads

/-! ### The memory queue -/

namespace QueueWorker

variable {α : Type*} {s : QueueWorker α}

/-- A queue that drops the newest item accepts exactly what finds it open and with room. -/
lemma accepted_push_iff (hpolicy : s.queue.policy = .dropNewest) (value : α) :
    s.accepted.length < (s.push value).accepted.length ↔
      s.queue.closed = false ∧ s.queue.q.length < s.queue.capacity := by
  unfold push BoundedQueue.push
  by_cases hclosed : s.queue.closed = true
  · simp [hclosed]
  · by_cases hfull : s.queue.capacity ≤ s.queue.q.length
    · simp [hclosed, hfull, hpolicy]
    · simp [hclosed, hfull, Nat.lt_of_not_le hfull]

lemma policy_push (hpolicy : s.queue.policy = .dropNewest) (value : α) : (s.push value).queue.policy = .dropNewest := by
  unfold push BoundedQueue.push
  by_cases hclosed : s.queue.closed = true
  · simp [hclosed, hpolicy]
  · by_cases hfull : s.queue.capacity ≤ s.queue.q.length
    · simp [hclosed, hfull, hpolicy]
    · simp [hclosed, hfull, hpolicy, BoundedQueue.accept]

lemma policy_work (s : QueueWorker α) : s.work.queue.policy = s.queue.policy := by
  unfold work
  split
  · rfl
  · unfold BoundedQueue.pop
    cases hpop : s.queue.tryPop with
    | none => split <;> simp_all
    | some r =>
      obtain ⟨x, queue⟩ := r
      obtain ⟨_, hqueue⟩ := BoundedQueue.tryPop_eq_some hpop
      dsimp only
      rw [hqueue]
  · rfl
  · rfl

lemma policy_stop (s : QueueWorker α) : s.stop.queue.policy = s.queue.policy := by
  rcases s.stop_cases with ⟨_, heq⟩ | ⟨_, heq⟩ | ⟨_, heq⟩ | ⟨_, _, heq⟩
  · rw [heq]
  · rw [heq]
  · rw [heq]
    rfl
  · rw [heq]

end QueueWorker

/-! ### The loops -/

namespace MemoryReads

variable {ι : Type*} [DecidableEq ι] {s : MemoryReads ι}

lemma policy_step (hpolicy : s.thread.queue.policy = .dropNewest) (a : ReadAction ι) :
    (s.step a).thread.queue.policy = .dropNewest := by
  cases a with
  | push c =>
    simp only [step]
    split
    · exact QueueWorker.policy_push hpolicy (some c)
    · exact hpolicy
  | post => exact QueueWorker.policy_push hpolicy none
  | work => exact s.thread.policy_work.trans hpolicy
  | stop => exact s.thread.policy_stop.trans hpolicy
  | get c =>
    simp only [step, get]
    split
    · split
      · exact hpolicy
      · split <;> exact hpolicy
    · exact hpolicy
  | destroy =>
    simp only [step]
    split <;> exact hpolicy
  | _ =>
    simp only [step]
    split <;> exact hpolicy

lemma alive_setLoop (s : MemoryReads ι) {c : ι} (stage : LoopStage) (hc : s.loops c ≠ .ended) :
    (s.setLoop c stage).Alive ↔ s.Alive ∧ stage ≠ .ended := by
  constructor
  · intro h
    refine ⟨fun c' => ?_, ?_⟩
    · by_cases heq : c' = c
      · rw [heq]
        exact hc
      · have hc' := h c'
        simp only [setLoop, Function.update_of_ne heq] at hc'
        exact hc'
    · have hself := h c
      simp only [setLoop, Function.update_self] at hself
      exact hself
  · rintro ⟨h, hstage⟩ c'
    by_cases heq : c' = c
    · rw [heq]
      simpa only [setLoop, Function.update_self] using hstage
    · simp only [setLoop, Function.update_of_ne heq]
      exact h c'

/-- A loop survives its push exactly if the queue accepts the job. -/
lemma alive_push (hpolicy : s.thread.queue.policy = .dropNewest) (c : ι) :
    (s.step (.push c)).Alive ↔ s.Alive ∧ s.Served (.push c) := by
  simp only [step, Served]
  cases hstage : s.loops c with
  | pushing =>
    dsimp only
    rw [alive_setLoop _ _ (by simp [hstage])]
    have haccepted := QueueWorker.accepted_push_iff hpolicy (some c)
    by_cases hroom : s.thread.accepted.length < (s.thread.push (some c)).accepted.length
    · rw [if_pos hroom]
      simp only [haccepted.mp hroom, Alive]
      simp
    · rw [if_neg hroom]
      have hnot : ¬(s.thread.queue.closed = false ∧ s.thread.queue.q.length < s.thread.queue.capacity) :=
        fun h => hroom (haccepted.mpr h)
      simp [hnot]
  | _ => simp

/-- A loop survives its wait exactly if the job is not destroyed before it ran. -/
lemma alive_get (c : ι) : (s.step (.get c)).Alive ↔ s.Alive ∧ s.Served (.get c) := by
  simp only [step, Served, get]
  cases hstage : s.loops c with
  | awaiting job =>
    dsimp only
    by_cases hexecuted : s.Executed job
    · rw [if_pos hexecuted, alive_setLoop s _ (by simp [hstage])]
      simp [hexecuted]
    · rw [if_neg hexecuted]
      cases hdestroyed : s.destroyed with
      | true =>
        rw [if_pos rfl, alive_setLoop s _ (by simp [hstage])]
        simp [hexecuted]
      | false => simp
  | _ => simp

lemma alive_step (hpolicy : s.thread.queue.policy = .dropNewest) (a : ReadAction ι) :
    (s.step a).Alive ↔ s.Alive ∧ s.Served a := by
  cases a with
  | submit c =>
    simp only [step, Served, and_true]
    split
    · rename_i hstage
      rw [alive_setLoop s _ (by simp [hstage])]
      simp
    · rename_i hstage
      rw [alive_setLoop s _ (by simp [hstage])]
      simp
    · rfl
  | test c =>
    simp only [step, Served]
    cases hstage : s.loops c with
    | testing =>
      rw [alive_setLoop s _ (by simp [hstage])]
      cases s.thread.running <;> simp
    | _ => simp
  | push c => exact alive_push hpolicy c
  | get c => exact alive_get c
  | finish c =>
    simp only [step, Served, and_true]
    split
    · rename_i hstage
      rw [alive_setLoop s _ (by simp [hstage])]
      simp
    · rfl
  | post => simp [step, Served, Alive]
  | work => simp [step, Served, Alive]
  | stop => simp [step, Served, Alive]
  | destroy =>
    simp only [step, Served, and_true]
    split <;> rfl

/-- The loops that read from the memory thread survive exactly the runs in which every read is served. -/
theorem loops_alive_iff (capacity : Nat) (as : List (ReadAction ι)) :
    (Runs.exec step (create capacity : MemoryReads ι) as).Alive ↔
      Runs.Along step Served (create capacity : MemoryReads ι) as := by
  have halive : (create capacity : MemoryReads ι).Alive := fun c h => by cases h
  rw [Runs.exec_iff_along (I := fun s : MemoryReads ι => s.thread.queue.policy = .dropNewest) (Q := Alive)
    (fun s a h => policy_step h a) (fun s a h => alive_step h a) rfl as]
  exact and_iff_right halive

/-- The queue of one job is full when the prompt builder reads: the exception ends the I/O loop. -/
theorem full_queue_ends_loop :
    ¬(Runs.exec step (create 1 : MemoryReads ReadLoop)
      [.post, .submit .managerIo, .test .managerIo, .push .managerIo]).Alive := by
  intro h
  exact h .managerIo (by decide)

end MemoryReads

end Acva
