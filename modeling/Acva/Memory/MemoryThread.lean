import Acva.Event.BoundedQueue
import Acva.Memory.Repository

/-!
# The memory thread

Reads and writes are jobs in one queue that drops the newest when it is full; the thread runs them in the
order of posting. `read` posts a job and waits for its result. Any statement may fail.
-/

namespace Acva

/-- The repository calls of `SessionManager`. -/
inductive SessionJob
  | getSession (id : SessionId)
  | closeSession (id : SessionId) (endedAt : Int)
  | insertSession (startedAt : Int)
  | deleteSession (id : SessionId)
  | wipeAll
  deriving DecidableEq, Repr

/-- A row of the turn writer, the reads of the prompt builder, a call of the session manager, and what leaves
sessions and turns alone. -/
inductive MemoryJob
  | insertTurn (source : Option Nat) (row : TurnRow)
  | snapshot (sid : SessionId) (limit : Int)
  | session (job : SessionJob)
  | other
  deriving DecidableEq, Repr

inductive MemoryResult
  | failed
  | done
  | turns (rows : List StoredTurn)
  | opened (id : SessionId)
  | found (exists? : Bool)
  deriving DecidableEq, Repr

def SessionJob.run (r : Repository) : SessionJob → Repository × MemoryResult
  | .getSession id => (r, .found (r.hasSession id))
  | .closeSession id endedAt => (r.closeSession id endedAt, .done)
  | .insertSession startedAt =>
    let p := r.insertSession startedAt
    (p.1, .opened p.2)
  | .deleteSession id => (r.deleteSession id, .done)
  | .wipeAll => (r.wipeAll, .done)

/-- The job as the thread runs it; `ok` says that SQLite does not fail. -/
def MemoryJob.run (ok : Bool) (r : Repository) : MemoryJob → Repository × MemoryResult
  | .insertTurn source row =>
    match if ok then r.insertTurn source row else none with
    | some r' => (r', .done)
    | none => (r, .failed)
  | .snapshot sid limit => (r, .turns (if ok then r.recentTurns sid limit else []))
  | .session job => if ok then job.run r else (r, .failed)
  | .other => (r, .done)

structure MemoryThread where
  repo : Repository := {}
  queue : BoundedQueue MemoryJob := { capacity := 256, policy := .dropNewest }
  deriving DecidableEq, Repr

namespace MemoryThread

/-- The thread and whether the job was accepted. -/
def post (m : MemoryThread) (job : MemoryJob) : MemoryThread × Bool :=
  match m.queue.push job with
  | some r => ({ m with queue := r.1 }, r.2)
  | none => (m, false)

/-- The next job, its result and the thread after it. -/
def runNext (ok : Bool) (m : MemoryThread) : Option (MemoryJob × MemoryResult × MemoryThread) :=
  match m.queue.tryPop with
  | some (job, queue) =>
    let r := job.run ok m.repo
    some (job, r.2, { m with repo := r.1, queue := queue })
  | none => none

lemma post_eq {m : MemoryThread} (hpolicy : m.queue.policy = .dropNewest) (job : MemoryJob) :
    (m.post job).1.repo = m.repo ∧ (m.post job).1.queue.policy = .dropNewest ∧
      ((m.post job).2 = false ∧ (m.post job).1.queue.q = m.queue.q ∨
        (m.post job).2 = true ∧ (m.post job).1.queue.q = m.queue.q ++ [job]) := by
  unfold post BoundedQueue.push
  by_cases hclosed : m.queue.closed = true
  · rw [if_pos hclosed]
    exact ⟨rfl, hpolicy, .inl ⟨rfl, rfl⟩⟩
  · rw [if_neg hclosed]
    by_cases hfull : m.queue.capacity ≤ m.queue.q.length
    · rw [if_pos hfull, hpolicy]
      exact ⟨rfl, rfl, .inl ⟨rfl, rfl⟩⟩
    · rw [if_neg hfull]
      exact ⟨rfl, hpolicy, .inr ⟨rfl, rfl⟩⟩

/-- Only jobs that meet `p` were posted in between. -/
def Posted (p : MemoryJob → Prop) (m m' : MemoryThread) : Prop :=
  m'.repo = m.repo ∧ m'.queue.policy = .dropNewest ∧ ∃ extra, m'.queue.q = m.queue.q ++ extra ∧ ∀ j ∈ extra, p j

variable {p : MemoryJob → Prop} {m : MemoryThread}

lemma Posted.refl (hpolicy : m.queue.policy = .dropNewest) : Posted p m m :=
  ⟨rfl, hpolicy, [], (List.append_nil _).symm, fun _ hj => nomatch hj⟩

lemma Posted.post {m' : MemoryThread} (h : Posted p m m') {job : MemoryJob} (hjob : p job) :
    Posted p m (m'.post job).1 := by
  obtain ⟨hrepo, hpolicy, extra, hq, hextra⟩ := h
  obtain ⟨hrepo', hpolicy', hqueue⟩ := post_eq hpolicy job
  refine ⟨hrepo'.trans hrepo, hpolicy', ?_⟩
  rcases hqueue with ⟨_, hsame⟩ | ⟨_, hadded⟩
  · exact ⟨extra, hsame.trans hq, hextra⟩
  · refine ⟨extra ++ [job], ?_, fun j hj => ?_⟩
    · rw [hadded, hq, List.append_assoc]
    · rcases List.mem_append.mp hj with hj | hj
      · exact hextra j hj
      · obtain rfl := List.mem_singleton.mp hj
        exact hjob

end MemoryThread

/-- Rows appear only through `insert_turn`. -/
lemma MemoryJob.mem_turns_run {ok : Bool} {r : Repository} {job : MemoryJob} {t : StoredTurn}
    (h : t ∈ (job.run ok r).1.turns) : t ∈ r.turns ∨ job = .insertTurn t.source t.row := by
  cases job with
  | insertTurn source row =>
    simp only [run] at h
    split at h
    · rename_i r' hr'
      cases ok with
      | false => cases hr'
      | true =>
        simp only [Repository.insertTurn, if_true] at hr'
        split at hr'
        · cases hr'
          rcases List.mem_append.mp h with h | h
          · exact .inl h
          · obtain rfl := List.mem_singleton.mp h
            exact .inr rfl
        · cases hr'
    · exact .inl h
  | snapshot sid limit => exact .inl h
  | other => exact .inl h
  | session job =>
    left
    simp only [run] at h
    split at h
    · cases job with
      | deleteSession id => exact List.mem_of_mem_filter h
      | wipeAll => cases h
      | _ => exact h
    · exact h

lemma MemoryJob.sessionSeq_insertTurn (ok : Bool) (r : Repository) (source : Option Nat) (row : TurnRow) :
    ((MemoryJob.insertTurn source row).run ok r).1.sessionSeq = r.sessionSeq := by
  cases ok with
  | false => rfl
  | true =>
    simp only [run, Repository.insertTurn, if_true]
    by_cases h : r.hasSession row.session = true
    · rw [if_pos h]
    · rw [if_neg h]

end Acva
