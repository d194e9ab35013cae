import Acva.Dialogue.Session
import Acva.Lib.Decimal
import Acva.Memory.Database

/-!
# Operations of the session manager

`SessionManager` runs an operation under one lock: a first call of the repository and, for most operations, a second
one that inserts the new session. The two are not one transaction, and either may fail.
-/

namespace Acva

open Schema Transactions

/-- The session exists and `ended_at` is null. -/
def Schema.Tables.IsOpen (x : Tables) (id : SessionId) : Prop :=
  ∃ row ∈ x.sessions.rows, row.id = id ∧ row.endedAt = none

/-! ### The reads -/

namespace SessionJob

/-- The calls on the memory thread, on its connection. A new session has the id that was given out last. -/
def program (r : SqlRun) : SessionJob → Program Catalog DbError MemoryResult
  | .getSession id => do
    let found ← r.select .sessions (·.hasSession id)
    return .found found
  | .closeSession id endedAt => do
    (Call.closeSession id endedAt).run r
    return .done
  | .insertSession startedAt => do
    (Call.insertSession startedAt none).run r
    fun c => (.ok (.opened c.content.tables.sessions.seq), c)
  | .deleteSession id => do
    (Call.deleteSession id).run r
    return .done
  | .wipeAll => do
    Call.wipeAll.run r
    return .done

/-- Every statement of the job succeeds. -/
def Succeeds (r : SqlRun) : SessionJob → Prop
  | .wipeAll => WipeSucceeds r.wipe
  | _ => r.statement.succeeds = true

/-- What a job that succeeds makes of the tables. -/
def tables (x : Tables) : SessionJob → Tables
  | .getSession _ => x
  | .closeSession id endedAt => x.closeSession id endedAt
  | .insertSession startedAt => x.insertSession startedAt none
  | .deleteSession id => x.deleteSession id
  | .wipeAll => {}

def result (x : Tables) : SessionJob → MemoryResult
  | .getSession id => .found (x.hasSession id)
  | .insertSession _ => .opened x.sessions.nextId
  | _ => .done

end SessionJob

/-! ### The operations -/

/-- An operation with the times that its calls are made at and how they go. -/
structure SessionOp where
  command : SessionCommand
  firstAt : Int := 0
  first : SqlRun := {}
  thenAt : Int := 0
  next : SqlRun := {}

structure SessionStore where
  db : Connection Catalog
  manager : SessionManager := {}
  deriving DecidableEq

namespace SessionStore

/-- What the manager sees of the tables. -/
def tables (s : SessionStore) : Tables := s.db.content.tables

/-- A read on the memory thread and what the operation does with its result. -/
def read (s : SessionStore) (job : SessionJob) (r : SqlRun) : SessionStore × Except DbError MemoryResult :=
  match job.program r s.db with
  | (.ok result, db) => ({ db := db, manager := s.manager.onResult job result }, .ok result)
  | (.error e, db) => ({ db := db, manager := s.manager.onResult job .failed }, .error e)

/-- The subscribers have been told and the lock is free. -/
def released (s : SessionStore) : SessionStore := { s with manager := { s.manager with stage := .idle } }

/-- What `adopt` returns if there is no such session. -/
def missing : SessionJob → MemoryResult → Option DbError
  | .getSession id, .found false => some ⟨ascii "adopt: session id " ++ Decimal.paddedInt 0 id ++ ascii " not found"⟩
  | _, _ => none

/-- The operation and the error that it returns. -/
def perform (s : SessionStore) (op : SessionOp) : SessionStore × Option DbError :=
  match s.manager.firstRead op.firstAt op.command with
  | none => (s, none)
  | some job =>
    match s.read job op.first with
    | (s', .error e) => (s'.released, some e)
    | (s', .ok result) =>
      match s'.manager.stage with
      | .opening =>
        match s'.read (.insertSession op.thenAt) op.next with
        | (s'', .error e) => (s''.released, some e)
        | (s'', .ok _) => (s''.released, none)
      | _ => (s'.released, missing job result)

def step (s : SessionStore) (op : SessionOp) : SessionStore := (s.perform op).1

/-- `id()` is 0 or names an open session. -/
def Valid (s : SessionStore) : Prop :=
  s.manager.current = 0 ∨ s.tables.IsOpen s.manager.current

/-- The operation leaves a valid id, and an error leaves everything as it was, also that no transaction is open. -/
def Atomic (s : SessionStore) (op : SessionOp) : Prop :=
  (s.step op).Valid ∧ ((s.perform op).2.isSome = true → s.step op = s)

/-- No session is adopted that has been closed, the new session is inserted once the old one is closed, deleted or
wiped, and a failing wipe leaves nothing behind. -/
def Completes (s : SessionStore) (op : SessionOp) : Prop :=
  match op.command with
  | .openInitial => True
  | .adopt id =>
    op.first.statement.succeeds = true → ∀ row ∈ s.tables.sessions.rows, row.id = id → row.endedAt = none
  | .rollOver =>
    s.manager.current ≠ 0 → op.first.statement.succeeds = true → op.next.statement.succeeds = true
  | .wipeSession target =>
    target = s.manager.current → target ≠ 0 → op.first.statement.succeeds = true → op.next.statement.succeeds = true
  | .wipeAll =>
    if WipeSucceeds op.first.wipe then op.next.statement.succeeds = true ∨ s.tables = {}
    else Spares op.first.wipe s.tables

instance (s : SessionStore) (op : SessionOp) : Decidable (s.Completes op) := by
  unfold Completes
  split <;> infer_instance

end SessionStore

/-! ### The tables -/

namespace Schema.Tables

variable {x : Tables} {id : SessionId}

lemma isOpen_insertSession (x : Tables) (startedAt : Int) (title : Option Text) :
    (x.insertSession startedAt title).IsOpen x.sessions.nextId :=
  ⟨_, List.mem_append_right _ (List.mem_singleton_self _), rfl, rfl⟩

lemma not_isOpen_closeSession (x : Tables) (id : SessionId) (endedAt : Int) :
    ¬(x.closeSession id endedAt).IsOpen id := by
  rintro ⟨row, hrow, hid, hnull⟩
  obtain ⟨row', _, rfl⟩ := List.mem_map.mp hrow
  by_cases heq : row'.id = id
  · rw [if_pos heq] at hnull
    cases hnull
  · rw [if_neg heq] at hid
    exact heq hid

lemma not_isOpen_deleteSession (x : Tables) (id : SessionId) : ¬(x.deleteSession id).IsOpen id := by
  rintro ⟨row, hrow, hid, -⟩
  have hmem := Table.mem_ids (t := (x.deleteSession id).sessions) hrow
  exact (mem_ids_deleteSession.mp hmem).2 hid

lemma IsOpen.deleteSession {target : SessionId} (h : x.IsOpen id) (hne : target ≠ id) :
    (x.deleteSession target).IsOpen id := by
  obtain ⟨row, hrow, hid, hnull⟩ := h
  refine ⟨row, List.mem_filter.mpr ⟨hrow, ?_⟩, hid, hnull⟩
  simpa [hid] using hne.symm

/-- Ids are distinct, so a session is open exactly if its row is. -/
lemma isOpen_iff (hsession : x.hasSession id = true) :
    x.IsOpen id ↔ ∀ row ∈ x.sessions.rows, row.id = id → row.endedAt = none := by
  constructor
  · rintro ⟨row, hrow, hid, hnull⟩ row' hrow' hid'
    rw [Table.eq_of_id_eq hrow' hrow (hid'.trans hid.symm)]
    exact hnull
  · intro hall
    obtain ⟨row, hrow, hid⟩ := List.any_eq_true.mp hsession
    have hid' : row.id = id := by simpa using hid
    exact ⟨row, hrow, hid', hall row hrow hid'⟩

lemma delete_eq_self {ρ : Type} {key : ρ → Int} {t : Table ρ key} {p : ρ → Bool} (h : ∀ r ∈ t.rows, p r = false) :
    t.delete p = t := by
  refine Table.ext_rows ?_ rfl
  rw [Table.delete, List.filter_eq_self]
  intro r hr
  simp [h r hr]

lemma Sound.deleteSession_zero (h : x.Sound) : x.deleteSession 0 = x := by
  have hpositive : ∀ k ∈ x.sessions.ids, k ≠ 0 := fun k hk => Int.ne_of_gt (h.sessions.positive k hk)
  have hsessions : x.sessions.delete (fun s => s.id = 0) = x.sessions :=
    delete_eq_self fun r hr => decide_eq_false (hpositive _ (Table.mem_ids hr))
  have hturns : ∀ t ∈ x.turns.rows, decide (t.session = 0) = false :=
    fun t ht => decide_eq_false (hpositive _ (h.turnSession t ht))
  have hsummaries : x.summaries.delete (fun s => s.session = 0) = x.summaries :=
    delete_eq_self fun r hr => decide_eq_false (hpositive _ (h.summarySession r hr))
  have hfacts : ∀ f, x.forgetting (fun t => t.session = 0) f = f := by
    intro f
    have hnone : ∀ k : TurnId,
        (x.turns.rows.any fun t => decide (t.session = 0) && decide (t.id = (k : Int))) = false :=
      fun k => List.any_eq_false.mpr fun t ht => by simp [of_decide_eq_false (hturns t ht)]
    unfold forgetting
    cases f.fact.sourceTurnId <;> simp [hnone]
  have hruntime : x.runtimeState.filter (fun r => r.session ≠ 0) = x.runtimeState := by
    cases hr : x.runtimeState with
    | none => rfl
    | some r => simp [Option.filter, hpositive _ (h.checkpointSession r hr)]
  have hdeleted : x.deleteTurns (fun t => t.session = 0) = x := by
    have hrows : (x.facts.updateAll (x.forgetting fun t => t.session = 0)
        fun f => by rw [x.forgetting_id]) = x.facts := by
      refine Table.ext_rows ?_ rfl
      exact (List.map_congr_left fun f _ => hfacts f).trans (List.map_id' _)
    rw [Tables.deleteTurns, delete_eq_self hturns, hrows]
  rw [Tables.deleteSession, hdeleted, hsessions, hsummaries, hruntime]

end Schema.Tables

/-! ### The reads on a connection at rest -/

namespace SessionJob

/-- An error of the job leaves the connection as it was. -/
def Spares (r : SqlRun) (x : Tables) : SessionJob → Prop
  | .wipeAll => Schema.Spares r.wipe x
  | _ => True

variable {x : Tables}

lemma sound_tables (h : x.Sound) (job : SessionJob) : (job.tables x).Sound := by
  cases job with
  | getSession id => exact h
  | closeSession id endedAt => exact h.closeSession id endedAt
  | insertSession startedAt => exact h.insertSession startedAt none
  | deleteSession id => exact h.deleteSession id
  | wipeAll => exact .empty

lemma program_atRest (job : SessionJob) (r : SqlRun) (x : Tables) :
    (job.Succeeds r ∧ job.program r (atRest x) = (.ok (job.result x), atRest (job.tables x))) ∨
      ¬job.Succeeds r ∧ ∃ e c, job.program r (atRest x) = (.error e, c) ∧ (c = atRest x ↔ job.Spares r x) := by
  cases job with
  | getSession id =>
    rcases select_atRest r .sessions (·.hasSession id) x with ⟨hr, hrun⟩ | ⟨hr, e, hrun⟩
    · exact .inl ⟨hr, Program.bind_of_ok hrun⟩
    · exact .inr ⟨by simp [Succeeds, hr], e, _, Program.bind_of_error hrun, by simp [Spares]⟩
  | closeSession id endedAt =>
    rcases execute_atRest (x := x) r (a := .closeSession id endedAt) rfl with ⟨hr, hrun⟩ | ⟨hr, e, hrun⟩
    · exact .inl ⟨hr, Program.bind_of_ok hrun⟩
    · exact .inr ⟨by simp [Succeeds, hr], e, _, Program.bind_of_error hrun, by simp [Spares]⟩
  | insertSession startedAt =>
    rcases execute_atRest (x := x) r (a := .insertSession startedAt none) rfl with ⟨hr, hrun⟩ | ⟨hr, e, hrun⟩
    · exact .inl ⟨hr, Program.bind_of_ok hrun⟩
    · exact .inr ⟨by simp [Succeeds, hr], e, _, Program.bind_of_error hrun, by simp [Spares]⟩
  | deleteSession id =>
    rcases execute_atRest (x := x) r (a := .deleteSession id) rfl with ⟨hr, hrun⟩ | ⟨hr, e, hrun⟩
    · exact .inl ⟨hr, Program.bind_of_ok hrun⟩
    · exact .inr ⟨by simp [Succeeds, hr], e, _, Program.bind_of_error hrun, by simp [Spares]⟩
  | wipeAll =>
    rcases wipeAll_closed r.wipe (.ofTables x) with ⟨hr, hrun⟩ | ⟨hr, e, d, hrun, -⟩
    · exact .inl ⟨hr, Program.bind_of_ok hrun⟩
    · exact .inr ⟨hr, e, d, Program.bind_of_error hrun, wipeAll_error hrun⟩

end SessionJob

namespace SessionStore

/-- Between operations: the connection is at rest, its tables are sound and the id is valid. -/
structure At (s : SessionStore) (x : Tables) : Prop where
  db : s.db = atRest x
  sound : x.Sound
  stage : s.manager.stage = .idle
  valid : s.Valid

variable {s : SessionStore} {x : Tables} {op : SessionOp} {job : SessionJob}

lemma At.tables_eq (h : s.At x) : s.tables = x := by
  rw [tables, h.db]
  rfl

lemma At.manager_eq (h : s.At x) : { s.manager with stage := .idle } = s.manager := by
  rw [← h.stage]

lemma onResult_failed (m : SessionManager) (job : SessionJob) : m.onResult job .failed = { m with stage := .idle } := by
  cases job <;> rfl

lemma read_ok (hdb : s.db = atRest x) {r : SqlRun} (hok : job.Succeeds r) :
    s.read job r =
      ({ db := atRest (job.tables x), manager := s.manager.onResult job (job.result x) }, .ok (job.result x)) := by
  rcases job.program_atRest r x with ⟨-, hrun⟩ | ⟨hno, -⟩
  · rw [read, hdb, hrun]
  · exact absurd hok hno

lemma read_error (hdb : s.db = atRest x) {r : SqlRun} (hok : ¬job.Succeeds r) :
    ∃ e c, s.read job r = ({ db := c, manager := { s.manager with stage := .idle } }, .error e) ∧
      (c = atRest x ↔ job.Spares r x) := by
  rcases job.program_atRest r x with ⟨hyes, -⟩ | ⟨-, e, c, hrun, hc⟩
  · exact absurd hyes hok
  · refine ⟨e, c, ?_, hc⟩
    rw [read, hdb, hrun]
    simp only [onResult_failed]

lemma At.perform_failed (h : s.At x) (hfirst : s.manager.firstRead op.firstAt op.command = some job)
    (hok : ¬job.Succeeds op.first) :
    ∃ e c, s.perform op = ({ s with db := c }, some e) ∧ (c = s.db ↔ job.Spares op.first x) := by
  obtain ⟨e, c, hread, hc⟩ := read_error h.db hok
  refine ⟨e, c, ?_, by rw [h.db, hc]⟩
  unfold perform
  simp only [hfirst, hread, released, h.manager_eq]

lemma At.atomic_failed (h : s.At x) (hfirst : s.manager.firstRead op.firstAt op.command = some job)
    (hok : ¬job.Succeeds op.first) : s.Atomic op ↔ job.Spares op.first x := by
  obtain ⟨e, c, hperform, hc⟩ := h.perform_failed hfirst hok
  unfold Atomic step
  rw [hperform, ← hc]
  constructor
  · exact fun hatomic => congrArg SessionStore.db (hatomic.2 rfl)
  · rintro rfl
    exact ⟨h.valid, fun _ => rfl⟩

lemma At.perform_single (h : s.At x) (hfirst : s.manager.firstRead op.firstAt op.command = some job)
    (hok : job.Succeeds op.first) (hstage : (s.manager.onResult job (job.result x)).stage ≠ .opening) :
    s.perform op =
      ({ db := atRest (job.tables x), manager := { s.manager.onResult job (job.result x) with stage := .idle } },
        missing job (job.result x)) := by
  unfold perform
  simp only [hfirst, read_ok h.db hok]
  rfl

/-- What is left to an operation once its first call has succeeded: the insert. -/
lemma At.perform_opening (h : s.At x) (hfirst : s.manager.firstRead op.firstAt op.command = some job)
    (hok : job.Succeeds op.first) (hstage : (s.manager.onResult job (job.result x)).stage = .opening) :
    (op.next.statement.succeeds = true ∧ s.perform op =
        ({ db := atRest ((job.tables x).insertSession op.thenAt none)
           manager := { current := (job.tables x).sessions.nextId } }, none)) ∨
      op.next.statement.succeeds = false ∧ ∃ e, s.perform op =
        ({ db := atRest (job.tables x)
           manager := { current := (s.manager.onResult job (job.result x)).current } }, some e) := by
  have hread := read_ok h.db hok
  cases hnext : op.next.statement.succeeds with
  | true =>
    have hinsert := read_ok (s := { db := atRest (job.tables x), manager := s.manager.onResult job (job.result x) }) rfl
      (show (SessionJob.insertSession op.thenAt).Succeeds op.next from hnext)
    refine .inl ⟨rfl, ?_⟩
    unfold perform
    simp only [hfirst, hread, hstage, hinsert]
    rfl
  | false =>
    have hno : ¬(SessionJob.insertSession op.thenAt).Succeeds op.next := by simp [SessionJob.Succeeds, hnext]
    obtain ⟨e, c, hinsert, hc⟩ :=
      read_error (s := { db := atRest (job.tables x), manager := s.manager.onResult job (job.result x) }) rfl hno
    obtain rfl : c = atRest (job.tables x) := hc.mpr trivial
    refine .inr ⟨rfl, e, ?_⟩
    unfold perform
    simp only [hfirst, hread, hstage, hinsert]
    rfl

/-- The operation is atomic exactly if the insert succeeds, or the first call has changed nothing. -/
lemma At.atomic_opening (h : s.At x) (hfirst : s.manager.firstRead op.firstAt op.command = some job)
    (hok : job.Succeeds op.first) (hstage : (s.manager.onResult job (job.result x)).stage = .opening)
    (hcurrent : (s.manager.onResult job (job.result x)).current = s.manager.current) :
    s.Atomic op ↔ op.next.statement.succeeds = true ∨ job.tables x = x := by
  unfold Atomic step
  rcases h.perform_opening hfirst hok hstage with ⟨hnext, hperform⟩ | ⟨hnext, e, hperform⟩
  · rw [hperform]
    have hvalid := (job.tables x).isOpen_insertSession op.thenAt none
    exact ⟨fun _ => .inl hnext, fun _ => ⟨.inr hvalid, fun herror => by cases herror⟩⟩
  · rw [hperform, hcurrent, hnext]
    simp only [Bool.false_eq_true, false_or, Option.isSome_some, true_implies]
    constructor
    · rintro ⟨-, hsame⟩
      have hdb := congrArg SessionStore.db hsame
      rw [h.db] at hdb
      exact ofTables_injective (congrArg Connection.stored hdb)
    · intro hsame
      have hstore :
          ({ db := atRest (job.tables x), manager := { current := s.manager.current } } : SessionStore) = s := by
        rw [hsame, ← h.db, ← h.stage]
      rw [hstore]
      exact ⟨h.valid, rfl⟩

lemma At.isOpen_current (h : s.At x) (hcurrent : s.manager.current ≠ 0) : x.IsOpen s.manager.current :=
  h.tables_eq ▸ h.valid.resolve_left hcurrent

lemma At.atomic_openInitial (h : s.At x) (hcommand : op.command = .openInitial) : s.Atomic op := by
  by_cases hcurrent : s.manager.current = 0
  · have hfirst : s.manager.firstRead op.firstAt op.command = some (.insertSession op.firstAt) := by
      simp [SessionManager.firstRead, hcommand, hcurrent]
    by_cases hok : (SessionJob.insertSession op.firstAt).Succeeds op.first
    · have hperform := h.perform_single hfirst hok (by
        simp [SessionJob.result, SessionManager.onResult, SessionManager.adopted])
      have hvalid := x.isOpen_insertSession op.firstAt none
      unfold Atomic step
      rw [hperform]
      exact ⟨.inr hvalid, fun herror => by cases herror⟩
    · exact (h.atomic_failed hfirst hok).mpr trivial
  · have hfirst : s.manager.firstRead op.firstAt op.command = none := by
      simp [SessionManager.firstRead, hcommand, hcurrent]
    have hperform : s.perform op = (s, none) := by simp [perform, hfirst]
    unfold Atomic step
    rw [hperform]
    exact ⟨h.valid, fun _ => rfl⟩

lemma At.atomic_adopt (h : s.At x) {id : SessionId} (hcommand : op.command = .adopt id) :
    s.Atomic op ↔ (op.first.statement.succeeds = true →
      ∀ row ∈ x.sessions.rows, row.id = id → row.endedAt = none) := by
  have hfirst : s.manager.firstRead op.firstAt op.command = some (.getSession id) := by
    simp [SessionManager.firstRead, hcommand]
  by_cases hok : (SessionJob.getSession id).Succeeds op.first
  · have hok' : op.first.statement.succeeds = true := hok
    have hperform := h.perform_single hfirst hok (by
      cases hfound : x.hasSession id <;>
        simp [SessionJob.result, hfound, SessionManager.onResult, SessionManager.adopted])
    simp only [hok', true_implies]
    unfold Atomic step
    rw [hperform]
    cases hfound : x.hasSession id with
    | false =>
      have hstore : ({ db := atRest x, manager := { s.manager with stage := .idle } } : SessionStore) = s := by
        rw [h.manager_eq, ← h.db]
      simp only [SessionJob.tables, SessionJob.result, hfound, SessionManager.onResult, hstore]
      refine ⟨fun _ row hrow hid => ?_, fun _ => ⟨h.valid, fun _ => trivial⟩⟩
      have hnone := List.any_eq_false.mp hfound row hrow
      simp [hid] at hnone
    | true =>
      have hpositive : id ≠ 0 := Int.ne_of_gt (h.sound.sessions.positive id (Tables.hasSession_iff.mp hfound))
      have hopen : (atRest x).content.tables.IsOpen id ↔ x.IsOpen id := Iff.rfl
      have hiff := hopen.trans (Tables.isOpen_iff hfound)
      simpa [SessionJob.tables, SessionJob.result, hfound, SessionManager.onResult, SessionManager.adopted, missing,
        Valid, tables, hpositive] using hiff
  · have hok' : op.first.statement.succeeds ≠ true := hok
    simpa [hok'] using (h.atomic_failed hfirst hok).mpr trivial

lemma At.atomic_rollOver (h : s.At x) (hcommand : op.command = .rollOver) :
    s.Atomic op ↔ (s.manager.current ≠ 0 → op.first.statement.succeeds = true →
      op.next.statement.succeeds = true) := by
  by_cases hcurrent : s.manager.current = 0
  · -- nothing to close: as `open_initial`
    have hinitial : s.perform op = s.perform { op with command := .openInitial } := by
      simp [perform, SessionManager.firstRead, hcommand, hcurrent]
    have hatomic : s.Atomic op := by
      have hopen : s.Atomic { op with command := .openInitial } := h.atomic_openInitial rfl
      unfold Atomic step at hopen ⊢
      rw [hinitial]
      exact hopen
    simp [hatomic, hcurrent]
  · have hfirst : s.manager.firstRead op.firstAt op.command = some (.closeSession s.manager.current op.firstAt) := by
      simp [SessionManager.firstRead, hcommand, hcurrent]
    by_cases hok : (SessionJob.closeSession s.manager.current op.firstAt).Succeeds op.first
    · have hok' : op.first.statement.succeeds = true := hok
      have hchanged : x.closeSession s.manager.current op.firstAt ≠ x := by
        intro heq
        have hopen := h.isOpen_current hcurrent
        rw [← heq] at hopen
        exact x.not_isOpen_closeSession _ _ hopen
      have hiff := h.atomic_opening hfirst hok rfl rfl
      simpa [hcurrent, hok', SessionJob.tables, hchanged] using hiff
    · have hok' : op.first.statement.succeeds ≠ true := hok
      simpa [hok'] using (h.atomic_failed hfirst hok).mpr trivial

lemma At.atomic_wipeSession (h : s.At x) {target : SessionId} (hcommand : op.command = .wipeSession target) :
    s.Atomic op ↔ (target = s.manager.current → target ≠ 0 → op.first.statement.succeeds = true →
      op.next.statement.succeeds = true) := by
  have hfirst : s.manager.firstRead op.firstAt op.command = some (.deleteSession target) := by
    simp [SessionManager.firstRead, hcommand]
  by_cases hok : (SessionJob.deleteSession target).Succeeds op.first
  · have hok' : op.first.statement.succeeds = true := hok
    by_cases htarget : target = s.manager.current
    · have hiff := h.atomic_opening hfirst hok (by simp [SessionJob.result, SessionManager.onResult, htarget]) rfl
      have hchanged : x.deleteSession target = x ↔ target = 0 := by
        constructor
        · intro heq
          by_contra hne
          have hopen := h.isOpen_current (htarget ▸ hne)
          rw [← heq, ← htarget] at hopen
          exact x.not_isOpen_deleteSession _ hopen
        · rintro rfl
          exact h.sound.deleteSession_zero
      rw [hiff, SessionJob.tables, hchanged]
      simp only [htarget, hok', true_implies]
      tauto
    · have hperform := h.perform_single hfirst hok (by simp [SessionJob.result, SessionManager.onResult, htarget])
      have hatomic : s.Atomic op := by
        unfold Atomic step
        rw [hperform]
        refine ⟨?_, fun herror => by cases herror⟩
        have hvalid := h.valid
        rw [Valid, h.tables_eq] at hvalid
        exact hvalid.imp_right fun hopen => hopen.deleteSession htarget
      simp [hatomic, htarget]
  · have hok' : op.first.statement.succeeds ≠ true := hok
    simpa [hok'] using (h.atomic_failed hfirst hok).mpr trivial

lemma At.atomic_wipeAll (h : s.At x) (hcommand : op.command = .wipeAll) :
    s.Atomic op ↔ if WipeSucceeds op.first.wipe then op.next.statement.succeeds = true ∨ x = {}
      else Schema.Spares op.first.wipe x := by
  have hfirst : s.manager.firstRead op.firstAt op.command = some .wipeAll := by
    simp [SessionManager.firstRead, hcommand]
  by_cases hok : SessionJob.wipeAll.Succeeds op.first
  · have hok' : WipeSucceeds op.first.wipe := hok
    rw [if_pos hok', h.atomic_opening hfirst hok rfl rfl]
    exact or_congr_right eq_comm
  · have hok' : ¬WipeSucceeds op.first.wipe := hok
    rw [if_neg hok']
    exact h.atomic_failed hfirst hok

lemma At.atomic_iff (h : s.At x) (op : SessionOp) : s.Atomic op ↔ s.Completes op := by
  unfold Completes
  rw [h.tables_eq]
  cases hcommand : op.command with
  | openInitial => simpa using h.atomic_openInitial hcommand
  | adopt id => exact h.atomic_adopt hcommand
  | rollOver => exact h.atomic_rollOver hcommand
  | wipeSession target => exact h.atomic_wipeSession hcommand
  | wipeAll => exact h.atomic_wipeAll hcommand

/-! ### Runs -/

lemma At.perform_rest (h : s.At x) (op : SessionOp) :
    (s.perform op).2.isSome = true ∨
      ∃ y : Tables, y.Sound ∧ (s.step op).db = atRest y ∧ (s.step op).manager.stage = .idle := by
  cases hfirst : s.manager.firstRead op.firstAt op.command with
  | none =>
    have hperform : s.perform op = (s, none) := by simp [perform, hfirst]
    exact .inr ⟨x, h.sound, by rw [step, hperform]; exact h.db, by rw [step, hperform]; exact h.stage⟩
  | some job =>
    by_cases hok : job.Succeeds op.first
    · have hsound := SessionJob.sound_tables h.sound job
      by_cases hstage : (s.manager.onResult job (job.result x)).stage = .opening
      · rcases h.perform_opening hfirst hok hstage with ⟨-, hperform⟩ | ⟨-, e, hperform⟩
        · exact .inr ⟨_, hsound.insertSession op.thenAt none, by rw [step, hperform], by rw [step, hperform]⟩
        · exact .inl (by rw [hperform]; rfl)
      · have hperform := h.perform_single hfirst hok hstage
        exact .inr ⟨_, hsound, by rw [step, hperform], by rw [step, hperform]⟩
    · obtain ⟨e, c, hperform, -⟩ := h.perform_failed hfirst hok
      exact .inl (by rw [hperform]; rfl)

lemma At.step (h : s.At x) (hatomic : s.Atomic op) : ∃ y, (s.step op).At y := by
  rcases h.perform_rest op with herror | ⟨y, hsound, hdb, hstage⟩
  · exact ⟨x, (hatomic.2 herror).symm ▸ h⟩
  · exact ⟨y, hdb, hsound, hstage, hatomic.1⟩

/-- Over any tables: all operations of a run are atomic exactly if each of them completes what it has begun, none
adopts a closed session and no failing wipe leaves something behind. -/
theorem operations_atomic_iff (x : Tables) (hx : x.Sound) (ops : List SessionOp) :
    Runs.Along step Atomic { db := atRest x } ops ↔ Runs.Along step Completes { db := atRest x } ops := by
  have hat : ∃ y, ({ db := atRest x } : SessionStore).At y := ⟨x, rfl, hx, rfl, .inl rfl⟩
  constructor
  · intro hatomic
    apply hatomic.imp (fun s => ∃ y, s.At y) (fun s op ⟨y, h⟩ ha => h.step ha) _ hat
    exact fun s op ⟨y, h⟩ ha => (h.atomic_iff op).mp ha
  · intro hcompletes
    apply hcompletes.imp (fun s => ∃ y, s.At y) _ _ hat
    · exact fun s op ⟨y, h⟩ hc => h.step ((h.atomic_iff op).mpr hc)
    · exact fun s op ⟨y, h⟩ hc => (h.atomic_iff op).mpr hc

/-- The insert fails. -/
def insertFails : SqlRun := { statement := .fails ⟨ascii "insert_session step"⟩ }

/-- A session is rolled over after an insert that failed, and then wiped; one wipe of everything finds the database
locked when it is to commit, and is rolled back. -/
theorem rollover_operations_atomic :
    Runs.Along step Atomic { db := atRest {} }
      [{ command := .openInitial, first := insertFails }, { command := .openInitial, firstAt := 10 },
        { command := .rollOver, firstAt := 20, thenAt := 21 }, { command := .adopt 7 },
        { command := .wipeAll, first := { wipe := fun c => if c = .commit then .rollsBack ⟨[]⟩ else .ok } },
        { command := .wipeSession 2 }] := by
  apply (operations_atomic_iff {} .empty _).mpr
  decide

/-- The old session is closed, the insert fails: the error leaves `id()` at a session that has ended. -/
theorem rollover_keeps_closed_session :
    let s := Runs.exec step { db := atRest {} } [{ command := .openInitial, firstAt := 10 }]
    let op : SessionOp := { command := .rollOver, firstAt := 20, next := insertFails }
    (s.perform op).2.isSome = true ∧ (s.step op).manager.current = 1 ∧
      (s.step op).tables.sessions.rows = [{ id := 1, startedAt := 10, endedAt := some 20 }] ∧ ¬s.Atomic op := by
  refine ⟨by decide, by decide, by decide, ?_⟩
  rintro ⟨-, hsame⟩
  exact absurd (congrArg (fun s => s.tables.sessions.rows) (hsame (by decide))) (by decide)

end SessionStore

end Acva
