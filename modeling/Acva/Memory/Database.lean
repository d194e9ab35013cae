import Acva.Memory.Atomicity
import Acva.Memory.Integrity

/-!
# Calls on a connection

A call of `Repository` but `wipe_all` is one statement, which SQLite refuses if it breaks a constraint or names a table
that is not there. `wipe_all` is the transaction of many. Whatever the statements run into, the tables stay sound, and
while no transaction is left open each call does what one step of the tables does.
-/

namespace Acva

open Transactions

namespace Schema

/-- The tables that the statement of a call is compiled against: its own and, where a row is inserted or deleted, those
that its foreign keys name. -/
def Call.needs : Call → List TableName
  | .insertSession _ _ | .closeSession _ _ | .deleteSession _ => [.sessions]
  | .insertTurn _ _ _ _ _ _ | .deleteTurn _ => [.turns, .sessions]
  | .setTurnStatus _ _ _ _ _ => [.turns]
  | .insertSummary _ _ _ _ _ _ _ => [.summaries, .sessions]
  | .upsertFact _ | .deleteFact _ => [.facts, .turns]
  | .upsertRuntimeState _ | .clearRuntimeState => [.runtimeState, .sessions]
  | .setSetting _ _ _ => [.settings]
  | .wipeAll | .vacuum => []

namespace Catalog

def has (c : Catalog) : TableName → Bool
  | .sessions => c.sessions.isSome
  | .turns => c.turns.isSome
  | .summaries => c.summaries.isSome
  | .facts => c.facts.isSome
  | .settings => c.settings.isSome
  | .runtimeState => c.runtimeState.isSome

/-- What a statement makes of the database, unless SQLite refuses it. -/
def call (c : Catalog) (a : Call) : Option Catalog :=
  if a.needs.all c.has then (c.tables.call a).map c.withTables else none

/-- `Database::open` creates what is missing. -/
def opened (c : Catalog) : Catalog := ofTables c.tables

end Catalog

/-- No transaction is open, and the whole schema is there. -/
abbrev atRest (x : Tables) : Connection Catalog := { stored := .ofTables x }

/-- How the statement of a call goes, what SQLite says if it refuses it, and how the statements of `wipe_all` go. -/
structure SqlRun where
  statement : Outcome DbError := .ok
  refusal : DbError := ⟨ascii "step"⟩
  wipe : WipeCall → Outcome DbError := fun _ => .ok

/-- One statement. -/
def SqlRun.execute (r : SqlRun) (a : Call) : Program Catalog DbError Unit := do
  call r.statement
  fun c =>
    match c.content.call a with
    | some d => (.ok (), c.update fun _ => d)
    | none => (.error r.refusal, c)

/-- A read of one table. -/
def SqlRun.select {α : Type} (r : SqlRun) (t : TableName) (f : Tables → α) : Program Catalog DbError α := do
  call r.statement
  fun c => if c.content.has t then (.ok (f c.content.tables), c) else (.error r.refusal, c)

/-- The method of `Repository` on the connection. -/
def Call.run (a : Call) (r : SqlRun) : Program Catalog DbError Unit :=
  match a with
  | .wipeAll => Schema.wipeAll r.wipe
  | a => r.execute a

/-- A call, or the end of the process and the start of the next, which opens the database again. -/
inductive DatabaseEvent
  | call (a : Call) (r : SqlRun)
  | reopen

def DatabaseEvent.step (c : Connection Catalog) : DatabaseEvent → Connection Catalog
  | .call a r => (a.run r c).2
  | .reopen => { stored := c.stored.opened }

namespace Tables

/-- The table is as it is created. -/
def Blank (x : Tables) : TableName → Prop
  | .sessions => x.sessions = .empty
  | .turns => x.turns = .empty
  | .summaries => x.summaries = .empty
  | .facts => x.facts = .empty
  | .settings => x.settings = []
  | .runtimeState => x.runtimeState = none

variable {x y : Tables} {t : TableName}

lemma Blank.deleteTurns (h : x.Blank t) (p : TurnRow → Bool) : (x.deleteTurns p).Blank t := by
  cases t with
  | turns =>
    simp only [Blank, Tables.deleteTurns] at h ⊢
    rw [h]
    rfl
  | facts =>
    simp only [Blank, Tables.deleteTurns] at h ⊢
    simp only [h]
    rfl
  | _ => exact h

lemma Blank.deleteSession (h : x.Blank t) (id : SessionId) : (x.deleteSession id).Blank t := by
  cases t with
  | sessions | summaries | runtimeState =>
    simp only [Blank, Tables.deleteSession] at h ⊢
    rw [h]
    rfl
  | turns | facts | settings => exact h.deleteTurns fun t => t.session = id

lemma Blank.dropTable (h : x.Blank t) (u : TableName) : (x.dropTable u).Blank t := by
  cases u with
  | sessions =>
    cases t with
    | sessions | runtimeState => rfl
    | summaries =>
      simp only [Blank, Tables.dropTable] at h ⊢
      rw [h]
      rfl
    | turns | facts | settings => exact h.deleteTurns fun _ => true
  | turns =>
    cases t with
    | turns => rfl
    | _ => exact h.deleteTurns fun _ => true
  | summaries | facts | settings | runtimeState => cases t <;> first | rfl | exact h

lemma Blank.call (h : x.Blank t) {a : Call} (ha : t ∉ a.needs) (hy : x.call a = some y) : y.Blank t := by
  cases a with
  | wipeAll =>
    obtain rfl := Option.some.inj hy
    cases t <;> rfl
  | deleteSession id => exact Option.some.inj hy ▸ h.deleteSession id
  | deleteTurn id => exact Option.some.inj hy ▸ h.deleteTurns _
  | insertTurn | insertSummary | upsertFact | upsertRuntimeState =>
    simp only [Tables.call, Tables.insertTurn, Tables.insertSummary, Tables.upsertFact, Tables.upsertRuntimeState] at hy
    split at hy
    · obtain rfl := Option.some.inj hy
      cases t <;> first | exact h | exact absurd (by simp [Call.needs]) ha
    · cases hy
  | insertSession | closeSession | setTurnStatus | deleteFact | clearRuntimeState | setSetting | vacuum =>
    obtain rfl := Option.some.inj hy
    cases t <;> first | exact h | exact absurd (by simp [Call.needs]) ha

end Tables

namespace Catalog

/-- The rows of `x` are in tables that exist. -/
def Covers (c : Catalog) (x : Tables) : Prop := ∀ t, c.has t = false → x.Blank t

variable {c : Catalog} {x y : Tables}

@[simp] lemma tables_ofTables (x : Tables) : (ofTables x).tables = x := rfl

lemma has_ofTables (x : Tables) (t : TableName) : (ofTables x).has t = true := by
  cases t <;> rfl

lemma covers_tables (c : Catalog) : c.Covers c.tables := by
  intro t ht
  cases t <;> simp [has] at ht <;> simp [Tables.Blank, tables, ht]

lemma getD_map_const {α β : Type} {o : Option α} {b d : β} (h : o.isSome = false → b = d) :
    (o.map fun _ => b).getD d = b := by
  cases o with
  | none => exact (h rfl).symm
  | some a => rfl

lemma Covers.tables_withTables (h : c.Covers x) : (c.withTables x).tables = x := by
  obtain ⟨sessions, turns, summaries, facts, settings, runtimeState⟩ := x
  simp only [tables, withTables, Tables.mk.injEq]
  exact ⟨getD_map_const (h .sessions), getD_map_const (h .turns), getD_map_const (h .summaries),
    getD_map_const (h .facts), getD_map_const (h .settings), getD_map_const (h .runtimeState)⟩

lemma tables_call {a : Call} {d : Catalog} (h : c.call a = some d) : c.tables.call a = some d.tables := by
  unfold call at h
  split at h
  · rename_i hneeds
    obtain ⟨y, hy, rfl⟩ := Option.map_eq_some_iff.mp h
    have hcovers : c.Covers y := fun t ht =>
      (c.covers_tables t ht).call (fun hmem => by simp [List.all_eq_true.mp hneeds t hmem] at ht) hy
    rw [hcovers.tables_withTables, hy]
  · cases h

lemma tables_dropTable (c : Catalog) (t : TableName) : (c.dropTable t).tables = c.tables.dropTable t := by
  have hcovers : c.Covers (c.tables.dropTable t) := fun u hu => (c.covers_tables u hu).dropTable t
  have h := hcovers.tables_withTables
  cases t with
  | sessions => exact congrArg (fun x : Tables => { x with sessions := .empty }) h
  | turns => exact congrArg (fun x : Tables => { x with turns := .empty }) h
  | summaries => exact congrArg (fun x : Tables => { x with summaries := .empty }) h
  | facts => exact congrArg (fun x : Tables => { x with facts := .empty }) h
  | settings => exact congrArg (fun x : Tables => { x with settings := [] }) h
  | runtimeState => exact congrArg (fun x : Tables => { x with runtimeState := none }) h

lemma tables_createTable (c : Catalog) (t : TableName) : (c.createTable t).tables = c.tables := by
  obtain ⟨sessions, turns, summaries, facts, settings, runtimeState, -⟩ := c
  cases t with
  | sessions => cases sessions <;> rfl
  | turns => cases turns <;> rfl
  | summaries => cases summaries <;> rfl
  | facts => cases facts <;> rfl
  | settings => cases settings <;> rfl
  | runtimeState => cases runtimeState <;> rfl

lemma call_ofTables (x : Tables) (a : Call) : (ofTables x).call a = (x.call a).map ofTables := by
  have hneeds : a.needs.all (ofTables x).has = true := List.all_eq_true.mpr fun t _ => has_ofTables x t
  rw [call, if_pos hneeds]
  rfl

end Catalog

/-! ### `wipe_all` -/

section Wipe

variable (W : WipeCall → Outcome DbError)

lemma tables_done_drops (ts : List TableName) (c : Catalog) :
    ∃ n, (done (ts.map fun t =>
      ({ outcome := W (.dropTable t), effect := fun c => c.dropTable t } : Statement Catalog DbError)) c).tables =
        (ts.take n).foldl Tables.dropTable c.tables := by
  induction ts generalizing c with
  | nil => exact ⟨0, rfl⟩
  | cons t ts ih =>
    rw [List.map_cons, done]
    split
    · obtain ⟨n, hn⟩ := ih (c.dropTable t)
      refine ⟨n + 1, ?_⟩
      rw [hn, c.tables_dropTable]
      rfl
    · exact ⟨0, rfl⟩

lemma tables_done_same {l : List (Statement Catalog DbError)} (hl : ∀ s ∈ l, ∀ c, (s.effect c).tables = c.tables)
    (c : Catalog) : (done l c).tables = c.tables :=
  done_induction (P := fun d : Catalog => d.tables = c.tables) (fun s hs d hd => (hl s hs d).trans hd) rfl

lemma tables_done_wipe (c : Catalog) : ∃ n, (done (drops W ++ schema W) c).tables = c.tables.dropped n := by
  obtain ⟨n, hn⟩ := tables_done_drops W dropOrder c
  refine ⟨n, ?_⟩
  have hindexes := tables_done_same (l := [.turnsSession, .summariesSession, .factsKey].map fun i =>
    ({ outcome := W (.dropIndex i), effect := fun c => c.dropIndex i } : Statement Catalog DbError)) fun s hs d => by
      obtain ⟨i, -, rfl⟩ := List.mem_map.mp hs
      cases i <;> rfl
  have hschema := tables_done_same (l := schema W) fun s hs d => by
    simp only [schema, List.mem_append, List.mem_map] at hs
    rcases hs with ⟨t, -, rfl⟩ | ⟨i, -, rfl⟩
    · exact d.tables_createTable t
    · cases i <;> rfl
  have hdrops : (done (drops W) c).tables = c.tables.dropped n := by
    rw [drops, done_append]
    split
    · rw [hindexes, hn]
      rfl
    · rw [hn]
      rfl
  rw [done_append]
  split
  · rw [hschema, hdrops]
  · exact hdrops

lemma done_wipe_of_ok (hok : firstFailure (drops W ++ schema W) = .ok) (c : Catalog) :
    done (drops W ++ schema W) c = .ofTables {} := by
  rw [done_of_ok hok]
  obtain ⟨sessions, turns, summaries, facts, settings, runtimeState, -⟩ := c
  cases runtimeState <;> rfl

end Wipe

/-! ### Runs -/

lemma Call.run_of_ne {a : Call} (ha : a ≠ .wipeAll) (r : SqlRun) : a.run r = r.execute a := by
  cases a with
  | wipeAll => exact absurd rfl ha
  | _ => rfl

/-- A statement on a connection without an open transaction does what it is for, or nothing. -/
lemma execute_closed (r : SqlRun) (a : Call) (c : Catalog) :
    (r.statement.succeeds = true ∧ ∃ d, c.call a = some d ∧ r.execute a { stored := c } = (.ok (), { stored := d })) ∨
      (r.statement.succeeds = false ∨ c.call a = none) ∧
        ∃ e, r.execute a { stored := c } = (.error e, { stored := c }) := by
  cases hr : r.statement with
  | ok =>
    cases hd : c.call a with
    | some d =>
      exact .inl ⟨rfl, d, rfl, by simp [SqlRun.execute, call, bind, hr, hd, Connection.content, Connection.update]⟩
    | none =>
      exact .inr ⟨.inr rfl, r.refusal, by simp [SqlRun.execute, call, bind, hr, hd, Connection.content]⟩
  | fails e | rollsBack e =>
    exact .inr ⟨.inl rfl, e, by simp [SqlRun.execute, call, bind, hr, Connection.abandon]⟩

lemma select_atRest {α : Type} (r : SqlRun) (t : TableName) (f : Tables → α) (x : Tables) :
    (r.statement.succeeds = true ∧
        r.select t f (atRest x) = (.ok (f x), atRest x)) ∨
      r.statement.succeeds = false ∧ ∃ e, r.select t f (atRest x) = (.error e, atRest x) := by
  have hhas := Catalog.has_ofTables x t
  cases hr : r.statement with
  | ok => exact .inl ⟨rfl, by simp [SqlRun.select, call, bind, hr, hhas, Connection.content]⟩
  | fails e | rollsBack e =>
    exact .inr ⟨rfl, e, by simp [SqlRun.select, call, bind, hr, Connection.abandon]⟩

/-- BEGIN, every statement and COMMIT of `wipe_all` succeed. -/
def WipeSucceeds (W : WipeCall → Outcome DbError) : Prop :=
  (W .start).succeeds = true ∧ Commits (wipeGuard W) false (drops W ++ schema W)

/-- An error of `wipe_all` leaves the connection and what is stored as they were: the transaction has begun and ends,
or it has not begun and nothing is changed. -/
def Spares (W : WipeCall → Outcome DbError) (x : Tables) : Prop :=
  ((W .start).succeeds = true ∧ Ends (wipeGuard W) false (drops W ++ schema W)) ∨
    (W .start).succeeds = false ∧
      ((W (.dropTable .facts)).succeeds = false ∨ firstFailure (drops W ++ schema W) = .ok ∧ x = {})

instance (W : WipeCall → Outcome DbError) : Decidable (WipeSucceeds W) := inferInstanceAs (Decidable (_ ∧ _))

instance (W : WipeCall → Outcome DbError) (x : Tables) : Decidable (Spares W x) :=
  inferInstanceAs (Decidable (_ ∧ _ ∨ _ ∧ (_ ∨ _ ∧ _)))

lemma wipeAll_closed (W : WipeCall → Outcome DbError) (c : Catalog) :
    (WipeSucceeds W ∧ wipeAll W { stored := c } = (.ok (), { stored := .ofTables {} })) ∨
      ¬WipeSucceeds W ∧ ∃ e d, wipeAll W { stored := c } = (.error e, d) ∧
        ((W .start).succeeds = false → d = { stored := done (drops W ++ schema W) c }) ∧
        ((W .start).succeeds = true → Ends (wipeGuard W) false (drops W ++ schema W) → d = { stored := c }) ∧
        ((W .start).succeeds = true → ¬Ends (wipeGuard W) false (drops W ++ schema W) →
          d = { stored := c, working := some (done (drops W ++ schema W) c) }) := by
  have hbody : ∀ d, d.content = c → FollowsThen _ _ _ d := fun d _ => wipeAll_followsThen W d
  cases hstart : (wipeGuard W).start.succeeds with
  | false =>
    have hstart' : (W .start).succeeds = false := hstart
    obtain ⟨e, hrun⟩ := transaction_without hbody hstart
    refine .inr ⟨fun h => ?_, e, _, hrun, fun _ => rfl, fun h => ?_, fun h => ?_⟩
    · simp [WipeSucceeds, hstart'] at h
    · simp [hstart'] at h
    · simp [hstart'] at h
  | true =>
    have hstart' : (W .start).succeeds = true := hstart
    rcases transaction_within hbody hstart with ⟨hcommits, _, hrun⟩ | ⟨hcommits, e, d, hrun, hends, hopen⟩
    · rw [done_wipe_of_ok W hcommits.1] at hrun
      exact .inl ⟨⟨hstart', hcommits⟩, hrun⟩
    · refine .inr ⟨fun h => hcommits h.2, e, d, hrun, fun h => ?_, fun _ => hends, fun _ => hopen⟩
      simp [hstart'] at h

/-- What an error of `wipe_all` leaves. -/
lemma wipeAll_error {W : WipeCall → Outcome DbError} {x : Tables} {e : DbError} {d : Connection Catalog}
    (h : wipeAll W (atRest x) = (.error e, d)) : d = atRest x ↔ Spares W x := by
  rcases wipeAll_closed W (.ofTables x) with ⟨-, hrun⟩ | ⟨-, e', d', hrun, hwithout, hends, hopen⟩
  · rw [hrun] at h
    cases h
  · obtain ⟨-, rfl⟩ := Prod.mk.inj (hrun.symm.trans h)
    cases hstart : (W .start).succeeds with
    | false =>
      rw [hwithout hstart, Connection.mk.injEq, done_wipe_eq_iff]
      simp [Spares, hstart]
    | true =>
      by_cases hE : Ends (wipeGuard W) false (drops W ++ schema W)
      · simp [hends hstart hE, Spares, hstart, hE]
      · simp [hopen hstart hE, Spares, hstart, hE]

lemma execute_atRest {x y : Tables} (r : SqlRun) {a : Call} (hy : x.call a = some y) :
    (r.statement.succeeds = true ∧ r.execute a (atRest x) = (.ok (), atRest y)) ∨
      r.statement.succeeds = false ∧ ∃ e, r.execute a (atRest x) = (.error e, atRest x) := by
  have hcall : (Catalog.ofTables x).call a = some (.ofTables y) := by rw [Catalog.call_ofTables, hy]; rfl
  rcases execute_closed r a (.ofTables x) with ⟨hr, d, hd, hrun⟩ | ⟨hr, e, hrun⟩
  · obtain rfl := Option.some.inj (hcall.symm.trans hd)
    exact .inl ⟨hr, hrun⟩
  · exact .inr ⟨hr.resolve_right (by simp [hcall]), e, hrun⟩

lemma run_step (a : Call) (r : SqlRun) (c : Catalog) :
    ∃ e, (a.run r { stored := c }).2.content.tables = c.tables.step (a, e) := by
  by_cases ha : a = .wipeAll
  · subst ha
    obtain ⟨n, hn⟩ := tables_done_wipe r.wipe c
    rw [Call.run]
    rcases wipeAll_closed r.wipe c with ⟨-, hrun⟩ | ⟨-, e, d, hrun, hwithout, hends, hopen⟩
    · exact ⟨.done, by rw [hrun]; rfl⟩
    · rw [hrun]
      cases hstart : (r.wipe .start).succeeds with
      | false => exact ⟨.failed n, by rw [hwithout hstart]; exact hn⟩
      | true =>
        by_cases he : Ends (wipeGuard r.wipe) false (drops r.wipe ++ schema r.wipe)
        · exact ⟨.failed 0, by rw [hends hstart he]; rfl⟩
        · exact ⟨.failed n, by rw [hopen hstart he]; exact hn⟩
  · have hfailed : c.tables.step (a, .failed 0) = c.tables := by
      cases a with
      | wipeAll => exact absurd rfl ha
      | _ => rfl
    rw [Call.run_of_ne ha]
    rcases execute_closed r a c with ⟨-, d, hd, hrun⟩ | ⟨-, e, hrun⟩
    · refine ⟨.done, ?_⟩
      rw [hrun, Tables.step, Catalog.tables_call hd]
      rfl
    · exact ⟨.failed 0, by rw [hrun]; exact hfailed.symm⟩

/-- The call that an event makes. -/
def DatabaseEvent.call? : DatabaseEvent → Option Call
  | .call a _ => some a
  | .reopen => none

/-- While no call leaves a transaction open, a run on the connection is a run of the tables with the same calls. -/
theorem runs_refine (c : Catalog) (events : List DatabaseEvent)
    (hclosed : Runs.Along DatabaseEvent.step (fun d e => (e.step d).working = none) { stored := c } events) :
    ∃ calls : List (Call × CallEnd), calls.map Prod.fst = events.filterMap DatabaseEvent.call? ∧
      (Runs.exec DatabaseEvent.step { stored := c } events).content.tables = Runs.exec Tables.step c.tables calls := by
  induction events generalizing c with
  | nil => exact ⟨[], rfl, rfl⟩
  | cons e events ih =>
    obtain ⟨hfirst, hrest⟩ := hclosed
    have hstored : e.step { stored := c } = { stored := (e.step { stored := c }).content } := by
      cases hd : e.step { stored := c } with
      | mk stored working =>
        rw [hd] at hfirst
        obtain rfl : working = none := hfirst
        rfl
    rw [hstored] at hrest
    obtain ⟨calls, hcalls, hexec⟩ := ih _ hrest
    rw [← hstored] at hexec
    cases e with
    | call a r =>
      obtain ⟨e, he⟩ := run_step a r c
      refine ⟨(a, e) :: calls, by rw [List.map_cons, hcalls]; rfl, ?_⟩
      rw [Runs.exec_cons, Runs.exec_cons, hexec, ← he]
      rfl
    | reopen => exact ⟨calls, hcalls, hexec⟩

end Schema

end Acva
