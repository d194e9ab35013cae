import Acva.Memory.Recovery
import Acva.Memory.Store

/-!
# Atomicity

`Repository::wipe_all` drops the tables and creates them again, in one transaction as the recovery sweep. In both the
error of BEGIN is dropped, and the guard takes the transaction for over after COMMIT, so that a call that returns an
error leaves the content alone only under the conditions below.
-/

namespace Acva

open Transactions

namespace Schema

inductive IndexName
  | turnsSession
  | summariesSession
  | factsKey
  deriving DecidableEq, Repr

/-- The tables and indexes that exist. -/
structure Catalog where
  sessions : Option (Table SessionRow SessionRow.id) := none
  turns : Option (Table TurnRow TurnRow.id) := none
  summaries : Option (Table SummaryRow SummaryRow.id) := none
  facts : Option (Table StoredFact fun f => f.id) := none
  settings : Option (List SettingRow) := none
  runtimeState : Option (Option RuntimeRow) := none
  idxTurnsSession : Bool := false
  idxSummariesSession : Bool := false
  idxFactsKey : Bool := false
  deriving DecidableEq

namespace Catalog

/-- A database as it is opened: the whole schema is there. -/
def ofTables (x : Tables) : Catalog :=
  { sessions := some x.sessions, turns := some x.turns, summaries := some x.summaries, facts := some x.facts,
    settings := some x.settings, runtimeState := some x.runtimeState,
    idxTurnsSession := true, idxSummariesSession := true, idxFactsKey := true }

/-- The rows that there are; a table that does not exist has none. -/
def tables (c : Catalog) : Tables :=
  { sessions := c.sessions.getD .empty, turns := c.turns.getD .empty, summaries := c.summaries.getD .empty
    facts := c.facts.getD .empty, settings := c.settings.getD [], runtimeState := c.runtimeState.getD none }

/-- The rows of `x` in the tables that exist. -/
def withTables (c : Catalog) (x : Tables) : Catalog :=
  { c with sessions := c.sessions.map fun _ => x.sessions, turns := c.turns.map fun _ => x.turns
           summaries := c.summaries.map fun _ => x.summaries, facts := c.facts.map fun _ => x.facts
           settings := c.settings.map fun _ => x.settings, runtimeState := c.runtimeState.map fun _ => x.runtimeState }

/-- The table goes once its rows have been deleted, and its indexes with it. -/
def dropTable (c : Catalog) (t : TableName) : Catalog :=
  let c := c.withTables (c.tables.dropTable t)
  match t with
  | .sessions => { c with sessions := none }
  | .turns => { c with turns := none, idxTurnsSession := false }
  | .summaries => { c with summaries := none, idxSummariesSession := false }
  | .facts => { c with facts := none, idxFactsKey := false }
  | .settings => { c with settings := none }
  | .runtimeState => { c with runtimeState := none }

def dropIndex (c : Catalog) : IndexName → Catalog
  | .turnsSession => { c with idxTurnsSession := false }
  | .summariesSession => { c with idxSummariesSession := false }
  | .factsKey => { c with idxFactsKey := false }

/-- `CREATE TABLE IF NOT EXISTS`. -/
def createTable (c : Catalog) : TableName → Catalog
  | .sessions => { c with sessions := c.sessions.or (some .empty) }
  | .turns => { c with turns := c.turns.or (some .empty) }
  | .summaries => { c with summaries := c.summaries.or (some .empty) }
  | .facts => { c with facts := c.facts.or (some .empty) }
  | .settings => { c with settings := c.settings.or (some []) }
  | .runtimeState => { c with runtimeState := c.runtimeState.or (some none) }

def createIndex (c : Catalog) : IndexName → Catalog
  | .turnsSession => { c with idxTurnsSession := true }
  | .summariesSession => { c with idxSummariesSession := true }
  | .factsKey => { c with idxFactsKey := true }

end Catalog

inductive WipeCall
  | start
  | dropTable (t : TableName)
  | dropIndex (i : IndexName)
  | createTable (t : TableName)
  | createIndex (i : IndexName)
  | commit
  | rollback
  deriving DecidableEq, Repr

section Wipe

variable (W : WipeCall → Outcome DbError)

/-- `kDrop`. -/
def drops : List (Statement Catalog DbError) :=
  dropOrder.map (fun t => { outcome := W (.dropTable t), effect := fun c => c.dropTable t }) ++
  [.turnsSession, .summariesSession, .factsKey].map
    fun i => { outcome := W (.dropIndex i), effect := fun c => c.dropIndex i }

/-- `kSchemaSql`. -/
def schema : List (Statement Catalog DbError) :=
  [.sessions, .turns, .summaries, .facts, .settings, .runtimeState].map
    (fun t => { outcome := W (.createTable t), effect := fun c => c.createTable t }) ++
  [.turnsSession, .summariesSession, .factsKey].map
    fun i => { outcome := W (.createIndex i), effect := fun c => c.createIndex i }

def wipeGuard : Guard DbError :=
  { start := W .start, commit := W .commit, rollback := W .rollback, inactive := inactive }

/-- `sqlite3_exec` stops at the first statement that fails. -/
def wipeAll : Program Catalog DbError Unit :=
  transaction (wipeGuard W) do
    script (drops W)
    script (schema W)

lemma wipeAll_followsThen (c : Connection Catalog) :
    FollowsThen (do script (drops W); script (schema W)) (drops W ++ schema W) false c :=
  (script_follows _ _ c).then fun _ => ⟨(), rfl⟩

/-- The statements between the first and the last. -/
def middle : List (Statement Catalog DbError) := (drops W).tail ++ (schema W).dropLast

lemma drops_schema : drops W ++ schema W =
    { outcome := W (.dropTable .facts), effect := fun c => c.dropTable .facts } :: (middle W ++
      [{ outcome := W (.createIndex .factsKey), effect := fun c => c.createIndex .factsKey }]) := rfl

/-- None of them is about `idx_facts_key` but the drop of what is gone. -/
lemma idxFactsKey_done_middle {c : Catalog} (hc : c.idxFactsKey = false) : (done (middle W) c).idxFactsKey = false := by
  refine done_induction (P := fun d : Catalog => d.idxFactsKey = false) ?_ hc
  intro s hs d hd
  simp only [middle, drops, dropOrder, schema, List.map_cons, List.map_nil, List.cons_append,
    List.nil_append, List.tail_cons,
    List.dropLast_cons_cons, List.dropLast_singleton, List.mem_cons, List.not_mem_nil, or_false] at hs
  rcases hs with rfl | rfl | rfl | rfl | rfl | rfl | rfl | rfl | rfl | rfl | rfl | rfl | rfl | rfl | rfl
  all_goals first | exact hd | rfl

lemma ofTables_injective {x y : Tables} (h : Catalog.ofTables x = Catalog.ofTables y) : x = y := by
  obtain ⟨s, t, u, f, g, r⟩ := x
  simp only [Catalog.ofTables, Catalog.mk.injEq, Option.some.injEq] at h
  obtain ⟨rfl, rfl, rfl, rfl, rfl, rfl, -⟩ := h
  rfl

/-- `idx_facts_key` goes first and comes back last. -/
lemma done_wipe_eq_iff (x : Tables) :
    done (drops W ++ schema W) (Catalog.ofTables x) = Catalog.ofTables x ↔
      (W (.dropTable .facts)).succeeds = false ∨ firstFailure (drops W ++ schema W) = .ok ∧ x = {} := by
  cases hfirst : (W (.dropTable .facts)).succeeds with
  | false => simp [drops_schema, done, hfirst]
  | true =>
    have hrest : done (drops W ++ schema W) (Catalog.ofTables x) = done (middle W ++
        [{ outcome := W (.createIndex .factsKey), effect := fun c => c.createIndex .factsKey }])
        ((Catalog.ofTables x).dropTable .facts) := by
      rw [drops_schema, done, if_pos hfirst]
    have hmiddle := idxFactsKey_done_middle W (c := (Catalog.ofTables x).dropTable .facts) rfl
    simp only [Bool.true_eq_false, false_or]
    by_cases hok : firstFailure (drops W ++ schema W) = .ok
    · have hcold : done (drops W ++ schema W) (Catalog.ofTables x) = Catalog.ofTables {} := by
        rw [done_of_ok hok]
        rfl
      rw [hcold]
      exact ⟨fun h => ⟨hok, (ofTables_injective h).symm⟩, fun h => h.2 ▸ rfl⟩
    · refine ⟨fun h => ?_, fun h => absurd h.1 hok⟩
      have hkey : (done (drops W ++ schema W) (Catalog.ofTables x)).idxFactsKey = false := by
        rw [drops_schema, firstFailure, if_pos hfirst, firstFailure_append] at hok
        rw [hrest, done_append]
        split
        · rename_i hm
          rw [if_pos hm, firstFailure] at hok
          rw [done]
          split
          · rename_i hlast
            rw [if_pos hlast] at hok
            exact absurd rfl hok
          · exact hmiddle
        · exact hmiddle
      rw [h] at hkey
      simp [Catalog.ofTables] at hkey

end Wipe

section Sweep

variable {F : Failures} {x : Tables}

/-- The sweep fails before it has changed anything, or there is nothing to change. -/
def NothingWritten (F : Failures) (x : Tables) : Prop :=
  (F .sessionsOpen).succeeds = false ∨
    match x.sessionsOpenNoEndedAt with
    | s :: _ => (F (.maxTurnEndedAt s.id)).succeeds = false ∨ (F (.closeSession s.id)).succeeds = false
    | [] => (F .turnsInProgress).succeeds = false ∨
      match x.turnsInProgress with
      | t :: _ => (F (.setTurnStatus t.id)).succeeds = false
      | [] => True

lemma closed_statements {s : Statement Tables DbError} (hs : s ∈ statements F x) {id : SessionId} {y : Tables}
    (hy : ∀ r ∈ y.sessions.rows, r.id = id → r.endedAt ≠ none) :
    ∀ r ∈ (s.effect y).sessions.rows, r.id = id → r.endedAt ≠ none := by
  simp only [statements, closings, markings, List.mem_append, List.mem_cons, List.mem_flatMap, List.mem_map,
    List.not_mem_nil, or_false] at hs
  rcases hs with (rfl | ⟨q, -, rfl | rfl⟩) | (rfl | ⟨t, -, rfl⟩) | rfl
  · exact hy
  · exact hy
  · intro r hr hid
    obtain ⟨r', hr', rfl⟩ := List.mem_map.mp hr
    by_cases hq : r'.id = q.id
    · simp [hq]
    · rw [if_neg hq] at hid ⊢
      exact hy r' hr' hid
  · exact hy
  · exact hy
  · exact hy

lemma marked_statements {s : Statement Tables DbError} (hs : s ∈ statements F x) {id : Int} {y : Tables}
    (hy : ∀ r ∈ y.turns.rows, r.id = id → r.status ≠ .inProgress) :
    ∀ r ∈ (s.effect y).turns.rows, r.id = id → r.status ≠ .inProgress := by
  simp only [statements, closings, markings, List.mem_append, List.mem_cons, List.mem_flatMap, List.mem_map,
    List.not_mem_nil, or_false] at hs
  rcases hs with (rfl | ⟨q, -, rfl | rfl⟩) | (rfl | ⟨t, -, rfl⟩) | rfl
  · exact hy
  · exact hy
  · exact hy
  · exact hy
  · intro r hr hid
    obtain ⟨r', hr', rfl⟩ := List.mem_map.mp hr
    by_cases ht : r'.id = t.id
    · simp [ht]
    · rw [if_neg ht] at hid ⊢
      exact hy r' hr' hid
  · exact hy

lemma done_ne_of_closed {l : List (Statement Tables DbError)} (hl : ∀ q ∈ l, q ∈ statements F x) {s : SessionRow}
    (hs : s ∈ x.sessionsOpenNoEndedAt) (e : Int) : done l (x.closeSession s.id e) ≠ x := by
  obtain ⟨hmem, hnone⟩ := List.mem_filter.mp hs
  have hclosed : ∀ r ∈ (done l (x.closeSession s.id e)).sessions.rows, r.id = s.id → r.endedAt ≠ none := by
    refine done_induction (P := fun y : Tables => ∀ r ∈ y.sessions.rows, r.id = s.id → r.endedAt ≠ none)
      (fun q hq y hy => closed_statements (hl q hq) hy) fun r hr hid => ?_
    obtain ⟨r', -, rfl⟩ := List.mem_map.mp hr
    by_cases hr' : r'.id = s.id
    · simp [hr']
    · rw [if_neg hr'] at hid
      exact absurd hid hr'
  intro h
  rw [h] at hclosed
  exact hclosed s hmem rfl (by simpa using hnone)

lemma done_ne_of_marked {l : List (Statement Tables DbError)} (hl : ∀ q ∈ l, q ∈ statements F x) {t : TurnRow}
    (ht : t ∈ x.turnsInProgress) : done l (x.setTurnStatus t.id .interrupted none none none) ≠ x := by
  obtain ⟨hmem, hstatus⟩ := List.mem_filter.mp ht
  have hmarked : ∀ r ∈ (done l (x.setTurnStatus t.id .interrupted none none none)).turns.rows, r.id = t.id →
      r.status ≠ .inProgress := by
    refine done_induction (P := fun y : Tables => ∀ r ∈ y.turns.rows, r.id = t.id → r.status ≠ .inProgress)
      (fun q hq y hy => marked_statements (hl q hq) hy) fun r hr hid => ?_
    obtain ⟨r', -, rfl⟩ := List.mem_map.mp hr
    by_cases hr' : r'.id = t.id
    · simp [hr']
    · rw [if_neg hr'] at hid
      exact absurd hid hr'
  intro h
  rw [h] at hmarked
  exact hmarked t hmem rfl (of_decide_eq_true hstatus)

lemma statements_of_open {s : SessionRow} {rest : List SessionRow} (h : x.sessionsOpenNoEndedAt = s :: rest) :
    ∃ l, statements F x = { outcome := F .sessionsOpen } :: { outcome := F (.maxTurnEndedAt s.id) } ::
      { outcome := F (.closeSession s.id), effect := fun y => y.closeSession s.id (endOf x s) } :: l := by
  refine ⟨closings F x rest ++ ({ outcome := F .turnsInProgress } :: markings F x.turnsInProgress ++
    [{ outcome := F .allSummaries }]), ?_⟩
  rw [statements, h, closings_cons]
  rfl

lemma statements_of_closed (h : x.sessionsOpenNoEndedAt = []) :
    statements F x = { outcome := F .sessionsOpen } :: { outcome := F .turnsInProgress } ::
      (markings F x.turnsInProgress ++ [{ outcome := F .allSummaries }]) := by
  rw [statements, h]
  rfl

lemma done_statements_eq_iff : done (statements F x) x = x ↔ NothingWritten F x := by
  unfold NothingWritten
  cases hopen : (F .sessionsOpen).succeeds with
  | false => simp [statements, done, hopen]
  | true =>
    simp only [Bool.true_eq_false, false_or]
    cases hsessions : x.sessionsOpenNoEndedAt with
    | cons s rest =>
      obtain ⟨l, hl⟩ := statements_of_open (F := F) hsessions
      have hne := done_ne_of_closed (F := F) (l := l) (fun q hq => by rw [hl]; simp [hq])
        (hsessions ▸ List.mem_cons_self) (endOf x s)
      rw [hl, done, if_pos hopen, done, done]
      cases hmax : (F (.maxTurnEndedAt s.id)).succeeds <;> cases hclose : (F (.closeSession s.id)).succeeds <;>
        simp [hne, hmax, hclose]
    | nil =>
      have hl := statements_of_closed (F := F) hsessions
      rw [hl, done, if_pos hopen, done]
      cases hturns : (F .turnsInProgress).succeeds with
      | false => simp
      | true =>
        cases hprogress : x.turnsInProgress with
        | nil => simp [markings, done]
        | cons t rest =>
          rw [hprogress, markings, List.map_cons, ← markings] at hl
          have hne := done_ne_of_marked (F := F) (l := markings F rest ++ [{ outcome := F .allSummaries }])
            (fun q hq => by rw [hl]; exact .tail _ (.tail _ (.tail _ hq))) (hprogress ▸ List.mem_cons_self)
          rw [markings, List.map_cons, ← markings, List.cons_append, done]
          cases hset : (F (.setTurnStatus t.id)).succeeds <;> simp [hne, hset]

end Sweep

/-- When a call that returns an error leaves the database as it was: BEGIN succeeds and the transaction does not stay
open, or nothing was changed. -/
theorem allOrNothing_iff (F : Failures) (W : WipeCall → Outcome DbError) (x : Tables) :
    (AllOrNothing (runRecovery F) x ↔
      ((F .start).succeeds = true ∧ Ends (guard F) (undone F x) (statements F x)) ∨ NothingWritten F x) ∧
    (AllOrNothing (wipeAll W) (Catalog.ofTables x) ↔
      ((W .start).succeeds = true ∧ Ends (wipeGuard W) false (drops W ++ schema W)) ∨
        (W (.dropTable .facts)).succeeds = false ∨ firstFailure (drops W ++ schema W) = .ok ∧ x = {}) := by
  constructor
  · exact (allOrNothing_transaction_iff fun _ => sweep_followsThen).trans (or_congr_right done_statements_eq_iff)
  · exact (allOrNothing_transaction_iff fun c _ => wipeAll_followsThen W c).trans
      (or_congr_right (done_wipe_eq_iff W x))

/-- Another process holds the lock, so BEGIN fails, and the sweep goes on without a transaction. -/
theorem sweep_without_transaction :
    ¬ ((∀ (F : Failures) (x : Tables), AllOrNothing (runRecovery F) x) ∧
      ∀ (W : WipeCall → Outcome DbError) (x : Tables), AllOrNothing (wipeAll W) (Catalog.ofTables x)) := by
  rintro ⟨hall, -⟩
  have hcontent := hall (fun | .start => .fails ⟨ascii "sqlite exec: database is locked"⟩ | _ => .ok) crashed _ _ rfl
  exact absurd (congrArg (fun x : Tables => x.sessions.rows) hcontent) (by decide)

end Schema

end Acva
