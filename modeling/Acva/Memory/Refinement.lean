import Acva.Memory.Integrity
import Acva.Memory.Recovery
import Acva.Memory.SourceHash

/-!
# The jobs of the memory thread as calls

`MemoryTables` keeps what the components of a turn need of the sessions, turns and summaries. Each job is one or two
calls over the whole schema, and what it makes of `MemoryTables` is what the calls make of the schema, as far as those
tables go. A failing wipe that has dropped tables is left to the schema.
-/

namespace Acva

open Schema (Call CallEnd Table Tables)

def SessionRow.toSchema (s : SessionRow) : Schema.SessionRow :=
  { id := s.id, startedAt := s.startedAt, endedAt := s.endedAt }

/-- The row of `insert_turn`, and what `set_turn_status` adds to it if it succeeds. -/
def StoredTurn.toSchema (t : StoredTurn) (ended : Bool) : Schema.TurnRow :=
  { id := t.id, session := t.row.session, role := t.row.role, text := some t.row.text, lang := t.row.lang
    startedAt := t.row.startedAt, status := t.row.status
    endedAt := if ended then some t.row.endedAt else none
    interruptedAtSentence := if ended then t.row.interruptedAt.map fun k : Nat => (k : Int) else none }

def SummaryRow.toSchema (s : SummaryRow) : Schema.SummaryRow :=
  { id := s.id, session := s.session, rangeStartTurn := s.rangeStart, rangeEndTurn := s.rangeEnd
    summary := s.summary, lang := s.lang, sourceHash := s.sourceHash, createdAt := s.createdAt }

def SessionJob.call? : SessionJob → Option Call
  | .getSession _ => none
  | .closeSession id endedAt => some (.closeSession id endedAt)
  | .insertSession startedAt => some (.insertSession startedAt none)
  | .deleteSession id => some (.deleteSession id)
  | .wipeAll => some .wipeAll

/-- A job with how its statements go: `ended` is the `set_turn_status` of a row. -/
structure TablesRun where
  job : TablesJob
  ok : Bool := true
  okTurns : Bool := true
  ended : Bool := true
  now : Int := 0

namespace TablesRun

def after (t : MemoryTables) (r : TablesRun) : MemoryTables := (r.job.run r.ok r.okTurns r.now t).1

def end? (ok : Bool) : CallEnd := if ok then .done else .failed 0

/-- The calls of the job on the tables. -/
def calls (t : MemoryTables) (r : TablesRun) : List (Call × CallEnd) :=
  match r.job with
  | .memory (.insertTurn _ row) =>
    [(.insertTurn row.session row.role (some row.text) row.lang row.startedAt row.status, end? r.ok)] ++
      if r.ok && t.repo.hasSession row.session then
        [(.setTurnStatus (t.repo.turnSeq + 1) row.status (some row.endedAt)
          (row.interruptedAt.map fun k : Nat => (k : Int)) none, end? r.ended)]
      else []
  | .memory (.session job) => job.call?.toList.map fun c => (c, end? r.ok)
  | .memory (.snapshot _ _) | .memory .other | .summarySnapshot _ => []
  | .insertSummary d =>
    [(.insertSummary d.session d.rangeStart d.rangeEnd d.summary (ascii "en")
      (computeSourceHash r.okTurns t.repo d.session d.rangeStart d.rangeEnd) r.now, end? r.ok)]

/-- The calls of a run of jobs. -/
def callsAlong : MemoryTables → List TablesRun → List (Call × CallEnd)
  | _, [] => []
  | t, r :: runs => r.calls t ++ callsAlong (r.after t) runs

end TablesRun

/-- The rows of the sessions, turns and summaries are the same. -/
structure Schema.Tables.Represents (x : Tables) (t : MemoryTables) : Prop where
  sessions : x.sessions.rows = t.repo.sessions.map SessionRow.toSchema
  sessionSeq : x.sessions.seq = t.repo.sessionSeq
  turns : List.Forall₂ (fun u r => ∃ ended, r = StoredTurn.toSchema u ended) t.repo.turns x.turns.rows
  turnSeq : x.turns.seq = t.repo.turnSeq
  summaries : x.summaries.rows = t.summaries.map SummaryRow.toSchema
  summarySeq : x.summaries.seq = t.summarySeq

/-! ### One job -/

namespace Schema

variable {ρ : Type} {id : ρ → Int} {u : Table ρ id} {x : Tables} {t : MemoryTables}

lemma foldl_largest {n : Int} {ids : List Int} (h : ∀ k ∈ ids, k ≤ n) : Table.largest n ids = n := by
  refine Int.le_antisymm ?_ (Table.le_largest n ids).1
  induction ids with
  | nil => exact Int.le_refl n
  | cons k ids ih =>
    have hk := h k List.mem_cons_self
    have hcons : Table.largest n (k :: ids) = Table.largest (if n < k then k else n) ids := rfl
    rw [hcons, if_neg (Int.not_lt.mpr hk)]
    exact ih fun j hj => h j (List.mem_cons_of_mem k hj)

lemma Table.Counted.nextId_eq (h : u.Counted) : u.nextId = u.seq + 1 := by
  have hseq : (if u.seq < 0 then 0 else u.seq) = u.seq := if_neg (Int.not_lt.mpr h.seq)
  have hlargest : Table.largest u.seq (u.rows.map id) = u.seq := foldl_largest h.bound
  rw [Table.nextId, hseq, hlargest]

namespace Tables.Represents

lemma empty : ({} : Tables).Represents {} := ⟨rfl, rfl, .nil, rfl, rfl, rfl⟩

lemma hasSession (h : x.Represents t) (id : SessionId) : x.hasSession id = t.repo.hasSession id := by
  rw [Tables.hasSession, Repository.hasSession, h.sessions, List.any_map]
  rfl

lemma insertSession (h : x.Represents t) (hx : x.Sound) (startedAt : Int) :
    (x.insertSession startedAt none).Represents { t with repo := (t.repo.insertSession startedAt).1 } := by
  have hnext := hx.sessions.nextId_eq
  rw [h.sessionSeq] at hnext
  refine { h with sessions := ?_, sessionSeq := hnext }
  simp only [Tables.insertSession, Table.insert, Repository.insertSession, List.map_append, h.sessions, hnext]
  rfl

lemma closeSession (h : x.Represents t) (id : SessionId) (endedAt : Int) :
    (x.closeSession id endedAt).Represents { t with repo := t.repo.closeSession id endedAt } := by
  refine { h with sessions := ?_ }
  simp only [Tables.closeSession, Table.update, Repository.closeSession, h.sessions, List.map_map]
  refine List.map_congr_left fun s _ => ?_
  by_cases hid : s.id = id <;> simp [SessionRow.toSchema, hid]

lemma deleteSession (h : x.Represents t) (id : SessionId) :
    (x.deleteSession id).Represents (t.afterSession (t.repo.deleteSession id) (.deleteSession id)) := by
  refine { h with sessions := ?_, turns := ?_, summaries := ?_ }
  · simp only [Tables.deleteSession, Table.delete, MemoryTables.afterSession, Repository.deleteSession, h.sessions,
      List.filter_map]
    congr 2
    funext s
    by_cases hid : s.id = id <;> simp [SessionRow.toSchema, hid]
  · refine List.rel_filter (fun u r hr => ?_) h.turns
    obtain ⟨ended, rfl⟩ := hr
    by_cases hid : u.row.session = id <;> simp [StoredTurn.toSchema, hid]
  · simp only [Tables.deleteSession, Table.delete, MemoryTables.afterSession, h.summaries, List.filter_map]
    congr 2
    funext s
    by_cases hid : s.session = id <;> simp [SummaryRow.toSchema, hid]

lemma wipeAll (x : Tables) (t : MemoryTables) :
    (x.wipeAll).Represents (t.afterSession {} .wipeAll) := ⟨rfl, rfl, .nil, rfl, rfl, rfl⟩

lemma insertTurn (h : x.Represents t) (hx : x.Sound) {source : Option Nat} {row : Acva.TurnRow} {repo : Repository}
    (hrepo : t.repo.insertTurn source row = some repo) :
    ∃ y, x.insertTurn row.session row.role (some row.text) row.lang row.startedAt row.status = some y ∧
      y.Represents { t with repo := repo } := by
  have hnext := hx.turns.nextId_eq
  rw [h.turnSeq] at hnext
  unfold Repository.insertTurn at hrepo
  split at hrepo
  · rename_i hsession
    obtain rfl := Option.some.inj hrepo
    refine ⟨_, if_pos ((h.hasSession _).trans hsession), { h with turns := ?_, turnSeq := hnext }⟩
    refine List.rel_append h.turns (.cons ⟨false, ?_⟩ .nil)
    simp only [StoredTurn.toSchema, hnext]
    rfl
  · cases hrepo

lemma setTurnStatus (h : x.Represents t) (hx : x.Sound) {source : Option Nat} {row : Acva.TurnRow} {repo : Repository}
    (hrepo : t.repo.insertTurn source row = some repo) {y : Tables}
    (hy : x.insertTurn row.session row.role (some row.text) row.lang row.startedAt row.status = some y) :
    (y.setTurnStatus (t.repo.turnSeq + 1) row.status (some row.endedAt)
      (row.interruptedAt.map fun k : Nat => (k : Int)) none).Represents { t with repo := repo } := by
  have hnext := hx.turns.nextId_eq
  rw [h.turnSeq] at hnext
  unfold Repository.insertTurn at hrepo
  unfold Tables.insertTurn at hy
  split at hrepo
  · rename_i hsession
    obtain rfl := Option.some.inj hrepo
    rw [if_pos ((h.hasSession _).trans hsession)] at hy
    obtain rfl := Option.some.inj hy
    refine { h with turns := ?_, turnSeq := hnext }
    have hold : x.turns.rows.map (fun r => if r.id = (t.repo.turnSeq : Int) + 1 then
        { r with status := row.status, endedAt := some row.endedAt <|> r.endedAt
                 interruptedAtSentence := row.interruptedAt.map fun k : Nat => (k : Int), text := none <|> r.text }
        else r) = x.turns.rows := by
      refine (List.map_congr_left fun r hr => ?_).trans (List.map_id' _)
      have hlt := Table.id_lt_nextId hr
      rw [hnext] at hlt
      exact if_neg (Int.ne_of_lt hlt)
    simp only [Tables.setTurnStatus, Table.update, Table.insert, List.map_append, List.map_singleton, hold, hnext]
    refine List.rel_append h.turns (.cons ⟨true, ?_⟩ .nil)
    simp [StoredTurn.toSchema]
  · cases hrepo

lemma insertSummary (h : x.Represents t) (hx : x.Sound) {okTurns : Bool} {d : SummaryDraft} {now : Int}
    {t' : MemoryTables} (ht : t.insertSummary okTurns d now = some t') :
    ∃ y, x.insertSummary d.session d.rangeStart d.rangeEnd d.summary (ascii "en")
        (Acva.computeSourceHash okTurns t.repo d.session d.rangeStart d.rangeEnd) now = some y ∧ y.Represents t' := by
  have hnext := hx.summaries.nextId_eq
  rw [h.summarySeq] at hnext
  unfold MemoryTables.insertSummary at ht
  split at ht
  · rename_i hsession
    obtain rfl := Option.some.inj ht
    refine ⟨_, if_pos ((h.hasSession _).trans hsession), { h with summaries := ?_, summarySeq := hnext }⟩
    simp only [Table.insert, List.map_append, h.summaries, hnext]
    rfl
  · cases ht

lemma recentTurns (h : x.Represents t) (session : SessionId) (limit : Int) :
    List.Forall₂ (fun u r => ∃ ended, r = StoredTurn.toSchema u ended) (t.repo.recentTurns session limit)
      (x.recentTurns session limit) := by
  have hrows := List.rel_filter (p := fun u : StoredTurn => u.row.session = session)
    (q := fun r : Schema.TurnRow => r.session = session) (fun u r hr => by
      obtain ⟨ended, rfl⟩ := hr
      rfl) h.turns
  unfold Repository.recentTurns Tables.recentTurns
  refine List.rel_reverse ?_
  by_cases hlimit : limit < 0
  · simpa only [if_pos hlimit] using List.rel_reverse hrows
  · simpa only [if_neg hlimit] using List.forall₂_take _ (List.rel_reverse hrows)

/-- The hash over a range of the turns is that over the rows that represent them. -/
lemma sourceHash_eq (h : x.Represents t) (session : SessionId) (rangeStart rangeEnd : Nat) :
    Schema.sourceHash (x.recentTurns session Acva.allTurns) rangeStart rangeEnd =
      Acva.computeSourceHash true t.repo session rangeStart rangeEnd := by
  have hturns := h.recentTurns session Acva.allTurns
  have hkept := List.rel_filter (p := fun u : StoredTurn => rangeStart ≤ u.id ∧ u.id ≤ rangeEnd)
    (q := fun r : Schema.TurnRow => ¬(r.id < rangeStart ∨ r.id > rangeEnd)) (fun u r hr => by
      obtain ⟨ended, rfl⟩ := hr
      simp [StoredTurn.toSchema]) hturns
  have hsame : ∀ {us : List StoredTurn} {rs : List Schema.TurnRow},
      List.Forall₂ (fun u r => ∃ ended, r = StoredTurn.toSchema u ended) us rs →
        (rs.map fun r => (⟨r.id, r.text⟩ : SourceTurn)) = us.map fun u => ⟨u.id, some u.row.text⟩ := by
    intro us rs hall
    induction hall with
    | nil => rfl
    | cons hr _ ih =>
      obtain ⟨ended, rfl⟩ := hr
      rw [List.map_cons, List.map_cons, ih]
      rfl
  rw [Schema.sourceHash, Acva.computeSourceHash, if_pos rfl, sourceText_eq, hsame hkept]

lemma insertTurn_none (h : x.Represents t) {source : Option Nat} {row : Acva.TurnRow}
    (hrepo : t.repo.insertTurn source row = none) :
    x.insertTurn row.session row.role (some row.text) row.lang row.startedAt row.status = none := by
  unfold Repository.insertTurn at hrepo
  split at hrepo
  · cases hrepo
  · rename_i hsession
    exact if_neg fun hyes => hsession ((h.hasSession _).symm.trans hyes)

lemma insertSummary_none (h : x.Represents t) {okTurns : Bool} {d : SummaryDraft} {now : Int}
    (ht : t.insertSummary okTurns d now = none) (first last : Int) (summary lang hash : Text) :
    x.insertSummary d.session first last summary lang hash now = none := by
  unfold MemoryTables.insertSummary at ht
  split at ht
  · cases ht
  · rename_i hsession
    exact if_neg fun hyes => hsession ((h.hasSession _).symm.trans hyes)

lemma session (h : x.Represents t) (hx : x.Sound) (job : SessionJob) :
    (Runs.exec Tables.step x (job.call?.toList.map fun c => (c, .done))).Represents
      (t.afterSession (job.run t.repo).1 job) := by
  cases job with
  | getSession id => exact h
  | closeSession id endedAt => exact h.closeSession id endedAt
  | insertSession startedAt => exact h.insertSession hx startedAt
  | deleteSession id => exact h.deleteSession id
  | wipeAll => exact wipeAll x t

end Tables.Represents

/-- What a job makes of the tables is what its calls make of the schema. -/
theorem calls_refine (h : x.Represents t) (hx : x.Sound) (r : TablesRun) :
    (Runs.exec Tables.step x (r.calls t)).Represents (r.after t) := by
  obtain ⟨job, ok, okTurns, ended, now⟩ := r
  cases job with
  | summarySnapshot session => exact h
  | insertSummary d =>
    cases ok with
    | false => exact h
    | true =>
      simp only [TablesRun.calls, TablesRun.after, TablesJob.run, TablesRun.end?, if_true, Runs.exec_cons,
        Runs.exec_nil, Tables.step, Tables.call]
      cases ht : t.insertSummary okTurns d now with
      | none =>
        rw [h.insertSummary_none ht]
        exact h
      | some t' =>
        obtain ⟨y, hy, hrepresents⟩ := h.insertSummary hx ht
        rw [hy]
        exact hrepresents
  | memory job =>
    cases job with
    | snapshot sid limit | other => exact h
    | session job =>
      cases ok with
      | true => exact h.session hx job
      | false => cases job <;> exact h
    | insertTurn source row =>
      cases ok with
      | false => exact h
      | true =>
        simp only [TablesRun.calls, TablesRun.after, TablesJob.run, MemoryJob.run, TablesRun.end?, if_true,
          Bool.true_and]
        cases hrepo : t.repo.insertTurn source row with
        | none =>
          have hsession : t.repo.hasSession row.session = false := by
            rw [← Bool.not_eq_true]
            intro hyes
            simp [Repository.insertTurn, hyes] at hrepo
          rw [hsession, if_neg Bool.false_ne_true, List.append_nil, Runs.exec_cons, Tables.step, Tables.call,
            h.insertTurn_none hrepo]
          exact h
        | some repo =>
          obtain ⟨y, hy, hrepresents⟩ := h.insertTurn hx hrepo
          have hended := h.setTurnStatus hx hrepo hy
          have hsession : t.repo.hasSession row.session = true := by
            by_contra hno
            simp [Repository.insertTurn, hno] at hrepo
          have hfirst : x.step (.insertTurn row.session row.role (some row.text) row.lang row.startedAt row.status,
              .done) = y := congrArg (Option.getD · x) hy
          rw [hsession, if_pos rfl, Runs.exec_append]
          simp only [Runs.exec_cons, Runs.exec_nil, hfirst]
          cases ended with
          | true => exact hended
          | false => exact hrepresents

/-- Any run of jobs on new tables is a run of their calls on the schema. -/
theorem jobs_refine (runs : List TablesRun) :
    (Runs.exec Tables.step {} (TablesRun.callsAlong {} runs)).Represents (Runs.exec TablesRun.after {} runs) := by
  have hrun : ∀ (t : MemoryTables) (x : Tables), x.Represents t → x.Sound →
      (Runs.exec Tables.step x (TablesRun.callsAlong t runs)).Represents (Runs.exec TablesRun.after t runs) := by
    induction runs with
    | nil => exact fun t x h _ => h
    | cons r runs ih =>
      intro t x h hx
      have hsound : (Runs.exec Tables.step x (r.calls t)).Sound :=
        Runs.exec_invariant Tables.Sound (fun _ c hc => hc.step c) hx (r.calls t)
      rw [TablesRun.callsAlong, Runs.exec_append]
      exact ih _ _ (calls_refine h hx r) hsound
  exact hrun {} {} .empty .empty

end Schema

end Acva
