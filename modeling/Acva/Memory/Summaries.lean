import Acva.Memory.MemoryThread

/-!
# The table of summaries

`Repository` with its summaries. A summary names the range of turns that it covers; its text comes from the model,
or is a placeholder. `wipes` counts how often the tables were dropped, and `sources` are the turns whose text went
into the request, each with that count: the tables hold neither.
-/

namespace Acva

structure SummaryRow where
  id : Nat
  session : SessionId
  rangeStart : Nat
  rangeEnd : Nat
  summary : Text
  lang : Text
  sourceHash : Text
  createdAt : Int
  sources : List (Nat × StoredTurn) := []
  deriving DecidableEq, Repr

structure MemoryTables where
  repo : Repository := {}
  summaries : List SummaryRow := []
  summarySeq : Nat := 0
  wipes : Nat := 0
  deriving DecidableEq, Repr

/-- What `run_one_summary` reads in one job. -/
structure SummarySnapshot where
  rangeStart : Nat := 0
  rangeEnd : Nat := 0
  turns : List StoredTurn := []
  deriving DecidableEq, Repr

/-- What `run_one_summary` hands to the memory thread. -/
structure SummaryDraft where
  session : SessionId
  rangeStart : Nat
  rangeEnd : Nat
  summary : Text
  sources : List (Nat × StoredTurn) := []
  deriving DecidableEq, Repr

/-- FNV-1a with 64 bits, before the formatting. -/
def fnv1a64 (s : Text) : UInt64 := s.foldl (fun h c => (h ^^^ c.toUInt64) * 0x100000001b3) 0xcbf29ce484222325

def hexDigit (d : UInt64) : UInt8 := if d < 10 then 0x30 + d.toUInt8 else 0x57 + d.toUInt8

/-- `{:016x}`. -/
def hex16 (h : UInt64) : Text := (List.range 16).map fun i => hexDigit ((h >>> (4 * (15 - i)).toUInt64) &&& 0xf)

/-- The bytes that stand for the turns of a range in the hash. -/
def sourceText (turns : List StoredTurn) (rangeStart rangeEnd : Nat) : Text :=
  (turns.filter fun t => rangeStart ≤ t.id ∧ t.id ≤ rangeEnd).flatMap fun t =>
    ascii (toString t.id) ++ ascii "|" ++ t.row.text ++ ascii "\n"

/-- `limit` of the reads that want all turns of a session. -/
def allTurns : Int := 100000

/-- `ok` says that `recent_turns` does not fail. -/
def computeSourceHash (ok : Bool) (r : Repository) (session : SessionId) (rangeStart rangeEnd : Nat) : Text :=
  if ok then hex16 (fnv1a64 (sourceText (r.recentTurns session allTurns) rangeStart rangeEnd)) else []

/-- The turns of the range that have text. -/
def SummarySnapshot.quoted (snap : SummarySnapshot) : List StoredTurn :=
  snap.turns.filter fun t => snap.rangeStart ≤ t.id ∧ t.id ≤ snap.rangeEnd ∧ t.row.text ≠ []

def concatTurns (snap : SummarySnapshot) : Text :=
  snap.quoted.flatMap fun t =>
    (match t.row.role with
      | .user => ascii "User: "
      | .assistant => ascii "Assistant: ") ++ t.row.text ++ ascii "\n"

namespace MemoryTables

/-- The summary with the largest range end, the newest of these. -/
def latestSummary (t : MemoryTables) (session : SessionId) : Option SummaryRow :=
  (t.summaries.filter fun row => row.session = session).foldl
    (fun best row => match best with
      | none => some row
      | some b => if b.rangeEnd ≤ row.rangeEnd then some row else some b) none

/-- The read of `run_one_summary`; a statement that fails reads nothing. -/
def summarySnapshot (t : MemoryTables) (ok okTurns : Bool) (session : SessionId) : SummarySnapshot :=
  let rangeStart := match if ok then t.latestSummary session else none with
    | some row => row.rangeEnd + 1
    | none => 1
  let turns := if okTurns then t.repo.recentTurns session allTurns else []
  let rangeEnd := turns.foldl (fun last t =>
    if rangeStart ≤ t.id ∧ (t.row.status = .committed ∨ t.row.status = .interrupted) ∧ last < t.id then t.id
    else last) 0
  { rangeStart := rangeStart, rangeEnd := rangeEnd, turns := turns }

/-- Nothing if the session does not exist. -/
def insertSummary (t : MemoryTables) (okTurns : Bool) (draft : SummaryDraft) (now : Int) : Option MemoryTables :=
  if t.repo.hasSession draft.session then
    some { t with
      summaries := t.summaries ++ [{
        id := t.summarySeq + 1
        session := draft.session
        rangeStart := draft.rangeStart
        rangeEnd := draft.rangeEnd
        summary := draft.summary
        lang := ascii "en"
        sourceHash := computeSourceHash okTurns t.repo draft.session draft.rangeStart draft.rangeEnd
        createdAt := now
        sources := draft.sources }]
      summarySeq := t.summarySeq + 1 }
  else none

/-- What a call of the session manager does to the summaries: they go with their session, or with the tables. -/
def afterSession (t : MemoryTables) (repo : Repository) : SessionJob → MemoryTables
  | .deleteSession id => { t with repo := repo, summaries := t.summaries.filter fun row => row.session ≠ id }
  | .wipeAll => { repo := repo, wipes := t.wipes + 1 }
  | _ => { t with repo := repo }

end MemoryTables

/-- The jobs on the memory thread: those of the other components and the two of the summarizer. -/
inductive TablesJob
  | memory (job : MemoryJob)
  | summarySnapshot (session : SessionId)
  | insertSummary (draft : SummaryDraft)
  deriving DecidableEq, Repr

inductive TablesResult
  | memory (result : MemoryResult)
  | summarySnapshot (wipes : Nat) (snap : SummarySnapshot)
  | inserted (ok : Bool)
  deriving DecidableEq, Repr

def TablesJob.run (ok okTurns : Bool) (now : Int) (t : MemoryTables) : TablesJob → MemoryTables × TablesResult
  | .memory job =>
    let r := job.run ok t.repo
    (match job with
      | .session job => if ok then t.afterSession r.1 job else t
      | _ => { t with repo := r.1 }, .memory r.2)
  | .summarySnapshot session => (t, .summarySnapshot t.wipes (t.summarySnapshot ok okTurns session))
  | .insertSummary draft =>
    match if ok then t.insertSummary okTurns draft now else none with
    | some t' => (t', .inserted true)
    | none => (t, .inserted false)

end Acva
