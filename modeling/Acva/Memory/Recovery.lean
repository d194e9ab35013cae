import Acva.Lib.Transactions
import Acva.Memory.Tables

/-!
# The recovery sweep

`run_recovery` closes the sessions that are still open, marks the turns that were in progress and counts the
summaries whose source hash has changed, in one transaction. The calls to SQLite go as `Failures` says; each is made
once at most, so it is named by the row it is for.
-/

namespace Acva

open Transactions

structure DbError where
  message : Text
  deriving DecidableEq, Repr

namespace Schema

inductive SqlCall
  | start
  | sessionsOpen
  | maxTurnEndedAt (session : SessionId)
  | closeSession (session : SessionId)
  | turnsInProgress
  | setTurnStatus (turn : Int)
  | allSummaries
  | recentTurns (summary : Int)
  | commit
  | rollback
  deriving DecidableEq, Repr

abbrev Failures := SqlCall → Outcome DbError

/-- The error of a COMMIT when no transaction is open. -/
def inactive : DbError := ⟨ascii "sqlite exec: cannot commit - no transaction is active"⟩

structure RecoverySummary where
  sessionsClosed : Nat := 0
  turnsMarkedInterrupted : Nat := 0
  summariesTotal : Nat := 0
  summariesStale : Nat := 0
  deriving DecidableEq, Repr

variable (F : Failures)

/-- The hash over the turns of the range that are among those read. -/
def sourceHash (turns : List TurnRow) (rangeStart rangeEnd : Int) : Text :=
  hex16 (fnv1a64 (sourceBytes
    ((turns.filter fun t => ¬ (t.id < rangeStart ∨ t.id > rangeEnd)).map fun t => ⟨t.id, t.text⟩)))

/-- A failing read is logged, and the hash is empty. -/
def computeSourceHash (s : SummaryRow) : Program Tables DbError Text :=
  Program.orElse (do
    let turns ← read (F (.recentTurns s.id)) (·.recentTurns s.session allTurns)
    return sourceHash turns s.rangeStartTurn s.rangeEndTurn) []

def closeOpenSessions : List SessionRow → RecoverySummary → Program Tables DbError RecoverySummary
  | [], out => pure out
  | s :: rest, out => do
    let end? ← read (F (.maxTurnEndedAt s.id)) (·.maxTurnEndedAt s.id)
    write (F (.closeSession s.id)) (·.closeSession s.id (end?.getD s.startedAt))
    closeOpenSessions rest { out with sessionsClosed := out.sessionsClosed + 1 }

def markInterrupted : List TurnRow → RecoverySummary → Program Tables DbError RecoverySummary
  | [], out => pure out
  | t :: rest, out => do
    write (F (.setTurnStatus t.id)) (·.setTurnStatus t.id .interrupted none none none)
    markInterrupted rest { out with turnsMarkedInterrupted := out.turnsMarkedInterrupted + 1 }

def verifySummaries : List SummaryRow → RecoverySummary → Program Tables DbError RecoverySummary
  | [], out => pure out
  | s :: rest, out => do
    let current ← computeSourceHash F s
    verifySummaries rest
      { out with summariesTotal := out.summariesTotal + 1
                 summariesStale :=
                   if current ≠ [] ∧ current ≠ s.sourceHash then out.summariesStale + 1 else out.summariesStale }

def sweep : Program Tables DbError RecoverySummary := do
  let openSessions ← read (F .sessionsOpen) (·.sessionsOpenNoEndedAt)
  let out ← closeOpenSessions F openSessions {}
  let inProgress ← read (F .turnsInProgress) (·.turnsInProgress)
  let out ← markInterrupted F inProgress out
  let summaries ← read (F .allSummaries) (·.allSummaries)
  verifySummaries F summaries out

def guard : Guard DbError :=
  { start := F .start, commit := F .commit, rollback := F .rollback, inactive := inactive }

def runRecovery : Program Tables DbError RecoverySummary := transaction (guard F) (sweep F)

/-! ## The calls of a sweep -/

variable (x : Tables)

/-- When a session ended, as far as its turns say. -/
def endOf (s : SessionRow) : Int := (x.maxTurnEndedAt s.id).getD s.startedAt

def closings (sessions : List SessionRow) : List (Statement Tables DbError) :=
  sessions.flatMap fun s =>
    [{ outcome := F (.maxTurnEndedAt s.id) },
     { outcome := F (.closeSession s.id), effect := fun y => y.closeSession s.id (endOf x s) }]

def markings (turns : List TurnRow) : List (Statement Tables DbError) :=
  turns.map fun t =>
    { outcome := F (.setTurnStatus t.id), effect := fun y => y.setTurnStatus t.id .interrupted none none none }

/-- The calls of a sweep of `x` before the summaries, in order. -/
def statements : List (Statement Tables DbError) :=
  { outcome := F .sessionsOpen } :: closings F x x.sessionsOpenNoEndedAt ++
    ({ outcome := F .turnsInProgress } :: markings F x.turnsInProgress ++ [{ outcome := F .allSummaries }])

/-- The read for a hash ends the transaction. -/
def readUndoes (s : SummaryRow) : Bool :=
  match F (.recentTurns s.id) with
  | .rollsBack _ => true
  | _ => false

def undone : Bool := x.summaries.rows.any (readUndoes F)

/-- The hash of the summary's range is read and is not the one that it was made from. -/
def stale (s : SummaryRow) : Bool :=
  (F (.recentTurns s.id)).succeeds &&
    decide (sourceHash (x.recentTurns s.session allTurns) s.rangeStartTurn s.rangeEndTurn ≠ s.sourceHash)

variable {F x}

lemma closings_cons (s : SessionRow) (rest : List SessionRow) :
    closings F x (s :: rest) = { outcome := F (.maxTurnEndedAt s.id) } ::
      { outcome := F (.closeSession s.id), effect := fun y => y.closeSession s.id (endOf x s) } ::
        closings F x rest := rfl

lemma closeOpenSessions_follows (sessions : List SessionRow) (out : RecoverySummary) {c : Connection Tables}
    (hc : c.content.turns = x.turns) :
    Follows (closeOpenSessions F sessions out) (closings F x sessions)
      (pure { out with sessionsClosed := out.sessionsClosed + sessions.length }) c := by
  induction sessions generalizing out c with
  | nil => exact Follows.refl _ _
  | cons s rest ih =>
    have hend : (c.content.maxTurnEndedAt s.id).getD s.startedAt = endOf x s := by
      rw [endOf, Tables.maxTurnEndedAt, Tables.maxTurnEndedAt, hc]
    rw [closings_cons, closeOpenSessions, List.length_cons, add_comm rest.length, ← add_assoc]
    refine Follows.read_bind ?_
    rw [hend]
    exact Follows.write_bind (ih _ (by rw [Connection.content_update]; exact hc))

lemma markInterrupted_follows (turns : List TurnRow) (out : RecoverySummary) (c : Connection Tables) :
    Follows (markInterrupted F turns out) (markings F turns)
      (pure { out with turnsMarkedInterrupted := out.turnsMarkedInterrupted + turns.length }) c := by
  induction turns generalizing out c with
  | nil => exact Follows.refl _ _
  | cons t rest ih =>
    rw [markings, List.map_cons, ← markings, markInterrupted, List.length_cons, add_comm rest.length, ← add_assoc]
    exact Follows.write_bind (ih _ _)

lemma turns_done_closings (sessions : List SessionRow) (y : Tables) :
    (done (closings F x sessions) y).turns = y.turns ∧ (done (closings F x sessions) y).summaries = y.summaries := by
  refine done_induction (P := fun z : Tables => z.turns = y.turns ∧ z.summaries = y.summaries) ?_ ⟨rfl, rfl⟩
  intro s hs z hz
  obtain ⟨r, -, hs⟩ := List.mem_flatMap.mp hs
  rcases List.mem_pair.mp hs with rfl | rfl
  · exact hz
  · exact hz

lemma summaries_done_markings (turns : List TurnRow) (y : Tables) :
    (done (markings F turns) y).summaries = y.summaries := by
  refine done_induction (P := fun z : Tables => z.summaries = y.summaries) ?_ rfl
  intro s hs z hz
  obtain ⟨t, -, rfl⟩ := List.mem_map.mp hs
  exact hz

/-- The summary as it is when the summaries are verified. -/
def swept (x : Tables) : RecoverySummary :=
  { sessionsClosed := x.sessionsOpenNoEndedAt.length, turnsMarkedInterrupted := x.turnsInProgress.length }

lemma sweep_follows {c : Connection Tables} (hc : c.content = x) :
    Follows (sweep F) (statements F x) (verifySummaries F x.allSummaries (swept x)) c := by
  subst hc
  refine Follows.read_bind ((closeOpenSessions_follows (x := c.content) _ _ rfl).bind (Follows.read_bind ?_))
  obtain ⟨hturns, hsums⟩ := turns_done_closings (F := F) (x := c.content) c.content.sessionsOpenNoEndedAt c.content
  rw [Connection.content_update, Tables.turnsInProgress, hturns, ← Tables.turnsInProgress]
  refine (markInterrupted_follows _ _ _).bind (Follows.read_bind ?_)
  rw [Connection.content_update, Connection.content_update, Tables.allSummaries, summaries_done_markings, hsums]
  simp only [zero_add]
  exact Follows.refl _ _

lemma computeSourceHash_apply (s : SummaryRow) (c : Connection Tables) :
    ∃ h, computeSourceHash F s c = (.ok h, if readUndoes F s then c.abandon else c) ∧
      (h ≠ [] ∧ h ≠ s.sourceHash ↔ stale F c.content s = true) := by
  unfold computeSourceHash Program.orElse readUndoes stale
  cases hF : F (.recentTurns s.id) with
  | ok =>
    refine ⟨sourceHash (c.content.recentTurns s.session allTurns) s.rangeStartTurn s.rangeEndTurn, rfl, ?_⟩
    have hne : sourceHash (c.content.recentTurns s.session allTurns) s.rangeStartTurn s.rangeEndTurn ≠ [] :=
      hex16_ne_nil _
    simp [Outcome.succeeds, hne]
  | fails e | rollsBack e => exact ⟨[], rfl, by simp [Outcome.succeeds]⟩

lemma verifySummaries_ok (summaries : List SummaryRow) (out : RecoverySummary) (c : Connection Tables) :
    ∃ b, verifySummaries F summaries out c =
      (.ok b, if summaries.any (readUndoes F) then c.abandon else c) := by
  induction summaries generalizing out c with
  | nil => exact ⟨out, rfl⟩
  | cons s rest ih =>
    obtain ⟨h, hrun, -⟩ := computeSourceHash_apply (F := F) s c
    rw [verifySummaries, Program.bind_of_ok hrun, List.any_cons]
    obtain ⟨b, hb⟩ := ih _ (if readUndoes F s then c.abandon else c)
    refine ⟨b, hb.trans ?_⟩
    cases readUndoes F s <;> cases rest.any (readUndoes F) <;> rfl

lemma verifySummaries_value (summaries : List SummaryRow) (hundone : summaries.any (readUndoes F) = false)
    (out : RecoverySummary) (c : Connection Tables) :
    verifySummaries F summaries out c =
      (.ok { out with summariesTotal := out.summariesTotal + summaries.length
                      summariesStale := out.summariesStale + summaries.countP (stale F c.content) }, c) := by
  induction summaries generalizing out c with
  | nil => rfl
  | cons s rest ih =>
    rw [List.any_cons, Bool.or_eq_false_iff] at hundone
    obtain ⟨h, hrun, hstale⟩ := computeSourceHash_apply (F := F) s c
    rw [hundone.1, if_neg Bool.false_ne_true] at hrun
    rw [verifySummaries, Program.bind_of_ok hrun, ih hundone.2, List.countP_cons, List.length_cons]
    by_cases hs : stale F c.content s = true
    · simp only [if_pos (hstale.mpr hs), if_pos hs]
      congr 3 <;> omega
    · simp only [if_neg (hstale.not.mpr hs), if_neg hs]
      congr 3
      omega

/-- What the sweep is for. -/
structure Recovered (x y : Tables) : Prop where
  closed : ∀ s ∈ y.sessions.rows, s.endedAt ≠ none
  marked : ∀ t ∈ y.turns.rows, t.status ≠ .inProgress
  sessions : y.sessions.rows =
    x.sessions.rows.map fun s => if s.endedAt.isNone then { s with endedAt := some (endOf x s) } else s
  turns : y.turns.rows = x.turns.rows.map fun t =>
    if t.status = .inProgress then { t with status := .interrupted, interruptedAtSentence := none } else t
  sequences : y.sessions.seq = x.sessions.seq ∧ y.turns.seq = x.turns.seq
  others : y.summaries = x.summaries ∧ y.facts = x.facts ∧ y.settings = x.settings ∧ y.runtimeState = x.runtimeState

lemma foldl_closings (sessions : List SessionRow) (y : Tables) :
    (closings F x sessions).foldl (fun y s => s.effect y) y =
      { y with sessions := sessions.foldl
                 (fun u s => u.update s.id
                    (fun r => { r with endedAt := some (endOf x s) }) fun _ => rfl) y.sessions } := by
  induction sessions generalizing y with
  | nil => rfl
  | cons s rest ih => rw [closings_cons, List.foldl_cons, List.foldl_cons, ih]; rfl

lemma foldl_markings (turns : List TurnRow) (y : Tables) :
    (markings F turns).foldl (fun y s => s.effect y) y =
      { y with turns := turns.foldl
                 (fun u t => u.update t.id (fun r => { r with status := .interrupted, interruptedAtSentence := none })
                   fun _ => rfl) y.turns } := by
  induction turns generalizing y with
  | nil => rfl
  | cons t rest ih =>
    rw [markings, List.map_cons, List.foldl_cons, ← markings, ih, List.foldl_cons]
    rfl

lemma foldl_statements (F : Failures) (x : Tables) :
    (statements F x).foldl (fun y s => s.effect y) x =
      { x with
        sessions := x.sessionsOpenNoEndedAt.foldl
          (fun u s => u.update s.id (fun r => { r with endedAt := some (endOf x s) }) fun _ => rfl) x.sessions
        turns := x.turnsInProgress.foldl
          (fun u t => u.update t.id (fun r => { r with status := .interrupted, interruptedAtSentence := none })
            fun _ => rfl) x.turns } := by
  rw [statements, List.foldl_append, List.foldl_cons, foldl_closings, List.foldl_append, List.foldl_cons,
    List.foldl_nil, List.foldl_cons, foldl_markings]

lemma recovered_done (h : firstFailure (statements F x) = .ok) : Recovered x (done (statements F x) x) := by
  have hsessions := Table.rows_foldl_update
    (f := fun s r => { r with endedAt := some (endOf x s) }) (fun _ _ => rfl) x.sessions fun s => s.endedAt.isNone
  have hturns := Table.rows_foldl_update
    (f := fun _ r => { r with status := .interrupted, interruptedAtSentence := none }) (fun _ _ => rfl) x.turns
    fun t => t.status = .inProgress
  rw [done_of_ok h, foldl_statements]
  refine ⟨?_, ?_, hsessions, ?_, ⟨?_, ?_⟩, rfl, rfl, rfl, rfl⟩
  · intro s hs
    obtain ⟨r, -, rfl⟩ := List.mem_map.mp (hsessions ▸ hs)
    cases hr : r.endedAt <;> simp [hr]
  · intro t ht
    obtain ⟨r, -, rfl⟩ := List.mem_map.mp (hturns ▸ ht)
    by_cases hr : r.status = .inProgress <;> simp [hr]
  · simp only [decide_eq_true_eq] at hturns
    exact hturns
  · exact Table.seq_foldl_update (f := fun s r : SessionRow => { r with endedAt := some (endOf x s) })
      (fun _ _ => rfl) _ x.sessions
  · exact Table.seq_foldl_update
      (f := fun _ r : TurnRow => { r with status := .interrupted, interruptedAtSentence := none })
      (fun _ _ => rfl) _ x.turns

lemma Recovered.recentTurns {y : Tables} (h : Recovered x y) (session : SessionId) (limit : Int) :
    y.recentTurns session limit = (x.recentTurns session limit).map fun t =>
      if t.status = .inProgress then { t with status := .interrupted, interruptedAtSentence := none } else t := by
  have hfilter : y.turns.rows.filter (fun t => t.session = session) =
      (x.turns.rows.filter fun t => t.session = session).map fun t =>
        if t.status = .inProgress then { t with status := .interrupted, interruptedAtSentence := none } else t := by
    rw [h.turns, List.filter_map]
    congr 1
    refine List.filter_congr fun t _ => ?_
    simp only [Function.comp_apply]
    split <;> rfl
  unfold Tables.recentTurns
  rw [hfilter]
  split <;> simp only [List.map_reverse, List.map_take]

lemma Recovered.stale_eq {y : Tables} (h : Recovered x y) : stale F y = stale F x := by
  have hhash : ∀ (turns : List TurnRow) (lo hi : Int), sourceHash (turns.map fun t =>
      if t.status = .inProgress then { t with status := .interrupted, interruptedAtSentence := none } else t) lo hi =
      sourceHash turns lo hi := by
    intro turns lo hi
    rw [sourceHash, sourceHash, List.filter_map, List.map_map]
    congr 4
    · funext t
      simp only [Function.comp_apply]
      split <;> rfl
    · refine List.filter_congr fun t _ => ?_
      simp only [Function.comp_apply]
      split <;> rfl
  funext s
  rw [stale, stale, h.recentTurns, hhash]

lemma Recovered.eq_of_clean {y z : Tables} (hclosed : ∀ s ∈ y.sessions.rows, s.endedAt ≠ none)
    (hmarked : ∀ t ∈ y.turns.rows, t.status ≠ .inProgress) (h : Recovered y z) : z = y := by
  have hsessions : z.sessions.rows = y.sessions.rows := by
    rw [h.sessions]
    refine (List.map_congr_left fun s hs => ?_).trans (List.map_id' _)
    rw [if_neg (by simpa using hclosed s hs)]
  have hturns : z.turns.rows = y.turns.rows := by
    rw [h.turns]
    refine (List.map_congr_left fun t ht => ?_).trans (List.map_id' _)
    rw [if_neg (hmarked t ht)]
  obtain ⟨hs, ht⟩ := h.sequences
  obtain ⟨h₁, h₂, h₃, h₄⟩ := h.others
  obtain ⟨zs, zt, zu, zf, zg, zr⟩ := z
  obtain rfl : zs = y.sessions := Table.ext_rows hsessions hs
  obtain rfl : zt = y.turns := Table.ext_rows hturns ht
  obtain rfl : zu = y.summaries := h₁
  obtain rfl : zf = y.facts := h₂
  obtain rfl : zg = y.settings := h₃
  obtain rfl : zr = y.runtimeState := h₄
  rfl

lemma sweep_followsThen {c : Connection Tables} (hc : c.content = x) :
    FollowsThen (sweep F) (statements F x) (undone F x) c :=
  (sweep_follows hc).then (verifySummaries_ok _ _)

lemma runRecovery_ok {out : RecoverySummary} {c : Connection Tables}
    (h : runRecovery F { stored := x } = (.ok out, c)) :
    ∃ y, c = { stored := y } ∧ Recovered x y ∧
      out = { swept x with summariesTotal := x.summaries.rows.length
                           summariesStale := x.summaries.rows.countP (stale F x) } := by
  obtain ⟨hl, hundone, hc, hbody⟩ := transaction_succeeds (fun _ => sweep_followsThen) h
  have hrec := recovered_done hl
  refine ⟨_, hc, hrec, ?_⟩
  have hscript := script_apply (statements F x) { stored := x, working := some x }
  simp only [hl] at hscript
  have hrun := (sweep_follows (F := F) (x := x) (c := { stored := x, working := some x }) rfl).trans
    (Program.bind_of_ok hscript)
  have hvalue := verifySummaries_value x.summaries.rows hundone (swept x)
    (({ stored := x, working := some x } : Connection Tables).update (done (statements F x)))
  have hstale : stale F (done (statements F x) x) = stale F x := hrec.stale_eq
  obtain ⟨hout, -⟩ := Prod.mk.inj (hbody.symm.trans (hrun.trans hvalue))
  injection hout with hout
  rw [hout, Connection.content_update]
  change _ = { swept x with
    summariesTotal := x.summaries.rows.length, summariesStale := x.summaries.rows.countP (stale F x) }
  rw [← hstale]
  simp [swept, Connection.content]

/-- A sweep that succeeds recovers the database, and another finds nothing to do and reports the same counts of
summaries, the stale ones if the same hashes are read. -/
theorem recovery_idempotent {out : RecoverySummary} {c : Connection Tables}
    (h : runRecovery F { stored := x } = (.ok out, c)) :
    ∃ y, c = { stored := y } ∧ Recovered x y ∧
      ∀ (G : Failures) (again : RecoverySummary) (d : Connection Tables), runRecovery G c = (.ok again, d) →
        d = c ∧ again.sessionsClosed = 0 ∧ again.turnsMarkedInterrupted = 0 ∧
          again.summariesTotal = out.summariesTotal ∧
          ((∀ s ∈ x.summaries.rows, (G (.recentTurns s.id)).succeeds = (F (.recentTurns s.id)).succeeds) →
            again.summariesStale = out.summariesStale) := by
  obtain ⟨y, rfl, hrec, rfl⟩ := runRecovery_ok h
  refine ⟨y, rfl, hrec, fun G again d hagain => ?_⟩
  obtain ⟨z, rfl, hrec', rfl⟩ := runRecovery_ok hagain
  obtain rfl := hrec'.eq_of_clean hrec.closed hrec.marked
  have hopen : z.sessionsOpenNoEndedAt = [] :=
    List.filter_eq_nil_iff.mpr fun s hs => by simpa using hrec.closed s hs
  have hmarked : z.turnsInProgress = [] :=
    List.filter_eq_nil_iff.mpr fun t ht => by simpa using hrec.marked t ht
  refine ⟨rfl, by simp [swept, hopen], by simp [swept, hmarked], by rw [hrec.others.1], fun hreads => ?_⟩
  simp only [hrec.others.1, hrec.stale_eq]
  refine List.countP_congr fun s hs => ?_
  rw [stale, stale, hreads s hs]

/-- After a crash: the session is open, its second turn was in progress, and the summary is not of these turns. -/
def crashed : Tables :=
  { sessions := { rows := [{ id := 1, startedAt := 10 }], seq := 1, ordered := by decide }
    turns := {
      rows := [{ id := 1, session := 1, role := .user, text := some (ascii "hi"), startedAt := 11,
                 endedAt := some 12, status := .committed },
               { id := 2, session := 1, role := .assistant, startedAt := 13, status := .inProgress }]
      seq := 2
      ordered := by decide }
    summaries := {
      rows := [{ id := 1, session := 1, rangeStartTurn := 1, rangeEndTurn := 1, summary := [], lang := [],
                 sourceHash := ascii "0", createdAt := 14 }]
      seq := 1
      ordered := by decide } }

theorem crashed_recovery_idempotent :
    ∃ out c, runRecovery (fun _ => .ok) { stored := crashed } = (.ok out, c) ∧
      ∃ y, c = { stored := y } ∧ Recovered crashed y ∧
        ∀ (G : Failures) (again : RecoverySummary) (d : Connection Tables), runRecovery G c = (.ok again, d) →
          d = c ∧ again.sessionsClosed = 0 ∧ again.turnsMarkedInterrupted = 0 ∧
            again.summariesTotal = out.summariesTotal ∧
            ((∀ s ∈ crashed.summaries.rows, (G (.recentTurns s.id)).succeeds = true) →
              again.summariesStale = out.summariesStale) :=
  ⟨_, _, rfl, recovery_idempotent (F := fun _ => .ok) (x := crashed) rfl⟩

/-- The hash cannot be read in the first sweep, which is logged only, and can be in the second. -/
theorem stale_only_in_second_sweep :
    ¬ ∀ (F : Failures) (x : Tables) (out : RecoverySummary) (c : Connection Tables),
      runRecovery F { stored := x } = (.ok out, c) →
      ∀ (G : Failures) (again : RecoverySummary) (d : Connection Tables), runRecovery G c = (.ok again, d) →
        again.summariesStale = out.summariesStale := by
  intro hall
  have hstale := hall (fun | .recentTurns _ => .fails ⟨ascii "recent_turns step"⟩ | _ => .ok) crashed
    { sessionsClosed := 1, turnsMarkedInterrupted := 1, summariesTotal := 1, summariesStale := 0 } _ rfl
    (fun _ => .ok) { summariesTotal := 1, summariesStale := 1 } _ rfl
  exact absurd hstale (by decide)

end Schema

end Acva
