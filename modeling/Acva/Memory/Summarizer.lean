import Acva.Dialogue.Session
import Acva.Lib.Runs
import Acva.Memory.Summaries

/-!
# The summarizer

The worker of `Summarizer` reads the session id, then the turns, waits for the model and inserts what it says.
Session operations run beside it, on the same memory thread. A wipe drops the tables and starts the ids over, so
that the new session may get the id that the worker still holds.
-/

namespace Acva

/-- Waiting for a trigger, before the session id is read, waiting for the turns, inside the call of the model,
waiting for the insert, or ended by an exception that a refused job throws. -/
inductive SummarizerStage
  | waiting
  | triggered
  | reading (session : SessionId)
  | summarizing (session : SessionId) (wipes : Nat) (snap : SummarySnapshot)
  | inserting (draft : SummaryDraft)
  | threw
  deriving DecidableEq, Repr

structure Summarizer where
  session : SessionId := 0
  jobPending : Bool := false
  turnsSinceSummary : Nat := 0
  summariesWritten : Nat := 0
  stage : SummarizerStage := .waiting
  deriving DecidableEq, Repr

namespace Summarizer

def triggerNow (z : Summarizer) : Summarizer := { z with jobPending := true }

def onLlmFinished (turnThreshold : Nat) (z : Summarizer) (e : LlmFinished) : Summarizer :=
  if e.cancelled then z
  else
    let z := { z with turnsSinceSummary := z.turnsSinceSummary + 2 }
    if turnThreshold ≤ z.turnsSinceSummary then z.triggerNow else z

/-- The snapshot has come; there may be nothing to summarize. `bodyOk` says that the request can be written. -/
def onSnapshot (z : Summarizer) (bodyOk : Bool) (wipes : Nat) (snap : SummarySnapshot) : Summarizer :=
  match z.stage with
  | .reading session =>
    if snap.rangeEnd < snap.rangeStart ∨ snap.turns = [] ∨ concatTurns snap = [] ∨ bodyOk = false then
      { z with stage := .waiting }
    else { z with stage := .summarizing session wipes snap }
  | _ => z

/-- The draft for what the model said: its text derives from the turns that were quoted, the placeholder from
none. -/
def draft (session : SessionId) (wipes : Nat) (snap : SummarySnapshot) (errored : Bool) (text : Text) : SummaryDraft :=
  let failed := errored = true ∨ text = []
  { session := session
    rangeStart := snap.rangeStart
    rangeEnd := snap.rangeEnd
    summary := if failed then ascii "[TODO summary]" else text
    sources := if failed then [] else snap.quoted.map fun t => (wipes, t) }

def onInserted (z : Summarizer) (ok : Bool) : Summarizer :=
  match z.stage with
  | .inserting _ =>
    if ok then { z with stage := .waiting, turnsSinceSummary := 0, summariesWritten := z.summariesWritten + 1 }
    else { z with stage := .waiting }
  | _ => z

end Summarizer

structure SummaryWorld where
  tables : MemoryTables := {}
  queue : BoundedQueue TablesJob := { capacity := 256, policy := .dropNewest }
  sessions : SessionManager := {}
  summarizer : Summarizer := {}
  deriving DecidableEq, Repr

/-- `post` stands for the other threads that use the memory thread. -/
inductive SummaryAction
  | llmFinished (e : LlmFinished)
  | trigger
  | work
  | llmReturns (errored : Bool) (text : Text)
  | memory (ok okTurns bodyOk : Bool) (now : Int)
  | command (now : Int) (c : SessionCommand)
  | openSession (now : Int)
  | notify
  | post (job : MemoryJob)
  deriving DecidableEq, Repr

def MemoryJob.isSession : MemoryJob → Bool
  | .session _ => true
  | _ => false

namespace SummaryWorld

/-- The queue after the job was offered, and whether it was accepted. -/
def submit (s : SummaryWorld) (job : TablesJob) : SummaryWorld × Bool :=
  match s.queue.push job with
  | some r => ({ s with queue := r.1 }, r.2)
  | none => (s, false)

def setStage (s : SummaryWorld) (stage : SummarizerStage) : SummaryWorld :=
  { s with summarizer := { s.summarizer with stage := stage } }

/-- A job of the summarizer; a refusal throws. -/
def await (s : SummaryWorld) (job : TablesJob) (stage : SummarizerStage) : SummaryWorld :=
  let r := s.submit job
  r.1.setStage (if r.2 then stage else .threw)

/-- `worker_loop` up to the next wait. -/
def work (s : SummaryWorld) : SummaryWorld :=
  match s.summarizer.stage with
  | .waiting =>
    if s.summarizer.jobPending then
      { s with summarizer := { s.summarizer with jobPending := false, stage := .triggered } }
    else s
  | .triggered =>
    if s.summarizer.session = 0 then s.setStage .waiting
    else s.await (.summarySnapshot s.summarizer.session) (.reading s.summarizer.session)
  | _ => s

/-- The model has answered. -/
def llmReturns (s : SummaryWorld) (errored : Bool) (text : Text) : SummaryWorld :=
  match s.summarizer.stage with
  | .summarizing session wipes snap =>
    let draft := Summarizer.draft session wipes snap errored text
    s.await (.insertSummary draft) (.inserting draft)
  | _ => s

/-- Whoever waits for the job gets the result. -/
def onResult (s : SummaryWorld) (bodyOk : Bool) (job : TablesJob) (result : TablesResult) : SummaryWorld :=
  match job, result with
  | .memory (.session job), .memory result => { s with sessions := s.sessions.onResult job result }
  | .summarySnapshot _, .summarySnapshot wipes snap =>
    { s with summarizer := s.summarizer.onSnapshot bodyOk wipes snap }
  | .insertSummary _, .inserted ok => { s with summarizer := s.summarizer.onInserted ok }
  | _, _ => s

/-- The memory thread runs a job. -/
def memory (s : SummaryWorld) (ok okTurns bodyOk : Bool) (now : Int) : SummaryWorld :=
  match s.queue.tryPop with
  | some (job, queue) =>
    let r := job.run ok okTurns now s.tables
    ({ s with tables := r.1, queue := queue }).onResult bodyOk job r.2
  | none => s

def sessionRead (s : SummaryWorld) (job : SessionJob) : SummaryWorld :=
  let r := s.submit (.memory (.session job))
  { r.1 with sessions := { s.sessions with stage := if r.2 then .reading job else .idle } }

def notify (s : SummaryWorld) : SummaryWorld :=
  match s.sessions.stage with
  | .notifying id (x :: rest) =>
    let s := { s with sessions := { s.sessions with stage := .notifying id rest } }
    match x with
    | .summarizer => { s with summarizer := { s.summarizer with session := id } }
    | _ => s
  | .notifying _ [] => { s with sessions := { s.sessions with stage := .idle } }
  | _ => s

def step (turnThreshold : Nat) (s : SummaryWorld) : SummaryAction → SummaryWorld
  | .llmFinished e => { s with summarizer := s.summarizer.onLlmFinished turnThreshold e }
  | .trigger => { s with summarizer := s.summarizer.triggerNow }
  | .work => s.work
  | .llmReturns errored text => s.llmReturns errored text
  | .memory ok okTurns bodyOk now => s.memory ok okTurns bodyOk now
  | .command now c =>
    match s.sessions.stage with
    | .idle => match s.sessions.firstRead now c with
      | some job => s.sessionRead job
      | none => s
    | _ => s
  | .openSession now =>
    match s.sessions.stage with
    | .opening => s.sessionRead (.insertSession now)
    | _ => s
  | .notify => s.notify
  | .post job => if job.isSession then s else (s.submit (.memory job)).1

/-- The turns behind every summary are turns of the present tables: none existed before the last wipe. -/
def Final (s : SummaryWorld) : Prop :=
  ∀ row ∈ s.tables.summaries, ∀ src ∈ row.sources, src.1 = s.tables.wipes

instance (s : SummaryWorld) : Decidable s.Final := inferInstanceAs (Decidable (∀ row ∈ _, ∀ src ∈ _, _ = _))

/-- A summary that the memory thread inserts derives from no turn that was read before the last wipe. -/
def Fresh (s : SummaryWorld) : SummaryAction → Prop
  | .memory ok _ _ _ =>
    match s.queue.q with
    | .insertSummary draft :: _ => ok = true → s.tables.repo.hasSession draft.session = true →
        ∀ src ∈ draft.sources, src.1 = s.tables.wipes
    | _ => True
  | _ => True

instance (s : SummaryWorld) (a : SummaryAction) : Decidable (s.Fresh a) := by
  unfold Fresh
  split
  · split <;> infer_instance
  · infer_instance

variable {s : SummaryWorld}

lemma onResult_tables (s : SummaryWorld) (bodyOk : Bool) (job : TablesJob) (result : TablesResult) :
    (s.onResult bodyOk job result).tables = s.tables := by
  unfold onResult
  split <;> rfl

lemma submit_tables (s : SummaryWorld) (job : TablesJob) : (s.submit job).1.tables = s.tables := by
  unfold submit
  split <;> rfl

lemma step_tables {turnThreshold : Nat} {a : SummaryAction}
    (ha : ∀ ok okTurns bodyOk now, a ≠ .memory ok okTurns bodyOk now) :
    (s.step turnThreshold a).tables = s.tables := by
  cases a with
  | llmFinished e => rfl
  | trigger => rfl
  | work =>
    simp only [step, work]
    split
    · split <;> rfl
    · split
      · rfl
      · exact submit_tables s _
    · rfl
  | llmReturns errored text =>
    simp only [step, llmReturns]
    split
    · exact submit_tables s _
    · rfl
  | memory ok okTurns bodyOk now => exact absurd rfl (ha ok okTurns bodyOk now)
  | command now c =>
    simp only [step]
    split
    · split
      · exact submit_tables s _
      · rfl
    · rfl
  | openSession now =>
    simp only [step]
    split
    · exact submit_tables s _
    · rfl
  | notify =>
    simp only [step, notify]
    split
    · split <;> rfl
    · rfl
    · rfl
  | post job =>
    simp only [step]
    split
    · rfl
    · exact submit_tables s _

/-- The jobs of the others keep summaries, drop some of them, or drop the tables. -/
lemma memory_run_summaries (ok okTurns : Bool) (now : Int) (t : MemoryTables) (job : MemoryJob) :
    (∀ row ∈ ((TablesJob.memory job).run ok okTurns now t).1.summaries, row ∈ t.summaries) ∧
        ((TablesJob.memory job).run ok okTurns now t).1.wipes = t.wipes ∨
      ((TablesJob.memory job).run ok okTurns now t).1.summaries = [] := by
  cases job with
  | session job =>
    simp only [TablesJob.run]
    by_cases hok : ok = true
    · rw [if_pos hok]
      cases job with
      | deleteSession id => exact .inl ⟨fun row hrow => (List.mem_filter.mp hrow).1, rfl⟩
      | wipeAll => exact .inr rfl
      | _ => exact .inl ⟨fun row hrow => hrow, rfl⟩
    · rw [if_neg hok]
      exact .inl ⟨fun row hrow => hrow, rfl⟩
  | _ => exact .inl ⟨fun row hrow => hrow, rfl⟩

lemma insertSummary_run (ok okTurns : Bool) (now : Int) (t : MemoryTables) (draft : SummaryDraft) :
    ((TablesJob.insertSummary draft).run ok okTurns now t).1 = t ∧
        ¬(ok = true ∧ t.repo.hasSession draft.session = true) ∨
      (ok = true ∧ t.repo.hasSession draft.session = true) ∧
        ((TablesJob.insertSummary draft).run ok okTurns now t).1.wipes = t.wipes ∧
        ∃ row : SummaryRow, row.sources = draft.sources ∧
          ((TablesJob.insertSummary draft).run ok okTurns now t).1.summaries = t.summaries ++ [row] := by
  simp only [TablesJob.run, MemoryTables.insertSummary]
  by_cases hok : ok = true
  · by_cases hsession : t.repo.hasSession draft.session = true
    · rw [if_pos hok, if_pos hsession]
      exact .inr ⟨⟨hok, hsession⟩, rfl, _, rfl, rfl⟩
    · rw [if_pos hok, if_neg hsession]
      exact .inl ⟨rfl, fun h => hsession h.2⟩
  · rw [if_neg hok]
    exact .inl ⟨rfl, fun h => hok h.1⟩

/-- A job keeps the summaries final exactly if it is fresh. -/
lemma Final.memory_iff (h : s.Final) (turnThreshold : Nat) (ok okTurns bodyOk : Bool) (now : Int) :
    (s.step turnThreshold (.memory ok okTurns bodyOk now)).Final ↔ s.Fresh (.memory ok okTurns bodyOk now) := by
  simp only [step, memory, Fresh, BoundedQueue.tryPop]
  cases hq : s.queue.q with
  | nil => simpa using h
  | cons job rest =>
    simp only [Final, onResult_tables]
    cases job with
    | memory job =>
      simp only [iff_true]
      rcases memory_run_summaries ok okTurns now s.tables job with ⟨hsubset, hwipes⟩ | hnone
      · intro row hrow src hsrc
        rw [hwipes]
        exact h row (hsubset row hrow) src hsrc
      · rw [hnone]
        intro row hrow
        cases hrow
    | summarySnapshot session =>
      simp only [iff_true]
      exact h
    | insertSummary draft =>
      dsimp only
      rcases insertSummary_run ok okTurns now s.tables draft with
        ⟨hsame, hskipped⟩ | ⟨hruns, hwipes, row, hsources, hrows⟩
      · rw [hsame]
        constructor
        · exact fun _ hok hsession => absurd ⟨hok, hsession⟩ hskipped
        · exact fun _ => h
      · rw [hwipes, hrows]
        constructor
        · intro hfinal _ _ src hsrc
          exact hfinal row (by simp) src (hsources ▸ hsrc)
        · intro hfresh row' hrow' src hsrc
          rcases List.mem_append.mp hrow' with hold | hnew
          · exact h row' hold src hsrc
          · rw [List.mem_singleton.mp hnew, hsources] at hsrc
            exact hfresh hruns.1 hruns.2 src hsrc

lemma Final.step_iff (h : s.Final) (turnThreshold : Nat) (a : SummaryAction) :
    (s.step turnThreshold a).Final ↔ s.Fresh a := by
  by_cases hmemory : ∃ ok okTurns bodyOk now, a = .memory ok okTurns bodyOk now
  · obtain ⟨ok, okTurns, bodyOk, now, rfl⟩ := hmemory
    exact h.memory_iff turnThreshold ok okTurns bodyOk now
  · have hne : ∀ ok okTurns bodyOk now, a ≠ .memory ok okTurns bodyOk now :=
      fun ok okTurns bodyOk now heq => hmemory ⟨ok, okTurns, bodyOk, now, heq⟩
    have hfresh : s.Fresh a := by
      cases a with
      | memory ok okTurns bodyOk now => exact absurd rfl (hne ok okTurns bodyOk now)
      | _ => trivial
    have hfinal : (s.step turnThreshold a).Final := by
      unfold Final
      rw [step_tables hne]
      exact h
    exact ⟨fun _ => hfresh, fun _ => hfinal⟩

/-- The tables at the start, with nothing going on. -/
def started (capacity : Nat) (tables : MemoryTables) : SummaryWorld :=
  { tables := tables, queue := { capacity := capacity, policy := .dropNewest } }

/-- A wipe is final all along a run exactly if no summary is inserted that derives from turns read before the last
wipe. -/
theorem wipe_final_iff (turnThreshold capacity : Nat) (tables : MemoryTables) (hfinal : (started capacity tables).Final)
    (as : List SummaryAction) :
    (∀ before, before <+: as → (Runs.exec (step turnThreshold) (started capacity tables) before).Final) ↔
      Runs.Along (step turnThreshold) Fresh (started capacity tables) as := by
  apply Runs.prefixes_iff_along (I := Final) (Q := Final) (fun _ h => h)
  · exact fun s a h hfresh => (h.step_iff turnThreshold a).mpr hfresh
  · exact fun s a h hfinal => (h.step_iff turnThreshold a).mp hfinal
  · exact hfinal

/-- A session with one turn, whose text the summarizer has read. -/
def summarizing : List SummaryAction :=
  [.command 0 .openInitial, .memory true true true 0, .notify, .notify, .notify, .notify,
    .post (.insertTurn none
      { session := 1, role := .user, text := ascii "secret", lang := none, startedAt := 1, endedAt := 1
        status := .committed, interruptedAt := none }),
    .memory true true true 1, .trigger, .work, .work, .memory true true true 2]

/-- A wipe from its first statement to its return. -/
def wiping : List SummaryAction :=
  [.command 3 .wipeAll, .memory true true true 3, .openSession 4, .memory true true true 4, .notify, .notify, .notify,
    .notify]

/-- The model answers before the wipe. -/
theorem wipe_after_summary_final :
    (started 8 {}).Final ∧
      ∀ before, before <+: summarizing ++ [.llmReturns false (ascii "a secret"), .memory true true true 3] ++ wiping →
        (Runs.exec (step 2) (started 8 {}) before).Final := by
  have hstart : (started 8 {}).Final := fun row hrow => by cases hrow
  refine ⟨hstart, (wipe_final_iff 2 8 {} hstart _).mpr ?_⟩
  decide

/-- The model answers after the wipe: the new session has the old id, and the summary of the wiped turn is stored. -/
theorem summary_survives_wipe :
    let s := Runs.exec (step 2) (started 8 {}) (summarizing ++ wiping)
    let s' := Runs.exec (step 2) s [.llmReturns false (ascii "a secret"), .memory true true true 5]
    s.sessions = { current := 1, stage := .idle } ∧ s.tables.wipes = 1 ∧ s.tables.summaries = [] ∧
      s'.tables.wipes = 1 ∧
      s'.tables.summaries.map (fun row => (row.session, row.summary, row.sources.map Prod.fst)) =
        [(1, ascii "a secret", [0])] ∧
      ¬s'.Final := by
  refine ⟨?_, ?_, ?_, ?_, ?_, ?_⟩ <;> decide

end SummaryWorld

end Acva
