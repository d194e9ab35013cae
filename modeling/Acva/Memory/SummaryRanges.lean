import Acva.Lib.Tiling
import Acva.Memory.Summarizer
import Mathlib.Data.List.Forall2
import Mathlib.Data.List.Induction

/-!
# The ranges of the summaries

In a run of one session without errors of the database each summary begins where the one before it ends, also while
turns arrive between the read for a summary and its insertion. `RangeWorld` notes beside the run which turns of the
session were there when the turns for a summary were read.
-/

namespace Acva

open Tiling

/-- `atRead` are the turns at the last read, `reads` those at the read for each summary of the table. -/
structure RangeWorld where
  world : SummaryWorld
  atRead : List StoredTurn := []
  reads : List (List StoredTurn) := []
  deriving DecidableEq, Repr

/-- A turn that a summary has to cover. -/
def StoredTurn.Finished (t : StoredTurn) : Prop := t.row.status = .committed ∨ t.row.status = .interrupted

instance (t : StoredTurn) : Decidable t.Finished := inferInstanceAs (Decidable (_ ∨ _))

def TablesJob.ofSummarizer : TablesJob → Bool
  | .memory _ => false
  | _ => true

def TablesJob.ofSession : TablesJob → Bool
  | .memory job => job.isSession
  | _ => false

def SummaryRow.range (row : SummaryRow) : Nat × Nat := (row.rangeStart, row.rangeEnd)

namespace Repository

variable {r r' : Repository}

/-- Ids begin at 1 and increase. -/
structure Ordered (r : Repository) : Prop where
  increasing : r.turns.Pairwise fun t u => t.id < u.id
  bounds : ∀ t ∈ r.turns, 1 ≤ t.id ∧ t.id ≤ r.turnSeq

lemma Ordered.insertTurn (h : r.Ordered) {source : Option Nat} {row : TurnRow}
    (hinsert : r.insertTurn source row = some r') : r'.Ordered := by
  unfold Repository.insertTurn at hinsert
  split at hinsert
  · injection hinsert with hinsert
    subst hinsert
    constructor
    · refine List.pairwise_append.mpr ⟨h.increasing, List.pairwise_singleton _ _, ?_⟩
      intro t ht u hu
      obtain rfl := List.mem_singleton.mp hu
      have := (h.bounds t ht).2
      simp only
      omega
    · intro t ht
      rcases List.mem_append.mp ht with ht | ht
      · have := h.bounds t ht
        simp only
        omega
      · obtain rfl := List.mem_singleton.mp ht
        simp
  · simp at hinsert

lemma hasSession_insertTurn {source : Option Nat} {row : TurnRow} (hinsert : r.insertTurn source row = some r')
    (sid : SessionId) : r'.hasSession sid = r.hasSession sid := by
  unfold Repository.insertTurn at hinsert
  split at hinsert
  · injection hinsert with hinsert
    subst hinsert
    rfl
  · simp at hinsert

lemma recentTurns_eq_drop (r : Repository) (sid : SessionId) (limit : Int) :
    ∃ k, r.recentTurns sid limit = (r.turns.filter fun t => t.row.session = sid).drop k := by
  simp only [recentTurns]
  split
  · exact ⟨0, by rw [List.reverse_reverse, List.drop_zero]⟩
  · exact ⟨_, by rw [List.reverse_take, List.reverse_reverse]⟩

lemma Ordered.recentTurns_newest (h : r.Ordered) {sid : SessionId} {limit : Int} {t : StoredTurn} (ht : t ∈ r.turns)
    (hsid : t.row.session = sid) (hold : t ∉ r.recentTurns sid limit) :
    ∀ u ∈ r.recentTurns sid limit, t.id < u.id := by
  obtain ⟨k, hk⟩ := recentTurns_eq_drop r sid limit
  rw [hk] at hold ⊢
  have hmem : t ∈ r.turns.filter fun t => t.row.session = sid := List.mem_filter.mpr ⟨ht, by simpa using hsid⟩
  have hpairwise := h.increasing.filter fun t => t.row.session = sid
  rw [← List.take_append_drop k (r.turns.filter fun t => t.row.session = sid)] at hmem hpairwise
  have hbefore := (List.mem_append.mp hmem).resolve_right hold
  exact fun u hu => (List.pairwise_append.mp hpairwise).2.2 t hbefore u hu

end Repository

namespace MemoryTables

variable {t : MemoryTables} {sid : SessionId} {n : Nat}

lemma latestSummary_eq (h : Tiles 1 ((t.summaries.filter fun row => row.session = sid).map SummaryRow.range) n) :
    t.latestSummary sid = (t.summaries.filter fun row => row.session = sid).getLast? := by
  unfold latestSummary
  generalize t.summaries.filter (fun row => row.session = sid) = rows at h ⊢
  induction rows using List.reverseRecOn generalizing n with
  | nil => rfl
  | append_singleton rows row ih =>
    rw [List.map_append, List.map_singleton, tiles_concat] at h
    rw [List.foldl_append, List.foldl_cons, List.foldl_nil, ih h.1, List.getLast?_concat]
    cases hlast : rows.getLast? with
    | none => rfl
    | some b =>
      have hb := h.1.bounds (List.mem_map_of_mem (List.mem_of_getLast? hlast))
      have hle : b.rangeEnd ≤ row.rangeEnd := le_trans (le_of_lt hb.2.2) h.2.1
      exact if_pos hle

lemma summarySnapshot_start (h : Tiles 1 ((t.summaries.filter fun row => row.session = sid).map SummaryRow.range) n) :
    (t.summarySnapshot true true sid).rangeStart = n := by
  simp only [summarySnapshot, if_true, latestSummary_eq h]
  generalize t.summaries.filter (fun row => row.session = sid) = rows at h ⊢
  induction rows using List.reverseRecOn with
  | nil => exact Eq.symm h
  | append_singleton rows row _ =>
    rw [List.map_append, List.map_singleton, tiles_concat] at h
    rw [List.getLast?_concat]
    exact h.2.2.symm

lemma foldl_rangeEnd (start m : Nat) (turns : List StoredTurn) :
    let last := turns.foldl (fun last t =>
      if start ≤ t.id ∧ (t.row.status = .committed ∨ t.row.status = .interrupted) ∧ last < t.id then t.id else last) m
    m ≤ last ∧ (∀ t ∈ turns, start ≤ t.id → t.Finished → t.id ≤ last) ∧ (last = m ∨ ∃ t ∈ turns, last = t.id) := by
  induction turns generalizing m with
  | nil => simp
  | cons t turns ih =>
    simp only [List.foldl_cons]
    split
    · rename_i ht
      obtain ⟨hle, hall, hfrom⟩ := ih t.id
      refine ⟨by omega, ?_, ?_⟩
      · intro u hu hstart hfin
        rcases List.mem_cons.mp hu with rfl | hu
        · exact hle
        · exact hall u hu hstart hfin
      · rcases hfrom with hfrom | ⟨u, hu, hfrom⟩
        · exact .inr ⟨t, List.mem_cons_self, hfrom⟩
        · exact .inr ⟨u, List.mem_cons_of_mem _ hu, hfrom⟩
    · rename_i ht
      obtain ⟨hle, hall, hfrom⟩ := ih m
      refine ⟨hle, ?_, ?_⟩
      · intro u hu hstart hfin
        rcases List.mem_cons.mp hu with rfl | hu
        · have : ¬ m < u.id := fun hlt => ht ⟨hstart, hfin, hlt⟩
          omega
        · exact hall u hu hstart hfin
      · rcases hfrom with hfrom | ⟨u, hu, hfrom⟩
        · exact .inl hfrom
        · exact .inr ⟨u, List.mem_cons_of_mem _ hu, hfrom⟩

/-- A range that is not empty ends at or after every finished turn of the session, also those not among the newest. -/
lemma summarySnapshot_covers (hordered : t.repo.Ordered)
    (hne : (t.summarySnapshot true true sid).rangeStart ≤ (t.summarySnapshot true true sid).rangeEnd)
    (hstart : 1 ≤ (t.summarySnapshot true true sid).rangeStart) {u : StoredTurn} (hu : u ∈ t.repo.turns)
    (hsid : u.row.session = sid) (hfin : u.Finished) : u.id ≤ (t.summarySnapshot true true sid).rangeEnd := by
  obtain ⟨-, hall, hfrom⟩ := foldl_rangeEnd (t.summarySnapshot true true sid).rangeStart 0
    (t.repo.recentTurns sid allTurns)
  have hend : (t.summarySnapshot true true sid).rangeEnd = (t.repo.recentTurns sid allTurns).foldl (fun last u =>
      if (t.summarySnapshot true true sid).rangeStart ≤ u.id ∧
        (u.row.status = .committed ∨ u.row.status = .interrupted) ∧ last < u.id then u.id else last) 0 := rfl
  rw [← hend] at hall hfrom
  by_cases hrecent : u ∈ t.repo.recentTurns sid allTurns
  · by_cases hbefore : (t.summarySnapshot true true sid).rangeStart ≤ u.id
    · exact hall u hrecent hbefore hfin
    · omega
  · rcases hfrom with hnone | ⟨v, hv, hlast⟩
    · omega
    · have := hordered.recentTurns_newest hu hsid hrecent v hv
      omega

end MemoryTables

/-- What happens in one session: no call of the session manager, and no statement fails. -/
def SummaryAction.InSession : SummaryAction → Prop
  | .memory ok okTurns _ _ => ok = true ∧ okTurns = true
  | .command _ _ | .openSession _ | .notify => False
  | _ => True

namespace RangeWorld

def turnsOf (tables : MemoryTables) (sid : SessionId) : List StoredTurn :=
  tables.repo.turns.filter fun t => t.row.session = sid

def rows (r : RangeWorld) (sid : SessionId) : List SummaryRow :=
  r.world.tables.summaries.filter fun row => row.session = sid

/-- The memory thread is about to run the first job of the queue. -/
def step (turnThreshold : Nat) (r : RangeWorld) (a : SummaryAction) : RangeWorld :=
  let world := r.world.step turnThreshold a
  match a, r.world.queue.q with
  | .memory _ _ _ _, .summarySnapshot sid :: _ => { r with world := world, atRead := turnsOf r.world.tables sid }
  | .memory _ _ _ _, .insertSummary _ :: _ => { r with world := world, reads := r.reads ++ [r.atRead] }
  | _, _ => { r with world := world }

/-- The range for the next summary, and the turns that it was read for. -/
structure Drafted (n : Nat) (turns : List StoredTurn) (rangeStart rangeEnd : Nat) : Prop where
  start : rangeStart = n
  nonempty : rangeStart ≤ rangeEnd
  covers : ∀ t ∈ turns, t.Finished → 1 ≤ t.id ∧ t.id ≤ rangeEnd

/-- The worker waits for one job at most, and what it holds continues the summaries that there are. -/
def InFlight (sid : SessionId) (n : Nat) (r : RangeWorld) : Prop :=
  match r.world.summarizer.stage with
  | .waiting | .triggered | .threw => r.world.queue.q.filter TablesJob.ofSummarizer = []
  | .reading s => s = sid ∧ r.world.queue.q.filter TablesJob.ofSummarizer = [.summarySnapshot sid]
  | .summarizing s _ snap => s = sid ∧ r.world.queue.q.filter TablesJob.ofSummarizer = [] ∧
      Drafted n r.atRead snap.rangeStart snap.rangeEnd
  | .inserting draft => draft.session = sid ∧ r.world.queue.q.filter TablesJob.ofSummarizer = [.insertSummary draft] ∧
      Drafted n r.atRead draft.rangeStart draft.rangeEnd

/-- The summaries of the session tile its turns, and each reaches as far as the turns that it was read for. -/
structure Tiled (sid : SessionId) (r : RangeWorld) : Prop where
  policy : r.world.queue.policy = .dropNewest
  session : r.world.summarizer.session = sid
  present : r.world.tables.repo.hasSession sid = true
  ordered : r.world.tables.repo.Ordered
  quiet : ∀ job ∈ r.world.queue.q, job.ofSession = false
  tiles : ∃ n, Tiles 1 ((r.rows sid).map SummaryRow.range) n ∧ r.InFlight sid n
  reads : List.Forall₂ (fun turns row => ∀ t ∈ turns, t.Finished → 1 ≤ t.id ∧ t.id ≤ row.rangeEnd) r.reads (r.rows sid)

variable {r : RangeWorld} {sid : SessionId} {turnThreshold : Nat}

lemma Tiled.of_tables (h : r.Tiled sid) {world : SummaryWorld} (htables : world.tables = r.world.tables)
    (hsession : world.summarizer.session = r.world.summarizer.session) (hpolicy : world.queue.policy = .dropNewest)
    (hquiet : ∀ job ∈ world.queue.q, job.ofSession = false)
    (hflight : ∀ n, r.InFlight sid n → InFlight sid n { r with world := world }) :
    Tiled sid { r with world := world } := by
  obtain ⟨n, htiles, hn⟩ := h.tiles
  have hrows : rows { r with world := world } sid = r.rows sid := by simp only [rows, htables]
  refine ⟨hpolicy, hsession.trans h.session, ?_, ?_, hquiet, ⟨n, ?_, hflight n hn⟩, ?_⟩
  · simpa only [htables] using h.present
  · simpa only [htables] using h.ordered
  · rw [hrows]
    exact htiles
  · rw [hrows]
    exact h.reads

lemma submit_cases {s : SummaryWorld} (hpolicy : s.queue.policy = .dropNewest) (job : TablesJob) :
    ∃ queue : BoundedQueue TablesJob, queue.policy = .dropNewest ∧
      (s.submit job = ({ s with queue := queue }, false) ∧ queue.q = s.queue.q ∨
        s.submit job = ({ s with queue := queue }, true) ∧ queue.q = s.queue.q ++ [job]) := by
  by_cases hclosed : s.queue.closed = true
  · exact ⟨s.queue, hpolicy, .inl ⟨by simp [SummaryWorld.submit, BoundedQueue.push, hclosed], rfl⟩⟩
  · by_cases hfull : s.queue.capacity ≤ s.queue.q.length
    · exact ⟨{ s.queue with drops := s.queue.drops + 1 }, hpolicy,
        .inl ⟨by simp [SummaryWorld.submit, BoundedQueue.push, hclosed, hfull, hpolicy], rfl⟩⟩
    · exact ⟨s.queue.accept job, hpolicy,
        .inr ⟨by simp [SummaryWorld.submit, BoundedQueue.push, hclosed, hfull], rfl⟩⟩

lemma Tiled.await (h : r.Tiled sid) {job : TablesJob} {stage : SummarizerStage} (hjob : job.ofSummarizer = true)
    (hnone : r.world.queue.q.filter TablesJob.ofSummarizer = [])
    (hflight : ∀ n queue, r.InFlight sid n → queue.q.filter TablesJob.ofSummarizer = [job] →
      InFlight sid n { r with world := { r.world with
        queue := queue, summarizer := { r.world.summarizer with stage := stage } } }) :
    Tiled sid { r with world := r.world.await job stage } := by
  have hquiet : job.ofSession = false := by
    cases job <;> simp [TablesJob.ofSummarizer, TablesJob.ofSession] at hjob ⊢
  obtain ⟨queue, hpolicy, ⟨hsubmit, hq⟩ | ⟨hsubmit, hq⟩⟩ := submit_cases h.policy job
  · have hawait : r.world.await job stage =
        { r.world with queue := queue, summarizer := { r.world.summarizer with stage := .threw } } := by
      simp only [SummaryWorld.await, hsubmit]
      rfl
    rw [hawait]
    exact h.of_tables rfl rfl hpolicy (by rw [hq]; exact h.quiet) fun n _ => by simpa only [InFlight, hq] using hnone
  · have hawait : r.world.await job stage =
        { r.world with queue := queue, summarizer := { r.world.summarizer with stage := stage } } := by
      simp only [SummaryWorld.await, hsubmit]
      rfl
    rw [hawait]
    refine h.of_tables rfl rfl hpolicy (fun j hj => ?_) fun n hn => hflight n queue hn ?_
    · rcases List.mem_append.mp (hq ▸ hj) with hj | hj
      · exact h.quiet j hj
      · exact List.mem_singleton.mp hj ▸ hquiet
    · rw [hq, List.filter_append, hnone, List.filter_cons, if_pos hjob]
      rfl

lemma Tiled.onLlmFinished (h : r.Tiled sid) (e : LlmFinished) :
    Tiled sid { r with world := { r.world with
      summarizer := r.world.summarizer.onLlmFinished turnThreshold e } } := by
  have hkeep : (r.world.summarizer.onLlmFinished turnThreshold e).stage = r.world.summarizer.stage ∧
      (r.world.summarizer.onLlmFinished turnThreshold e).session = r.world.summarizer.session := by
    simp only [Summarizer.onLlmFinished, Summarizer.triggerNow]
    split
    · exact ⟨rfl, rfl⟩
    · split <;> exact ⟨rfl, rfl⟩
  refine h.of_tables rfl hkeep.2 h.policy h.quiet fun n hn => ?_
  simpa only [InFlight, hkeep.1] using hn

lemma Tiled.work (h : r.Tiled sid) : Tiled sid { r with world := r.world.work } := by
  obtain ⟨_, -, hflight⟩ := h.tiles
  cases hstage : r.world.summarizer.stage with
  | waiting =>
    simp only [InFlight, hstage] at hflight
    simp only [SummaryWorld.work, hstage]
    split
    · exact h.of_tables rfl rfl h.policy h.quiet fun _ _ => hflight
    · exact h
  | triggered =>
    simp only [InFlight, hstage] at hflight
    simp only [SummaryWorld.work, hstage]
    split
    · exact h.of_tables rfl rfl h.policy h.quiet fun _ _ => hflight
    · rw [h.session]
      exact h.await rfl hflight fun n queue _ hq => ⟨rfl, hq⟩
  | reading | summarizing | inserting | threw =>
    simp only [SummaryWorld.work, hstage]
    exact h

lemma Tiled.llmReturns (h : r.Tiled sid) (errored : Bool) (text : Text) :
    Tiled sid { r with world := r.world.llmReturns errored text } := by
  cases hstage : r.world.summarizer.stage with
  | summarizing s wipes snap =>
    obtain ⟨_, -, hflight⟩ := h.tiles
    simp only [InFlight, hstage] at hflight
    simp only [SummaryWorld.llmReturns, hstage]
    refine h.await rfl hflight.2.1 fun n queue hn hq => ?_
    simp only [InFlight, hstage] at hn
    exact ⟨hn.1, hq, hn.2.2⟩
  | waiting | triggered | reading | inserting | threw =>
    simp only [SummaryWorld.llmReturns, hstage]
    exact h

lemma Tiled.post (h : r.Tiled sid) {job : MemoryJob} (hjob : job.isSession = false) :
    Tiled sid { r with world := (r.world.submit (.memory job)).1 } := by
  obtain ⟨queue, hpolicy, ⟨hsubmit, hq⟩ | ⟨hsubmit, hq⟩⟩ := submit_cases h.policy (.memory job)
  · rw [hsubmit]
    refine h.of_tables rfl rfl hpolicy (by rw [hq]; exact h.quiet) fun n hn => ?_
    simpa only [InFlight, hq] using hn
  · rw [hsubmit]
    refine h.of_tables rfl rfl hpolicy (fun j hj => ?_) fun n hn => ?_
    · rcases List.mem_append.mp (hq ▸ hj) with hj | hj
      · exact h.quiet j hj
      · exact List.mem_singleton.mp hj ▸ hjob
    · have hfilter : queue.q.filter TablesJob.ofSummarizer = r.world.queue.q.filter TablesJob.ofSummarizer := by
        rw [hq, List.filter_append]
        exact List.append_nil _
      simpa only [InFlight, hfilter] using hn

lemma run_other (sid : SessionId) (job : MemoryJob) (hjob : job.isSession = false) {repo : Repository}
    (hordered : repo.Ordered) :
    (job.run true repo).1.Ordered ∧ (job.run true repo).1.hasSession sid = repo.hasSession sid := by
  cases job with
  | insertTurn source row =>
    simp only [MemoryJob.run, if_true]
    cases hinsert : repo.insertTurn source row with
    | none => exact ⟨hordered, rfl⟩
    | some repo' => exact ⟨hordered.insertTurn hinsert, Repository.hasSession_insertTurn hinsert sid⟩
  | snapshot _ _ | other => exact ⟨hordered, rfl⟩
  | session job => simp [MemoryJob.isSession] at hjob

/-- The queue without its first job. -/
def popped (s : SummaryWorld) (rest : List TablesJob) : BoundedQueue TablesJob :=
  { s.queue with q := rest, pops := s.queue.pops + 1 }

lemma Tiled.memoryOther (h : r.Tiled sid) {job : MemoryJob} {rest : List TablesJob}
    (hq : r.world.queue.q = .memory job :: rest) (bodyOk : Bool) (now : Int) :
    Tiled sid { r with world := r.world.memory true true bodyOk now } := by
  have hjob : job.isSession = false := h.quiet (.memory job) (hq ▸ List.mem_cons_self)
  have hworld : r.world.memory true true bodyOk now = { r.world with
      tables := { r.world.tables with repo := (job.run true r.world.tables.repo).1 }
      queue := popped r.world rest } := by
    simp only [SummaryWorld.memory, BoundedQueue.tryPop, hq]
    cases job with
    | session job => simp [MemoryJob.isSession] at hjob
    | insertTurn _ _ | snapshot _ _ | other => rfl
  obtain ⟨hordered, hsession⟩ := run_other sid job hjob h.ordered
  obtain ⟨n, htiles, hn⟩ := h.tiles
  rw [hworld]
  refine ⟨h.policy, h.session, hsession.trans h.present, hordered, ?_, ⟨n, htiles, ?_⟩, h.reads⟩
  · exact fun j hj => h.quiet j (hq ▸ List.mem_cons_of_mem _ hj)
  · simp only [InFlight, hq, List.filter_cons] at hn
    exact hn

lemma memory_insertSummary {s : SummaryWorld} {draft : SummaryDraft} {rest : List TablesJob}
    (hq : s.queue.q = .insertSummary draft :: rest) (hpresent : s.tables.repo.hasSession draft.session = true)
    (bodyOk : Bool) (now : Int) :
    ∃ row : SummaryRow, row.session = draft.session ∧ row.range = (draft.rangeStart, draft.rangeEnd) ∧
      s.memory true true bodyOk now = { s with
        tables := { s.tables with summaries := s.tables.summaries ++ [row], summarySeq := s.tables.summarySeq + 1 }
        queue := popped s rest
        summarizer := s.summarizer.onInserted true } := by
  simp only [SummaryWorld.memory, BoundedQueue.tryPop, hq, TablesJob.run, MemoryTables.insertSummary, hpresent, if_true]
  exact ⟨_, rfl, rfl, rfl⟩

lemma Tiled.memorySnapshot (h : r.Tiled sid) {s : SessionId} {rest : List TablesJob}
    (hq : r.world.queue.q = .summarySnapshot s :: rest) (bodyOk : Bool) (now : Int) :
    Tiled sid { r with world := r.world.memory true true bodyOk now, atRead := turnsOf r.world.tables s } := by
  obtain ⟨n, htiles, hn⟩ := h.tiles
  have hmine : r.world.queue.q.filter TablesJob.ofSummarizer =
      .summarySnapshot s :: rest.filter TablesJob.ofSummarizer := by
    rw [hq, List.filter_cons]
    rfl
  cases hstage : r.world.summarizer.stage with
  | reading s' =>
    simp only [InFlight, hstage, hmine, List.cons.injEq, TablesJob.summarySnapshot.injEq] at hn
    obtain ⟨rfl, rfl, hrest⟩ := hn
    have hworld : r.world.memory true true bodyOk now = { r.world with
        queue := popped r.world rest
        summarizer := r.world.summarizer.onSnapshot bodyOk r.world.tables.wipes
          (r.world.tables.summarySnapshot true true s) } := by
      simp only [SummaryWorld.memory, BoundedQueue.tryPop, hq]
      rfl
    have hquiet : ∀ j ∈ rest, j.ofSession = false := fun j hj => h.quiet j (hq ▸ List.mem_cons_of_mem _ hj)
    have hstart := MemoryTables.summarySnapshot_start htiles
    rw [hworld]
    simp only [Summarizer.onSnapshot, hstage]
    split
    · exact ⟨h.policy, h.session, h.present, h.ordered, hquiet, ⟨n, htiles, hrest⟩, h.reads⟩
    · rename_i hsome
      refine ⟨h.policy, h.session, h.present, h.ordered, hquiet, ⟨n, htiles, rfl, hrest, hstart, ?_, ?_⟩, h.reads⟩
      · exact not_lt.mp fun hlt => hsome (.inl hlt)
      · intro t ht hfin
        obtain ⟨ht, hsid⟩ := List.mem_filter.mp ht
        refine ⟨(h.ordered.bounds t ht).1, ?_⟩
        exact MemoryTables.summarySnapshot_covers h.ordered (not_lt.mp fun hlt => hsome (.inl hlt))
          (hstart ▸ htiles.start_le) ht (of_decide_eq_true hsid) hfin
  | waiting | triggered | summarizing | inserting | threw =>
    simp [InFlight, hstage, hmine] at hn

lemma Tiled.memoryInsert (h : r.Tiled sid) {draft : SummaryDraft} {rest : List TablesJob}
    (hq : r.world.queue.q = .insertSummary draft :: rest) (bodyOk : Bool) (now : Int) :
    Tiled sid { r with world := r.world.memory true true bodyOk now, reads := r.reads ++ [r.atRead] } := by
  obtain ⟨n, htiles, hn⟩ := h.tiles
  have hmine : r.world.queue.q.filter TablesJob.ofSummarizer =
      .insertSummary draft :: rest.filter TablesJob.ofSummarizer := by
    rw [hq, List.filter_cons]
    rfl
  cases hstage : r.world.summarizer.stage with
  | inserting d =>
    simp only [InFlight, hstage, hmine, List.cons.injEq, TablesJob.insertSummary.injEq] at hn
    obtain ⟨hsid, ⟨rfl, hrest⟩, hdraft⟩ := hn
    obtain ⟨row, hrow, hrun⟩ := memory_insertSummary hq (hsid ▸ h.present) bodyOk now
    rw [hsid] at hrow
    have hrange := hrun.1
    have hrows : rows { r with world := r.world.memory true true bodyOk now, reads := r.reads ++ [r.atRead] } sid =
        r.rows sid ++ [row] := by
      simp only [rows, hrun.2, List.filter_append, List.filter_cons, hrow, decide_true, if_true, List.filter_nil]
    have hstage' : (r.world.memory true true bodyOk now).summarizer.stage = .waiting := by
      simp only [hrun.2, Summarizer.onInserted, hstage, if_true]
    refine ⟨?_, ?_, ?_, ?_, ?_, ⟨draft.rangeEnd + 1, ?_, ?_⟩, ?_⟩
    · simp only [hrun.2]
      exact h.policy
    · simp only [hrun.2, Summarizer.onInserted, hstage, if_true]
      exact h.session
    · simpa only [hrun.2] using h.present
    · simpa only [hrun.2] using h.ordered
    · simp only [hrun.2]
      exact fun j hj => h.quiet j (hq ▸ List.mem_cons_of_mem _ hj)
    · rw [hrows, List.map_append, List.map_singleton, tiles_concat, hrange]
      exact ⟨hdraft.start ▸ htiles, hdraft.nonempty, rfl⟩
    · simp only [InFlight, hstage']
      simp only [hrun.2]
      exact hrest
    · rw [hrows]
      have hend : row.rangeEnd = draft.rangeEnd := (Prod.mk.inj hrange).2
      refine List.rel_append h.reads (.cons (fun t ht hfin => ?_) .nil)
      rw [hend]
      exact hdraft.covers t ht hfin
  | waiting | triggered | summarizing | reading | threw =>
    simp [InFlight, hstage, hmine] at hn

lemma Tiled.step (h : r.Tiled sid) (turnThreshold : Nat) {a : SummaryAction} (ha : a.InSession) :
    (r.step turnThreshold a).Tiled sid := by
  cases a with
  | llmFinished e => exact h.onLlmFinished e
  | trigger => exact h.of_tables rfl rfl h.policy h.quiet fun _ hn => hn
  | work => exact h.work
  | llmReturns errored text => exact h.llmReturns errored text
  | memory ok okTurns bodyOk now =>
    obtain ⟨rfl, rfl⟩ := ha
    cases hq : r.world.queue.q with
    | nil =>
      have hworld : r.world.memory true true bodyOk now = r.world := by
        simp only [SummaryWorld.memory, BoundedQueue.tryPop, hq]
      simp only [RangeWorld.step, hq, SummaryWorld.step, hworld]
      exact h
    | cons job rest =>
      simp only [RangeWorld.step, hq]
      cases job with
      | memory job => exact h.memoryOther hq bodyOk now
      | summarySnapshot s => exact h.memorySnapshot hq bodyOk now
      | insertSummary draft => exact h.memoryInsert hq bodyOk now
  | command now c => exact absurd ha id
  | openSession now => exact absurd ha id
  | notify => exact absurd ha id
  | post job =>
    simp only [RangeWorld.step, SummaryWorld.step]
    cases hjob : job.isSession with
    | true => exact h
    | false => exact h.post hjob

/-- The session has just been opened: the other threads may have posted jobs, but none of the session manager. -/
structure Opened (sid : SessionId) (world : SummaryWorld) : Prop where
  policy : world.queue.policy = .dropNewest
  session : world.summarizer.session = sid
  idle : world.summarizer.stage = .waiting
  present : world.tables.repo.hasSession sid = true
  ordered : world.tables.repo.Ordered
  none : ∀ row ∈ world.tables.summaries, row.session ≠ sid
  quiet : ∀ job ∈ world.queue.q, job.ofSession = false ∧ job.ofSummarizer = false

lemma Opened.tiled {world : SummaryWorld} (h : Opened sid world) : Tiled sid { world := world } := by
  have hrows : rows { world := world } sid = [] :=
    List.filter_eq_nil_iff.mpr fun row hrow => by simpa using h.none row hrow
  refine ⟨h.policy, h.session, h.present, h.ordered, fun job hjob => (h.quiet job hjob).1, ⟨1, ?_, ?_⟩, ?_⟩
  · rw [hrows]
    rfl
  · simp only [InFlight, h.idle]
    exact List.filter_eq_nil_iff.mpr fun job hjob => by simp [(h.quiet job hjob).2]
  · rw [hrows]
    exact .nil

lemma world_exec (turnThreshold : Nat) (as : List SummaryAction) (r : RangeWorld) :
    (Runs.exec (step turnThreshold) r as).world = Runs.exec (SummaryWorld.step turnThreshold) r.world as := by
  induction as generalizing r with
  | nil => rfl
  | cons a as ih =>
    have hstep : (r.step turnThreshold a).world = r.world.step turnThreshold a := by
      simp only [step]
      split <;> rfl
    rw [Runs.exec_cons, Runs.exec_cons, ih, hstep]

/-- The ranges of a session's summaries follow one another from 1 on, and each finished turn that was there when a
summary was read is in one range up to this summary's, and in no other. -/
theorem summary_ranges_tile {world : SummaryWorld} (h : Opened sid world) (turnThreshold : Nat)
    {as : List SummaryAction} (has : ∀ a ∈ as, a.InSession) :
    let r := Runs.exec (step turnThreshold) { world := world } as
    (∃ n, Tiles 1 ((r.rows sid).map SummaryRow.range) n) ∧ r.reads.length = (r.rows sid).length ∧
      ∀ (k : Nat) (turns : List StoredTurn), r.reads[k]? = some turns → ∀ t ∈ turns, t.Finished →
        ∃! j, j ≤ k ∧ ∃ row, (r.rows sid)[j]? = some row ∧ row.rangeStart ≤ t.id ∧ t.id ≤ row.rangeEnd := by
  have htiled : (Runs.exec (step turnThreshold) { world := world } as).Tiled sid :=
    (Runs.Along.of_forall has _).invariant (Tiled sid) (fun r a hr ha => hr.step turnThreshold ha) h.tiled
  intro r
  obtain ⟨n, htiles, -⟩ := htiled.tiles
  refine ⟨⟨n, htiles⟩, htiled.reads.length_eq, fun k turns hk t ht hfin => ?_⟩
  obtain ⟨hlt, rfl⟩ := List.getElem?_eq_some_iff.mp hk
  have hlt' : k < (r.rows sid).length := htiled.reads.length_eq ▸ hlt
  obtain ⟨hle, hend⟩ := (List.forall₂_iff_get.mp htiled.reads).2 k hlt hlt' t ht hfin
  have hrow : ((r.rows sid).map SummaryRow.range)[k]? = some ((r.rows sid)[k]).range := by
    rw [List.getElem?_map, List.getElem?_eq_getElem hlt', Option.map_some]
  obtain ⟨j, ⟨hj, q, hq, hmem⟩, hunique⟩ := htiles.existsUnique_le hrow hle hend
  rw [List.getElem?_map, Option.map_eq_some_iff] at hq
  obtain ⟨row, hrow, rfl⟩ := hq
  refine ⟨j, ⟨hj, row, hrow, hmem⟩, ?_⟩
  rintro i ⟨hi, row', hrow', hmem'⟩
  exact hunique i ⟨hi, row'.range, by rw [List.getElem?_map, hrow', Option.map_some], hmem'⟩

/-- The first session of a new database. -/
def opened : SummaryWorld :=
  { tables := { repo := (({} : Repository).insertSession 0).1 }, summarizer := { session := 1 } }

def saying (role : TurnRole) (text : String) : SummaryAction :=
  .post (.insertTurn none
    { session := 1, role := role, text := ascii text, lang := none, startedAt := 1, endedAt := 1
      status := .committed, interruptedAt := none })

/-- The answer comes while the first summary is being written. -/
def talking : List SummaryAction :=
  [saying .user "hello", .memory true true true 1, .trigger, .work, .work, .memory true true true 2,
    saying .assistant "hi", .memory true true true 3, .llmReturns false (ascii "a greeting"), .memory true true true 4,
    .trigger, .work, .work, .memory true true true 5, .llmReturns true [], .memory true true true 6]

theorem talking_ranges_tile :
    let r := Runs.exec (step 2) { world := opened } talking
    (r.rows 1).map SummaryRow.range = [(1, 1), (2, 2)] ∧
      (∃ n, Tiles 1 ((r.rows 1).map SummaryRow.range) n) ∧ r.reads.length = (r.rows 1).length ∧
      ∀ (k : Nat) (turns : List StoredTurn), r.reads[k]? = some turns → ∀ t ∈ turns, t.Finished →
        ∃! j, j ≤ k ∧ ∃ row, (r.rows 1)[j]? = some row ∧ row.rangeStart ≤ t.id ∧ t.id ≤ row.rangeEnd := by
  have hopened : Opened 1 opened := by
    refine ⟨rfl, rfl, rfl, by decide, ⟨.nil, fun t ht => ?_⟩, fun row hrow => ?_, fun job hjob => ?_⟩
    · cases ht
    · cases hrow
    · cases hjob
  refine ⟨by decide, summary_ranges_tile hopened 2 fun a ha => ?_⟩
  simp only [talking, saying, List.mem_cons, List.not_mem_nil, or_false] at ha
  rcases ha with rfl | rfl | rfl | rfl | rfl | rfl | rfl | rfl | rfl | rfl | rfl | rfl | rfl | rfl | rfl | rfl
  all_goals simp [SummaryAction.InSession]

end RangeWorld

end Acva
