import Acva.System.Storage

/-!
# Rows that reach the database

The turn writer decides about a row and posts it; the bus never drops its events, but the memory queue drops a
row that finds it full, and `post`'s verdict is not looked at. A monitor keeps the rows in the order in which
they were decided and in which they were inserted.
-/

namespace Acva

/-- The row that handling the event calls for: the user's, or that of an answer that has ended. -/
def TurnWriter.decides (w : TurnWriter) (now : Int) : Event → Option TurnRow
  | .finalTranscript e =>
    if w.session = 0 ∨ e.text = [] then none
    else some { session := w.session, role := .user, text := e.text, lang := optionalLang e.lang, startedAt := now
                endedAt := now, status := .committed, interruptedAt := none }
  | .llmFinished e =>
    match w.inFlight e.turn with
    | none => none
    | some st =>
      if w.session = 0 ∨ e.cancelled = true ∧ st.kept e.cancelled = [] then none else some (st.row w.session now e)
  | _ => none

/-- The row that the job inserts. -/
def MemoryJob.row? : MemoryJob → Option TurnRow
  | .insertTurn _ row => some row
  | _ => none

/-- The rows that wait for the memory thread. -/
def MemoryThread.queuedRows (m : MemoryThread) : List TurnRow := m.queue.q.filterMap MemoryJob.row?

namespace StorageWorld

def decidedBy (s : StorageWorld) : StorageAction → Option TurnRow
  | .writerFinal u now =>
    match s.transcripts[u]? with
    | some e => if u ∈ s.writerSeen then none else s.writer.decides now (.finalTranscript e)
    | none => none
  | .writerEvent now e => if e.isFinalTranscript then none else s.writer.decides now e
  | _ => none

def insertedBy (s : StorageWorld) : StorageAction → Option TurnRow
  | .memory ok _ _ =>
    match s.memory.runNext ok with
    | some (job, .done, _) => job.row?
    | _ => none
  | _ => none

/-- The statement that the memory thread runs does not fail. -/
def NoDbError (s : StorageWorld) : StorageAction → Prop
  | .memory ok _ _ => (s.memory.runNext ok).map (fun r => r.2.1) ≠ some .failed
  | _ => True

/-- A row that the turn writer posts finds room. -/
def HasRoom (s : StorageWorld) (a : StorageAction) : Prop :=
  s.decidedBy a ≠ none → s.memory.queue.q.length < s.memory.queue.capacity

instance (s : StorageWorld) (a : StorageAction) : Decidable (s.NoDbError a) :=
  match a with
  | .memory _ _ _ => inferInstanceAs (Decidable (_ ≠ _))
  | .transcribed _ | .writerFinal _ _ | .writerEvent _ _ | .managerFinal _ _ _ | .managerEvent _ _ _ | .io _
  | .build | .command _ _ | .openSession _ | .notify | .post => isTrue trivial

instance (s : StorageWorld) (a : StorageAction) : Decidable (s.HasRoom a) := inferInstanceAs (Decidable (_ → _))

end StorageWorld

structure PersistenceLog where
  world : StorageWorld
  decided : List TurnRow := []
  inserted : List TurnRow := []

namespace PersistenceLog

variable (cfg : StorageConfig) (contentOf : Text → Option Text)

def started (capacity : Nat) (repo : Repository) : PersistenceLog := { world := .started capacity repo }

def step (l : PersistenceLog) (a : StorageAction) : PersistenceLog :=
  { world := l.world.step cfg contentOf a
    decided := l.decided ++ (l.world.decidedBy a).toList
    inserted := l.inserted ++ (l.world.insertedBy a).toList }

/-- The rows inserted, and then those that wait, are the rows decided. -/
def Persisted (l : PersistenceLog) : Prop := l.inserted ++ l.world.memory.queuedRows = l.decided

instance (l : PersistenceLog) : Decidable l.Persisted := inferInstanceAs (Decidable (_ = _))

end PersistenceLog

/-! ### What is posted -/

lemma TurnWriter.posts_handleFinal (w : TurnWriter) (now : Int) (e : FinalTranscript) :
    (w.handleFinal now e).posts = w.posts ++
      (w.decides now (.finalTranscript e)).toList.map fun row => (e.turn, row) := by
  unfold handleFinal decides
  by_cases hsession : w.session = 0
  · simp [hsession]
  · by_cases htext : e.text = []
    · simp [hsession, htext]
    · simp [hsession, htext]

lemma TurnWriter.posts_handleFinished (w : TurnWriter) (now : Int) (e : LlmFinished) :
    (w.handleFinished now e).posts =
      w.posts ++ (w.decides now (.llmFinished e)).toList.map fun row => (e.turn, row) := by
  unfold handleFinished decides
  cases hentry : w.inFlight e.turn with
  | none => simp [hentry]
  | some st =>
    simp only [setEntry, hentry]
    by_cases hsession : w.session = 0
    · simp [hsession]
    · simp only [hsession, if_false, false_or]
      split
      · simp
      · simp

lemma TurnWriter.posted_rows (w : TurnWriter) (now : Int) (e : Event) :
    ((w.onEvent now e).posts.drop w.posts.length).map Prod.snd = (w.decides now e).toList := by
  cases e with
  | finalTranscript e => simp [onEvent, posts_handleFinal, Function.comp_def]
  | llmFinished e => simp [onEvent, posts_handleFinished, Function.comp_def]
  | llmStarted turn => simp [onEvent, handleStarted, setEntry, decides]
  | llmSentence e => simp [onEvent, handleSentence, setEntry, decides]
  | playbackFinished e => simp [onEvent, handlePlaybackFinished, setEntry, decides]
  | _ => simp [onEvent, decides]

namespace MemoryThread

/-- The queue is open and drops the newest job. -/
structure Accepting (m : MemoryThread) : Prop where
  policy : m.queue.policy = .dropNewest
  isOpen : m.queue.closed = false

variable {m : MemoryThread}

/-- A job is accepted exactly if there is room. -/
lemma Accepting.post (h : m.Accepting) (job : MemoryJob) :
    (m.post job).1.Accepting ∧
      (m.post job).1.queue.q = m.queue.q ++ (if m.queue.q.length < m.queue.capacity then [job] else []) := by
  by_cases hfull : m.queue.capacity ≤ m.queue.q.length
  · have hpost : m.post job = ({ m with queue := { m.queue with drops := m.queue.drops + 1 } }, false) := by
      simp [MemoryThread.post, BoundedQueue.push, h.isOpen, hfull, h.policy]
    rw [hpost, if_neg (Nat.not_lt.mpr hfull)]
    exact ⟨⟨h.policy, h.isOpen⟩, (List.append_nil _).symm⟩
  · have hpost : m.post job = ({ m with queue := m.queue.accept job }, true) := by
      simp [MemoryThread.post, BoundedQueue.push, h.isOpen, hfull]
    rw [hpost, if_pos (Nat.lt_of_not_le hfull)]
    exact ⟨⟨h.policy, h.isOpen⟩, rfl⟩

lemma Accepting.queuedRows_post (h : m.Accepting) {job : MemoryJob} (hjob : job.row? = none) :
    (m.post job).1.queuedRows = m.queuedRows := by
  unfold queuedRows
  rw [(h.post job).2]
  split
  · rw [List.filterMap_append, List.filterMap_cons, hjob]
    simp
  · rw [List.append_nil]

/-- Running a job takes its row from the front; without an error it is inserted. -/
lemma queuedRows_runNext {ok : Bool} {m' : MemoryThread} {job : MemoryJob} {result : MemoryResult}
    (h : m.runNext ok = some (job, result, m')) :
    m.queuedRows = job.row?.toList ++ m'.queuedRows ∧ (m.Accepting → m'.Accepting) ∧
      (result ≠ .failed → job.row? ≠ none → result = .done) := by
  unfold runNext at h
  split at h
  · rename_i job' queue hpop
    cases h
    obtain ⟨hq, hqueue⟩ := BoundedQueue.tryPop_eq_some hpop
    refine ⟨?_, fun haccepting => ⟨?_, ?_⟩, fun hfailed hrow => ?_⟩
    · unfold queuedRows
      rw [hq, List.filterMap_cons]
      cases job.row? <;> rfl
    · rw [hqueue]
      exact haccepting.policy
    · rw [hqueue]
      exact haccepting.isOpen
    · cases job with
      | insertTurn source row =>
        simp only [MemoryJob.run] at hfailed ⊢
        split
        · rfl
        · rename_i hnone
          rw [hnone] at hfailed
          exact absurd rfl hfailed
      | _ => exact absurd rfl hrow
  · cases h

end MemoryThread

namespace StorageWorld

variable (cfg : StorageConfig) (contentOf : Text → Option Text) {s : StorageWorld}

lemma withWriter_rows (hm : s.memory.Accepting) (source : Option Nat) {w : TurnWriter} {row : Option TurnRow}
    (hposts : (w.posts.drop s.writer.posts.length).map Prod.snd = row.toList) :
    (s.withWriter source w).memory.Accepting ∧ (s.withWriter source w).memory.queuedRows =
      s.memory.queuedRows ++ (if s.memory.queue.q.length < s.memory.queue.capacity then row.toList else []) := by
  have hfold : (s.withWriter source w).memory =
      row.toList.foldl (fun m row => (m.post (.insertTurn source row)).1) s.memory := by
    rw [← hposts, List.foldl_map]
    rfl
  rw [hfold]
  cases row with
  | none => exact ⟨hm, by simp⟩
  | some row =>
    obtain ⟨haccepting, hq⟩ := hm.post (.insertTurn source row)
    refine ⟨haccepting, ?_⟩
    simp only [Option.toList_some, List.foldl_cons, List.foldl_nil, MemoryThread.queuedRows, hq, List.filterMap_append]
    split
    · rfl
    · rfl

lemma writer_step (hm : s.memory.Accepting) {a : StorageAction}
    (ha : (∃ u now, a = .writerFinal u now) ∨ ∃ now e, a = .writerEvent now e) :
    (s.step cfg contentOf a).memory.Accepting ∧ (s.step cfg contentOf a).memory.queuedRows =
      s.memory.queuedRows ++
        (if s.memory.queue.q.length < s.memory.queue.capacity then (s.decidedBy a).toList else []) := by
  have hnothing : s.memory.Accepting ∧ s.memory.queuedRows = s.memory.queuedRows ++
      (if s.memory.queue.q.length < s.memory.queue.capacity then (none : Option TurnRow).toList else []) := by
    refine ⟨hm, ?_⟩
    split <;> simp
  rcases ha with ⟨u, now, rfl⟩ | ⟨now, e, rfl⟩
  · simp only [step, writerFinal, decidedBy]
    cases htranscript : s.transcripts[u]? with
    | none => exact hnothing
    | some e =>
      by_cases hseen : u ∈ s.writerSeen
      · simpa [hseen] using hnothing
      · simp only [hseen, if_false]
        exact withWriter_rows hm (some u) (s.writer.posted_rows now (.finalTranscript e))
  · simp only [step, decidedBy]
    by_cases hfinal : e.isFinalTranscript = true
    · simpa [hfinal] using hnothing
    · simp only [hfinal, if_false, Bool.false_eq_true]
      exact withWriter_rows hm none (s.writer.posted_rows now e)

lemma other_step {a : StorageAction} (hfinal : ∀ u now, a ≠ .writerFinal u now)
    (hevent : ∀ now e, a ≠ .writerEvent now e)
    (hmemory : ∀ ok facts summary, a ≠ .memory ok facts summary) :
    (s.step cfg contentOf a).memory = s.memory ∨
      ∃ job : MemoryJob, job.row? = none ∧ (s.step cfg contentOf a).memory = (s.memory.post job).1 := by
  cases a with
  | transcribed e => exact .inl rfl
  | writerFinal u now => exact absurd rfl (hfinal u now)
  | writerEvent now e => exact absurd rfl (hevent now e)
  | managerFinal u now gateOpen => exact .inl (managerOnly_step cfg contentOf s rfl).memory
  | managerEvent now gateOpen e => exact .inl (managerOnly_step cfg contentOf s rfl).memory
  | io a => exact .inl (managerOnly_step cfg contentOf s rfl).memory
  | build =>
    simp only [step, build]
    split
    · split
      · exact .inl rfl
      · exact .inr ⟨_, rfl, rfl⟩
    · exact .inl rfl
  | memory ok facts summary => exact absurd rfl (hmemory ok facts summary)
  | command now c =>
    simp only [step]
    split
    · split
      · exact .inr ⟨_, rfl, rfl⟩
      · exact .inl rfl
    · exact .inl rfl
  | openSession now =>
    simp only [step]
    split
    · exact .inr ⟨_, rfl, rfl⟩
    · exact .inl rfl
  | notify =>
    simp only [step, notify]
    split
    · split <;> exact .inl rfl
    · exact .inl rfl
    · exact .inl rfl
  | post => exact .inr ⟨_, rfl, rfl⟩

lemma memory_step (hm : s.memory.Accepting) {ok : Bool} {facts : List FactRow} {summary : Option Text}
    (herror : s.NoDbError (.memory ok facts summary)) :
    (s.step cfg contentOf (.memory ok facts summary)).memory.Accepting ∧
      s.memory.queuedRows = (s.insertedBy (.memory ok facts summary)).toList ++
        (s.step cfg contentOf (.memory ok facts summary)).memory.queuedRows := by
  simp only [step, memoryStep, insertedBy, NoDbError] at herror ⊢
  cases hrun : s.memory.runNext ok with
  | none => exact ⟨hm, rfl⟩
  | some r =>
    obtain ⟨job, result, memory⟩ := r
    obtain ⟨hrows, haccepting, hdone⟩ := MemoryThread.queuedRows_runNext hrun
    have hresult : result ≠ .failed := by
      intro hfailed
      rw [hrun, hfailed] at herror
      exact herror rfl
    have hmemory : ∀ s' : StorageWorld, s'.memory = memory →
        s'.memory.Accepting ∧ s.memory.queuedRows = (match some (job, result, memory) with
          | some (job, .done, _) => job.row?
          | _ => none).toList ++ s'.memory.queuedRows := by
      intro s' heq
      rw [heq]
      refine ⟨haccepting hm, ?_⟩
      rw [hrows]
      cases hrow : job.row? with
      | none => cases result <;> simp [hrow]
      | some row =>
        rw [hdone hresult (by simp [hrow])]
        simp [hrow]
    apply hmemory
    dsimp only
    split
    · unfold onSnapshot
      split <;> rfl
    · rfl
    · rfl

end StorageWorld

namespace PersistenceLog

variable {cfg : StorageConfig} {contentOf : Text → Option Text}

/-- No row comes from anywhere else. -/
structure Sound (l : PersistenceLog) : Prop where
  accepting : l.world.memory.Accepting
  bounded : (l.inserted ++ l.world.memory.queuedRows).length ≤ l.decided.length

lemma sound_started (capacity : Nat) (repo : Repository) : (started capacity repo).Sound :=
  ⟨⟨rfl, rfl⟩, le_rfl⟩

variable {l : PersistenceLog}

/-- A step that neither decides nor inserts. -/
lemma Sound.unmoved (h : l.Sound) {a : StorageAction} (hdecided : l.world.decidedBy a = none)
    (hinserted : l.world.insertedBy a = none) (hm : (l.world.step cfg contentOf a).memory.Accepting)
    (hrows : (l.world.step cfg contentOf a).memory.queuedRows = l.world.memory.queuedRows) :
    (l.step cfg contentOf a).Sound ∧
      ((l.step cfg contentOf a).Persisted ↔ l.Persisted ∧ l.world.HasRoom a) := by
  have hroom : l.world.HasRoom a := fun hsome => absurd hdecided hsome
  simp only [step, Persisted, hdecided, hinserted, hrows, Option.toList_none, List.append_nil, hroom, and_true]
  refine ⟨hm, ?_⟩
  dsimp only
  rw [hrows]
  exact h.bounded

lemma Sound.writer (h : l.Sound) {a : StorageAction}
    (ha : (∃ u now, a = .writerFinal u now) ∨ ∃ now e, a = .writerEvent now e) :
    (l.step cfg contentOf a).Sound ∧
      ((l.step cfg contentOf a).Persisted ↔ l.Persisted ∧ l.world.HasRoom a) := by
  obtain ⟨hm, hrows⟩ := StorageWorld.writer_step cfg contentOf h.accepting ha
  have hinserted : l.world.insertedBy a = none := by
    rcases ha with ⟨u, now, rfl⟩ | ⟨now, e, rfl⟩ <;> rfl
  have hbounded := h.bounded
  cases hrow : l.world.decidedBy a with
  | none =>
    apply h.unmoved hrow hinserted hm
    rw [hrows, hrow]
    split <;> simp
  | some row =>
    rw [hrow] at hrows
    simp only [step, Persisted, StorageWorld.HasRoom, hrow, hinserted, Option.toList_none, Option.toList_some,
      List.append_nil, ne_eq, reduceCtorEq, not_false_eq_true, true_implies]
    by_cases hroom : l.world.memory.queue.q.length < l.world.memory.queue.capacity
    · rw [if_pos hroom] at hrows
      refine ⟨⟨hm, ?_⟩, ?_⟩
      · simp only [hrows, Option.toList_some, List.length_append, List.length_singleton] at hbounded ⊢
        omega
      · rw [hrows, Option.toList_some, ← List.append_assoc, List.append_left_inj]
        simp [hroom]
    · -- the row is lost: there are more decisions than rows from now on
      rw [if_neg hroom, List.append_nil] at hrows
      refine ⟨⟨hm, ?_⟩, ?_⟩
      · simp only [hrows, List.length_append, List.length_singleton] at hbounded ⊢
        omega
      · simp only [hroom, and_false, iff_false]
        intro heq
        have hlength := congrArg List.length heq
        simp only [hrows, List.length_append, List.length_singleton] at hbounded hlength
        omega

lemma Sound.step (h : l.Sound) {a : StorageAction} (herror : l.world.NoDbError a) :
    (l.step cfg contentOf a).Sound ∧
      ((l.step cfg contentOf a).Persisted ↔ l.Persisted ∧ l.world.HasRoom a) := by
  by_cases hwriter : (∃ u now, a = .writerFinal u now) ∨ ∃ now e, a = .writerEvent now e
  · exact h.writer hwriter
  by_cases hmemory : ∃ ok facts summary, a = .memory ok facts summary
  · obtain ⟨ok, facts, summary, rfl⟩ := hmemory
    obtain ⟨hm, hrows⟩ := StorageWorld.memory_step cfg contentOf h.accepting herror
    have hdecided : l.world.decidedBy (.memory ok facts summary) = none := rfl
    have hroom : l.world.HasRoom (.memory ok facts summary) := fun hsome => absurd hdecided hsome
    have hbounded := h.bounded
    rw [hrows, ← List.append_assoc] at hbounded
    refine ⟨⟨hm, ?_⟩, ?_⟩
    · simpa [PersistenceLog.step, hdecided] using hbounded
    · simp only [Persisted, PersistenceLog.step, hdecided, hroom, Option.toList_none, List.append_nil, and_true]
      rw [hrows, ← List.append_assoc]
  · have hdecided : l.world.decidedBy a = none := by
      cases a with
      | writerFinal u now => exact absurd (.inl ⟨u, now, rfl⟩) hwriter
      | writerEvent now e => exact absurd (.inr ⟨now, e, rfl⟩) hwriter
      | _ => rfl
    have hinserted : l.world.insertedBy a = none := by
      cases a with
      | memory ok facts summary => exact absurd ⟨ok, facts, summary, rfl⟩ hmemory
      | _ => rfl
    have hother := StorageWorld.other_step cfg contentOf (s := l.world) (a := a)
      (fun u now heq => hwriter (.inl ⟨u, now, heq⟩)) (fun now e heq => hwriter (.inr ⟨now, e, heq⟩))
      (fun ok facts summary heq => hmemory ⟨ok, facts, summary, heq⟩)
    rcases hother with heq | ⟨job, hjob, heq⟩
    · apply h.unmoved hdecided hinserted
      · rw [heq]
        exact h.accepting
      · rw [heq]
    · apply h.unmoved hdecided hinserted
      · rw [heq]
        exact (h.accepting.post job).1
      · rw [heq]
        exact h.accepting.queuedRows_post hjob

/-- In a run without database errors, the rows inserted or waiting are the rows decided, in order, exactly if
every row that the turn writer posts finds room in the memory queue. -/
theorem persisted_iff (capacity : Nat) (repo : Repository) (as : List StorageAction)
    (herrors : Runs.Along (step cfg contentOf) (fun l => l.world.NoDbError) (started capacity repo) as) :
    (Runs.exec (step cfg contentOf) (started capacity repo) as).Persisted ↔
      Runs.Along (step cfg contentOf) (fun l => l.world.HasRoom) (started capacity repo) as := by
  have hpersisted : (started capacity repo).Persisted := rfl
  rw [Runs.Along.exec_iff (I := Sound) (Q := Persisted) (fun l a h hn => (h.step hn).1)
    (fun l a h hn => (h.step hn).2) herrors (sound_started capacity repo)]
  exact and_iff_right hpersisted

/-- A user turn and its answer, with a memory thread that keeps up. -/
theorem conversation_persisted :
    (Runs.exec (step {} some) (started 1 {})
      [.command 0 .openInitial, .memory true [] none, .notify, .notify, .notify, .notify,
        .transcribed { turn := 1, text := ascii "hello" }, .writerFinal 0 5, .memory true [] none,
        .writerEvent 6 (.llmStarted 1), .writerEvent 7 (.llmSentence { turn := 1, seq := 0, text := ascii "hi" }),
        .writerEvent 8 (.llmFinished { turn := 1 }), .memory true [] none]).Persisted := by
  apply (persisted_iff 1 {} _ (by decide)).mpr
  decide

/-- Two transcripts while the memory thread is busy: the queue of one job refuses the second row. -/
theorem full_queue_loses_a_row :
    let l := Runs.exec (step {} some) (started 1 {})
      [.command 0 .openInitial, .memory true [] none, .notify, .notify, .notify, .notify,
        .transcribed { turn := 1, text := ascii "hello" }, .transcribed { turn := 2, text := ascii "again" },
        .writerFinal 0 5, .writerFinal 1 6, .memory true [] none, .memory true [] none]
    l.decided.length = 2 ∧ l.inserted.length = 1 ∧ l.world.memory.queue.q = [] ∧ ¬l.Persisted := by
  decide

end PersistenceLog

end Acva
