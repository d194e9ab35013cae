import Acva.System.Storage

/-!
# The session of an exchange

The turn writer reads its session id when a transcript arrives and again when the answer has ended. In
between the session manager may have told it another id, at any point of the turn.
-/

namespace Acva

namespace TurnWriter

lemma session_of_posted {w : TurnWriter} {now : Int} {e : Event} {p : TurnId × TurnRow}
    (h : p ∈ (w.onEvent now e).posts.drop w.posts.length) : p.2.session = w.session := by
  have hnone : ∀ l : List (TurnId × TurnRow), l = w.posts → p ∉ l.drop w.posts.length := by
    rintro l rfl
    simp
  cases e with
  | finalTranscript e =>
    simp only [onEvent, handleFinal] at h
    split at h
    · exact absurd h (hnone _ rfl)
    · split at h
      · exact absurd h (hnone _ rfl)
      · rw [List.drop_left] at h
        rw [List.mem_singleton.mp h]
  | llmFinished e =>
    simp only [onEvent, handleFinished] at h
    split at h
    · exact absurd h (hnone _ rfl)
    · split at h
      · exact absurd h (hnone _ rfl)
      · split at h
        · exact absurd h (hnone _ rfl)
        · rw [setEntry, List.drop_left] at h
          rw [List.mem_singleton.mp h]
          rfl
  | _ => exact absurd h (hnone _ rfl)

end TurnWriter

/-- Not `wipe_all`, which lets the ids start over, and not `adopt`, which takes up an old one. -/
def StorageAction.keepsIds : StorageAction → Bool
  | .command _ .wipeAll | .command _ (.adopt _) => false
  | _ => true

/-- The job of no such command. -/
def MemoryJob.keepsIds : MemoryJob → Bool
  | .session .wipeAll | .session (.getSession _) => false
  | _ => true

namespace StorageWorld

variable (cfg : StorageConfig) (contentOf : Text → Option Text)

/-- The rows that the turn writer has posted between the two states. -/
def rowsSince (s s' : StorageWorld) : List TurnRow := (s'.writer.posts.drop s.writer.posts.length).map Prod.snd

/-- The session id that the step tells the turn writer. -/
def told (s : StorageWorld) (a : StorageAction) : Option SessionId :=
  match a, s.sessions.stage with
  | .notify, .notifying id (.turnWriter :: _) => some id
  | _, _ => none

/-- The session ids that a run tells the turn writer. -/
def toldAlong (s : StorageWorld) : List StorageAction → List SessionId
  | [] => []
  | a :: as => (s.told a).toList ++ (s.step cfg contentOf a).toldAlong as

variable {cfg contentOf} {s : StorageWorld}

lemma session_step (s : StorageWorld) (a : StorageAction) :
    (s.step cfg contentOf a).writer.session = (s.told a).getD s.writer.session := by
  cases a with
  | notify =>
    simp only [step, notify, told]
    cases hstage : s.sessions.stage with
    | notifying id rest =>
      cases rest with
      | nil => rfl
      | cons x rest => cases x <;> rfl
    | _ => rfl
  | writerFinal u now =>
    simp only [step, writerFinal, told]
    split
    · split
      · rfl
      · exact s.writer.onEvent_session now (.finalTranscript _)
    · rfl
  | writerEvent now e =>
    simp only [step, told]
    split
    · rfl
    · exact s.writer.onEvent_session now e
  | managerFinal | managerEvent | io =>
    rw [(managerOnly_step cfg contentOf s rfl).writer]
    rfl
  | build =>
    simp only [step, build, told]
    split
    · split <;> rfl
    · rfl
  | memory ok facts summary =>
    simp only [step, memoryStep, told]
    split
    · rfl
    · split
      · simp only [onSnapshot]
        split <;> rfl
      · rfl
      · rfl
  | command now c =>
    simp only [step, told]
    split
    · split <;> rfl
    · rfl
  | openSession now =>
    simp only [step, told]
    split <;> rfl
  | transcribed e => rfl
  | post => rfl

lemma session_exec (s : StorageWorld) (as : List StorageAction) :
    (Runs.exec (step cfg contentOf) s as).writer.session =
      (s.toldAlong cfg contentOf as).getLast?.getD s.writer.session := by
  induction as generalizing s with
  | nil => rfl
  | cons a as ih =>
    rw [Runs.exec_cons, ih, session_step, toldAlong]
    cases s.told a with
    | none => rfl
    | some id =>
      rw [Option.toList_some, List.singleton_append, List.getLast?_cons]
      rfl

lemma session_of_rowsSince_final {u : Nat} {now : Int} {row : TurnRow}
    (h : row ∈ s.rowsSince (s.step cfg contentOf (.writerFinal u now))) : row.session = s.writer.session := by
  simp only [rowsSince, step, writerFinal] at h
  split at h
  · split at h
    · simp at h
    · rename_i e _ _
      obtain ⟨p, hp, rfl⟩ := List.mem_map.mp h
      exact TurnWriter.session_of_posted (e := .finalTranscript e) hp
  · simp at h

lemma session_of_rowsSince_event {now : Int} {e : Event} {row : TurnRow}
    (h : row ∈ s.rowsSince (s.step cfg contentOf (.writerEvent now e))) : row.session = s.writer.session := by
  simp only [rowsSince, step] at h
  split at h
  · simp at h
  · obtain ⟨p, hp, rfl⟩ := List.mem_map.mp h
    exact TurnWriter.session_of_posted hp

/-- In every run, the row of a transcript and the row of an answer that ends later are in one session if and
only if the last id that the turn writer is told between the two, if any, is the one it had. -/
theorem rows_in_one_session_iff (cfg : StorageConfig) (contentOf : Text → Option Text) (capacity : Nat)
    (repo : Repository) (before between : List StorageAction) (u : Nat) (now now' : Int) (e : LlmFinished)
    {user assistant : TurnRow} :
    let s₁ := Runs.exec (step cfg contentOf) (started capacity repo) before
    let s₂ := s₁.step cfg contentOf (.writerFinal u now)
    let s₃ := Runs.exec (step cfg contentOf) s₂ between
    let s₄ := s₃.step cfg contentOf (.writerEvent now' (.llmFinished e))
    user ∈ s₁.rowsSince s₂ → assistant ∈ s₃.rowsSince s₄ →
      (user.session = assistant.session ↔ ∀ id ∈ (s₂.toldAlong cfg contentOf between).getLast?,
        id = s₁.writer.session) := by
  intro s₁ s₂ s₃ s₄ huser hassistant
  have hs₂ : s₂.writer.session = s₁.writer.session := session_step s₁ (.writerFinal u now)
  have hs₃ : s₃.writer.session = (s₂.toldAlong cfg contentOf between).getLast?.getD s₂.writer.session :=
    session_exec s₂ between
  rw [session_of_rowsSince_final huser, session_of_rowsSince_event hassistant, hs₃, hs₂]
  cases (s₂.toldAlong cfg contentOf between).getLast? with
  | none => simp
  | some id => simp [eq_comm]

/-- The answer of turn 1 up to its end. -/
def answered : List StorageAction :=
  [.writerEvent 0 (.llmStarted 1), .writerEvent 0 (.llmSentence { turn := 1, text := ascii "Hi." })]

/-- A rollover from its first read to its last notification. -/
def rolledOver : List StorageAction :=
  [.command 0 .rollOver, .memory true [] none, .openSession 0, .memory true [] none, .notify, .notify, .notify,
    .notify]

/-- An exchange that no session operation touches. -/
theorem exchange_in_one_session :
    let s₁ := Runs.exec (step {} some) (started 256 {}) opened
    let s₂ := s₁.step {} some (.writerFinal 0 0)
    let s₃ := Runs.exec (step {} some) s₂ answered
    let s₄ := s₃.step {} some (.writerEvent 0 (.llmFinished { turn := 1 }))
    ∃ user ∈ s₁.rowsSince s₂, ∃ assistant ∈ s₃.rowsSince s₄, user.session = assistant.session := by
  intro s₁ s₂ s₃ s₄
  obtain ⟨user, huser⟩ : ∃ user, user ∈ s₁.rowsSince s₂ := List.exists_mem_of_ne_nil _ (by decide +kernel)
  obtain ⟨assistant, hassistant⟩ : ∃ assistant, assistant ∈ s₃.rowsSince s₄ :=
    List.exists_mem_of_ne_nil _ (by decide +kernel)
  refine ⟨user, huser, assistant, hassistant, ?_⟩
  apply (rows_in_one_session_iff {} some 256 {} opened answered 0 0 0 { turn := 1 } huser hassistant).mpr
  decide +kernel

/-- A rollover during the answer: the transcript is stored in session 1 and the answer in session 2. -/
theorem exchange_split_by_rollover :
    let s := Runs.exec (step {} some) (started 256 {})
      (opened ++ [.writerFinal 0 0, .memory true [] none] ++ answered ++ rolledOver ++
        [.writerEvent 0 (.llmFinished { turn := 1 }), .memory true [] none])
    s.memory.repo.turns.map (fun t => (t.row.role, t.row.text, t.row.session)) =
      [(.user, ascii "hello", 1), (.assistant, ascii "Hi.", 2)] := by
  decide +kernel

/-! ### Ids that do not come back -/

/-- The turn writer has an id that was given out, and is told only ids given out later. -/
structure Increasing (s : StorageWorld) : Prop where
  policy : s.memory.queue.policy = .dropNewest
  jobs : ∀ j ∈ s.memory.queue.q, j.keepsIds = true
  writer : s.writer.session ≤ s.memory.repo.sessionSeq
  stage : ∀ id rest, s.sessions.stage = .notifying id rest → id ≤ s.memory.repo.sessionSeq ∧
    rest <:+ [.manager, .turnWriter, .summarizer] ∧ (.turnWriter ∈ rest → s.writer.session < id)

lemma Increasing.told (h : s.Increasing) {a : StorageAction} {id : SessionId} (ha : s.told a = some id) :
    s.writer.session < id := by
  unfold StorageWorld.told at ha
  split at ha
  · rename_i id' rest hstage
    cases ha
    exact (h.stage id _ hstage).2.2 List.mem_cons_self
  · cases ha

lemma Increasing.posted (h : s.Increasing) {s' : StorageWorld} (hwriter : s'.writer.session = s.writer.session)
    (hstage : ∀ id rest, s'.sessions.stage = .notifying id rest → s.sessions.stage = .notifying id rest)
    (hposted : MemoryThread.Posted (fun j => j.keepsIds = true) s.memory s'.memory) : s'.Increasing := by
  obtain ⟨hrepo, hpolicy, extra, hq, hextra⟩ := hposted
  refine ⟨hpolicy, ?_, ?_, ?_⟩
  · rw [hq]
    intro j hj
    rcases List.mem_append.mp hj with hj | hj
    · exact h.jobs j hj
    · exact hextra j hj
  · rw [hwriter, hrepo]
    exact h.writer
  · rw [hwriter, hrepo]
    exact fun id rest hs' => h.stage id rest (hstage id rest hs')

lemma Increasing.keep (h : s.Increasing) {s' : StorageWorld} (hmemory : s'.memory = s.memory)
    (hsessions : s'.sessions = s.sessions) (hwriter : s'.writer.session = s.writer.session) : s'.Increasing := by
  apply h.posted hwriter
  · rw [hsessions]
    exact fun id rest hs => hs
  · rw [hmemory]
    exact .refl h.policy

lemma Increasing.managerOnly (h : s.Increasing) {s' : StorageWorld} (hframe : ManagerOnly s s') : s'.Increasing :=
  h.keep hframe.memory hframe.sessions (by rw [hframe.writer])

lemma Increasing.withWriter (h : s.Increasing) (source : Option Nat) {w : TurnWriter}
    (hw : w.session = s.writer.session) : (s.withWriter source w).Increasing := by
  apply h.posted
  · exact hw
  · exact fun id rest hs => hs
  · exact withWriter_posted h.policy (fun _ => rfl) w

lemma Increasing.sessionRead (h : s.Increasing) {job : SessionJob} (hjob : MemoryJob.keepsIds (.session job) = true) :
    (s.sessionRead job).Increasing := by
  apply h.posted
  · rfl
  · intro id rest hs
    simp only [StorageWorld.sessionRead] at hs
    split at hs <;> cases hs
  · exact (MemoryThread.Posted.refl h.policy).post hjob

lemma Increasing.notify (h : s.Increasing) : s.notify.Increasing := by
  unfold StorageWorld.notify
  split
  · rename_i id x rest hstage
    obtain ⟨hid, hsuffix, hless⟩ := h.stage id (x :: rest) hstage
    have hrest : rest <:+ [.manager, .turnWriter, .summarizer] := (List.suffix_cons x rest).trans hsuffix
    -- whoever is told does not come again
    have hnodup : (x :: rest).Nodup := hsuffix.sublist.nodup (by decide)
    cases x with
    | turnWriter =>
      refine ⟨h.policy, h.jobs, hid, fun id' rest' hs => ?_⟩
      cases hs
      exact ⟨hid, hrest, fun hmem => absurd hmem (List.nodup_cons.mp hnodup).1⟩
    | manager =>
      refine ⟨h.policy, h.jobs, h.writer, fun id' rest' hs => ?_⟩
      cases hs
      exact ⟨hid, hrest, fun hmem => hless (List.mem_cons_of_mem _ hmem)⟩
    | summarizer =>
      refine ⟨h.policy, h.jobs, h.writer, fun id' rest' hs => ?_⟩
      cases hs
      exact ⟨hid, hrest, fun hmem => hless (List.mem_cons_of_mem _ hmem)⟩
  · refine ⟨h.policy, h.jobs, h.writer, fun id' rest' hs => ?_⟩
    cases hs
  · exact h

lemma Increasing.popped (h : s.Increasing) {job : MemoryJob} {queue : BoundedQueue MemoryJob}
    (hpop : s.memory.queue.tryPop = some (job, queue)) :
    job.keepsIds = true ∧ queue.policy = .dropNewest ∧ ∀ j ∈ queue.q, j.keepsIds = true := by
  obtain ⟨hq, hqueue⟩ := BoundedQueue.tryPop_eq_some hpop
  have hjobs := h.jobs
  rw [hq] at hjobs
  refine ⟨hjobs job List.mem_cons_self, ?_, fun j hj => hjobs j (List.mem_cons_of_mem _ hj)⟩
  rw [hqueue]
  exact h.policy

/-- A job has run that changes rows and no ids, and no subscriber is about to be told. -/
lemma Increasing.quieted (h : s.Increasing) {job : MemoryJob} {queue : BoundedQueue MemoryJob}
    (hpop : s.memory.queue.tryPop = some (job, queue)) {repo : Repository}
    (hseq : repo.sessionSeq = s.memory.repo.sessionSeq) {sessions : SessionManager}
    (hstage : ∀ id rest, sessions.stage = .notifying id rest → s.sessions.stage = .notifying id rest) :
    Increasing { s with memory := { s.memory with repo := repo, queue := queue }, sessions := sessions } := by
  obtain ⟨_, hpolicy, hjobs⟩ := h.popped hpop
  refine ⟨hpolicy, hjobs, ?_, ?_⟩
  · dsimp only
    rw [hseq]
    exact h.writer
  · dsimp only
    rw [hseq]
    intro id rest hs
    exact h.stage id rest (hstage id rest hs)

/-- A session job has run; only an insert gives out an id, and it is a new one. -/
lemma Increasing.ranSession (h : s.Increasing) {job : SessionJob} {queue : BoundedQueue MemoryJob}
    (hpop : s.memory.queue.tryPop = some (.session job, queue)) (ok : Bool) :
    Increasing
      { s with memory := { s.memory with repo := ((MemoryJob.session job).run ok s.memory.repo).1, queue := queue }
               sessions := s.sessions.onResult job ((MemoryJob.session job).run ok s.memory.repo).2 } := by
  obtain ⟨hkeeps, hpolicy, hjobs⟩ := h.popped hpop
  cases ok with
  | false =>
    refine h.quieted hpop ?_ fun id rest hs => ?_
    · rfl
    · cases job <;> cases hs
  | true =>
    cases job with
    | getSession id => cases hkeeps
    | wipeAll => cases hkeeps
    | closeSession id endedAt =>
      refine h.quieted hpop ?_ fun id rest hs => ?_
      · rfl
      · cases hs
    | deleteSession target =>
      refine h.quieted hpop ?_ fun id rest hs => ?_
      · rfl
      · simp only [MemoryJob.run, SessionJob.run, SessionManager.onResult, if_true] at hs
        split at hs <;> cases hs
    | insertSession startedAt =>
      have hnew : s.writer.session < s.memory.repo.sessionSeq + 1 := Int.lt_add_one_of_le h.writer
      refine ⟨hpolicy, hjobs, ?_, fun id rest hs => ?_⟩
      · simp only [MemoryJob.run, SessionJob.run, Repository.insertSession, if_true]
        exact Int.le_of_lt hnew
      · simp only [MemoryJob.run, SessionJob.run, Repository.insertSession, SessionManager.onResult,
          SessionManager.adopted, if_true, SessionStage.notifying.injEq] at hs ⊢
        obtain ⟨rfl, rfl⟩ := hs
        exact ⟨Int.le_refl _, List.suffix_rfl, fun _ => hnew⟩

lemma Increasing.memoryStep (h : s.Increasing) (ok : Bool) (facts : List FactRow) (summary : Option Text) :
    (s.memoryStep cfg ok facts summary).Increasing := by
  unfold StorageWorld.memoryStep
  cases hpop : s.memory.queue.tryPop with
  | none => simpa [MemoryThread.runNext, hpop] using h
  | some r =>
    obtain ⟨job, queue⟩ := r
    simp only [MemoryThread.runNext, hpop]
    cases job with
    | snapshot sid limit =>
      have hran : Increasing { s with memory := { s.memory with queue := queue } } :=
        h.quieted hpop rfl (fun _ _ hs => hs)
      simp only [MemoryJob.run, onSnapshot]
      split
      · exact hran.keep rfl rfl rfl
      · exact hran
    | insertTurn source row =>
      exact h.quieted hpop (MemoryJob.sessionSeq_insertTurn ok s.memory.repo source row) (fun _ _ hs => hs)
    | other => exact h.quieted hpop rfl (fun _ _ hs => hs)
    | session job => exact h.ranSession hpop ok

/-- Only `wipe_all` and `adopt` begin with a read after which an id can come back. -/
lemma keepsIds_of_firstRead {m : SessionManager} {now : Int} {c : SessionCommand} {job : SessionJob}
    (hc : (StorageAction.command now c).keepsIds = true) (hfirst : m.firstRead now c = some job) :
    MemoryJob.keepsIds (.session job) = true := by
  cases c with
  | wipeAll => cases hc
  | adopt id => cases hc
  | openInitial =>
    simp only [SessionManager.firstRead] at hfirst
    split at hfirst
    · cases hfirst
    · cases hfirst
      rfl
  | rollOver =>
    simp only [SessionManager.firstRead, Option.some.injEq] at hfirst
    rw [← hfirst]
    split <;> rfl
  | wipeSession target =>
    cases hfirst
    rfl

lemma Increasing.step (h : s.Increasing) {a : StorageAction} (ha : a.keepsIds = true) :
    (s.step cfg contentOf a).Increasing := by
  cases a with
  | transcribed e => exact h.keep rfl rfl rfl
  | writerFinal u now =>
    simp only [StorageWorld.step, StorageWorld.writerFinal]
    split
    · split
      · exact h
      · rename_i e _ _
        have hsession : (s.writer.handleFinal now e).session = s.writer.session :=
          s.writer.onEvent_session now (.finalTranscript e)
        exact (h.withWriter (some u) hsession).keep rfl rfl rfl
    · exact h
  | writerEvent now e =>
    simp only [StorageWorld.step]
    split
    · exact h
    · exact h.withWriter none (s.writer.onEvent_session now e)
  | managerFinal | managerEvent | io => exact h.managerOnly (managerOnly_step cfg contentOf s rfl)
  | build =>
    simp only [StorageWorld.step, StorageWorld.build]
    split
    · split
      · exact h.keep rfl rfl rfl
      · apply h.posted
        · rfl
        · exact fun id rest hs => hs
        · exact (MemoryThread.Posted.refl h.policy).post rfl
    · exact h
  | memory ok facts summary => exact h.memoryStep ok facts summary
  | command now c =>
    simp only [StorageWorld.step]
    split
    · split
      · rename_i job hfirst
        exact h.sessionRead (keepsIds_of_firstRead ha hfirst)
      · exact h
    · exact h
  | openSession now =>
    simp only [StorageWorld.step]
    split
    · exact h.sessionRead rfl
    · exact h
  | notify => exact h.notify
  | post =>
    apply h.posted
    · rfl
    · exact fun id rest hs => hs
    · exact (MemoryThread.Posted.refl h.policy).post rfl

/-- Without `wipe_all` and `adopt` the turn writer never gets an id back: once told, it has a greater one. -/
lemma Increasing.session_exec (h : s.Increasing) {as : List StorageAction} (has : ∀ a ∈ as, a.keepsIds = true) :
    s.writer.session ≤ (Runs.exec (StorageWorld.step cfg contentOf) s as).writer.session ∧
      (s.toldAlong cfg contentOf as ≠ [] →
        s.writer.session < (Runs.exec (StorageWorld.step cfg contentOf) s as).writer.session) := by
  induction as generalizing s with
  | nil => exact ⟨Int.le_refl _, fun hnil => absurd rfl hnil⟩
  | cons a as ih =>
    obtain ⟨ha, has'⟩ := List.forall_mem_cons.mp has
    obtain ⟨hle, hlt⟩ := ih (@Increasing.step cfg contentOf s h a ha) has'
    have hstep := @session_step cfg contentOf s a
    rw [Runs.exec_cons, toldAlong]
    cases htold : s.told a with
    | none =>
      rw [htold, Option.getD_none] at hstep
      rw [← hstep]
      exact ⟨hle, fun hne => hlt (by simpa using hne)⟩
    | some id =>
      have hid := h.told htold
      rw [htold, Option.getD_some] at hstep
      rw [hstep] at hle
      exact ⟨Int.le_trans (Int.le_of_lt hid) hle, fun _ => Int.lt_of_lt_of_le hid hle⟩

lemma increasing_started (capacity : Nat) {repo : Repository} (hseq : 0 ≤ repo.sessionSeq) :
    (started capacity repo).Increasing := by
  refine ⟨rfl, fun j hj => ?_, hseq, fun id rest hs => ?_⟩
  · cases hj
  · cases hs

/-- A rollover or the wipe of the current session always splits an exchange that it reaches the turn writer
in: without `wipe_all` and `adopt`, the rows are in one session only if the turn writer is told nothing. -/
theorem rows_in_one_session_iff_untold (cfg : StorageConfig) (contentOf : Text → Option Text) (capacity : Nat)
    (repo : Repository) (hseq : 0 ≤ repo.sessionSeq) (before between : List StorageAction)
    (hbefore : ∀ a ∈ before, a.keepsIds = true) (hbetween : ∀ a ∈ between, a.keepsIds = true) (u : Nat)
    (now now' : Int) (e : LlmFinished) {user assistant : TurnRow} :
    let s₁ := Runs.exec (step cfg contentOf) (started capacity repo) before
    let s₂ := s₁.step cfg contentOf (.writerFinal u now)
    let s₃ := Runs.exec (step cfg contentOf) s₂ between
    let s₄ := s₃.step cfg contentOf (.writerEvent now' (.llmFinished e))
    user ∈ s₁.rowsSince s₂ → assistant ∈ s₃.rowsSince s₄ →
      (user.session = assistant.session ↔ s₂.toldAlong cfg contentOf between = []) := by
  intro s₁ s₂ s₃ s₄ huser hassistant
  have hinc₁ : s₁.Increasing := (Runs.Along.of_forall hbefore _).invariant Increasing
    (fun s a hs ha => hs.step ha) (increasing_started capacity hseq)
  have hinc₂ : s₂.Increasing := hinc₁.step rfl
  have hs₂ : s₂.writer.session = s₁.writer.session := session_step s₁ (.writerFinal u now)
  obtain ⟨_, hlt⟩ := @Increasing.session_exec cfg contentOf s₂ hinc₂ between hbetween
  have hs₃ : s₃.writer.session = (s₂.toldAlong cfg contentOf between).getLast?.getD s₂.writer.session :=
    session_exec s₂ between
  rw [session_of_rowsSince_final huser, session_of_rowsSince_event hassistant, ← hs₂]
  constructor
  · intro hsame
    by_contra htold
    exact Int.lt_irrefl _ (hsame ▸ hlt htold)
  · intro hnil
    rw [hs₃, hnil]
    rfl

end StorageWorld

end Acva
