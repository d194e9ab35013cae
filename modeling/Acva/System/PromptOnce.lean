import Acva.System.Storage

/-!
# The current transcript in the prompt

The prompt ends with the transcript that it is built for. The snapshot before it may hold the same
transcript once more: as the row that the turn writer has posted for it.
-/

namespace Acva

/-! ### Which transcript the I/O thread works on -/

def IoStage.transcript? : IoStage → Option FinalTranscript
  | .taken e | .chosen e _ | .adopted e _ => some e
  | _ => none

namespace ManagerWorld

/-- The I/O thread takes its transcript from the slot and keeps it up to the prompt. -/
lemma ioStep_transcript (cfg : ManagerConfig) (contentOf : Text → Option Text) (w : ManagerWorld) (a : IoAction) :
    (∀ e, (w.ioStep cfg contentOf a).manager.pending = some e → w.manager.pending = some e) ∧
      ∀ e, (w.ioStep cfg contentOf a).manager.io.transcript? = some e →
        w.manager.io.transcript? = some e ∨
          w.manager.io = .waiting ∧ a = .advance ∧ w.manager.pending = some e := by
  cases hc : w.manager.io.answering? with
  | some c =>
    obtain ⟨_, hs⟩ := answerStep cfg contentOf a hc
    refine ⟨fun e he => hs.pending ▸ he, fun e he => ?_⟩
    rcases hs.stage with h | h
    · cases hio : (w.ioStep cfg contentOf a).manager.io <;>
        simp [hio, IoStage.answering?, IoStage.transcript?] at h he
    · rw [h] at he
      cases he
  | none =>
    cases hio : w.manager.io with
    | waiting => cases a <;> cases hp : w.manager.pending <;> simp [ioStep, hio, hp, IoStage.transcript?]
    | taken job => cases a <;> simp [ioStep, hio, chooseTurn, IoStage.transcript?]
    | chosen job ctx => cases a <;> simp [ioStep, hio, IoStage.transcript?]
    | adopted job ctx => cases a <;> simp [ioStep, hio, startGeneration, IoStage.transcript?]
    | returning => cases a <;> simp [ioStep, hio, IoStage.transcript?]
    | _ => simp [hio, IoStage.answering?] at hc

/-- The bus thread fills the slot with the transcript it admits and leaves the I/O thread alone. -/
lemma onEvent_final (cfg : ManagerConfig) (w : ManagerWorld) (now : Time) (gateOpen : Bool) (e : FinalTranscript) :
    (w.onEvent cfg now gateOpen (.finalTranscript e)).manager.pending =
      if rejects cfg gateOpen e then w.manager.pending else some e := by
  unfold onEvent rejects
  by_cases hshort : tooShort cfg e = true
  · simp [hshort]
  · cases gateOpen <;> simp [hshort, enqueueTurn]

lemma onEvent_pending (cfg : ManagerConfig) (w : ManagerWorld) (now : Time) (gateOpen : Bool) {e : Event}
    (he : e.isFinalTranscript = false) : (w.onEvent cfg now gateOpen e).manager.pending = w.manager.pending := by
  cases e with
  | finalTranscript e => cases he
  | userInterrupted e => rw [onEvent, cancelActive_manager]
  | cancelGeneration turn => rw [onEvent, cancelActive_manager]
  | _ => rfl

end ManagerWorld

def MemoryJob.isSnapshot : MemoryJob → Bool
  | .snapshot _ _ => true
  | _ => false

/-- Steps of the turn writer, the session manager and other posters. -/
def StorageAction.isAside : StorageAction → Bool
  | .writerFinal _ _ | .writerEvent _ _ | .command _ _ | .openSession _ | .notify | .post => true
  | _ => false

namespace StorageWorld

/-- The numbers lead to the transcripts that the manager has, and a prompt in the making has the text of its
transcript. -/
structure Tracked (s : StorageWorld) : Prop where
  slot : ∀ e, s.manager.manager.pending = some e → ∃ u, s.slot = some u ∧ s.transcripts[u]? = some e
  job : ∀ e, s.manager.manager.io.transcript? = some e → ∃ u, s.job = some u ∧ s.transcripts[u]? = some e
  reading : ∀ u text lang, s.prompt = .reading u text lang → ∃ e, s.transcripts[u]? = some e ∧ e.text = text
  prompts : ∀ p ∈ s.prompts, p.utterance < s.transcripts.length

variable {cfg : StorageConfig} {contentOf : Text → Option Text} {s : StorageWorld}

lemma Tracked.transcribed (h : s.Tracked) (e : FinalTranscript) :
    Tracked { s with transcripts := s.transcripts ++ [e] } := by
  have hkeep : ∀ {u : Nat} {x : FinalTranscript}, s.transcripts[u]? = some x →
      (s.transcripts ++ [e])[u]? = some x := by
    intro u x hx
    obtain ⟨hlt, _⟩ := List.getElem?_eq_some_iff.mp hx
    rw [List.getElem?_append_left hlt, hx]
  refine ⟨fun x hx => ?_, fun x hx => ?_, fun u text lang hr => ?_, fun p hp => ?_⟩
  · obtain ⟨u, hu, hlook⟩ := h.slot x hx
    exact ⟨u, hu, hkeep hlook⟩
  · obtain ⟨u, hu, hlook⟩ := h.job x hx
    exact ⟨u, hu, hkeep hlook⟩
  · obtain ⟨x, hlook, htext⟩ := h.reading u text lang hr
    exact ⟨x, hkeep hlook, htext⟩
  · have hlt := h.prompts p hp
    simp only [List.length_append, List.length_singleton]
    omega

/-- The transcripts, the manager and the prompts are the same in both states. -/
structure SamePrompts (s s' : StorageWorld) : Prop where
  manager : s'.manager = s.manager
  transcripts : s'.transcripts = s.transcripts
  slot : s'.slot = s.slot
  job : s'.job = s.job
  prompt : s'.prompt = s.prompt
  prompts : s'.prompts = s.prompts

lemma Tracked.keep (h : s.Tracked) {s' : StorageWorld} (hsame : SamePrompts s s') : s'.Tracked := by
  refine ⟨?_, ?_, ?_, ?_⟩
  · rw [hsame.manager, hsame.slot, hsame.transcripts]
    exact h.slot
  · rw [hsame.manager, hsame.job, hsame.transcripts]
    exact h.job
  · rw [hsame.prompt, hsame.transcripts]
    exact h.reading
  · rw [hsame.prompts, hsame.transcripts]
    exact h.prompts

lemma samePrompts_step (cfg : StorageConfig) (contentOf : Text → Option Text) (s : StorageWorld)
    {a : StorageAction} (ha : a.isAside = true) : SamePrompts s (s.step cfg contentOf a) := by
  have hself : SamePrompts s s := ⟨rfl, rfl, rfl, rfl, rfl, rfl⟩
  cases a with
  | writerFinal u now =>
    simp only [step, writerFinal]
    split
    · split
      · exact hself
      · exact ⟨rfl, rfl, rfl, rfl, rfl, rfl⟩
    · exact hself
  | writerEvent now e =>
    simp only [step]
    split
    · exact hself
    · exact ⟨rfl, rfl, rfl, rfl, rfl, rfl⟩
  | command now c =>
    simp only [step]
    split
    · split
      · exact ⟨rfl, rfl, rfl, rfl, rfl, rfl⟩
      · exact hself
    · exact hself
  | openSession now =>
    simp only [step]
    split
    · exact ⟨rfl, rfl, rfl, rfl, rfl, rfl⟩
    · exact hself
  | notify =>
    simp only [step, notify]
    split
    · split <;> exact ⟨rfl, rfl, rfl, rfl, rfl, rfl⟩
    · exact ⟨rfl, rfl, rfl, rfl, rfl, rfl⟩
    · exact hself
  | post => exact ⟨rfl, rfl, rfl, rfl, rfl, rfl⟩
  | _ => cases ha

lemma Tracked.managerFinal (h : s.Tracked) (u : Nat) (now : Time) (gateOpen : Bool) :
    (s.managerFinal cfg u now gateOpen).Tracked := by
  unfold StorageWorld.managerFinal
  cases hu : s.transcripts[u]? with
  | none => exact h
  | some e =>
    dsimp only
    split
    · exact h
    · have hio := (s.manager.onEvent_effect cfg.manager now gateOpen (.finalTranscript e)).1
      refine ⟨fun x hx => ?_, fun x hx => ?_, h.reading, h.prompts⟩
      · dsimp only at hx ⊢
        rw [ManagerWorld.onEvent_final] at hx
        by_cases hrej : rejects cfg.manager gateOpen e = true
        · rw [if_pos hrej] at hx ⊢
          exact h.slot x hx
        · rw [if_neg hrej] at hx ⊢
          cases hx
          exact ⟨u, rfl, hu⟩
      · dsimp only at hx ⊢
        rw [hio] at hx
        exact h.job x hx

lemma Tracked.managerEvent (h : s.Tracked) (now : Time) (gateOpen : Bool) {e : Event}
    (he : e.isFinalTranscript = false) :
    Tracked { s with manager := s.manager.onEvent cfg.manager now gateOpen e } := by
  have hio := (s.manager.onEvent_effect cfg.manager now gateOpen e).1
  have hpending := s.manager.onEvent_pending cfg.manager now gateOpen he
  refine ⟨?_, ?_, h.reading, h.prompts⟩
  · dsimp only
    rw [hpending]
    exact h.slot
  · dsimp only
    rw [hio]
    exact h.job

lemma Tracked.ioStep (h : s.Tracked) (a : IoAction) : (s.ioStep cfg contentOf a).Tracked := by
  obtain ⟨hpending, htranscript⟩ := s.manager.ioStep_transcript cfg.manager contentOf a
  -- away from the slot the thread goes on with its transcript
  have hgo : ∀ p : PromptStage, (∀ u text lang, p = .reading u text lang → s.prompt = p) →
      ¬(s.manager.manager.io = .waiting ∧ a = .advance ∧ s.manager.manager.pending.isSome) →
      Tracked { s with manager := s.manager.ioStep cfg.manager contentOf a, prompt := p } := by
    intro p hp hnot
    refine ⟨fun e he => h.slot e (hpending e he), fun e he => ?_, fun u text lang hr => ?_, h.prompts⟩
    · rcases htranscript e he with hold | ⟨hio, ha, hslot⟩
      · exact h.job e hold
      · exact absurd ⟨hio, ha, by simp [hslot]⟩ hnot
    · exact h.reading u text lang ((hp u text lang hr).trans hr)
  unfold StorageWorld.ioStep
  dsimp only
  cases hio : s.manager.manager.io with
  | waiting =>
    dsimp only
    split
    · rename_i htake
      obtain ⟨rfl, hsome⟩ := htake
      obtain ⟨x, hx⟩ := Option.isSome_iff_exists.mp hsome
      have hstep : (s.manager.ioStep cfg.manager contentOf .advance).manager =
          { s.manager.manager with pending := none, io := .taken x } := by
        simp [ManagerWorld.ioStep, hio, hx]
      refine ⟨fun e he => ?_, fun e he => ?_, h.reading, h.prompts⟩
      · dsimp only at he
        rw [hstep] at he
        cases he
      · dsimp only at he ⊢
        rw [hstep] at he
        cases he
        exact h.slot x hx
    · rename_i hnot
      exact hgo s.prompt (fun _ _ _ _ => rfl) fun hall => hnot hall.2
  | adopted e ctx =>
    dsimp only
    split
    · apply hgo
      · intro u text lang hr
        cases hr
      · rw [hio]
        rintro ⟨hidle, -⟩
        cases hidle
    · exact h
  | _ =>
    dsimp only
    apply hgo s.prompt (fun _ _ _ _ => rfl)
    rw [hio]
    rintro ⟨hidle, -⟩
    cases hidle

lemma Tracked.built (h : s.Tracked) {p : Prompt} (hp : p.utterance < s.transcripts.length) :
    Tracked { s with prompt := .built, prompts := s.prompts ++ [p] } := by
  refine ⟨h.slot, h.job, fun u text lang hr => ?_, fun q hq => ?_⟩
  · cases hr
  · rcases List.mem_append.mp hq with hq | hq
    · exact h.prompts q hq
    · obtain rfl := List.mem_singleton.mp hq
      exact hp

lemma Tracked.lt_of_job (h : s.Tracked) {e : FinalTranscript} {ctx : TurnContext} {u : Nat}
    (hio : s.manager.manager.io = .adopted e ctx) (hjob : s.job = some u) :
    s.transcripts[u]? = some e ∧ u < s.transcripts.length := by
  obtain ⟨v, hv, hlook⟩ := h.job e (by rw [hio]; rfl)
  obtain rfl : u = v := Option.some.inj (hjob.symm.trans hv)
  exact ⟨hlook, (List.getElem?_eq_some_iff.mp hlook).1⟩

lemma Tracked.build (h : s.Tracked) : (s.build cfg).Tracked := by
  unfold StorageWorld.build
  split
  · rename_i e ctx u hio hidle hjob
    obtain ⟨hlook, hlt⟩ := h.lt_of_job hio hjob
    dsimp only
    split
    · exact h.built hlt
    · refine ⟨h.slot, h.job, fun v text lang hr => ?_, h.prompts⟩
      dsimp only at hr
      split at hr
      · cases hr
        exact ⟨e, hlook, rfl⟩
      · cases hr
  · exact h

lemma Tracked.onSnapshot (h : s.Tracked) (snap : MemorySnapshot) : (s.onSnapshot cfg snap).Tracked := by
  unfold StorageWorld.onSnapshot
  split
  · rename_i u text lang hr
    obtain ⟨e, hlook, _⟩ := h.reading u text lang hr
    exact h.built (List.getElem?_eq_some_iff.mp hlook).1
  · exact h

lemma Tracked.memoryStep (h : s.Tracked) (ok : Bool) (facts : List FactRow) (summary : Option Text) :
    (s.memoryStep cfg ok facts summary).Tracked := by
  unfold StorageWorld.memoryStep
  split
  · exact h
  · rename_i job result memory hrun
    have hmemory : Tracked { s with memory := memory } := h.keep ⟨rfl, rfl, rfl, rfl, rfl, rfl⟩
    dsimp only
    split
    · exact hmemory.onSnapshot _
    · exact hmemory.keep ⟨rfl, rfl, rfl, rfl, rfl, rfl⟩
    · exact hmemory

lemma Tracked.step (h : s.Tracked) (a : StorageAction) : (s.step cfg contentOf a).Tracked := by
  cases a with
  | transcribed e => exact h.transcribed e
  | managerFinal u now gateOpen => exact h.managerFinal u now gateOpen
  | managerEvent now gateOpen e =>
    simp only [StorageWorld.step]
    split
    · exact h
    · rename_i he
      exact h.managerEvent now gateOpen (by simpa using he)
  | io a => exact h.ioStep a
  | build => exact h.build
  | memory ok facts summary => exact h.memoryStep ok facts summary
  | _ => exact h.keep (samePrompts_step cfg contentOf s rfl)

/-! ### When the prompt says the transcript once -/

/-- Every prompt that was built says its transcript once. -/
def AllOnce (s : StorageWorld) : Prop :=
  ∀ p ∈ s.prompts, ∃ e, s.transcripts[p.utterance]? = some e ∧ p.Once e.text

instance (s : StorageWorld) : Decidable s.AllOnce :=
  decidable_of_iff (∀ p ∈ s.prompts, (s.transcripts[p.utterance]?).any (fun e => decide (p.Once e.text)) = true)
    (by simp [AllOnce, Option.any_eq_true])

/-- When the memory thread reads the turns for a prompt, the newest rows of the session do not include the
row of the transcript that the prompt is for. -/
def ReadsFresh (s : StorageWorld) : StorageAction → Prop
  | .memory ok _ _ => ∀ u text lang, s.prompt = .reading u text lang → ∀ sid limit,
      s.memory.queue.q.head? = some (.snapshot sid limit) → ok = true →
      ∀ t ∈ s.memory.repo.recentTurns sid limit, t.row.usable = true → t.source ≠ some u
  | _ => True

lemma allOnce_append {p : Prompt} {e : FinalTranscript} (hlook : s.transcripts[p.utterance]? = some e)
    (prompt : PromptStage) :
    AllOnce { s with prompt := prompt, prompts := s.prompts ++ [p] } ↔ s.AllOnce ∧ p.Once e.text := by
  unfold AllOnce
  constructor
  · intro h
    refine ⟨fun q hq => h q (List.mem_append_left _ hq), ?_⟩
    obtain ⟨x, hx, honce⟩ := h p (by simp)
    obtain rfl : e = x := Option.some.inj (hlook.symm.trans hx)
    exact honce
  · rintro ⟨hold, hnew⟩ q hq
    rcases List.mem_append.mp hq with hq | hq
    · exact hold q hq
    · obtain rfl := List.mem_singleton.mp hq
      exact ⟨e, hlook, hnew⟩

lemma allOnce_onSnapshot (h : s.Tracked) (snap : MemorySnapshot) :
    (s.onSnapshot cfg snap).AllOnce ↔
      s.AllOnce ∧ ∀ u text lang, s.prompt = .reading u text lang → ∀ t ∈ snap.turns, t.source ≠ some u := by
  unfold StorageWorld.onSnapshot
  split
  · rename_i u text lang hr
    obtain ⟨e, hlook, rfl⟩ := h.reading u text lang hr
    rw [allOnce_append hlook, assembled, once_assembleMessages_iff]
    simp [hr]
  · rename_i hnot
    constructor
    · exact fun hall => ⟨hall, fun u text lang hr => absurd hr (hnot u text lang)⟩
    · exact fun hall => hall.1

lemma allOnce_memoryStep (h : s.Tracked) (ok : Bool) (facts : List FactRow) (summary : Option Text) :
    (s.memoryStep cfg ok facts summary).AllOnce ↔ s.AllOnce ∧ s.ReadsFresh (.memory ok facts summary) := by
  unfold StorageWorld.memoryStep
  cases hpop : s.memory.queue.tryPop with
  | none =>
    have hhead : s.memory.queue.q.head? = none := by
      unfold BoundedQueue.tryPop at hpop
      cases hq : s.memory.queue.q with
      | nil => rfl
      | cons x xs => simp [hq] at hpop
    simp [MemoryThread.runNext, hpop, ReadsFresh, hhead]
  | some r =>
    obtain ⟨job, queue⟩ := r
    have hhead : s.memory.queue.q.head? = some job := by
      rw [(BoundedQueue.tryPop_eq_some hpop).1]
      rfl
    -- only the answer to a read for a prompt makes a prompt
    have hquiet : job.isSnapshot = false → (s.AllOnce ↔
        s.AllOnce ∧ s.ReadsFresh (.memory ok facts summary)) := by
      intro hjob
      refine ⟨fun hall => ⟨hall, ?_⟩, fun hall => hall.1⟩
      intro u text lang hr sid limit hsnap
      obtain rfl : job = .snapshot sid limit := Option.some.inj (hhead.symm.trans hsnap)
      cases hjob
    simp only [MemoryThread.runNext, hpop]
    cases job with
    | snapshot sid limit =>
      have htracked : Tracked { s with memory := { s.memory with queue := queue } } :=
        h.keep ⟨rfl, rfl, rfl, rfl, rfl, rfl⟩
      simp only [MemoryJob.run]
      rw [allOnce_onSnapshot htracked]
      apply and_congr_right
      intro _
      cases ok with
      | true => simp [ReadsFresh, hhead]
      | false => simp [ReadsFresh]
    | insertTurn source row => exact hquiet rfl
    | session job => exact hquiet rfl
    | other => exact hquiet rfl

lemma allOnce_transcribed (h : s.Tracked) (e : FinalTranscript) :
    AllOnce { s with transcripts := s.transcripts ++ [e] } ↔ s.AllOnce := by
  unfold AllOnce
  apply forall₂_congr
  intro p hp
  rw [List.getElem?_append_left (h.prompts p hp)]

lemma allOnce_build (h : s.Tracked) : (s.build cfg).AllOnce ↔ s.AllOnce := by
  unfold StorageWorld.build
  split
  · rename_i e ctx u hio hidle hjob
    dsimp only
    split
    · have hlook := (h.lt_of_job hio hjob).1
      rw [allOnce_append (p := assembled cfg {} u e.text _) hlook, assembled, once_assembleMessages_iff]
      simp
    · exact Iff.rfl
  · exact Iff.rfl

/-- A step keeps every prompt right exactly when it reads fresh. -/
lemma allOnce_step (h : s.Tracked) (a : StorageAction) :
    (s.step cfg contentOf a).AllOnce ↔ s.AllOnce ∧ s.ReadsFresh a := by
  have hsame : ∀ s' : StorageWorld, s'.prompts = s.prompts → s'.transcripts = s.transcripts →
      (s'.AllOnce ↔ s.AllOnce) := by
    intro s' hprompts htranscripts
    simp only [AllOnce, hprompts, htranscripts]
  have haside : a.isAside = true → ((s.step cfg contentOf a).AllOnce ↔ s.AllOnce) := by
    intro ha
    have hframe := samePrompts_step cfg contentOf s ha
    exact hsame _ hframe.prompts hframe.transcripts
  have hmanager : a.isManagers = true → ((s.step cfg contentOf a).AllOnce ↔ s.AllOnce) := by
    intro ha
    have hframe := managerOnly_step cfg contentOf s ha
    exact hsame _ hframe.prompts hframe.transcripts
  cases a with
  | memory ok facts summary => exact allOnce_memoryStep h ok facts summary
  | transcribed e =>
    simp only [ReadsFresh, and_true]
    exact allOnce_transcribed h e
  | build =>
    simp only [ReadsFresh, and_true]
    exact allOnce_build h
  | managerFinal | managerEvent | io =>
    simp only [ReadsFresh, and_true]
    exact hmanager rfl
  | _ =>
    simp only [ReadsFresh, and_true]
    exact haside rfl

lemma tracked_started (capacity : Nat) (repo : Repository) : (started capacity repo).Tracked := by
  refine ⟨fun e he => ?_, fun e he => ?_, fun u text lang hr => ?_, fun p hp => ?_⟩
  · cases he
  · cases he
  · cases hr
  · cases hp

lemma allOnce_run (h : s.Tracked) (as : List StorageAction) :
    (Runs.exec (step cfg contentOf) s as).AllOnce ↔
      s.AllOnce ∧ Runs.Along (step cfg contentOf) ReadsFresh s as := by
  apply Runs.exec_iff_along (I := Tracked)
  · intro s a hs
    exact hs.step a
  · intro s a hs
    exact allOnce_step hs a
  · exact h

lemma allOnce_started (capacity : Nat) (repo : Repository) : (started capacity repo).AllOnce := by
  intro p hp
  cases hp

/-- In every run, all prompts say their transcript once if and only if no read finds the transcript's own
row among the rows it takes. -/
theorem prompts_once_iff (cfg : StorageConfig) (contentOf : Text → Option Text) (capacity : Nat) (repo : Repository)
    (as : List StorageAction) :
    (Runs.exec (step cfg contentOf) (started capacity repo) as).AllOnce ↔
      Runs.Along (step cfg contentOf) ReadsFresh (started capacity repo) as := by
  rw [allOnce_run (tracked_started capacity repo)]
  constructor
  · intro h
    exact h.2
  · intro h
    exact ⟨allOnce_started capacity repo, h⟩

/-- The I/O thread takes the transcript up to its prompt, and the memory thread runs one job. -/
def prompted : List StorageAction :=
  [.managerFinal 0 0 true, .io .advance, .io (.choose 1 0), .io .advance, .build, .memory true [] none]

/-- The turn writer's row is stored before the prompt's read: the transcript stands in the prompt twice. -/
theorem transcript_said_twice :
    let s := Runs.exec (step {} some) (started 256 {})
      (opened ++ [.writerFinal 0 0, .memory true [] none] ++ prompted)
    s.prompts.map (fun p => p.messages.drop 1) =
        [[{ role := .user, content := ascii "hello", source := some 0 },
          { role := .user, content := ascii "hello", source := some 0 }]] ∧ ¬s.AllOnce := by
  decide +kernel

/-! ### The order in the queue -/

/-- The read of the prompt is queued before the turn writer handles the transcript. -/
def ReadsFirst (s : StorageWorld) : StorageAction → Prop
  | .build => ∀ u, s.job = some u → u ∉ s.writerSeen
  | _ => True

/-- Rows and queued rows are of transcripts that the turn writer has handled, and a prompt's read has no row
of its transcript ahead. -/
structure InOrder (s : StorageWorld) : Prop where
  policy : s.memory.queue.policy = .dropNewest
  rows : ∀ t ∈ s.memory.repo.turns, ∀ u, t.source = some u → u ∈ s.writerSeen
  jobs : ∀ u row, .insertTurn (some u) row ∈ s.memory.queue.q → u ∈ s.writerSeen
  reading : ∀ u text lang, s.prompt = .reading u text lang → (∀ t ∈ s.memory.repo.turns, t.source ≠ some u) ∧
    ∃ before sid limit after, s.memory.queue.q = before ++ .snapshot sid limit :: after ∧
      (∀ j ∈ before, j.isSnapshot = false ∧ ∀ row, j ≠ .insertTurn (some u) row) ∧ ∀ j ∈ after, j.isSnapshot = false
  quiet : (∀ u text lang, s.prompt ≠ .reading u text lang) → ∀ j ∈ s.memory.queue.q, j.isSnapshot = false

lemma InOrder.posted (h : s.InOrder) {s' : StorageWorld} (hprompt : s'.prompt = s.prompt)
    (hseen : ∀ u ∈ s.writerSeen, u ∈ s'.writerSeen)
    (hposted : MemoryThread.Posted (fun j => j.isSnapshot = false ∧
      ∀ u row, j = .insertTurn (some u) row → u ∈ s'.writerSeen) s.memory s'.memory) : s'.InOrder := by
  obtain ⟨hrepo, hpolicy, extra, hq, hextra⟩ := hposted
  refine ⟨hpolicy, ?_, ?_, ?_, ?_⟩
  · rw [hrepo]
    exact fun t ht u hu => hseen u (h.rows t ht u hu)
  · rw [hq]
    intro u row hmem
    rcases List.mem_append.mp hmem with hmem | hmem
    · exact hseen u (h.jobs u row hmem)
    · exact (hextra _ hmem).2 u row rfl
  · rw [hprompt, hrepo, hq]
    intro u text lang hr
    obtain ⟨hrows, before, sid, limit, after, hsplit, hbefore, hafter⟩ := h.reading u text lang hr
    refine ⟨hrows, before, sid, limit, after ++ extra, by simp [hsplit], hbefore, fun j hj => ?_⟩
    rcases List.mem_append.mp hj with hj | hj
    · exact hafter j hj
    · exact (hextra j hj).1
  · rw [hprompt, hq]
    intro hnot j hj
    rcases List.mem_append.mp hj with hj | hj
    · exact h.quiet hnot j hj
    · exact (hextra j hj).1

/-- A step that posts one job, neither a row nor a read of a prompt. -/
lemma InOrder.post (h : s.InOrder) {s' : StorageWorld} {job : MemoryJob} (hprompt : s'.prompt = s.prompt)
    (hseen : s'.writerSeen = s.writerSeen) (hmemory : s'.memory = (s.memory.post job).1)
    (hjob : job.isSnapshot = false) (hrow : ∀ u row, job ≠ .insertTurn (some u) row) : s'.InOrder := by
  apply h.posted hprompt
  · rw [hseen]
    exact fun u hu => hu
  · rw [hmemory]
    apply (MemoryThread.Posted.refl h.policy).post
    exact ⟨hjob, fun u row heq => absurd heq (hrow u row)⟩

lemma InOrder.unread (h : s.InOrder) {s' : StorageWorld} (hrepo : s'.memory.repo = s.memory.repo)
    (hpolicy : s'.memory.queue.policy = .dropNewest) (hq : s'.memory.queue.q = s.memory.queue.q)
    (hseen : s'.writerSeen = s.writerSeen) (hnot : ∀ u text lang, s.prompt ≠ .reading u text lang)
    (hnot' : ∀ u text lang, s'.prompt ≠ .reading u text lang) : s'.InOrder := by
  refine ⟨hpolicy, ?_, ?_, fun u text lang hr => absurd hr (hnot' u text lang), fun _ => ?_⟩
  · rw [hrepo, hseen]
    exact h.rows
  · rw [hq, hseen]
    exact h.jobs
  · rw [hq]
    exact h.quiet hnot

/-- A step that leaves the memory thread and the turn writer alone, and the wait for a read. -/
lemma InOrder.keep (h : s.InOrder) {s' : StorageWorld} (hmemory : s'.memory = s.memory)
    (hseen : s'.writerSeen = s.writerSeen)
    (hprompt : s'.prompt = s.prompt ∨ s.prompt = .built ∧ s'.prompt = .idle) : s'.InOrder := by
  rcases hprompt with hprompt | ⟨hbuilt, hidle⟩
  · apply h.posted hprompt
    · rw [hseen]
      exact fun u hu => hu
    · rw [hmemory]
      exact .refl h.policy
  · apply h.unread (by rw [hmemory]) (by rw [hmemory, h.policy]) (by rw [hmemory]) hseen
    · simp [hbuilt]
    · simp [hidle]

lemma InOrder.managerOnly (h : s.InOrder) {s' : StorageWorld} (hframe : ManagerOnly s s') : s'.InOrder :=
  h.keep hframe.memory hframe.writerSeen hframe.prompt

lemma InOrder.withWriter (h : s.InOrder) (source : Option Nat) (w : TurnWriter) (seen : List Nat)
    (hseen : ∀ u ∈ s.writerSeen, u ∈ seen) (hsource : ∀ u, source = some u → u ∈ seen) :
    InOrder { s.withWriter source w with writerSeen := seen } := by
  apply h.posted
  · rfl
  · exact hseen
  · apply withWriter_posted h.policy
    intro row
    refine ⟨rfl, fun u row' heq => hsource u ?_⟩
    cases heq
    rfl

lemma InOrder.sessionRead (h : s.InOrder) (job : SessionJob) : (s.sessionRead job).InOrder :=
  h.post rfl rfl rfl rfl (by simp)

lemma InOrder.build (h : s.InOrder) (hfirst : s.ReadsFirst .build) : (s.build cfg).InOrder := by
  unfold StorageWorld.build
  split
  · rename_i e ctx u hio hidle hjob
    dsimp only
    have hnot : ∀ v text lang, s.prompt ≠ .reading v text lang := by simp [hidle]
    have hfresh : u ∉ s.writerSeen := hfirst u hjob
    split
    · exact h.unread rfl h.policy rfl rfl hnot (by simp)
    · obtain ⟨hrepo, hpolicy, hqueue⟩ :=
        MemoryThread.post_eq h.policy (.snapshot s.managerSession cfg.prompt.limit)
      rcases hqueue with ⟨hrefused, hq⟩ | ⟨haccepted, hq⟩
      · exact h.unread hrepo hpolicy hq rfl hnot (by simp [hrefused])
      · refine ⟨hpolicy, ?_, ?_, ?_, ?_⟩
        · dsimp only
          rw [hrepo]
          exact h.rows
        · dsimp only
          rw [hq]
          intro v row hmem
          exact h.jobs v row (by simpa using hmem)
        · dsimp only
          rw [hrepo, hq, haccepted]
          intro v text lang hr
          cases hr
          refine ⟨fun t ht hsource => hfresh (h.rows t ht u hsource), s.memory.queue.q, _, _, [], rfl, ?_, ?_⟩
          · intro j hj
            refine ⟨h.quiet hnot j hj, ?_⟩
            rintro row rfl
            exact hfresh (h.jobs u row hj)
          · intro j hj
            cases hj
        · dsimp only
          rw [haccepted]
          exact fun hno => absurd rfl (hno u e.text _)
  · exact h

lemma InOrder.ran (h : s.InOrder) {job : MemoryJob} {queue : BoundedQueue MemoryJob}
    (hpop : s.memory.queue.tryPop = some (job, queue)) (hjob : job.isSnapshot = false) (ok : Bool) :
    InOrder { s with memory := { s.memory with repo := (job.run ok s.memory.repo).1, queue := queue } } := by
  obtain ⟨hq, hqueue⟩ := BoundedQueue.tryPop_eq_some hpop
  refine ⟨?_, fun t ht u hu => ?_, fun u row hmem => ?_, fun u text lang hr => ?_, fun hnot j hj => ?_⟩
  · dsimp only
    rw [hqueue]
    exact h.policy
  · rcases MemoryJob.mem_turns_run ht with hold | hinsert
    · exact h.rows t hold u hu
    · apply h.jobs u t.row
      rw [hq, hinsert, hu]
      exact List.mem_cons_self
  · apply h.jobs u row
    rw [hq]
    exact List.mem_cons_of_mem _ hmem
  · obtain ⟨hrows, before, sid, limit, after, hsplit, hbefore, hafter⟩ := h.reading u text lang hr
    rw [hq] at hsplit
    cases before with
    | nil =>
      cases hsplit
      cases hjob
    | cons x before =>
      obtain ⟨rfl, hrest⟩ := List.cons.inj hsplit
      obtain ⟨hhead, hbefore'⟩ := List.forall_mem_cons.mp hbefore
      refine ⟨fun t ht hsource => ?_, before, sid, limit, after, hrest, hbefore', hafter⟩
      rcases MemoryJob.mem_turns_run ht with hold | hinsert
      · exact hrows t hold hsource
      · rw [hsource] at hinsert
        exact hhead.2 t.row hinsert
  · apply h.quiet hnot j
    rw [hq]
    exact List.mem_cons_of_mem _ hj

lemma InOrder.answered (h : s.InOrder) {sid : SessionId} {limit : Int} {queue : BoundedQueue MemoryJob}
    (hpop : s.memory.queue.tryPop = some (.snapshot sid limit, queue)) (snap : MemorySnapshot) :
    (StorageWorld.onSnapshot cfg { s with memory := { s.memory with queue := queue } } snap).InOrder := by
  obtain ⟨hq, hqueue⟩ := BoundedQueue.tryPop_eq_some hpop
  have hpolicy : queue.policy = .dropNewest := by
    rw [hqueue]
    exact h.policy
  have hjobs : ∀ u row, .insertTurn (some u) row ∈ queue.q → u ∈ s.writerSeen := by
    intro u row hmem
    apply h.jobs u row
    rw [hq]
    exact List.mem_cons_of_mem _ hmem
  unfold StorageWorld.onSnapshot
  split
  · rename_i u text lang hr
    obtain ⟨_, before, sid', limit', after, hsplit, hbefore, hafter⟩ := h.reading u text lang hr
    rw [hq] at hsplit
    refine ⟨hpolicy, h.rows, hjobs, fun v t l hbuilt => ?_, fun _ => ?_⟩
    · cases hbuilt
    · cases before with
      | nil =>
        cases hsplit
        exact hafter
      | cons x before =>
        obtain ⟨rfl, _⟩ := List.cons.inj hsplit
        exact absurd (hbefore _ List.mem_cons_self).1 (by simp [MemoryJob.isSnapshot])
  · rename_i hnot
    have hquiet := h.quiet hnot (.snapshot sid limit) (by rw [hq]; exact List.mem_cons_self)
    cases hquiet

lemma InOrder.memoryStep (h : s.InOrder) (ok : Bool) (facts : List FactRow) (summary : Option Text) :
    (s.memoryStep cfg ok facts summary).InOrder := by
  unfold StorageWorld.memoryStep
  cases hpop : s.memory.queue.tryPop with
  | none => simpa [MemoryThread.runNext, hpop] using h
  | some r =>
    obtain ⟨job, queue⟩ := r
    simp only [MemoryThread.runNext, hpop]
    cases job with
    | snapshot sid limit => exact h.answered hpop _
    | insertTurn source row => exact h.ran hpop rfl ok
    | session job => exact (h.ran hpop rfl ok).keep rfl rfl (.inl rfl)
    | other => exact h.ran hpop rfl ok

lemma InOrder.step (h : s.InOrder) (a : StorageAction) (hfirst : s.ReadsFirst a) :
    (s.step cfg contentOf a).InOrder := by
  cases a with
  | transcribed e => exact h.keep rfl rfl (.inl rfl)
  | writerFinal u now =>
    simp only [StorageWorld.step, StorageWorld.writerFinal]
    split
    · split
      · exact h
      · apply h.withWriter
        · exact fun v hv => List.mem_cons_of_mem _ hv
        · intro v hv
          cases hv
          exact List.mem_cons_self
    · exact h
  | writerEvent now e =>
    simp only [StorageWorld.step]
    split
    · exact h
    · exact h.withWriter none _ s.writerSeen (fun v hv => hv) (by simp)
  | managerFinal | managerEvent | io => exact h.managerOnly (managerOnly_step cfg contentOf s rfl)
  | build => exact h.build hfirst
  | memory ok facts summary => exact h.memoryStep ok facts summary
  | command now c =>
    simp only [StorageWorld.step]
    split
    · split
      · exact h.sessionRead _
      · exact h
    · exact h
  | openSession now =>
    simp only [StorageWorld.step]
    split
    · exact h.sessionRead _
    · exact h
  | notify =>
    simp only [StorageWorld.step, StorageWorld.notify]
    split
    · split <;> exact h.keep rfl rfl (.inl rfl)
    · exact h.keep rfl rfl (.inl rfl)
    · exact h
  | post => exact h.post rfl rfl rfl rfl (by simp)

/-- If every prompt's read is queued before the turn writer handles the transcript, every prompt says its
transcript once. -/
theorem prompts_once_of_readsFirst (cfg : StorageConfig) (contentOf : Text → Option Text) (capacity : Nat)
    (repo : Repository) (hrepo : ∀ t ∈ repo.turns, t.source = none) (as : List StorageAction)
    (h : Runs.Along (step cfg contentOf) ReadsFirst (started capacity repo) as) :
    (Runs.exec (step cfg contentOf) (started capacity repo) as).AllOnce := by
  rw [allOnce_run (tracked_started capacity repo)]
  refine ⟨allOnce_started capacity repo, ?_⟩
  apply Runs.Along.imp InOrder (fun s a hs ha => hs.step a ha) _ h
  · refine ⟨rfl, fun t ht u hu => ?_, fun u row hmem => ?_, fun u text lang hr => ?_, fun _ j hj => ?_⟩
    · rw [hrepo t ht] at hu
      cases hu
    · cases hmem
    · cases hr
    · cases hj
  · intro s a hs _
    cases a with
    | memory ok facts summary =>
      intro u text lang hr sid limit _ _ t ht _
      exact (hs.reading u text lang hr).1 t (Repository.mem_of_mem_recentTurns ht).1
    | _ => trivial

/-- The turn writer handles the transcript after the read is queued. -/
example : (Runs.exec (step {} some) (started 256 {}) (opened ++ prompted ++
    [.writerFinal 0 0, .memory true [] none])).AllOnce := by
  decide +kernel

end StorageWorld

end Acva
