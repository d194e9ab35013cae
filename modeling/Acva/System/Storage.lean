import Acva.Dialogue.Session
import Acva.Llm.PromptBuilder
import Acva.System.Discard

/-!
# Transcripts, sessions and the memory thread

A transcript goes to the manager and to the turn writer, each of which handles it in its own time. The turn
writer posts the user's row; the manager's I/O thread reads the recent turns for the prompt through the same
queue. Session operations run beside both and tell them the new id one after the other. Transcripts are
numbered in the order of publication.
-/

namespace Acva

structure StorageConfig where
  manager : ManagerConfig := {}
  prompt : PromptConfig := {}

/-- Where `run_one` is with its prompt. A read that the queue refuses throws. -/
inductive PromptStage
  | idle
  | reading (u : Nat) (text lang : Text)
  | built
  | failed
  deriving DecidableEq, Repr

/-- `slot` and `job` number the transcripts in the manager's slot and with its I/O thread. -/
structure StorageWorld where
  memory : MemoryThread := {}
  sessions : SessionManager := {}
  writer : TurnWriter := {}
  manager : ManagerWorld := {}
  managerSession : SessionId := 0
  prompt : PromptStage := .idle
  transcripts : List FinalTranscript := []
  writerSeen : List Nat := []
  managerSeen : List Nat := []
  slot : Option Nat := none
  job : Option Nat := none
  prompts : List Prompt := []

inductive StorageAction
  | transcribed (e : FinalTranscript)
  | writerFinal (u : Nat) (now : Int)
  | writerEvent (now : Int) (e : Event)
  | managerFinal (u : Nat) (now : Time) (gateOpen : Bool)
  | managerEvent (now : Time) (gateOpen : Bool) (e : Event)
  | io (a : IoAction)
  | build
  | memory (ok : Bool) (facts : List FactRow) (summary : Option Text)
  | command (now : Int) (c : SessionCommand)
  | openSession (now : Int)
  | notify
  | post
  deriving DecidableEq, Repr

def Event.isFinalTranscript : Event → Bool
  | .finalTranscript _ => true
  | _ => false

/-- Steps of the manager's threads up to the prompt and after it. -/
def StorageAction.isManagers : StorageAction → Bool
  | .managerFinal _ _ _ | .managerEvent _ _ _ | .io _ => true
  | _ => false

namespace StorageWorld

variable (cfg : StorageConfig) (contentOf : Text → Option Text)

/-- The turn writer has handled an event; its rows are posted. -/
def withWriter (s : StorageWorld) (source : Option Nat) (w : TurnWriter) : StorageWorld :=
  { s with writer := w
           memory := (w.posts.drop s.writer.posts.length).foldl
             (fun m p => (m.post (.insertTurn source p.2)).1) s.memory }

def writerFinal (s : StorageWorld) (u : Nat) (now : Int) : StorageWorld :=
  match s.transcripts[u]? with
  | some e =>
    if u ∈ s.writerSeen then s
    else { s.withWriter (some u) (s.writer.handleFinal now e) with writerSeen := u :: s.writerSeen }
  | none => s

def managerFinal (s : StorageWorld) (u : Nat) (now : Time) (gateOpen : Bool) : StorageWorld :=
  match s.transcripts[u]? with
  | some e =>
    if u ∈ s.managerSeen then s
    else { s with manager := s.manager.onEvent cfg.manager now gateOpen (.finalTranscript e)
                  slot := if rejects cfg.manager gateOpen e then s.slot else some u
                  managerSeen := u :: s.managerSeen }
  | none => s

/-- The I/O thread goes past `build` only with a prompt. -/
def ioStep (s : StorageWorld) (a : IoAction) : StorageWorld :=
  let manager := s.manager.ioStep cfg.manager contentOf a
  match s.manager.manager.io with
  | .waiting =>
    if a = .advance ∧ s.manager.manager.pending.isSome then { s with manager := manager, job := s.slot, slot := none }
    else { s with manager := manager }
  | .adopted _ _ => if s.prompt = .built then { s with manager := manager, prompt := .idle } else s
  | _ => { s with manager := manager }

/-- The prompt for transcript `u` from a snapshot. -/
def assembled (snap : MemorySnapshot) (u : Nat) (text lang : Text) : Prompt :=
  ⟨u, assembleMessages (assembleSystemContent cfg.manager cfg.prompt lang snap) snap u text⟩

/-- `PromptBuilder::build` up to its read, or to its end without a session. -/
def build (s : StorageWorld) : StorageWorld :=
  match s.manager.manager.io, s.prompt, s.job with
  | .adopted e _, .idle, some u =>
    let lang := if e.lang = [] then cfg.manager.fallbackLanguage else e.lang
    if s.managerSession = 0 then
      { s with prompt := .built, prompts := s.prompts ++ [assembled cfg {} u e.text lang] }
    else
      let r := s.memory.post (.snapshot s.managerSession cfg.prompt.limit)
      { s with memory := r.1, prompt := if r.2 then .reading u e.text lang else .failed }
  | _, _, _ => s

/-- The rest of `build`. -/
def onSnapshot (s : StorageWorld) (snap : MemorySnapshot) : StorageWorld :=
  match s.prompt with
  | .reading u text lang =>
    { s with prompt := .built, prompts := s.prompts ++ [assembled cfg snap u text lang] }
  | _ => s

/-- The memory thread runs a job and whoever waits for it gets the result. -/
def memoryStep (s : StorageWorld) (ok : Bool) (facts : List FactRow) (summary : Option Text) : StorageWorld :=
  match s.memory.runNext ok with
  | none => s
  | some (job, result, memory) =>
    let s := { s with memory := memory }
    match job, result with
    | .snapshot _ _, .turns rows =>
      s.onSnapshot cfg { facts := facts, summary := summary, turns := rows.filter fun t => t.row.usable }
    | .session job, result => { s with sessions := s.sessions.onResult job result }
    | _, _ => s

/-- `memory_->read` of the session manager up to the wait. -/
def sessionRead (s : StorageWorld) (job : SessionJob) : StorageWorld :=
  let r := s.memory.post (.session job)
  { s with memory := r.1, sessions := { s.sessions with stage := if r.2 then .reading job else .idle } }

def notify (s : StorageWorld) : StorageWorld :=
  match s.sessions.stage with
  | .notifying id (x :: rest) =>
    let s := { s with sessions := { s.sessions with stage := .notifying id rest } }
    match x with
    | .manager => { s with managerSession := id }
    | .turnWriter => { s with writer := { s.writer with session := id } }
    | .summarizer => s
  | .notifying _ [] => { s with sessions := { s.sessions with stage := .idle } }
  | _ => s

def step (s : StorageWorld) : StorageAction → StorageWorld
  | .transcribed e => { s with transcripts := s.transcripts ++ [e] }
  | .writerFinal u now => s.writerFinal u now
  | .writerEvent now e => if e.isFinalTranscript then s else s.withWriter none (s.writer.onEvent now e)
  | .managerFinal u now gateOpen => s.managerFinal cfg u now gateOpen
  | .managerEvent now gateOpen e =>
    if e.isFinalTranscript then s else { s with manager := s.manager.onEvent cfg.manager now gateOpen e }
  | .io a => s.ioStep cfg contentOf a
  | .build => s.build cfg
  | .memory ok facts summary => s.memoryStep cfg ok facts summary
  | .command now c =>
    match s.sessions.stage with
    | .idle => match s.sessions.firstRead now c with
      | some job => s.sessionRead job
      | none => s
    | _ => s
  | .openSession now =>
    match s.sessions.stage with
    | .opening => s.sessionRead (.insertSession now)
    | _ => s
  | .notify => s.notify
  | .post => { s with memory := (s.memory.post .other).1 }

lemma withWriter_posted {s : StorageWorld} {p : MemoryJob → Prop} {source : Option Nat}
    (hpolicy : s.memory.queue.policy = .dropNewest) (hp : ∀ row, p (.insertTurn source row)) (w : TurnWriter) :
    MemoryThread.Posted p s.memory (s.withWriter source w).memory := by
  have hfold : ∀ (rows : List (TurnId × TurnRow)) (m : MemoryThread), MemoryThread.Posted p s.memory m →
      MemoryThread.Posted p s.memory (rows.foldl (fun m p => (m.post (.insertTurn source p.2)).1) m) := by
    intro rows
    induction rows with
    | nil => exact fun m hm => hm
    | cons r rows ih => exact fun m hm => ih _ (hm.post (hp r.2))
  exact hfold _ _ (.refl hpolicy)

/-- The steps of the manager leave what is stored alone; a prompt is at most taken up. -/
structure ManagerOnly (s s' : StorageWorld) : Prop where
  memory : s'.memory = s.memory
  sessions : s'.sessions = s.sessions
  writer : s'.writer = s.writer
  writerSeen : s'.writerSeen = s.writerSeen
  transcripts : s'.transcripts = s.transcripts
  prompts : s'.prompts = s.prompts
  prompt : s'.prompt = s.prompt ∨ s.prompt = .built ∧ s'.prompt = .idle

lemma managerOnly_step (s : StorageWorld) {a : StorageAction} (ha : a.isManagers = true) :
    ManagerOnly s (s.step cfg contentOf a) := by
  have hself : ManagerOnly s s := ⟨rfl, rfl, rfl, rfl, rfl, rfl, .inl rfl⟩
  cases a with
  | managerFinal u now gateOpen =>
    simp only [step, managerFinal]
    split
    · split
      · exact hself
      · exact ⟨rfl, rfl, rfl, rfl, rfl, rfl, .inl rfl⟩
    · exact hself
  | managerEvent now gateOpen e =>
    simp only [step]
    split
    · exact hself
    · exact ⟨rfl, rfl, rfl, rfl, rfl, rfl, .inl rfl⟩
  | io a =>
    simp only [step, ioStep]
    split
    · split <;> exact ⟨rfl, rfl, rfl, rfl, rfl, rfl, .inl rfl⟩
    · split
      · rename_i hbuilt
        exact ⟨rfl, rfl, rfl, rfl, rfl, rfl, .inr ⟨hbuilt, rfl⟩⟩
      · exact hself
    · exact ⟨rfl, rfl, rfl, rfl, rfl, rfl, .inl rfl⟩
  | _ => cases ha

/-- A fresh start: the memory thread with its queue, on any database. -/
def started (capacity : Nat) (repo : Repository) : StorageWorld :=
  { memory := { repo := repo, queue := { capacity := capacity, policy := .dropNewest } } }

/-- A session is open and one transcript is published. -/
def opened : List StorageAction :=
  [.command 0 .openInitial, .memory true [] none, .notify, .notify, .notify, .notify,
    .transcribed { turn := 1, text := ascii "hello" }]

end StorageWorld

end Acva
