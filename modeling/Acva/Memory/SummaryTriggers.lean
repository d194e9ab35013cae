import Acva.Memory.Summarizer

/-!
# What starts a summary

`on_event` counts on the thread of the bus and decides afterwards, while the worker first gets its row written and then
resets the counter. The request for a summary goes through the client of the dialogue, so its `LlmFinished` comes back
to `on_event`. `exchanges` is the number of turns of the dialogue that were counted since `run_one_summary` last
returned true.
-/

namespace Acva

/-- `handler` is the event in `on_event` with the count it has got, `answer` what the model has said. `wrote` says that
the worker is about to reset the counter; `counted` and `triggers` note what `on_event` has done. -/
structure TriggerWorld where
  world : SummaryWorld
  inbox : BoundedQueue LlmFinished := { capacity := 64, policy := .dropOldest }
  handler : Option (LlmFinished × Nat) := none
  answer : Option (Bool × Text) := none
  wrote : Bool := false
  exchanges : Nat := 0
  counted : List LlmFinished := []
  triggers : List (LlmFinished × Nat) := []
  deriving DecidableEq, Repr

/-- `publish` stands for the other threads that use the client. -/
inductive TriggerAction
  | publish (e : LlmFinished)
  | handle
  | check
  | answers (sent errored : Bool) (text : Text) (tokens : Nat)
  | resume
  | reset
  | other (a : SummaryAction)
  deriving DecidableEq, Repr

namespace TriggerWorld

def publish (r : TriggerWorld) (e : LlmFinished) : TriggerWorld :=
  match r.inbox.push e with
  | some p => { r with inbox := p.1 }
  | none => r

/-- `on_event` up to `fetch_add`. -/
def handle (r : TriggerWorld) : TriggerWorld :=
  match r.handler, r.inbox.tryPop with
  | none, some (e, inbox) =>
    if e.cancelled then { r with inbox := inbox }
    else
      let count := r.world.summarizer.turnsSinceSummary + 2
      { r with
        world := { r.world with summarizer := { r.world.summarizer with turnsSinceSummary := count } }
        inbox := inbox
        handler := some (e, count)
        exchanges := if e.turn = kNoTurn then r.exchanges else r.exchanges + 1
        counted := r.counted ++ [e] }
  | _, _ => r

/-- `on_event` after `fetch_add`. -/
def check (turnThreshold : Nat) (r : TriggerWorld) : TriggerWorld :=
  match r.handler with
  | some (e, count) =>
    if turnThreshold ≤ count then
      { r with
        world := { r.world with summarizer := r.world.summarizer.triggerNow }
        handler := none
        triggers := r.triggers ++ [(e, r.exchanges)] }
    else { r with handler := none }
  | none => r

/-- `LlmClient::submit` for the summary comes to its end; it publishes unless curl cannot be set up. -/
def answers (r : TriggerWorld) (sent errored : Bool) (text : Text) (tokens : Nat) : TriggerWorld :=
  match r.world.summarizer.stage, r.answer with
  | .summarizing _ _ _, none =>
    if sent then { r with answer := some (errored, text) }.publish { turn := kNoTurn, tokensGenerated := tokens }
    else { r with answer := some (true, []) }
  | _, _ => r

/-- The worker goes on with the answer. -/
def resume (r : TriggerWorld) : TriggerWorld :=
  match r.answer with
  | some (errored, text) => { r with world := r.world.llmReturns errored text, answer := none }
  | none => r

/-- The worker gets the result of the insertion before it resets the counter. -/
def memory (r : TriggerWorld) (ok okTurns bodyOk : Bool) (now : Int) : TriggerWorld :=
  let world := r.world.memory ok okTurns bodyOk now
  if r.world.summarizer.summariesWritten < world.summarizer.summariesWritten then
    { r with
      world := { world with summarizer := { world.summarizer with
        turnsSinceSummary := r.world.summarizer.turnsSinceSummary
        summariesWritten := r.world.summarizer.summariesWritten } }
      wrote := true
      exchanges := 0 }
  else { r with world := world }

def reset (r : TriggerWorld) : TriggerWorld :=
  if r.wrote then
    { r with
      world := { r.world with summarizer := { r.world.summarizer with
        turnsSinceSummary := 0
        summariesWritten := r.world.summarizer.summariesWritten + 1 } }
      wrote := false }
  else r

def step (turnThreshold : Nat) (r : TriggerWorld) : TriggerAction → TriggerWorld
  | .publish e => r.publish e
  | .handle => r.handle
  | .check => r.check turnThreshold
  | .answers sent errored text tokens => r.answers sent errored text tokens
  | .resume => r.resume
  | .reset => r.reset
  | .other a =>
    match a with
    | .llmFinished _ | .llmReturns _ _ => r
    | .memory ok okTurns bodyOk now => r.memory ok okTurns bodyOk now
    | .work => if r.wrote then r else { r with world := r.world.work }
    | a => { r with world := r.world.step turnThreshold a }

/-- Only turns of the dialogue were counted, and only after enough of them a summary was started. -/
structure ByConversation (turnThreshold : Nat) (r : TriggerWorld) : Prop where
  counted : ∀ e ∈ r.counted, e.turn ≠ kNoTurn
  triggers : ∀ p ∈ r.triggers, p.1.turn ≠ kNoTurn ∧ turnThreshold ≤ 2 * p.2

/-- The event that `on_event` counts next is one of a turn of the dialogue, and it does not reach the threshold with a
counter that is about to be reset; no summary is written while an event that has reached it is still to be decided. -/
def Clean (turnThreshold : Nat) (r : TriggerWorld) : TriggerAction → Prop
  | .handle => r.handler = none → ∀ p ∈ r.inbox.tryPop, p.1.cancelled = false →
      p.1.turn ≠ kNoTurn ∧ (r.wrote = true → r.world.summarizer.turnsSinceSummary + 2 < turnThreshold)
  | .other (.memory ok _ _ _) =>
    match r.world.queue.q with
    | .insertSummary draft :: _ => ok = true → r.world.tables.repo.hasSession draft.session = true →
        ∀ p ∈ r.handler, p.2 < turnThreshold
    | _ => True
  | _ => True

instance (turnThreshold : Nat) (r : TriggerWorld) (a : TriggerAction) : Decidable (r.Clean turnThreshold a) := by
  unfold Clean
  split
  · infer_instance
  · split <;> infer_instance
  · infer_instance

end TriggerWorld

lemma Summarizer.onSnapshot_counters (z : Summarizer) (bodyOk : Bool) (wipes : Nat) (snap : SummarySnapshot) :
    (z.onSnapshot bodyOk wipes snap).turnsSinceSummary = z.turnsSinceSummary ∧
      (z.onSnapshot bodyOk wipes snap).summariesWritten = z.summariesWritten := by
  unfold onSnapshot
  split
  · split <;> exact ⟨rfl, rfl⟩
  · exact ⟨rfl, rfl⟩

lemma Summarizer.onInserted_counters (z : Summarizer) (ok : Bool) :
    ((z.onInserted ok).turnsSinceSummary = z.turnsSinceSummary ∧
        (z.onInserted ok).summariesWritten = z.summariesWritten) ∨
      ((z.onInserted ok).turnsSinceSummary = 0 ∧ (z.onInserted ok).summariesWritten = z.summariesWritten + 1 ∧
        ok = true) := by
  unfold onInserted
  split
  · split
    · rename_i hok
      exact .inr ⟨rfl, rfl, hok⟩
    · exact .inl ⟨rfl, rfl⟩
  · exact .inl ⟨rfl, rfl⟩

namespace SummaryWorld

variable {s : SummaryWorld}

lemma insertSummary_result (ok okTurns : Bool) (now : Int) (t : MemoryTables) (draft : SummaryDraft) :
    ((TablesJob.insertSummary draft).run ok okTurns now t).2 = .inserted (ok && t.repo.hasSession draft.session) := by
  cases ok with
  | false => rfl
  | true => cases hsession : t.repo.hasSession draft.session <;>
      simp [TablesJob.run, MemoryTables.insertSummary, hsession]

lemma submit_summarizer (s : SummaryWorld) (job : TablesJob) : (s.submit job).1.summarizer = s.summarizer := by
  unfold submit
  split <;> rfl

lemma await_turns (s : SummaryWorld) (job : TablesJob) (stage : SummarizerStage) :
    (s.await job stage).summarizer.turnsSinceSummary = s.summarizer.turnsSinceSummary := by
  simp only [await, setStage, submit_summarizer]

lemma work_turns (s : SummaryWorld) : s.work.summarizer.turnsSinceSummary = s.summarizer.turnsSinceSummary := by
  unfold work
  split
  · split <;> rfl
  · split
    · rfl
    · exact await_turns s _ _
  · rfl

lemma llmReturns_turns (s : SummaryWorld) (errored : Bool) (text : Text) :
    (s.llmReturns errored text).summarizer.turnsSinceSummary = s.summarizer.turnsSinceSummary := by
  unfold llmReturns
  split
  · exact await_turns s _ _
  · rfl

lemma notify_turns (s : SummaryWorld) : s.notify.summarizer.turnsSinceSummary = s.summarizer.turnsSinceSummary := by
  unfold notify
  split
  · split <;> rfl
  · rfl
  · rfl

lemma sessionRead_turns (s : SummaryWorld) (job : SessionJob) :
    (s.sessionRead job).summarizer.turnsSinceSummary = s.summarizer.turnsSinceSummary := by
  simp only [sessionRead, submit_summarizer]

/-- Besides the memory thread and `on_event` nothing bears on the counter. -/
lemma step_turns {turnThreshold : Nat} {a : SummaryAction} (hevent : ∀ e, a ≠ .llmFinished e)
    (hmemory : ∀ ok okTurns bodyOk now, a ≠ .memory ok okTurns bodyOk now) :
    (s.step turnThreshold a).summarizer.turnsSinceSummary = s.summarizer.turnsSinceSummary := by
  cases a with
  | llmFinished e => exact absurd rfl (hevent e)
  | trigger => rfl
  | work => exact s.work_turns
  | llmReturns errored text => exact s.llmReturns_turns errored text
  | memory ok okTurns bodyOk now => exact absurd rfl (hmemory ok okTurns bodyOk now)
  | command now c =>
    simp only [step]
    split
    · split
      · exact s.sessionRead_turns _
      · rfl
    · rfl
  | openSession now =>
    simp only [step]
    split
    · exact s.sessionRead_turns _
    · rfl
  | notify => exact s.notify_turns
  | post job =>
    simp only [step]
    split
    · rfl
    · rw [submit_summarizer]

/-- The memory thread leaves the counters alone, unless it inserts a summary that the worker waits for. -/
lemma memory_counters (s : SummaryWorld) (ok okTurns bodyOk : Bool) (now : Int) :
    ((s.memory ok okTurns bodyOk now).summarizer.turnsSinceSummary = s.summarizer.turnsSinceSummary ∧
        (s.memory ok okTurns bodyOk now).summarizer.summariesWritten = s.summarizer.summariesWritten) ∨
      ((s.memory ok okTurns bodyOk now).summarizer.turnsSinceSummary = 0 ∧
        (s.memory ok okTurns bodyOk now).summarizer.summariesWritten = s.summarizer.summariesWritten + 1 ∧
        ok = true ∧ ∃ draft rest, s.queue.q = .insertSummary draft :: rest ∧
          s.tables.repo.hasSession draft.session = true) := by
  cases hq : s.queue.q with
  | nil =>
    have hsame : s.memory ok okTurns bodyOk now = s := by simp only [memory, BoundedQueue.tryPop, hq]
    exact .inl ⟨by rw [hsame], by rw [hsame]⟩
  | cons job rest =>
    simp only [memory, BoundedQueue.tryPop, hq]
    cases job with
    | memory job =>
      refine .inl ?_
      cases job <;> exact ⟨rfl, rfl⟩
    | summarySnapshot session =>
      exact .inl (s.summarizer.onSnapshot_counters bodyOk _ _)
    | insertSummary draft =>
      simp only [onResult, insertSummary_result]
      rcases s.summarizer.onInserted_counters (ok && s.tables.repo.hasSession draft.session) with
        h | ⟨hturns, hwritten, h⟩
      · exact .inl h
      · obtain ⟨hok, hsession⟩ := Bool.and_eq_true_iff.mp h
        exact .inr ⟨hturns, hwritten, hok, draft, rest, rfl, hsession⟩

end SummaryWorld

namespace TriggerWorld

variable {r : TriggerWorld} {turnThreshold : Nat}

/-- `on_event` counted and decided at once is the step of the world. -/
lemma check_handle {e : LlmFinished} {inbox : BoundedQueue LlmFinished} (hidle : r.handler = none)
    (hnext : r.inbox.tryPop = some (e, inbox)) :
    (r.handle.check turnThreshold).world = r.world.step turnThreshold (.llmFinished e) := by
  simp only [handle, hidle, hnext, SummaryWorld.step, Summarizer.onLlmFinished]
  by_cases hcancelled : e.cancelled = true
  · simp only [hcancelled, if_true, check]
  · simp only [hcancelled, check]
    by_cases hle : turnThreshold ≤ r.world.summarizer.turnsSinceSummary + 2
    · simp [hle]
    · simp [hle]

lemma reset_memory (hwrote : r.wrote = false) (ok okTurns bodyOk : Bool) (now : Int) :
    (r.memory ok okTurns bodyOk now).reset.world = r.world.memory ok okTurns bodyOk now := by
  have hcounters := r.world.memory_counters ok okTurns bodyOk now
  simp only [memory]
  generalize r.world.memory ok okTurns bodyOk now = world at hcounters ⊢
  obtain ⟨tables, queue, sessions, session, jobPending, turnsSinceSummary, summariesWritten, stage⟩ := world
  rcases hcounters with ⟨-, rfl⟩ | ⟨rfl, rfl, -⟩
  · simp [reset, hwrote]
  · simp [reset]

/-- The counter holds no more than the turns of the dialogue, and neither does the count that is to be decided. -/
structure Counted (turnThreshold : Nat) (r : TriggerWorld) : Prop where
  conversation : r.ByConversation turnThreshold
  turns : r.wrote = false → r.world.summarizer.turnsSinceSummary ≤ 2 * r.exchanges
  handler : ∀ p ∈ r.handler, p.1.turn ≠ kNoTurn ∧ (turnThreshold ≤ p.2 → turnThreshold ≤ 2 * r.exchanges)

/-- Steps beside `on_event` that leave the counter alone. -/
lemma Counted.of_world (h : r.Counted turnThreshold) {world : SummaryWorld} {inbox : BoundedQueue LlmFinished}
    {answer : Option (Bool × Text)}
    (hturns : world.summarizer.turnsSinceSummary = r.world.summarizer.turnsSinceSummary) :
    Counted turnThreshold { r with world := world, inbox := inbox, answer := answer } :=
  ⟨⟨h.conversation.counted, h.conversation.triggers⟩, fun hwrote => hturns ▸ h.turns hwrote, h.handler⟩

lemma Counted.publish (h : r.Counted turnThreshold) (e : LlmFinished) : (r.publish e).Counted turnThreshold := by
  unfold TriggerWorld.publish
  split
  · exact h.of_world rfl
  · exact h

lemma Counted.handle (h : r.Counted turnThreshold) (hclean : r.Clean turnThreshold .handle) :
    r.handle.Counted turnThreshold := by
  unfold TriggerWorld.handle
  split
  · rename_i e inbox hidle hnext
    split
    · exact h.of_world rfl
    · rename_i hcancelled
      obtain ⟨hturn, hreset⟩ := hclean hidle (e, inbox) hnext (by simpa using hcancelled)
      have hexchanges : (if e.turn = kNoTurn then r.exchanges else r.exchanges + 1) = r.exchanges + 1 := if_neg hturn
      refine ⟨⟨?_, h.conversation.triggers⟩, ?_, ?_⟩
      · intro e' he'
        rcases List.mem_append.mp he' with he' | he'
        · exact h.conversation.counted e' he'
        · exact List.mem_singleton.mp he' ▸ hturn
      · intro hwrote
        have := h.turns hwrote
        simp only [hexchanges]
        omega
      · rintro p hp
        obtain rfl := Option.mem_some_iff.mp hp
        refine ⟨hturn, fun hle => ?_⟩
        simp only [hexchanges]
        cases hwrote : r.wrote with
        | false =>
          have := h.turns hwrote
          omega
        | true =>
          have := hreset hwrote
          omega
  · exact h

lemma Counted.check (h : r.Counted turnThreshold) : (r.check turnThreshold).Counted turnThreshold := by
  unfold TriggerWorld.check
  split
  · rename_i e count hhandler
    obtain ⟨hturn, henough⟩ := h.handler (e, count) hhandler
    split
    · rename_i hle
      refine ⟨⟨h.conversation.counted, ?_⟩, h.turns, fun p hp => absurd hp (Option.not_mem_none p)⟩
      intro p hp
      rcases List.mem_append.mp hp with hp | hp
      · exact h.conversation.triggers p hp
      · exact List.mem_singleton.mp hp ▸ ⟨hturn, henough hle⟩
    · exact ⟨⟨h.conversation.counted, h.conversation.triggers⟩, h.turns, fun p hp => absurd hp (Option.not_mem_none p)⟩
  · exact h

lemma Counted.memory (h : r.Counted turnThreshold) {ok okTurns bodyOk : Bool} {now : Int}
    (hclean : r.Clean turnThreshold (.other (.memory ok okTurns bodyOk now))) :
    (r.memory ok okTurns bodyOk now).Counted turnThreshold := by
  simp only [TriggerWorld.memory]
  rcases r.world.memory_counters ok okTurns bodyOk now with
    ⟨hturns, hwritten⟩ | ⟨-, hwritten, hok, draft, rest, hq, hsession⟩
  · rw [if_neg (by omega)]
    exact h.of_world hturns
  · rw [if_pos (by omega)]
    refine ⟨⟨h.conversation.counted, h.conversation.triggers⟩, ?_, ?_⟩
    · exact fun hwrote => absurd hwrote (by simp)
    · intro p hp
      simp only [Clean, hq] at hclean
      have hlt := hclean hok hsession p hp
      exact ⟨(h.handler p hp).1, fun hle => absurd hle (not_le.mpr hlt)⟩

lemma Counted.reset (h : r.Counted turnThreshold) : r.reset.Counted turnThreshold := by
  unfold TriggerWorld.reset
  split
  · exact ⟨⟨h.conversation.counted, h.conversation.triggers⟩, fun _ => Nat.zero_le _, h.handler⟩
  · exact h

lemma Counted.step (h : r.Counted turnThreshold) {a : TriggerAction} (hclean : r.Clean turnThreshold a) :
    (r.step turnThreshold a).Counted turnThreshold := by
  cases a with
  | publish e => exact h.publish e
  | handle => exact h.handle hclean
  | check => exact h.check
  | answers sent errored text tokens =>
    simp only [TriggerWorld.step, answers]
    split
    · split
      · exact Counted.publish (h.of_world rfl) _
      · exact h.of_world rfl
    · exact h
  | resume =>
    simp only [TriggerWorld.step, resume]
    split
    · exact h.of_world (r.world.llmReturns_turns _ _)
    · exact h
  | reset => exact h.reset
  | other a =>
    cases a with
    | llmFinished e | llmReturns errored text => exact h
    | memory ok okTurns bodyOk now => exact h.memory hclean
    | work =>
      simp only [TriggerWorld.step]
      split
      · exact h
      · exact h.of_world r.world.work_turns
    | trigger | command | openSession | notify | post => exact h.of_world (SummaryWorld.step_turns (by simp) (by simp))

def started (capacity : Nat) (tables : MemoryTables) : TriggerWorld := { world := SummaryWorld.started capacity tables }

/-- In every run in which no event of the summarizer's own calls is counted and no summary is written or waits for the
reset around a count that reaches the threshold, the conversation alone starts the summaries. -/
theorem summaries_by_conversation (turnThreshold capacity : Nat) (tables : MemoryTables) {as : List TriggerAction}
    (hclean : Runs.Along (step turnThreshold) (Clean turnThreshold) (started capacity tables) as) :
    (Runs.exec (step turnThreshold) (started capacity tables) as).ByConversation turnThreshold := by
  have hstart : (started capacity tables).Counted turnThreshold := by
    refine ⟨⟨?_, ?_⟩, fun _ => Nat.zero_le _, ?_⟩
    · exact fun e he => absurd he List.not_mem_nil
    · exact fun p hp => absurd hp List.not_mem_nil
    · exact fun p hp => absurd hp (Option.not_mem_none p)
  exact (hclean.invariant (Counted turnThreshold) (fun _ _ h hstep => h.step hstep) hstart).conversation

/-- A session with one turn of the dialogue, after which a summary is written. -/
def summarizing : List TriggerAction :=
  [.other (.command 0 .openInitial), .other (.memory true true true 0), .other .notify, .other .notify, .other .notify,
    .other .notify, .other (.post (.insertTurn none
      { session := 1, role := .user, text := ascii "hello", lang := none, startedAt := 1, endedAt := 1
        status := .committed, interruptedAt := none })),
    .other (.memory true true true 1), .publish { turn := 1 }, .handle, .check, .other .work, .other .work,
    .other (.memory true true true 2), .answers true false (ascii "a greeting") 2, .resume,
    .other (.memory true true true 3), .reset]

theorem first_summary_by_conversation :
    (Runs.exec (step 2) (started 8 {}) summarizing).triggers = [({ turn := 1 }, 1)] ∧
      (Runs.exec (step 2) (started 8 {}) summarizing).world.summarizer.summariesWritten = 1 ∧
      (Runs.exec (step 2) (started 8 {}) summarizing).ByConversation 2 :=
  ⟨by decide, by decide, summaries_by_conversation 2 8 {} (by decide)⟩

/-- The event of the summary's own request is counted after the reset, and starts another one. -/
theorem own_request_triggers :
    let r := Runs.exec (step 2) (started 8 {}) (summarizing ++ [.handle, .check])
    r.triggers = [({ turn := 1 }, 1), ({ turn := kNoTurn, tokensGenerated := 2 }, 0)] ∧
      r.world.summarizer.jobPending = true ∧ ¬r.ByConversation 2 := by
  refine ⟨by decide, by decide, fun h => ?_⟩
  have hown := h.triggers ({ turn := kNoTurn, tokensGenerated := 2 }, 0) (by decide)
  exact hown.1 rfl

end TriggerWorld

end Acva
