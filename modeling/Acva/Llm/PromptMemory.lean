import Acva.Llm.PromptBuilder
import Acva.Memory.SummaryRanges

/-!
# What the prompt remembers

`read_snapshot` over the tables: the latest summary and the newest turns of the session. A summary covers the turns
after the one before it, so of the turns before its range only those are in the prompt that are among the newest.
-/

namespace Acva

/-- The memory of a prompt, before the texts are assembled. -/
structure PromptMemory where
  summary : Option SummaryRow := none
  turns : List StoredTurn := []
  deriving DecidableEq, Repr

namespace PromptMemory

/-- A query that fails leaves its part empty, and so does a missing session. -/
def read (prompts : PromptConfig) (t : MemoryTables) (okSummary okTurns : Bool) (sid : SessionId) : PromptMemory :=
  if sid = 0 then {}
  else
    { summary := if okSummary then t.latestSummary sid else none
      turns := if okTurns then (t.repo.recentTurns sid prompts.limit).filter fun u => u.row.usable else [] }

/-- The texts that go into the messages. -/
def snapshot (m : PromptMemory) (facts : List FactRow) : MemorySnapshot :=
  { facts := facts, summary := m.summary.map (·.summary), turns := m.turns }

/-- The messages of a prompt with this memory, for the transcript with number `u`. -/
def messages (cfg : ManagerConfig) (prompts : PromptConfig) (m : PromptMemory) (facts : List FactRow) (lang : Text)
    (u : Nat) (text : Text) : List ChatMessage :=
  assembleMessages (assembleSystemContent cfg prompts lang (m.snapshot facts)) (m.snapshot facts) u text

/-- A turn is in the range of the summary, or there word for word. -/
def Has (m : PromptMemory) (u : StoredTurn) : Prop :=
  (∃ row ∈ m.summary, row.rangeStart ≤ u.id ∧ u.id ≤ row.rangeEnd) ∨ u ∈ m.turns

instance (m : PromptMemory) (u : StoredTurn) : Decidable (m.Has u) :=
  inferInstanceAs (Decidable ((∃ row ∈ m.summary, row.rangeStart ≤ u.id ∧ u.id ≤ row.rangeEnd) ∨ u ∈ m.turns))

/-- The prompt says its turns word for word, and its summary in the system message. -/
lemma messages_say (cfg : ManagerConfig) (prompts : PromptConfig) (m : PromptMemory) (facts : List FactRow)
    (lang : Text) (u : Nat) (text : Text) :
    (∀ t ∈ m.turns, t.message ∈ m.messages cfg prompts facts lang u text) ∧
      ∀ row ∈ m.summary, ∃ content, (m.messages cfg prompts facts lang u text).head? = some ⟨.system, content, none⟩ ∧
        ascii "\n\nEarlier conversation summary:\n" ++ row.summary <:+: content := by
  constructor
  · intro t ht
    have hmessage : t.message ∈ m.turns.map StoredTurn.message := List.mem_map_of_mem ht
    exact List.mem_append_left _ (List.mem_cons_of_mem _ hmessage)
  · intro row hrow
    have hsummary : (m.snapshot facts).summary = some row.summary := by
      simp only [snapshot, Option.mem_def.mp hrow, Option.map_some]
    refine ⟨_, rfl, ?_⟩
    simp only [assembleSystemContent, hsummary]
    exact List.infix_append _ _ _

end PromptMemory

namespace MemoryTables

/-- The turns of the session that a prompt should know by its latest summary. -/
def summarized (t : MemoryTables) (sid : SessionId) (rangeEnd : Nat) : List StoredTurn :=
  t.repo.turns.filter fun u => u.row.session = sid ∧ u.row.usable ∧ u.id ≤ rangeEnd

/-- No turn up to the end of the latest summary is missing in the prompt. -/
def NoHole (t : MemoryTables) (sid : SessionId) (m : PromptMemory) : Prop :=
  ∀ latest ∈ t.latestSummary sid, ∀ u ∈ t.summarized sid latest.rangeEnd, m.Has u

instance (t : MemoryTables) (sid : SessionId) (m : PromptMemory) : Decidable (t.NoHole sid m) :=
  inferInstanceAs (Decidable (∀ latest ∈ t.latestSummary sid, ∀ u ∈ t.summarized sid latest.rangeEnd, m.Has u))

/-- Fewer rows of the session than the window holds are newer than the turn. -/
def InWindow (t : MemoryTables) (prompts : PromptConfig) (u : StoredTurn) : Prop :=
  prompts.limit < 0 ∨
    ((t.repo.turns.filter fun v => v.row.session = u.row.session ∧ u.id < v.id).length : Int) < prompts.limit

/-- The oldest of these turns is in the range of the latest summary or in the window, and can be read there. -/
def Reaches (t : MemoryTables) (prompts : PromptConfig) (okSummary okTurns : Bool) (sid : SessionId) : Prop :=
  ∀ latest ∈ t.latestSummary sid, ∀ u ∈ (t.summarized sid latest.rangeEnd).head?,
    sid ≠ 0 ∧ (okSummary = true ∧ latest.rangeStart ≤ u.id ∨ okTurns = true ∧ t.InWindow prompts u)

variable {t : MemoryTables} {prompts : PromptConfig} {okSummary okTurns : Bool} {sid : SessionId} {u v : StoredTurn}

/-- In a list in order the last `n` are those with fewer than `n` after them. -/
lemma mem_drop_iff {l : List StoredTurn} (hl : l.Pairwise fun u v => u.id < v.id) (hu : u ∈ l) (n : Nat) :
    u ∈ l.drop (l.length - n) ↔ (l.filter fun v => u.id < v.id).length < n := by
  obtain ⟨before, after, rfl⟩ := List.append_of_mem hu
  obtain ⟨-, hafter, hbefore⟩ := List.pairwise_append.mp hl
  have hnewer : ((before ++ u :: after).filter fun v => u.id < v.id) = after := by
    have hold : (before.filter fun v => u.id < v.id) = [] :=
      List.filter_eq_nil_iff.mpr fun v hv => by
        have := hbefore v hv u List.mem_cons_self
        simp only [decide_eq_true_eq]
        omega
    have hall : (after.filter fun v => u.id < v.id) = after :=
      List.filter_eq_self.mpr fun v hv => by simpa using (List.pairwise_cons.mp hafter).1 v hv
    rw [List.filter_append, hold, List.filter_cons, hall]
    simp
  rw [hnewer, List.length_append, List.length_cons]
  constructor
  · intro hmem
    by_contra hle
    have hdrop : (before ++ u :: after).drop (before.length + (after.length + 1) - n) =
        after.drop (after.length - n) := by
      rw [show before.length + (after.length + 1) - n = before.length + 1 + (after.length - n) by omega,
        List.append_cons, ← List.drop_drop]
      simp
    rw [hdrop] at hmem
    have := (List.pairwise_cons.mp hafter).1 u (List.mem_of_mem_drop hmem)
    omega
  · intro hlt
    rw [List.drop_append_of_le_length (by omega)]
    exact List.mem_append_right _ List.mem_cons_self

lemma mem_recentTurns_iff (h : t.repo.Ordered) (hu : u ∈ t.repo.turns) :
    u ∈ t.repo.recentTurns u.row.session prompts.limit ↔ t.InWindow prompts u := by
  have hmem : u ∈ t.repo.turns.filter fun v => v.row.session = u.row.session := List.mem_filter.mpr ⟨hu, by simp⟩
  have hpairwise := h.increasing.filter fun v => v.row.session = u.row.session
  have hnewer : ((t.repo.turns.filter fun v => v.row.session = u.row.session).filter fun v => u.id < v.id) =
      t.repo.turns.filter fun v => v.row.session = u.row.session ∧ u.id < v.id := by
    rw [List.filter_filter]
    refine List.filter_congr fun v _ => ?_
    simp [Bool.and_comm]
  simp only [Repository.recentTurns, InWindow]
  by_cases hlimit : prompts.limit < 0
  · simp only [hlimit, if_true, List.reverse_reverse, hmem, true_or]
  · have hwindow := mem_drop_iff hpairwise hmem prompts.limit.toNat
    rw [hnewer] at hwindow
    simp only [hlimit, if_false, List.reverse_take, List.reverse_reverse, List.length_reverse, hwindow, false_or]
    omega

lemma InWindow.of_le (h : t.InWindow prompts u) (hsession : v.row.session = u.row.session) (hle : u.id ≤ v.id) :
    t.InWindow prompts v := by
  rcases h with h | h
  · exact .inl h
  · have hsub : (t.repo.turns.filter fun w => w.row.session = v.row.session ∧ v.id < w.id).length ≤
        (t.repo.turns.filter fun w => w.row.session = u.row.session ∧ u.id < w.id).length := by
      refine (List.monotone_filter_right _ fun w hw => ?_).length_le
      simp only [decide_eq_true_eq] at hw ⊢
      exact ⟨hw.1.trans hsession, lt_of_le_of_lt hle hw.2⟩
    exact .inr (Int.lt_of_le_of_lt (Int.ofNat_le.mpr hsub) h)

lemma mem_summarized {rangeEnd : Nat} :
    u ∈ t.summarized sid rangeEnd ↔ u ∈ t.repo.turns ∧ u.row.session = sid ∧ u.row.usable = true ∧ u.id ≤ rangeEnd := by
  simp [summarized]

lemma read_has_iff (h : t.repo.Ordered) {latest : SummaryRow} (hlatest : t.latestSummary sid = some latest)
    (hu : u ∈ t.summarized sid latest.rangeEnd) :
    (PromptMemory.read prompts t okSummary okTurns sid).Has u ↔
      sid ≠ 0 ∧ (okSummary = true ∧ latest.rangeStart ≤ u.id ∨ okTurns = true ∧ t.InWindow prompts u) := by
  obtain ⟨hmem, rfl, husable, hle⟩ := mem_summarized.mp hu
  rw [← mem_recentTurns_iff h hmem]
  by_cases hsid : u.row.session = 0
  · simp [PromptMemory.read, PromptMemory.Has, hsid]
  · cases okSummary <;> cases okTurns <;>
      simp [PromptMemory.read, PromptMemory.Has, hsid, hlatest, husable, hle]

/-- There is no hole exactly when the oldest of the summarized turns is still there. -/
lemma noHole_iff (h : t.repo.Ordered) :
    t.NoHole sid (PromptMemory.read prompts t okSummary okTurns sid) ↔ t.Reaches prompts okSummary okTurns sid := by
  constructor
  · intro hnone latest hlatest u hu
    have hmem := List.mem_of_head? hu
    exact (read_has_iff h hlatest hmem).mp (hnone latest hlatest u hmem)
  · intro hreach latest hlatest v hv
    obtain ⟨u, rest, hlist⟩ := List.exists_cons_of_ne_nil (List.ne_nil_of_mem hv)
    have hu : u ∈ t.summarized sid latest.rangeEnd := hlist ▸ List.mem_cons_self
    have hpairwise : (t.summarized sid latest.rangeEnd).Pairwise fun u v => u.id < v.id := h.increasing.filter _
    have hle : u.id ≤ v.id := by
      rw [hlist] at hv hpairwise
      rcases List.mem_cons.mp hv with rfl | hv
      · exact le_rfl
      · exact le_of_lt ((List.pairwise_cons.mp hpairwise).1 v hv)
    obtain ⟨hsid, hcovered⟩ := hreach latest hlatest u (by rw [hlist]; rfl)
    refine (read_has_iff h hlatest hv).mpr ⟨hsid, hcovered.imp ?_ ?_⟩
    · exact fun hrange => ⟨hrange.1, hrange.2.trans hle⟩
    · refine fun hwindow => ⟨hwindow.1, hwindow.2.of_le ?_ hle⟩
      exact (mem_summarized.mp hv).2.1.trans (mem_summarized.mp hu).2.1.symm

end MemoryTables

namespace Repository

variable {r r' : Repository}

lemma Ordered.of_sublist (h : r.Ordered) (hturns : r'.turns.Sublist r.turns) (hseq : r.turnSeq ≤ r'.turnSeq) :
    r'.Ordered := by
  refine ⟨h.increasing.sublist hturns, fun t ht => ?_⟩
  have := h.bounds t (hturns.subset ht)
  omega

lemma Ordered.session_run (h : r.Ordered) (job : SessionJob) : (job.run r).1.Ordered := by
  cases job with
  | getSession id | closeSession id endedAt | insertSession startedAt => exact h.of_sublist (.refl _) le_rfl
  | deleteSession id => exact h.of_sublist List.filter_sublist le_rfl
  | wipeAll => exact ⟨.nil, fun t ht => by cases ht⟩

lemma Ordered.memory_run (h : r.Ordered) (ok : Bool) (job : MemoryJob) : (job.run ok r).1.Ordered := by
  cases job with
  | insertTurn source row =>
    cases ok with
    | false => exact h
    | true =>
      simp only [MemoryJob.run, if_true]
      cases hinsert : r.insertTurn source row with
      | none => exact h
      | some r' => exact h.insertTurn hinsert
  | snapshot sid limit | other => exact h
  | session job =>
    cases ok with
    | false => exact h
    | true => exact h.session_run job

end Repository

namespace SummaryWorld

lemma ordered_run (ok okTurns : Bool) (now : Int) {t : MemoryTables} (h : t.repo.Ordered) (job : TablesJob) :
    (job.run ok okTurns now t).1.repo.Ordered := by
  cases job with
  | memory job =>
    have hrun := h.memory_run ok job
    cases job with
    | session job =>
      cases ok with
      | false => exact h
      | true => cases job <;> exact hrun
    | insertTurn source row | snapshot sid limit | other => exact hrun
  | summarySnapshot session => exact h
  | insertSummary draft =>
    cases ok with
    | false => exact h
    | true =>
      simp only [TablesJob.run, if_true, MemoryTables.insertSummary]
      split
      · rename_i hinsert
        split at hinsert
        · injection hinsert with hinsert
          exact hinsert ▸ h
        · simp at hinsert
      · exact h

lemma ordered_step {s : SummaryWorld} (h : s.tables.repo.Ordered) (turnThreshold : Nat) (a : SummaryAction) :
    (s.step turnThreshold a).tables.repo.Ordered := by
  by_cases hmemory : ∃ ok okTurns bodyOk now, a = .memory ok okTurns bodyOk now
  · obtain ⟨ok, okTurns, bodyOk, now, rfl⟩ := hmemory
    simp only [step, memory]
    split
    · rw [onResult_tables]
      exact ordered_run ok okTurns now h _
    · exact h
  · rw [step_tables fun ok okTurns bodyOk now ha => hmemory ⟨ok, okTurns, bodyOk, now, ha⟩]
    exact h

/-- In every state the prompt misses none of the summarized turns exactly when it does not miss the oldest. -/
theorem prompt_without_hole_iff (turnThreshold capacity : Nat) {tables : MemoryTables} (h : tables.repo.Ordered)
    (as : List SummaryAction) (prompts : PromptConfig) (okSummary okTurns : Bool) (sid : SessionId) :
    let t := (Runs.exec (step turnThreshold) (started capacity tables) as).tables
    t.NoHole sid (PromptMemory.read prompts t okSummary okTurns sid) ↔ t.Reaches prompts okSummary okTurns sid :=
  MemoryTables.noHole_iff <|
    Runs.exec_invariant (fun s : SummaryWorld => s.tables.repo.Ordered)
      (fun _ a h => ordered_step h turnThreshold a) h as

/-- A session whose prompts hold one turn, with two summaries. -/
def summarizedTwice : List SummaryAction :=
  [.command 0 .openInitial, .memory true true true 0, .notify, .notify, .notify, .notify] ++ RangeWorld.talking

theorem prompt_after_first_summary :
    let t := (Runs.exec (step 2) (started 8 {}) (summarizedTwice.take 16)).tables
    t.summaries.map SummaryRow.range = [(1, 1)] ∧
      (t.NoHole 1 (PromptMemory.read { recentTurnsN := 1 } t true true 1) ↔
        t.Reaches { recentTurnsN := 1 } true true 1) :=
  ⟨by decide, prompt_without_hole_iff 2 8 ⟨.nil, fun t ht => by cases ht⟩ _ _ true true 1⟩

/-- After the second summary the first turn is neither in its range nor among the newest. -/
theorem first_turn_forgotten :
    let t := (Runs.exec (step 2) (started 8 {}) summarizedTwice).tables
    t.summaries.map SummaryRow.range = [(1, 1), (2, 2)] ∧ t.repo.turns.map (fun u => (u.id, u.row.status)) =
        [(1, .committed), (2, .committed)] ∧
      ¬t.NoHole 1 (PromptMemory.read { recentTurnsN := 1 } t true true 1) := by
  refine ⟨?_, ?_, ?_⟩ <;> decide

end SummaryWorld

end Acva
