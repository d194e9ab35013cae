import Acva.Dialogue.Fsm
import Acva.Memory.Integrity
import Acva.Memory.Recovery

/-!
# Warm restarts

A restart leaves a checkpoint in `runtime_state`, which the next start takes up if it is recent and the configuration
file has not changed. A start sweeps the database first, and clears the row once it has read it, so a checkpoint is
taken up once at most, unless the row cannot be cleared.
-/

namespace Acva

open Transactions

def State.toText : State → Text
  | .idle => ascii "idle"
  | .listening => ascii "listening"
  | .userSpeaking => ascii "user_speaking"
  | .transcribing => ascii "transcribing"
  | .thinking => ascii "thinking"
  | .speaking => ascii "speaking"
  | .completed => ascii "completed"
  | .interrupted => ascii "interrupted"

/-- The bytes are read in chunks and hashed one after another; nothing if the file does not open. -/
def configFileHash : Option Text → Text
  | none => []
  | some bytes => hex16 (fnv1a64 bytes)

namespace Schema

/-- The row that `write_warm_restart_checkpoint` writes for the session of the manager. -/
def checkpointRow (fsm : Fsm) (session : SessionId) (configHash : Text) (now : Int) : RuntimeRow :=
  { session := session
    activeTurnId := if fsm.active.id ≠ kNoTurn then some fsm.active.id else none
    fsmState := fsm.state.toText
    configHash := if configHash = [] then none else some configHash
    checkpointAt := now }

/-- What a start of the program meets: its clock and its configuration, and how its calls to the database go. -/
structure Boot where
  recovery : Failures
  hasLlm : Bool
  configFile : Option Text
  checkpointMaxAgeSeconds : UInt32
  now : Int
  readOk : Bool
  adoptOk : Bool
  clearOk : Bool
  openedAt : Int
  openOk : Bool

namespace Boot

variable (b : Boot)

def fresh (row : RuntimeRow) : Bool :=
  decide (0 ≤ b.now - row.checkpointAt ∧ b.now - row.checkpointAt ≤ b.checkpointMaxAgeSeconds.toNat * 1000)

def hashOk (row : RuntimeRow) : Bool :=
  decide (configFileHash b.configFile ≠ [] ∧ row.configHash = some (configFileHash b.configFile))

/-- The session that is adopted, and the tables with the row cleared if there was one. -/
def tryWarmResume (x : Tables) : Option SessionId × Tables :=
  match if b.readOk then x.runtimeState else none with
  | none => (none, x)
  | some row =>
    (if b.fresh row && b.hashOk row && b.adoptOk && x.hasSession row.session then some row.session else none,
      if b.clearOk then x.clearRuntimeState else x)

end Boot

/-- How a start ends: it fails, it has no dialogue, it goes on with a session or it opens one. -/
inductive Started
  | failed
  | withoutSession
  | adopted (id : SessionId)
  | opened (id : SessionId)
  deriving DecidableEq, Repr

/-- The sweep, and then the session. A transaction that is open when the program fails is not kept. -/
def Boot.start (b : Boot) (x : Tables) : Started × Tables :=
  match runRecovery b.recovery { stored := x } with
  | (.error _, c) => (.failed, c.stored)
  | (.ok _, c) =>
    if b.hasLlm then
      match b.tryWarmResume c.stored with
      | (some id, y) => (.adopted id, y)
      | (none, y) => if b.openOk then (.opened y.sessions.nextId, y.insertSession b.openedAt none) else (.failed, y)
    else (.withoutSession, c.stored)

/-- A database over many runs of the program. `last` is the row that was checkpointed last; `adopted` are the sessions
that were taken up, and `kept` is the number of starts that failed to clear a row they had read. -/
structure Life where
  tables : Tables := {}
  last : Option RuntimeRow := none
  checkpoints : Nat := 0
  kept : Nat := 0
  adopted : List SessionId := []

/-- A call and how it ends, the checkpoint of a restart, or a start. -/
inductive LifeAction
  | call (c : Call) (e : CallEnd)
  | checkpoint (fsm : Fsm) (session : SessionId) (configFile : Option Text) (now : Int) (e : CallEnd)
  | start (b : Boot)

namespace Life

/-- The row that a call writes, if it does. -/
def written (x : Tables) : Call → CallEnd → Option RuntimeRow
  | .upsertRuntimeState row, .done => if x.hasSession row.session then some row else none
  | _, _ => none

/-- The start reads a row and does not clear it. -/
def keepsRow (b : Boot) (x : Tables) : Bool :=
  b.hasLlm && b.readOk && !b.clearOk && x.runtimeState.isSome

def call (l : Life) (c : Call) (e : CallEnd) : Life :=
  { l with tables := l.tables.step (c, e)
           last := (written l.tables c e).orElse fun _ => l.last
           checkpoints := l.checkpoints + (written l.tables c e).toList.length }

def step (l : Life) : LifeAction → Life
  | .call c e => l.call c e
  | .checkpoint fsm session configFile now e =>
    l.call (.upsertRuntimeState (checkpointRow fsm session (configFileHash configFile) now)) e
  | .start b =>
    { l with tables := (b.start l.tables).2
             kept := if keepsRow b l.tables then l.kept + 1 else l.kept
             adopted := match (b.start l.tables).1 with
               | .adopted id => l.adopted ++ [id]
               | _ => l.adopted }

end Life

/-! ### The sweep -/

section Sweep

variable {F : Failures} {P : Tables → Prop} (hclose : ∀ x id t, P x → P (Tables.closeSession x id t))
  (hmark : ∀ x id status e i t, P x → P (Tables.setTurnStatus x id status e i t))
include hclose hmark

omit hmark in
lemma closeOpenSessions_keeps (sessions : List SessionRow) (out : RecoverySummary) :
    Keeps P (closeOpenSessions F sessions out) := by
  induction sessions generalizing out with
  | nil => exact .pure _
  | cons s rest ih =>
    exact (Keeps.read _ _).bind fun _ => (Keeps.write _ fun x hx => hclose x _ _ hx).bind fun _ => ih _

omit hclose in
lemma markInterrupted_keeps (turns : List TurnRow) (out : RecoverySummary) :
    Keeps P (markInterrupted F turns out) := by
  induction turns generalizing out with
  | nil => exact .pure _
  | cons t rest ih => exact (Keeps.write _ fun x hx => hmark x _ _ _ _ _ hx).bind fun _ => ih _

omit hclose hmark in
lemma verifySummaries_keeps (summaries : List SummaryRow) (out : RecoverySummary) :
    Keeps P (verifySummaries F summaries out) := by
  induction summaries generalizing out with
  | nil => exact .pure _
  | cons s rest ih =>
    exact (Keeps.orElse ((Keeps.read _ _).bind fun _ => .pure _) _).bind fun _ => ih _

/-- What closing a session and marking a turn keep, the sweep keeps, however its calls go. -/
lemma runRecovery_keeps : Keeps P (runRecovery F) := by
  refine .transaction _ ((Keeps.read _ _).bind fun _ => ?_)
  refine (closeOpenSessions_keeps hclose _ _).bind fun _ => (Keeps.read _ _).bind fun _ => ?_
  refine (markInterrupted_keeps hmark _ _).bind fun _ => (Keeps.read _ _).bind fun _ => ?_
  exact verifySummaries_keeps _ _

end Sweep

variable {x : Tables} {b : Boot}

lemma runRecovery_stored (F : Failures) (hx : x.Sound) :
    (runRecovery F { stored := x }).2.stored.Sound ∧
      (runRecovery F { stored := x }).2.stored.runtimeState = x.runtimeState := by
  have hkept := runRecovery_keeps (F := F) (P := fun y => y.Sound ∧ y.runtimeState = x.runtimeState)
    (fun y id t hy => ⟨hy.1.closeSession id t, hy.2⟩)
      (fun y id status e i t hy => ⟨hy.1.setTurnStatus id status e i t, hy.2⟩)
  exact (hkept { stored := x } ⟨⟨hx, rfl⟩, fun w hw => by cases hw⟩).1

/-! ### A start -/

/-- The session of the row is there, so the row alone decides. -/
lemma tryWarmResume_adopts (hx : x.Sound) {id : SessionId} :
    (b.tryWarmResume x).1 = some id ↔ b.readOk = true ∧ b.adoptOk = true ∧
      ∃ row, x.runtimeState = some row ∧ row.session = id ∧ b.fresh row = true ∧ b.hashOk row = true := by
  unfold Boot.tryWarmResume
  cases hread : b.readOk with
  | false => simp
  | true =>
    cases hrow : x.runtimeState with
    | none => simp
    | some row =>
      have hthere : x.hasSession row.session = true := Tables.hasSession_iff.mpr (hx.checkpointSession row hrow)
      by_cases hgate : b.fresh row = true ∧ b.hashOk row = true ∧ b.adoptOk = true
      · obtain ⟨hfresh, hhash, hadopt⟩ := hgate
        simp [hthere, hfresh, hhash, hadopt]
      · have hclosed : (b.fresh row && b.hashOk row && b.adoptOk && x.hasSession row.session) = false := by
          rw [hthere, Bool.and_true, Bool.eq_false_iff]
          intro h
          simp only [Bool.and_eq_true] at h
          exact hgate ⟨h.1.1, h.1.2, h.2⟩
        simp only [if_true, hclosed, Bool.false_eq_true, if_false]
        constructor
        · intro h
          cases h
        · rintro ⟨-, hadopt, r, hr, -, hfresh, hhash⟩
          obtain rfl := Option.some.inj hr
          exact absurd ⟨hfresh, hhash, hadopt⟩ hgate

lemma tryWarmResume_tables (b : Boot) (x : Tables) :
    (b.tryWarmResume x).2 = x ∨ (b.tryWarmResume x).2 = x.clearRuntimeState := by
  unfold Boot.tryWarmResume
  split
  · exact .inl rfl
  · dsimp only
    split
    · exact .inr rfl
    · exact .inl rfl

lemma tryWarmResume_cleared (hread : b.readOk = true) (hclear : b.clearOk = true) :
    (b.tryWarmResume x).2.runtimeState = none := by
  unfold Boot.tryWarmResume
  rw [if_pos hread]
  cases hrow : x.runtimeState with
  | none => exact hrow
  | some row => simp [hclear, Tables.clearRuntimeState]

lemma tryWarmResume_sound (hx : x.Sound) : (b.tryWarmResume x).2.Sound := by
  rcases tryWarmResume_tables b x with h | h <;> rw [h]
  · exact hx
  · exact hx.clearRuntimeState

/-- A start that adopts has swept the tables, and is as `try_warm_resume` then leaves it. -/
lemma start_adopts {id : SessionId} : (b.start x).1 = .adopted id ↔
    ∃ out c, runRecovery b.recovery { stored := x } = (.ok out, c) ∧ b.hasLlm = true ∧
      (b.tryWarmResume c.stored).1 = some id ∧ (b.start x).2 = (b.tryWarmResume c.stored).2 := by
  unfold Boot.start
  cases hrun : runRecovery b.recovery { stored := x } with
  | mk result c =>
    cases result with
    | error e => simp
    | ok out =>
      cases hllm : b.hasLlm with
      | false => simp
      | true =>
        cases hresume : b.tryWarmResume c.stored with
        | mk adopted y =>
          cases adopted with
          | none => cases b.openOk <;> simp [hresume]
          | some s => simp [hresume]

lemma start_sound (hx : x.Sound) :
    (b.start x).2.Sound ∧ ((b.start x).2.runtimeState = none ∨ (b.start x).2.runtimeState = x.runtimeState) := by
  obtain ⟨hsound, hrow⟩ := runRecovery_stored b.recovery hx
  unfold Boot.start
  cases hrun : runRecovery b.recovery { stored := x } with
  | mk result c =>
    rw [hrun] at hsound hrow
    have hresumed : (b.tryWarmResume c.stored).2.Sound := tryWarmResume_sound hsound
    have hleft : (b.tryWarmResume c.stored).2.runtimeState = none ∨
        (b.tryWarmResume c.stored).2.runtimeState = x.runtimeState := by
      rcases tryWarmResume_tables b c.stored with h | h <;> rw [h]
      · exact .inr hrow
      · exact .inl rfl
    cases result with
    | error e => exact ⟨hsound, .inr hrow⟩
    | ok out =>
      cases hllm : b.hasLlm with
      | false => exact ⟨hsound, .inr hrow⟩
      | true =>
        cases hresume : b.tryWarmResume c.stored with
        | mk adopted y =>
          rw [hresume] at hresumed hleft
          simp only [if_true, hresume]
          cases adopted with
          | some s => exact ⟨hresumed, hleft⟩
          | none =>
            cases b.openOk with
            | true => exact ⟨hresumed.insertSession b.openedAt none, hleft⟩
            | false => exact ⟨hresumed, hleft⟩

/-- The row of an adopted session was there, and is there still only if it could not be cleared. -/
lemma start_takes_row (hx : x.Sound) {id : SessionId} (h : (b.start x).1 = .adopted id) :
    x.runtimeState.isSome = true ∧ ((b.start x).2.runtimeState = none ∨ Life.keepsRow b x = true) := by
  obtain ⟨out, c, hrun, hllm, hadopted, hleft⟩ := start_adopts.mp h
  obtain ⟨hsound, hrow⟩ := runRecovery_stored b.recovery hx
  rw [hrun] at hsound hrow
  obtain ⟨hread, -, row, hstate, -⟩ := (tryWarmResume_adopts hsound).mp hadopted
  have hsome : x.runtimeState.isSome = true := by rw [← hrow, hstate]; rfl
  refine ⟨hsome, ?_⟩
  cases hclear : b.clearOk with
  | true => exact .inl (hleft ▸ tryWarmResume_cleared hread hclear)
  | false => exact .inr (by simp [Life.keepsRow, hllm, hread, hclear, hsome])

/-! ### Many runs -/

namespace Life

/-- The row is the last one written, and it has not been taken up yet unless it could not be cleared. -/
structure Invariant (l : Life) : Prop where
  sound : l.tables.Sound
  row : l.tables.runtimeState = none ∨ l.tables.runtimeState = l.last
  balance : l.adopted.length + l.tables.runtimeState.toList.length ≤ l.checkpoints + l.kept

lemma written_eq_some {c : Call} {e : CallEnd} {row : RuntimeRow} (h : written x c e = some row) :
    c = .upsertRuntimeState row ∧ e = .done ∧ x.hasSession row.session = true := by
  unfold written at h
  split at h
  · split at h
    · rename_i hthere
      obtain rfl := Option.some.inj h
      exact ⟨rfl, rfl, hthere⟩
    · cases h
  · cases h

lemma runtimeState_dropped (x : Tables) (n : Nat) :
    (x.dropped n).runtimeState = none ∨ (x.dropped n).runtimeState = x.runtimeState := by
  have hone : ∀ (y : Tables) (t : TableName),
      (y.dropTable t).runtimeState = none ∨ (y.dropTable t).runtimeState = y.runtimeState := by
    intro y t
    cases t with
    | sessions | runtimeState => exact .inl rfl
    | turns | summaries | facts | settings => exact .inr rfl
  unfold Tables.dropped
  induction dropOrder.take n generalizing x with
  | nil => exact .inr rfl
  | cons t ts ih =>
    rcases ih (x.dropTable t) with hnone | hsame
    · exact .inl hnone
    · rw [List.foldl_cons, hsame]
      exact hone x t

/-- Only `upsert_runtime_state` writes a row. -/
lemma runtimeState_step (x : Tables) (c : Call) (e : CallEnd) :
    (∃ row, written x c e = some row ∧ (x.step (c, e)).runtimeState = some row) ∨
      written x c e = none ∧
        ((x.step (c, e)).runtimeState = none ∨ (x.step (c, e)).runtimeState = x.runtimeState) := by
  cases hwritten : written x c e with
  | some row =>
    obtain ⟨rfl, rfl, hthere⟩ := written_eq_some hwritten
    exact .inl ⟨row, rfl, by simp [Tables.step, Tables.call, Tables.upsertRuntimeState, hthere]⟩
  | none =>
    refine .inr ⟨rfl, ?_⟩
    cases e with
    | failed dropped =>
      cases c with
      | wipeAll => exact runtimeState_dropped x dropped
      | _ => exact .inr rfl
    | done =>
      cases c with
      | upsertRuntimeState row =>
        simp only [written, ite_eq_right_iff, reduceCtorEq, imp_false] at hwritten
        exact .inr (by simp [Tables.step, Tables.call, Tables.upsertRuntimeState, hwritten])
      | wipeAll | clearRuntimeState => exact .inl rfl
      | deleteSession id =>
        cases hrow : x.runtimeState with
        | none => simp [Tables.step, Tables.call, Tables.deleteSession, hrow]
        | some row =>
          by_cases hsession : row.session = id
          · simp [Tables.step, Tables.call, Tables.deleteSession, hrow, hsession, Option.filter]
          · simp [Tables.step, Tables.call, Tables.deleteSession, hrow, hsession, Option.filter]
      | insertTurn | insertSummary | upsertFact =>
        refine .inr ?_
        simp only [Tables.step, Tables.call, Tables.insertTurn, Tables.insertSummary, Tables.upsertFact]
        split <;> rfl
      | _ => exact .inr rfl

lemma length_le_of_left {r s : Option RuntimeRow} (h : r = none ∨ r = s) : r.toList.length ≤ s.toList.length := by
  rcases h with rfl | rfl
  · exact Nat.zero_le _
  · exact Nat.le_refl _

lemma Invariant.call {l : Life} (h : l.Invariant) (c : Call) (e : CallEnd) : (l.call c e).Invariant := by
  have hbalance := h.balance
  rcases runtimeState_step l.tables c e with ⟨row, hwritten, hrow⟩ | ⟨hwritten, hleft⟩
  · refine ⟨h.sound.step (c, e), .inr ?_, ?_⟩
    · simp only [Life.call, hrow, hwritten, Option.orElse_some]
    · simp only [Life.call, hrow, hwritten, Option.toList_some, List.length_singleton]
      omega
  · refine ⟨h.sound.step (c, e), ?_, ?_⟩
    · simp only [Life.call, hwritten, Option.orElse_none]
      rcases hleft with hleft | hleft
      · exact .inl hleft
      · exact hleft ▸ h.row
    · have hle := length_le_of_left hleft
      simp only [Life.call, hwritten, Option.toList_none, List.length_nil]
      omega

lemma Invariant.start {l : Life} (h : l.Invariant) (b : Boot) : (l.step (.start b)).Invariant := by
  have hbalance := h.balance
  obtain ⟨hsound, hleft⟩ := start_sound (b := b) h.sound
  have hle := length_le_of_left hleft
  refine ⟨hsound, ?_, ?_⟩
  · rcases hleft with hleft | hleft
    · exact .inl hleft
    · exact (show (l.step (.start b)).tables.runtimeState = _ from hleft) ▸ h.row
  · simp only [step]
    cases hstarted : (b.start l.tables).1 with
    | adopted id =>
      obtain ⟨hsome, hgone⟩ := start_takes_row h.sound hstarted
      obtain ⟨row, hrow⟩ := Option.isSome_iff_exists.mp hsome
      rw [hrow] at hbalance hle
      simp only [List.length_append, List.length_singleton, Option.toList_some] at hbalance hle ⊢
      rcases hgone with hgone | hkept
      · rw [hgone, Option.toList_none, List.length_nil]
        split <;> omega
      · rw [if_pos hkept]
        omega
    | failed | withoutSession | opened id =>
      simp only
      split <;> omega

lemma invariant_exec (acts : List LifeAction) : (Runs.exec step {} acts).Invariant := by
  refine Runs.exec_invariant Invariant (fun l a h => ?_) ⟨.empty, .inl rfl, Nat.zero_le _⟩ acts
  cases a with
  | call c e => exact h.call c e
  | checkpoint fsm session configFile now e => exact h.call _ e
  | start b => exact h.start b

/-- Over any runs of the program, as many starts adopt a session as there have been checkpoints, and starts that could
not clear the row, at most. A start adopts a session exactly when its sweep succeeds, the row can be read, and the row
is the last checkpoint, recent and of the same configuration file; that the session is still there need not be asked,
and the sweep has closed it. -/
theorem resumes_last_checkpoint (acts : List LifeAction) (b : Boot) (id : SessionId) :
    let l := Runs.exec step {} acts
    l.adopted.length ≤ l.checkpoints + l.kept ∧
      ((b.start l.tables).1 = .adopted id ↔
        (∃ out c, runRecovery b.recovery { stored := l.tables } = (.ok out, c)) ∧ b.hasLlm = true ∧
          b.readOk = true ∧ b.adoptOk = true ∧ ∃ row, l.tables.runtimeState = some row ∧ l.last = some row ∧
            row.session = id ∧ b.fresh row = true ∧ b.hashOk row = true) ∧
      ((b.start l.tables).1 = .adopted id →
        ∃ s ∈ (b.start l.tables).2.sessions.rows, s.id = id ∧ s.endedAt ≠ none) := by
  intro l
  have hinv : l.Invariant := invariant_exec acts
  have hbalance := hinv.balance
  refine ⟨by omega, ?_, ?_⟩
  · rw [start_adopts]
    constructor
    · rintro ⟨out, c, hrun, hllm, hadopted, -⟩
      obtain ⟨hsound, hrow⟩ := runRecovery_stored b.recovery hinv.sound
      rw [hrun] at hsound hrow
      obtain ⟨hread, hadopt, row, hstate, hid, hgate⟩ := (tryWarmResume_adopts hsound).mp hadopted
      have hthere : l.tables.runtimeState = some row := hrow.symm.trans hstate
      refine ⟨⟨out, c, hrun⟩, hllm, hread, hadopt, row, hthere, ?_, hid, hgate⟩
      rcases hinv.row with hnone | hlast
      · rw [hthere] at hnone
        cases hnone
      · rw [← hlast, hthere]
    · rintro ⟨⟨out, c, hrun⟩, hllm, hread, hadopt, row, hthere, -, hid, hgate⟩
      obtain ⟨hsound, hrow⟩ := runRecovery_stored b.recovery hinv.sound
      rw [hrun] at hsound hrow
      have hadopted := (tryWarmResume_adopts hsound).mpr ⟨hread, hadopt, row, hrow.trans hthere, hid, hgate⟩
      refine ⟨out, c, hrun, hllm, hadopted, ?_⟩
      simp only [Boot.start, hrun, hllm, if_true]
      cases hresume : b.tryWarmResume c.stored with
      | mk adopted y =>
        rw [hresume] at hadopted
        simp only at hadopted
        subst hadopted
        rfl
  · intro hadopts
    obtain ⟨out, c, hrun, hllm, hadopted, hleft⟩ := start_adopts.mp hadopts
    obtain ⟨y, rfl, hrec, -⟩ := runRecovery_ok hrun
    have hsound : y.Sound := by
      have hstored := (runRecovery_stored b.recovery hinv.sound).1
      rw [hrun] at hstored
      exact hstored
    obtain ⟨-, -, row, hstate, hid, -⟩ := (tryWarmResume_adopts hsound).mp hadopted
    obtain ⟨s, hs, hsid⟩ := List.mem_map.mp (hsound.checkpointSession row hstate)
    refine ⟨s, ?_, hsid.trans hid, hrec.closed s hs⟩
    rw [hleft]
    rcases tryWarmResume_tables b y with h | h
    all_goals
      rw [h]
      exact hs

end Life

end Schema

end Acva
