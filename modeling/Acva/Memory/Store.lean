import Acva.Lib.Runs
import Acva.Memory.Tables

/-!
# The repository over all tables

The methods of `Repository` that write, over the whole schema and with what the foreign keys do: the turns, the
summaries and the checkpoint go with their session, and a fact forgets a turn that is deleted. A call that would break
a constraint fails and changes nothing; only `wipe_all` can fail halfway.
-/

namespace Acva

namespace Schema

namespace Table

variable {ρ : Type} {id : ρ → Int} {t : Table ρ id}

/-- The largest of the ids and `n`. -/
def largest (n : Int) (ids : List Int) : Int := ids.foldl (fun m k => if m < k then k else m) n

lemma le_largest (n : Int) (ids : List Int) : n ≤ largest n ids ∧ ∀ k ∈ ids, k ≤ largest n ids := by
  induction ids generalizing n with
  | nil => exact ⟨Int.le_refl n, fun k hk => by cases hk⟩
  | cons c ids ih =>
    obtain ⟨hstart, hall⟩ := ih (if n < c then c else n)
    have hcons : largest n (c :: ids) = largest (if n < c then c else n) ids := rfl
    have hn : n ≤ if n < c then c else n := by split <;> omega
    have hc : c ≤ if n < c then c else n := by split <;> omega
    rw [hcons]
    refine ⟨Int.le_trans hn hstart, fun k hk => ?_⟩
    rcases List.mem_cons.mp hk with rfl | hk
    · exact Int.le_trans hc hstart
    · exact hall k hk

/-- `AUTOINCREMENT` counts on from the largest id there is or has been. -/
def nextId (t : Table ρ id) : Int := largest (if t.seq < 0 then 0 else t.seq) (t.rows.map id) + 1

lemma id_lt_nextId {r : ρ} (hr : r ∈ t.rows) : id r < t.nextId :=
  Int.lt_add_one_of_le ((le_largest _ _).2 _ (List.mem_map_of_mem hr))

lemma seq_lt_nextId (t : Table ρ id) : t.seq < t.nextId := by
  have hseq : t.seq ≤ if t.seq < 0 then 0 else t.seq := by split <;> omega
  exact Int.lt_add_one_of_le (Int.le_trans hseq (le_largest _ _).1)

lemma nextId_pos (t : Table ρ id) : 0 < t.nextId := by
  have hzero : 0 ≤ if t.seq < 0 then 0 else t.seq := by split <;> omega
  exact Int.lt_add_one_of_le (Int.le_trans hzero (le_largest _ _).1)

lemma ordered_insert (t : Table ρ id) {r : ρ} (hr : id r = t.nextId) :
    ((t.rows ++ [r]).map id).Pairwise (· < ·) := by
  rw [List.map_append, List.map_singleton, List.pairwise_append]
  refine ⟨t.ordered, List.pairwise_singleton _ _, fun a ha b hb => ?_⟩
  obtain ⟨s, hs, rfl⟩ := List.mem_map.mp ha
  rw [List.mem_singleton.mp hb, hr]
  exact id_lt_nextId hs

/-- `INSERT` of the row that `f` makes of its id. -/
def insert (t : Table ρ id) (f : Int → ρ) (hf : id (f t.nextId) = t.nextId) : Table ρ id where
  rows := t.rows ++ [f t.nextId]
  seq := t.nextId
  ordered := t.ordered_insert hf

/-- `DELETE ... WHERE p`. -/
def delete (t : Table ρ id) (p : ρ → Bool) : Table ρ id :=
  { t with rows := t.rows.filter fun r => !p r
           ordered := t.ordered.sublist (List.filter_sublist.map id) }

lemma ordered_map {f : ρ → ρ} (hf : ∀ r, id (f r) = id r) (t : Table ρ id) :
    ((t.rows.map f).map id).Pairwise (· < ·) := by
  rw [List.map_map, show id ∘ f = id from funext hf]
  exact t.ordered

/-- An update of every row. -/
def updateAll (t : Table ρ id) (f : ρ → ρ) (hf : ∀ r, id (f r) = id r) : Table ρ id :=
  { t with rows := t.rows.map f, ordered := ordered_map hf t }

end Table

inductive TableName
  | sessions
  | turns
  | summaries
  | facts
  | settings
  | runtimeState
  deriving DecidableEq, Repr

/-- The tables that `wipe_all` drops, in this order. -/
def dropOrder : List TableName := [.facts, .summaries, .turns, .sessions, .settings]

namespace Tables

variable (x : Tables)

def hasSession (id : SessionId) : Bool := x.sessions.rows.any fun s => s.id = id

def hasTurn (id : Int) : Bool := x.turns.rows.any fun t => t.id = id

def insertSession (startedAt : Int) (title : Option Text) : Tables :=
  { x with sessions := x.sessions.insert (fun k => { id := k, startedAt := startedAt, title := title }) rfl }

/-- `ON DELETE SET NULL`: the source turn of a fact, once the turns with `p` are gone. -/
def forgetting (p : TurnRow → Bool) (f : StoredFact) : StoredFact :=
  if f.fact.sourceTurnId.any fun k : TurnId => x.turns.rows.any fun t => p t && t.id = (k : Int) then
    { f with fact := { f.fact with sourceTurnId := none } }
  else f

lemma forgetting_id (p : TurnRow → Bool) (f : StoredFact) : (x.forgetting p f).id = f.id := by
  unfold forgetting
  split <;> rfl

def deleteTurns (p : TurnRow → Bool) : Tables :=
  { x with turns := x.turns.delete p
           facts := x.facts.updateAll (x.forgetting p) fun f => by rw [x.forgetting_id p f] }

/-- `ON DELETE CASCADE`: the turns, the summaries and the checkpoint of the session go with it. -/
def deleteSession (id : SessionId) : Tables :=
  { x.deleteTurns (fun t => t.session = id) with
    sessions := x.sessions.delete fun s => s.id = id
    summaries := x.summaries.delete fun s => s.session = id
    runtimeState := x.runtimeState.filter fun r => r.session ≠ id }

/-- `DROP TABLE IF EXISTS`: its rows are deleted, with what the foreign keys do, and the ids start over if the table
is created again. -/
def dropTable : TableName → Tables
  | .sessions =>
    { x.deleteTurns (fun _ => true) with
      sessions := .empty, summaries := x.summaries.delete fun _ => true, runtimeState := none }
  | .turns => { x.deleteTurns (fun _ => true) with turns := .empty }
  | .summaries => { x with summaries := .empty }
  | .facts => { x with facts := .empty }
  | .settings => { x with settings := [] }
  | .runtimeState => { x with runtimeState := none }

/-- The first `n` of the tables that `wipe_all` drops are gone, or empty. -/
def dropped (n : Nat) : Tables := (dropOrder.take n).foldl dropTable x

/-- All tables but `runtime_state` are dropped, whose row goes with its session, and created again. -/
def wipeAll (_ : Tables) : Tables := {}

def insertTurn (session : SessionId) (role : TurnRole) (text lang : Option Text) (startedAt : Int)
    (status : TurnStatus) : Option Tables :=
  if x.hasSession session then
    some { x with turns := x.turns.insert (fun k =>
      { id := k, session := session, role := role, text := text, lang := lang, startedAt := startedAt,
        status := status }) rfl }
  else none

def insertSummary (session : SessionId) (rangeStart rangeEnd : Int) (summary lang sourceHash : Text)
    (createdAt : Int) : Option Tables :=
  if x.hasSession session then
    some { x with summaries := x.summaries.insert (fun k =>
      { id := k, session := session, rangeStartTurn := rangeStart, rangeEndTurn := rangeEnd, summary := summary,
        lang := lang, sourceHash := sourceHash, createdAt := createdAt }) rfl }
  else none

/-- The new row of `upsert_fact`. Its id is used up also if another row is in conflict. -/
def storedFact (f : Fact) (k : Int) : StoredFact := { id := k.toNat, fact := f }

lemma storedFact_id (f : Fact) : ((storedFact f x.facts.nextId).id : Int) = x.facts.nextId :=
  Int.toNat_of_nonneg (Int.le_of_lt x.facts.nextId_pos)

/-- The columns of `f` are those that are bound: a `lang` without data is NULL. -/
def upsertFact (f : Fact) : Option Tables :=
  if f.confidence ≠ .nan ∧ f.sourceTurnId.all (fun k : TurnId => x.hasTurn k) then
    some { x with facts :=
      if x.facts.rows.any fun s => FactTable.conflicts s.fact f then
        { x.facts.updateAll (fun s => if FactTable.conflicts s.fact f then { s with fact := f } else s)
            (fun s => by split <;> rfl) with seq := x.facts.nextId }
      else x.facts.insert (storedFact f) (x.storedFact_id f) }
  else none

def deleteTurn (id : Int) : Tables := x.deleteTurns fun t => t.id = id

def deleteFact (id : Int) : Tables := { x with facts := x.facts.delete fun f => (f.id : Int) = id }

/-- There is one row, with the id 1. -/
def upsertRuntimeState (row : RuntimeRow) : Option Tables :=
  if x.hasSession row.session then some { x with runtimeState := some row } else none

def clearRuntimeState : Tables := { x with runtimeState := none }

def setSetting (key value : Text) (updatedAt : Int) : Tables :=
  let row : SettingRow := { key := key, value := value, updatedAt := updatedAt }
  { x with settings :=
      if x.settings.any fun s => s.key = key then x.settings.map fun s => if s.key = key then row else s
      else x.settings ++ [row] }

end Tables

/-- A call of one of the methods of `Repository` that write, with its columns as they are bound. -/
inductive Call
  | insertSession (startedAt : Int) (title : Option Text)
  | closeSession (id : SessionId) (endedAt : Int)
  | deleteSession (id : SessionId)
  | wipeAll
  | insertTurn (session : SessionId) (role : TurnRole) (text lang : Option Text) (startedAt : Int)
      (status : TurnStatus)
  | setTurnStatus (id : Int) (status : TurnStatus) (endedAt interruptedAtSentence : Option Int) (text : Option Text)
  | deleteTurn (id : Int)
  | insertSummary (session : SessionId) (rangeStart rangeEnd : Int) (summary lang sourceHash : Text) (createdAt : Int)
  | upsertFact (f : Fact)
  | deleteFact (id : Int)
  | upsertRuntimeState (row : RuntimeRow)
  | clearRuntimeState
  | setSetting (key value : Text) (updatedAt : Int)
  | vacuum
  deriving DecidableEq, Repr

/-- A call is done, or it returns a `DbError`. One of `wipe_all` can come when the first `dropped` of the tables have
been dropped for good. -/
inductive CallEnd
  | done
  | failed (dropped : Nat)
  deriving DecidableEq, Repr

namespace Tables

/-- The tables after a call, if it breaks no constraint. -/
def call (x : Tables) : Call → Option Tables
  | .insertSession startedAt title => some (x.insertSession startedAt title)
  | .closeSession id endedAt => some (x.closeSession id endedAt)
  | .deleteSession id => some (x.deleteSession id)
  | .wipeAll => some x.wipeAll
  | .insertTurn session role text lang startedAt status => x.insertTurn session role text lang startedAt status
  | .setTurnStatus id status endedAt interrupted text => some (x.setTurnStatus id status endedAt interrupted text)
  | .deleteTurn id => some (x.deleteTurn id)
  | .insertSummary session first last summary lang hash createdAt =>
    x.insertSummary session first last summary lang hash createdAt
  | .upsertFact f => x.upsertFact f
  | .deleteFact id => some (x.deleteFact id)
  | .upsertRuntimeState row => x.upsertRuntimeState row
  | .clearRuntimeState => some x.clearRuntimeState
  | .setSetting key value updatedAt => some (x.setSetting key value updatedAt)
  | .vacuum => some x

/-- A call and how it ends. A call that would break a constraint ends in an error, whatever SQLite is said to do. -/
def step (x : Tables) : Call × CallEnd → Tables
  | (c, .done) => (x.call c).getD x
  | (.wipeAll, .failed dropped) => x.dropped dropped
  | (_, .failed _) => x

end Tables

end Schema

end Acva
