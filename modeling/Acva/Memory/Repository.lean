import Acva.Dialogue.TurnWriter

/-!
# The tables of sessions and turns

`Repository` over the schema: ids count up from the last one that the table gave out, a turn refers to a
session that exists, and deleting a session deletes its turns. `turns` is in the order of the ids.
-/

namespace Acva

structure SessionRow where
  id : SessionId
  startedAt : Int
  endedAt : Option Int := none
  deriving DecidableEq, Repr

/-- `source` is the number of the transcript that a user row was written for; the table does not hold it. -/
structure StoredTurn where
  id : Nat
  row : TurnRow
  source : Option Nat := none
  deriving DecidableEq, Repr

structure Repository where
  sessions : List SessionRow := []
  sessionSeq : SessionId := 0
  turns : List StoredTurn := []
  turnSeq : Nat := 0
  deriving DecidableEq, Repr

namespace Repository

def hasSession (r : Repository) (id : SessionId) : Bool := r.sessions.any fun s => s.id = id

def insertSession (r : Repository) (startedAt : Int) : Repository × SessionId :=
  let id := r.sessionSeq + 1
  ({ r with sessions := r.sessions ++ [{ id := id, startedAt := startedAt }], sessionSeq := id }, id)

def closeSession (r : Repository) (id : SessionId) (endedAt : Int) : Repository :=
  { r with sessions := r.sessions.map fun s => if s.id = id then { s with endedAt := some endedAt } else s }

/-- The turns go with their session. -/
def deleteSession (r : Repository) (id : SessionId) : Repository :=
  { r with sessions := r.sessions.filter fun s => s.id ≠ id
           turns := r.turns.filter fun t => t.row.session ≠ id }

/-- The tables are dropped and created again, so the ids start over. -/
def wipeAll (_ : Repository) : Repository := {}

/-- `insert_turn` and `set_turn_status`; nothing if the session does not exist. -/
def insertTurn (r : Repository) (source : Option Nat) (row : TurnRow) : Option Repository :=
  if r.hasSession row.session then
    some { r with turns := r.turns ++ [{ id := r.turnSeq + 1, row := row, source := source }]
                  turnSeq := r.turnSeq + 1 }
  else none

/-- The newest rows of the session, oldest first. A negative limit is none. -/
def recentTurns (r : Repository) (session : SessionId) (limit : Int) : List StoredTurn :=
  let rows := (r.turns.filter fun t => t.row.session = session).reverse
  (if limit < 0 then rows else rows.take limit.toNat).reverse

lemma mem_of_mem_recentTurns {r : Repository} {session : SessionId} {limit : Int} {t : StoredTurn}
    (h : t ∈ r.recentTurns session limit) : t ∈ r.turns ∧ t.row.session = session := by
  have hrows : t ∈ (r.turns.filter fun t => t.row.session = session).reverse := by
    unfold recentTurns at h
    rw [List.mem_reverse] at h
    split at h
    · exact h
    · exact List.mem_of_mem_take h
  rw [List.mem_reverse, List.mem_filter] at hrows
  simpa using hrows

end Repository

end Acva
