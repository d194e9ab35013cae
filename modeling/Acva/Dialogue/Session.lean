import Acva.Memory.MemoryThread

/-!
# Sessions

`SessionManager` runs one operation at a time. An operation is a chain of reads on the memory thread, each
of which it waits for, and ends by storing the new id and telling the subscribers one after another.
-/

namespace Acva

inductive SessionCommand
  | openInitial
  | adopt (id : SessionId)
  | rollOver
  | wipeSession (target : SessionId)
  | wipeAll
  deriving DecidableEq, Repr

/-- In the order of registration. -/
inductive SessionSubscriber
  | manager
  | turnWriter
  | summarizer
  deriving DecidableEq, Repr

/-- Between operations, inside `read`, before the read that inserts the new session, or in the loop of
`notify_subscribers_locked`. -/
inductive SessionStage
  | idle
  | reading (job : SessionJob)
  | opening
  | notifying (id : SessionId) (rest : List SessionSubscriber)
  deriving DecidableEq, Repr

structure SessionManager where
  current : SessionId := 0
  stage : SessionStage := .idle
  deriving DecidableEq, Repr

namespace SessionManager

/-- The first read of the operation, if it makes one. -/
def firstRead (m : SessionManager) (now : Int) : SessionCommand → Option SessionJob
  | .openInitial => if m.current ≠ 0 then none else some (.insertSession now)
  | .adopt id => some (.getSession id)
  | .rollOver => some (if m.current ≠ 0 then .closeSession m.current now else .insertSession now)
  | .wipeSession target => some (.deleteSession target)
  | .wipeAll => some .wipeAll

/-- The current session is `id`, and the subscribers are to be told. -/
def adopted (m : SessionManager) (id : SessionId) : SessionManager :=
  { m with current := id, stage := .notifying id [.manager, .turnWriter, .summarizer] }

/-- What follows a read. -/
def onResult (m : SessionManager) (job : SessionJob) (result : MemoryResult) : SessionManager :=
  match job, result with
  | .getSession id, .found true => m.adopted id
  | .closeSession _ _, .done => { m with stage := .opening }
  | .insertSession _, .opened id => m.adopted id
  | .deleteSession target, .done => { m with stage := if target ≠ m.current then .idle else .opening }
  | .wipeAll, .done => { m with stage := .opening }
  | _, _ => { m with stage := .idle }

end SessionManager

end Acva
