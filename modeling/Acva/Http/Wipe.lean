import Acva.Dialogue.SessionOps
import Acva.Http.ReloadResponse
import Acva.Lib.Decimal
import Acva.Lib.IntLiteral

/-!
# Wiping a session

`POST /wipe` and the offline command `acva memory delete-session` read the same id. The command asks `std::stoll` how
much of the text it has read, the endpoint does not.
-/

namespace Acva

/-- The parameters of the request, each with its first value. -/
structure WipeRequest where
  all : Option Text := none
  session : Option Text := none
  deriving DecidableEq, Repr

/-- Which callbacks of the privacy surface are set. -/
structure WipeCallbacks where
  wipeSession : Bool := true
  wipeAll : Bool := true
  deriving DecidableEq, Repr

/-- When the calls on the memory thread are made and how they go. -/
structure WipeRun where
  firstAt : Int := 0
  first : Schema.SqlRun := {}
  thenAt : Int := 0
  next : Schema.SqlRun := {}

/-- What came of a request; `target` is the id that `wipe_session` was called with. -/
structure WipeResult where
  target : Option SessionId := none
  response : Http.Response
  store : SessionStore
  deriving DecidableEq

namespace Http

def sessionOp (run : WipeRun) (command : SessionCommand) : SessionOp :=
  { command := command, firstAt := run.firstAt, first := run.first, thenAt := run.thenAt, next := run.next }

def wipeOk (scope : Text) (id : SessionId) : Response :=
  ⟨200, ascii "\x7b\"status\":\"ok\",\"scope\":\"" ++ scope ++ ascii "\",\"session_id\":" ++ Decimal.paddedInt 0 id ++
    ascii "\x7d\n"⟩

def wipeError (e : DbError) : Response :=
  ⟨500, ascii "\x7b\"status\":\"error\",\"error\":" ++ escapeJson e.message ++ ascii "\x7d\n"⟩

/-- The handler of `POST /wipe`. -/
def postWipe (callbacks : WipeCallbacks) (s : SessionStore) (run : WipeRun) (req : WipeRequest) : WipeResult :=
  match req.all with
  | some all =>
    if all ≠ ascii "true" then
      { response := ⟨400, ascii "\x7b\"error\":\"all must be exactly 'true'\"\x7d\n"⟩, store := s }
    else if ¬callbacks.wipeAll then
      { response := ⟨503, ascii "\x7b\"error\":\"wipe-all not configured\"\x7d\n"⟩, store := s }
    else
      let r := s.perform (sessionOp run .wipeAll)
      { response := (r.2.map wipeError).getD (wipeOk (ascii "all") r.1.manager.current), store := r.1 }
  | none =>
    match req.session with
    | some text =>
      if ¬callbacks.wipeSession then
        { response := ⟨503, ascii "\x7b\"error\":\"wipe-session not configured\"\x7d\n"⟩, store := s }
      else
        match IntLiteral.stoll text with
        | none => { response := ⟨400, ascii "\x7b\"error\":\"session must be an integer\"\x7d\n"⟩, store := s }
        | some (target, _) =>
          let r := s.perform (sessionOp run (.wipeSession target))
          { target := some target
            response := (r.2.map wipeError).getD (wipeOk (ascii "session") target)
            store := r.1 }
    | none => { response := ⟨400, ascii "\x7b\"error\":\"specify ?session=<id> or ?all=true\"\x7d\n"⟩, store := s }

end Http

namespace MemoryCli

def parseInt (s : Text) : Option Int :=
  match IntLiteral.stoll s with
  | some (n, consumed) => if consumed = s.length then some n else none
  | none => none

/-- The command takes an id that is an integer from its first byte to its last and fits in 64 bits. -/
theorem parseInt_eq_some_iff {s : Text} {n : Int} : parseInt s = some n ↔ IntLiteral.Literal s n := by
  constructor
  · intro h
    unfold parseInt at h
    split at h
    · rename_i m consumed hstoll
      rw [Option.ite_none_right_eq_some] at h
      obtain ⟨literal, rest, hs, hliteral, -, hconsumed⟩ := IntLiteral.stoll_eq_some_iff.mp hstoll
      have hrest : rest = [] := by
        have hlen := congrArg List.length hs
        rw [List.length_append] at hlen
        exact List.eq_nil_of_length_eq_zero (by omega)
      rw [hrest, List.append_nil] at hs
      rw [hs, ← Option.some.inj h.2]
      exact hliteral
    · simp at h
  · intro h
    rw [parseInt, h.stoll_eq]
    exact if_pos rfl

end MemoryCli

namespace Http

/-- The endpoint agrees with the command, and answers 400 without touching the tables where the command refuses,
exactly for the texts that do not go on after an integer they start with. -/
theorem postWipe_strict_iff (s : SessionStore) (run : WipeRun) (wipeAll : Bool) (text : Text) :
    let r := postWipe { wipeAll := wipeAll } s run { session := some text }
    (r.target = MemoryCli.parseInt text ∧
        (MemoryCli.parseInt text = none → r.response.status = 400 ∧ r.store = s)) ↔
      ∀ literal rest n, text = literal ++ rest → IntLiteral.Literal literal n → IntLiteral.Ends rest → rest = [] := by
  intro r
  cases hstoll : IntLiteral.stoll text with
  | none =>
    have hparse : MemoryCli.parseInt text = none := by rw [MemoryCli.parseInt, hstoll]
    have hr : r = { response := ⟨400, ascii "\x7b\"error\":\"session must be an integer\"\x7d\n"⟩, store := s } := by
      simp [r, postWipe, hstoll]
    constructor
    · intro _ literal rest n htext hliteral hends
      have hsome := IntLiteral.stoll_eq_some_iff.mpr ⟨literal, rest, htext, hliteral, hends, rfl⟩
      rw [hstoll] at hsome
      cases hsome
    · intro _
      rw [hparse, hr]
      exact ⟨rfl, fun _ => ⟨rfl, rfl⟩⟩
  | some found =>
    obtain ⟨target, consumed⟩ := found
    have htarget : r.target = some target := by simp [r, postWipe, hstoll]
    obtain ⟨literal, rest, htext, hliteral, hends, hconsumed⟩ := IntLiteral.stoll_eq_some_iff.mp hstoll
    rw [htarget]
    constructor
    · rintro ⟨hparse, -⟩ literal' rest' n htext' hliteral' hends'
      have hagain := IntLiteral.stoll_eq_some_iff.mpr ⟨literal', rest', htext', hliteral', hends', rfl⟩
      have hwhole := (MemoryCli.parseInt_eq_some_iff.mp hparse.symm).stoll_eq
      rw [hagain, Option.some.injEq, Prod.mk.injEq] at hwhole
      have hlen := congrArg List.length htext'
      rw [List.length_append] at hlen
      exact List.eq_nil_of_length_eq_zero (by omega)
    · intro hwhole
      have hrest : rest = [] := hwhole literal rest target htext hliteral hends
      rw [hrest, List.append_nil] at htext
      have hparse : MemoryCli.parseInt text = some target := by
        rw [MemoryCli.parseInt_eq_some_iff, htext]
        exact hliteral
      rw [hparse]
      exact ⟨rfl, fun hnone => by cases hnone⟩

/-- A table with the session 12 alone. -/
def twelfthSession : Schema.Table Schema.SessionRow Schema.SessionRow.id where
  rows := [{ id := 12, startedAt := 0 }]
  seq := 12
  ordered := List.pairwise_singleton _ _

/-- The command refuses `12abc`; the endpoint deletes session 12. -/
theorem postWipe_prefix_deletes :
    let s : SessionStore := { db := Schema.atRest { sessions := twelfthSession } }
    let r := postWipe {} s {} { session := some (ascii "12abc") }
    MemoryCli.parseInt (ascii "12abc") = none ∧ r.target = some 12 ∧ r.response.status = 200 ∧
      s.tables.hasSession 12 = true ∧ r.store.tables.hasSession 12 = false := by
  decide

end Http

end Acva
