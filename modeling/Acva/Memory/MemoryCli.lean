import Acva.Config.Paths
import Acva.Http.Wipe
import Acva.Memory.Integrity

/-!
# The offline tool

`acva memory` reads and deletes rows of the database while the program does not run. With `--json` each row is one line
of JSON. A command makes at most one call that writes, and makes it only if it succeeds, so what the tool has deleted is
not listed again.
-/

namespace Acva

namespace Schema

namespace Tables

variable (x : Tables)

/-- `LIMIT ?`, where a negative limit is none. -/
def limited {ρ : Type} (limit : Int) (rows : List ρ) : List ρ := if limit < 0 then rows else rows.take limit.toNat

def allSessions (limit : Int) : List SessionRow := limited limit x.sessions.rows.reverse

def getSession (id : SessionId) : Option SessionRow := x.sessions.rows.find? fun s => s.id = id

def allTurns (limit : Int) : List TurnRow := limited limit x.turns.rows.reverse

def getTurn (id : Int) : Option TurnRow := x.turns.rows.find? fun t => t.id = id

/-- SQL leaves the order of rows with the same key open. -/
def summariesBySession (session : SessionId) : List SummaryRow :=
  (x.summaries.rows.filter fun s => s.session = session).mergeSort fun a b => b.rangeEndTurn ≤ a.rangeEndTurn

/-- `ORDER BY key, lang`, where a NULL comes before any text. -/
def factBefore (f g : StoredFact) : Bool :=
  if f.fact.key = g.fact.key then
    match f.fact.lang, g.fact.lang with
    | none, _ => true
    | some _, none => false
    | some a, some b => decide (a ≤ b)
  else decide (f.fact.key ≤ g.fact.key)

def factsWithMinConfidence (min : Config.Number) : List StoredFact :=
  (x.facts.rows.filter fun f => min.le f.fact.confidence).mergeSort factBefore

end Tables

namespace MemoryCli

open Decimal

/-! ### Arguments -/

structure Options where
  configPath : Option Text := none
  dbPath : Option Text := none
  sessionFilter : Option Int := none
  limit : Int := 50
  json : Bool := false
  yes : Bool := false
  dryRun : Bool := false
  showTurns : Bool := false
  host : Text := ascii "127.0.0.1"
  port : Int := 9876
  positional : List Text := []
  deriving DecidableEq, Repr

/-- What `parse_options` leaves: options, or a message, or the help was asked for. -/
inductive Parsed
  | options (out : Options)
  | refused (message : Text)
  | help
  deriving DecidableEq, Repr

/-- The flags that take the argument after them. -/
def valueFlags : List Text := ["--limit", "--session", "--config", "--db", "--host", "--port"].map ascii

/-- `static_cast<int>` of a 64-bit integer. -/
def toInt (n : Int) : Int := n.bmod 4294967296

def setValue (out : Options) (flag v : Text) : Except Text Options :=
  if flag = ascii "--limit" then
    match MemoryCli.parseInt v with
    | some n =>
      if n ≤ 0 then .error (ascii "--limit must be a positive integer") else .ok { out with limit := toInt n }
    | none => .error (ascii "--limit must be a positive integer")
  else if flag = ascii "--session" then
    match MemoryCli.parseInt v with
    | some n => .ok { out with sessionFilter := some n }
    | none => .error (ascii "--session must be an integer")
  else if flag = ascii "--config" then .ok { out with configPath := some v }
  else if flag = ascii "--db" then .ok { out with dbPath := some v }
  else if flag = ascii "--host" then .ok { out with host := v }
  else
    match MemoryCli.parseInt v with
    | some n =>
      if n ≤ 0 ∨ 65535 < n then .error (ascii "--port must be 1..65535") else .ok { out with port := toInt n }
    | none => .error (ascii "--port must be 1..65535")

/-- A flag without a value, or another argument. -/
def setFlag (out : Options) (a : Text) : Parsed :=
  if a = ascii "--json" then .options { out with json := true }
  else if a = ascii "--yes" then .options { out with yes := true }
  else if a = ascii "--dry-run" then .options { out with dryRun := true }
  else if a = ascii "--turns" then .options { out with showTurns := true }
  else if ascii "--config=" <+: a then .options { out with configPath := some (a.drop 9) }
  else if ascii "--db=" <+: a then .options { out with dbPath := some (a.drop 5) }
  else if a = ascii "-h" ∨ a = ascii "--help" then .help
  else if a.head? = some 45 then .refused (ascii "unknown flag '" ++ a ++ ascii "'")
  else .options { out with positional := out.positional ++ [a] }

def parseOptions : List Text → Options → Parsed
  | [], out => .options out
  | a :: rest, out =>
    if valueFlags.any (· = a) then
      match rest with
      | [] => .refused (a ++ ascii " requires a value")
      | v :: rest =>
        match setValue out a v with
        | .ok out => parseOptions rest out
        | .error message => .refused message
    else
      match setFlag out a with
      | .options out => parseOptions rest out
      | .refused message => .refused message
      | .help => .help

/-! ### Rows as lines -/

/-- The characters that `json_quote` gives a letter. -/
def shortEscapes : List (UInt8 × UInt8) := [(34, 34), (92, 92), (10, 110), (13, 114), (9, 116)]

def jsonQuote (s : Text) : Text := Json.quoted shortEscapes s

def jsonQuoteOpt : Option Text → Text
  | none => ascii "null"
  | some s => jsonQuote s

def jsonIntOpt : Option Int → Text
  | none => ascii "null"
  | some n => paddedInt 0 n

def roleName : TurnRole → Text
  | .user => ascii "user"
  | .assistant => ascii "assistant"

def statusName : TurnStatus → Text
  | .inProgress => ascii "in_progress"
  | .committed => ascii "committed"
  | .interrupted => ascii "interrupted"
  | .discarded => ascii "discarded"

/-- Thousandths, rounded to the nearest and halves to even. -/
def thousandths (q : Rat) : Nat :=
  let y := (if q < 0 then -q else q) * 1000
  let down := y.floor.toNat
  if y - down < 1 / 2 then down
  else if 1 / 2 < y - down then down + 1
  else if down % 2 = 0 then down else down + 1

/-- `%.3f`. -/
def fixed3 : Config.Number → Text
  | .nan => ascii "nan"
  | .negInf => ascii "-inf"
  | .posInf => ascii "inf"
  | .finite q =>
    (if q < 0 then ascii "-" else []) ++ decimal (thousandths q / 1000) ++ 46 :: padded 3 (thousandths q % 1000)

def member (name : String) (v : Text) : Text := Json.writeMember (ascii name) v

/-- A row that a command prints; `sessionTurn` is a turn below its session. -/
inductive Row
  | session (s : SessionRow)
  | sessionTurn (t : TurnRow)
  | listedTurn (t : TurnRow)
  | turn (t : TurnRow)
  | fact (f : StoredFact)
  | summary (s : SummaryRow)
  deriving DecidableEq

/-- The line of a row under `--json`, without its newline. -/
def Row.line : Row → Text
  | .session s => Json.writeObject [member "id" (paddedInt 0 s.id), member "started_at" (paddedInt 0 s.startedAt),
      member "ended_at" (jsonIntOpt s.endedAt), member "title" (jsonQuoteOpt s.title)]
  | .sessionTurn t => Json.writeObject [member "turn" (paddedInt 0 t.id), member "role" (jsonQuote (roleName t.role)),
      member "status" (jsonQuote (statusName t.status)), member "text" (jsonQuoteOpt t.text)]
  | .listedTurn t => Json.writeObject [member "id" (paddedInt 0 t.id), member "session_id" (paddedInt 0 t.session),
      member "role" (jsonQuote (roleName t.role)), member "status" (jsonQuote (statusName t.status)),
      member "lang" (jsonQuoteOpt t.lang), member "text" (jsonQuoteOpt t.text)]
  | .turn t => Json.writeObject [member "id" (paddedInt 0 t.id), member "session_id" (paddedInt 0 t.session),
      member "role" (jsonQuote (roleName t.role)), member "status" (jsonQuote (statusName t.status)),
      member "lang" (jsonQuoteOpt t.lang), member "started_at" (paddedInt 0 t.startedAt),
      member "ended_at" (jsonIntOpt t.endedAt),
      member "interrupted_at_sentence" (jsonIntOpt t.interruptedAtSentence), member "text" (jsonQuoteOpt t.text)]
  | .fact f => Json.writeObject [member "id" (paddedInt 0 f.id), member "key" (jsonQuote f.fact.key),
      member "value" (jsonQuote f.fact.value), member "lang" (jsonQuoteOpt f.fact.lang),
      member "source_turn_id" (jsonIntOpt (f.fact.sourceTurnId.map fun k : TurnId => (k : Int))),
      member "confidence" (fixed3 f.fact.confidence)]
  | .summary s => Json.writeObject [member "id" (paddedInt 0 s.id), member "session_id" (paddedInt 0 s.session),
      member "range" (Json.writeArray [paddedInt 0 s.rangeStartTurn, paddedInt 0 s.rangeEndTurn]),
      member "lang" (jsonQuote s.lang), member "summary" (jsonQuote s.summary)]

/-! ### Subcommands -/

/-- The exit code, the rows printed on standard output, what else is said there, what is said on standard error, and
whether the help is printed. -/
structure Report where
  exitCode : Nat := 0
  printed : List Row := []
  said : Text := []
  complaint : Text := []
  helped : Bool := false
  deriving DecidableEq

/-- Standard output under `--json`; the layout of the plain listings is left out. -/
def Report.stdout (opts : Options) (r : Report) : Option Text :=
  if opts.json then some ((r.printed.flatMap fun row => row.line ++ [10]) ++ r.said) else none

/-- What the statements of a command run into, in turn: `sourceOk` are the reads of the source turns of facts. -/
structure DbRun where
  readOk : Bool := true
  turnsOk : Bool := true
  sourceOk : Int → Bool := fun _ => true
  write : CallEnd := .done
  message : Text := []

inductive Subcommand
  | sessions
  | session
  | turns
  | turn
  | facts
  | summaries
  | deleteTurn
  | deleteSession
  | deleteFact
  | wipe
  | vacuum
  deriving DecidableEq, Repr

namespace Subcommand

def name : Subcommand → Text
  | .sessions => ascii "sessions"
  | .session => ascii "session"
  | .turns => ascii "turns"
  | .turn => ascii "turn"
  | .facts => ascii "facts"
  | .summaries => ascii "summaries"
  | .deleteTurn => ascii "delete-turn"
  | .deleteSession => ascii "delete-session"
  | .deleteFact => ascii "delete-fact"
  | .wipe => ascii "wipe"
  | .vacuum => ascii "vacuum"

def all : List Subcommand :=
  [.sessions, .session, .turns, .turn, .facts, .summaries, .deleteTurn, .deleteSession, .deleteFact, .wipe, .vacuum]

/-- A line on standard error under the name of the subcommand. -/
def failed (c : Subcommand) (exitCode : Nat) (message : Text) : Report :=
  { exitCode := exitCode, complaint := ascii "acva memory " ++ c.name ++ ascii ": " ++ message ++ ascii "\n" }

/-- The id that is the first positional argument. -/
def idArgument (c : Subcommand) (opts : Options) : Except Report Int :=
  match opts.positional with
  | [] => .error (c.failed 1 (ascii "missing <id>"))
  | text :: _ =>
    match MemoryCli.parseInt text with
    | none => .error (c.failed 1 (ascii "<id> must be an integer"))
    | some id => .ok id

def notFound (c : Subcommand) (id : Int) : Report := c.failed 1 (ascii "id " ++ paddedInt 0 id ++ ascii " not found")

end Subcommand

variable (x : Tables) (opts : Options) (db : DbRun)

def cmdSessions : Report :=
  if ¬db.readOk then Subcommand.sessions.failed 2 db.message
  else { printed := (x.allSessions opts.limit).map .session }

def cmdSession : Report :=
  match Subcommand.session.idArgument opts with
  | .error r => r
  | .ok id =>
    if ¬db.readOk then Subcommand.session.failed 2 db.message
    else
      match x.getSession id with
      | none => Subcommand.session.notFound id
      | some s =>
        if ¬opts.showTurns then { printed := [.session s] }
        else if ¬db.turnsOk then
          { Subcommand.session.failed 2 (ascii "turns: " ++ db.message) with printed := [.session s] }
        else { printed := .session s :: (x.recentTurns id opts.limit).map .sessionTurn }

def cmdTurns : Report :=
  if ¬db.readOk then Subcommand.turns.failed 2 db.message
  else
    match opts.sessionFilter with
    | some session => { printed := (x.recentTurns session opts.limit).map .listedTurn }
    | none => { printed := (x.allTurns opts.limit).map .listedTurn }

def cmdTurn : Report :=
  match Subcommand.turn.idArgument opts with
  | .error r => r
  | .ok id =>
    if ¬db.readOk then Subcommand.turn.failed 2 db.message
    else
      match x.getTurn id with
      | none => Subcommand.turn.notFound id
      | some t => { printed := [.turn t] }

/-- The source turn of the fact is of the session. -/
def sourceIn (session : SessionId) (f : StoredFact) : Bool :=
  f.fact.sourceTurnId.any fun k : TurnId => db.sourceOk k && (x.getTurn k).any fun t => t.session = session

def cmdFacts : Report :=
  if ¬db.readOk then Subcommand.facts.failed 2 db.message
  else
    let rows := x.factsWithMinConfidence 0
    match opts.sessionFilter with
    | some session => { printed := (rows.filter (sourceIn x db session)).map .fact }
    | none => { printed := rows.map .fact }

def cmdSummaries : Report :=
  if ¬db.readOk then Subcommand.summaries.failed 2 db.message
  else
    match opts.sessionFilter with
    | some session => { printed := (x.summariesBySession session).map .summary }
    | none => { printed := x.allSummaries.map .summary }

def cmdDeleteTurn : Tables × Report :=
  match Subcommand.deleteTurn.idArgument opts with
  | .error r => (x, r)
  | .ok id =>
    if ¬db.readOk then (x, Subcommand.deleteTurn.failed 2 db.message)
    else if (x.getTurn id).isNone then (x, Subcommand.deleteTurn.notFound id)
    else if opts.dryRun then
      (x, { said := ascii "would delete 1 turn (id=" ++ paddedInt 0 id ++
              ascii "). Re-run without --dry-run to apply.\n" })
    else if db.write ≠ .done then (x, Subcommand.deleteTurn.failed 2 db.message)
    else (x.deleteTurn id, { said := ascii "deleted turn " ++ paddedInt 0 id ++ ascii "\n" })

/-- The turns are counted up to a thousand, and not at all if they cannot be read. -/
def cmdDeleteSession : Tables × Report :=
  match Subcommand.deleteSession.idArgument opts with
  | .error r => (x, r)
  | .ok id =>
    if ¬db.readOk then (x, Subcommand.deleteSession.failed 2 db.message)
    else if (x.getSession id).isNone then (x, Subcommand.deleteSession.notFound id)
    else
      let turnCount := if db.turnsOk then (x.recentTurns id 1000).length else 0
      if opts.dryRun then
        (x, { said := ascii "would delete session " ++ paddedInt 0 id ++ ascii " and " ++ decimal turnCount ++
                ascii " cascading turn(s). Re-run without --dry-run to apply.\n" })
      else if db.write ≠ .done then (x, Subcommand.deleteSession.failed 2 db.message)
      else
        (x.deleteSession id,
          { said := ascii "deleted session " ++ paddedInt 0 id ++ ascii " (" ++ decimal turnCount ++
              ascii " turn(s) cascaded)\n" })

def cmdDeleteFact : Tables × Report :=
  match Subcommand.deleteFact.idArgument opts with
  | .error r => (x, r)
  | .ok id =>
    if opts.dryRun then
      (x, { said := ascii "would delete fact id=" ++ paddedInt 0 id ++
              ascii " (no existence check; --dry-run skips it). Re-run without --dry-run to apply.\n" })
    else if db.write ≠ .done then (x, Subcommand.deleteFact.failed 2 db.message)
    else (x.deleteFact id, { said := ascii "deleted fact " ++ paddedInt 0 id ++ ascii "\n" })

/-- `--dry-run` is not looked at. -/
def cmdWipe : Tables × Report :=
  if ¬opts.yes then
    (x, Subcommand.wipe.failed 1 (ascii ("refusing to drop the schema without --yes " ++
      "(this drops every session, turn, summary, fact, and setting).")))
  else
    (x.step (.wipeAll, db.write),
      if db.write ≠ .done then Subcommand.wipe.failed 2 db.message
      else { said := ascii "schema dropped and recreated.\n" })

def cmdVacuum : Report :=
  if db.write ≠ .done then Subcommand.vacuum.failed 2 db.message else { said := ascii "vacuum complete.\n" }

/-- What `%s` prints of a string. -/
def cString (s : Text) : Text := s.takeWhile (· != 0)

/-- `restart` posts to the control server of a program that runs. -/
def cmdRestart (reply : Option (Nat × Text)) : Report :=
  let failed (exitCode : Nat) (message : Text) : Report :=
    { exitCode := exitCode, complaint := ascii "acva memory restart: " ++ message ++ ascii "\n" }
  match reply with
  | none => failed 2 (ascii "no response from " ++ opts.host ++ ascii ":" ++ paddedInt 0 opts.port ++
      ascii " (is acva running?)")
  | some (202, _) => { said := ascii "restart accepted (HTTP 202)\n" }
  | some (409, body) => failed 1 (ascii "rejected (HTTP 409): " ++ cString body)
  | some (status, body) => failed 2 (ascii "unexpected HTTP " ++ decimal status ++ ascii ": " ++ cString body)

def Subcommand.run : Subcommand → Tables × Report
  | .sessions => (x, cmdSessions x opts db)
  | .session => (x, cmdSession x opts db)
  | .turns => (x, cmdTurns x opts db)
  | .turn => (x, cmdTurn x opts db)
  | .facts => (x, cmdFacts x opts db)
  | .summaries => (x, cmdSummaries x opts db)
  | .deleteTurn => cmdDeleteTurn x opts db
  | .deleteSession => cmdDeleteSession x opts db
  | .deleteFact => cmdDeleteFact x opts db
  | .wipe => cmdWipe x opts db
  | .vacuum => (x, cmdVacuum db)

/-! ### What is read of the lines -/

def number (n : Int) : Json := .number (paddedInt 0 n)

def numberOpt : Option Int → Json
  | none => .null
  | some n => number n

def stringOpt : Option Text → Json
  | none => .null
  | some s => .string s

/-- The value of a row: its columns under their names. -/
def Row.json : Row → Json
  | .session s => .object [(ascii "id", number s.id), (ascii "started_at", number s.startedAt),
      (ascii "ended_at", numberOpt s.endedAt), (ascii "title", stringOpt s.title)]
  | .sessionTurn t => .object [(ascii "turn", number t.id), (ascii "role", .string (roleName t.role)),
      (ascii "status", .string (statusName t.status)), (ascii "text", stringOpt t.text)]
  | .listedTurn t => .object [(ascii "id", number t.id), (ascii "session_id", number t.session),
      (ascii "role", .string (roleName t.role)), (ascii "status", .string (statusName t.status)),
      (ascii "lang", stringOpt t.lang), (ascii "text", stringOpt t.text)]
  | .turn t => .object [(ascii "id", number t.id), (ascii "session_id", number t.session),
      (ascii "role", .string (roleName t.role)), (ascii "status", .string (statusName t.status)),
      (ascii "lang", stringOpt t.lang), (ascii "started_at", number t.startedAt),
      (ascii "ended_at", numberOpt t.endedAt),
      (ascii "interrupted_at_sentence", numberOpt t.interruptedAtSentence), (ascii "text", stringOpt t.text)]
  | .fact f => .object [(ascii "id", number f.id), (ascii "key", .string f.fact.key),
      (ascii "value", .string f.fact.value), (ascii "lang", stringOpt f.fact.lang),
      (ascii "source_turn_id", numberOpt (f.fact.sourceTurnId.map fun k : TurnId => (k : Int))),
      (ascii "confidence", .number (fixed3 f.fact.confidence))]
  | .summary s => .object [(ascii "id", number s.id), (ascii "session_id", number s.session),
      (ascii "range", .array [number s.rangeStartTurn, number s.rangeEndTurn]), (ascii "lang", .string s.lang),
      (ascii "summary", .string s.summary)]

/-- The text reads as the value, and has no control characters. -/
structure Writes (e : Text) (v : Json) : Prop where
  reads : Json.Reads e v
  print : ∀ b ∈ e, 32 ≤ b

structure WritesMember (e : Text) (m : Text × Json) : Prop where
  reads : Json.ReadsMember e m
  print : ∀ b ∈ e, 32 ≤ b

lemma sound_shortEscapes : Json.Sound shortEscapes := Json.sound_of_all (by decide) (by decide) (by decide)

lemma writes_quote (s : Text) : Writes (jsonQuote s) (.string s) :=
  ⟨sound_shortEscapes.reads_quoted s, fun _ hb => sound_shortEscapes.mem_quoted hb⟩

lemma print_digit {b : UInt8} (hb : 48 ≤ b ∧ b ≤ 57) : 32 ≤ b := UInt8.le_trans (by decide) hb.1

lemma writes_int (n : Int) : Writes (paddedInt 0 n) (number n) := by
  refine ⟨Json.reads_paddedInt n, fun b hb => ?_⟩
  rcases mem_paddedInt hb with rfl | hdigit
  · decide
  · exact print_digit hdigit

lemma writes_null : Writes (ascii "null") .null := by
  have hprint : (ascii "null").all (32 ≤ ·) = true := by decide
  exact ⟨Json.reads_null, fun b hb => of_decide_eq_true (List.all_eq_true.mp hprint b hb)⟩

lemma writes_quoteOpt (s : Option Text) : Writes (jsonQuoteOpt s) (stringOpt s) := by
  cases s with
  | none => exact writes_null
  | some s => exact writes_quote s

lemma writes_intOpt (n : Option Int) : Writes (jsonIntOpt n) (numberOpt n) := by
  cases n with
  | none => exact writes_null
  | some n => exact writes_int n

lemma writes_fixed3 {q : Rat} (hq : 0 ≤ q) : Writes (fixed3 (.finite q)) (.number (fixed3 (.finite q))) := by
  have hsign : ¬q < 0 := Rat.not_lt.mpr hq
  simp only [fixed3, if_neg hsign, List.nil_append]
  have hdigits : ∀ b ∈ padded 3 (thousandths q % 1000), Json.isDigit b = true := by
    intro b hb
    simpa [Json.isDigit] using mem_padded hb
  refine ⟨Json.reads_number (Json.isInteger_decimal _) (.inr ⟨_, rfl, padded_ne_nil _ _, hdigits⟩), fun b hb => ?_⟩
  rcases List.mem_append.mp hb with hb | hb
  · exact print_digit (mem_decimal hb)
  · rcases List.mem_cons.mp hb with rfl | hb
    · decide
    · exact print_digit (mem_padded hb)

lemma WritesMember.member {name : String} {v : Text} {j : Json} (hname : (ascii name).all Json.isPlain)
    (h : Writes v j) : WritesMember (member name v) (ascii name, j) := by
  refine ⟨Json.readsMember_plain hname h.reads, fun b hb => ?_⟩
  simp only [MemoryCli.member, Json.writeMember, List.mem_cons, List.mem_append] at hb
  rcases hb with (rfl | hb) | rfl | rfl | hb
  · decide
  · exact (Json.isPlain_iff.mp (List.all_eq_true.mp hname b hb)).2.2.1
  · decide
  · decide
  · exact h.print b hb

lemma print_intercalate {items : List Text} (h : ∀ e ∈ items, ∀ b ∈ e, 32 ≤ b) :
    ∀ b ∈ [44].intercalate items, 32 ≤ b := by
  cases items with
  | nil => exact fun b hb => by cases hb
  | cons e items =>
    intro b hb
    rw [Json.intercalate_cons, List.mem_append, List.mem_flatMap] at hb
    rcases hb with hb | ⟨e', he', hb⟩
    · exact h e List.mem_cons_self b hb
    · rcases List.mem_cons.mp hb with rfl | hb
      · decide
      · exact h e' (List.mem_cons_of_mem e he') b hb

lemma print_between {opening closing : UInt8} {s : Text} (ho : 32 ≤ opening) (hc : 32 ≤ closing)
    (h : ∀ b ∈ s, 32 ≤ b) : ∀ b ∈ opening :: s ++ [closing], 32 ≤ b := by
  intro b hb
  simp only [List.cons_append, List.mem_cons, List.mem_append, List.not_mem_nil, or_false] at hb
  rcases hb with rfl | hb | rfl
  · exact ho
  · exact h b hb
  · exact hc

lemma print_items {α : Type} {R : Text → α → Prop} {items : List Text} {vs : List α} (h : List.Forall₂ R items vs)
    (hR : ∀ e v, R e v → ∀ b ∈ e, 32 ≤ b) : ∀ e ∈ items, ∀ b ∈ e, 32 ≤ b := by
  induction h with
  | nil => exact fun e he => by cases he
  | cons hv _ ih =>
    intro e he
    rcases List.mem_cons.mp he with rfl | he
    · exact hR _ _ hv
    · exact ih e he

lemma writes_object {items : List Text} {ms : List (Text × Json)} (h : List.Forall₂ WritesMember items ms) :
    Writes (Json.writeObject items) (.object ms) := by
  refine ⟨Json.reads_object (h.imp fun _ _ he => he.reads), ?_⟩
  exact print_between (by decide) (by decide) (print_intercalate (print_items h fun _ _ he => he.print))

lemma writes_array {items : List Text} {vs : List Json} (h : List.Forall₂ Writes items vs) :
    Writes (Json.writeArray items) (.array vs) := by
  refine ⟨Json.reads_array (h.imp fun _ _ he => he.reads), ?_⟩
  exact print_between (by decide) (by decide) (print_intercalate (print_items h fun _ _ he => he.print))

/-- Only a confidence that is a number in decimals can be read. -/
def Row.Finite : Row → Prop
  | .fact f => ∃ q, f.fact.confidence = .finite q ∧ 0 ≤ q
  | _ => True

lemma finite_of_le {n : Config.Number} (hle : Config.Number.le 0 n = true) (hinf : n ≠ .posInf) :
    ∃ q, n = .finite q ∧ 0 ≤ q := by
  rw [Config.Number.le, Bool.or_eq_true] at hle
  cases n with
  | finite q =>
    refine ⟨q, rfl, ?_⟩
    rcases hle with hlt | heq
    · exact Rat.le_of_lt (of_decide_eq_true hlt)
    · have hzero : Config.Number.finite 0 = .finite q := Config.Number.eq_of_eq heq
      exact (Config.Number.finite.inj hzero) ▸ Rat.le_refl
  | posInf => exact absurd rfl hinf
  | nan | negInf => exact absurd hle (by decide)

lemma writes_line {row : Row} (h : row.Finite) : Writes row.line row.json := by
  cases row with
  | session s =>
    exact writes_object (.cons (.member (by decide) (writes_int _)) (.cons (.member (by decide) (writes_int _))
      (.cons (.member (by decide) (writes_intOpt _)) (.cons (.member (by decide) (writes_quoteOpt _)) .nil))))
  | sessionTurn t =>
    exact writes_object (.cons (.member (by decide) (writes_int _)) (.cons (.member (by decide) (writes_quote _))
      (.cons (.member (by decide) (writes_quote _)) (.cons (.member (by decide) (writes_quoteOpt _)) .nil))))
  | listedTurn t =>
    exact writes_object (.cons (.member (by decide) (writes_int _)) (.cons (.member (by decide) (writes_int _))
      (.cons (.member (by decide) (writes_quote _)) (.cons (.member (by decide) (writes_quote _))
        (.cons (.member (by decide) (writes_quoteOpt _)) (.cons (.member (by decide) (writes_quoteOpt _)) .nil))))))
  | turn t =>
    exact writes_object (.cons (.member (by decide) (writes_int _)) (.cons (.member (by decide) (writes_int _))
      (.cons (.member (by decide) (writes_quote _)) (.cons (.member (by decide) (writes_quote _))
        (.cons (.member (by decide) (writes_quoteOpt _)) (.cons (.member (by decide) (writes_int _))
          (.cons (.member (by decide) (writes_intOpt _)) (.cons (.member (by decide) (writes_intOpt _))
            (.cons (.member (by decide) (writes_quoteOpt _)) .nil)))))))))
  | fact f =>
    obtain ⟨q, hconfidence, hq⟩ := h
    simp only [Row.line, Row.json, hconfidence]
    exact writes_object (.cons (.member (by decide) (writes_int _)) (.cons (.member (by decide) (writes_quote _))
      (.cons (.member (by decide) (writes_quote _)) (.cons (.member (by decide) (writes_quoteOpt _))
        (.cons (.member (by decide) (writes_intOpt _)) (.cons (.member (by decide) (writes_fixed3 hq)) .nil))))))
  | summary s =>
    exact writes_object (.cons (.member (by decide) (writes_int _)) (.cons (.member (by decide) (writes_int _))
      (.cons (.member (by decide) (writes_array (.cons (writes_int _) (.cons (writes_int _) .nil))))
        (.cons (.member (by decide) (writes_quote _)) (.cons (.member (by decide) (writes_quote _)) .nil)))))

lemma readLines_stdout {opts : Options} {r : Report} (hjson : opts.json = true) (hsaid : r.said = [])
    (h : ∀ row ∈ r.printed, row.Finite) :
    (r.stdout opts).bind Json.readLines = some (r.printed.map Row.json) := by
  rw [Report.stdout, if_pos hjson, hsaid, List.append_nil, Option.bind_some]
  refine Json.readLines_of_reads fun row hrow => ⟨(writes_line (h row hrow)).reads, fun hten => ?_⟩
  exact absurd ((writes_line (h row hrow)).print 10 hten) (by decide)

/-! ### Invocations -/

/-- The arguments after `memory`, and what the tool meets: its environment, whether the database can be opened, how its
statements go, and the answer to `POST /restart`. -/
structure Invocation where
  args : List Text
  host : Host
  opened : Bool := true
  db : DbRun := {}
  reply : Option (Nat × Text) := none

/-- `--db`, or else the path in the configuration, or else the default. -/
def resolveDbPath (readYaml : YamlReader) (host : Host) (opts : Options) : Except Text Text :=
  match opts.dbPath with
  | some path => .ok path
  | none =>
    let cfgPath :=
      match opts.configPath with
      | some path => some path
      | none => (host.resolveConfigPath []).toOption
    match cfgPath with
    | none => .ok (host.resolveDataPath [] (ascii "acva.db"))
    | some cfgPath =>
      match Config.loadFromFile readYaml host cfgPath with
      | .error message => .error (ascii "failed to parse " ++ cfgPath ++ ascii ": " ++ message)
      | .ok cfg => .ok (host.resolveDataPath cfg.memory.dbPath (ascii "acva.db"))

/-- How far an invocation gets without a database: it ends, or goes on to one. -/
inductive Front
  | ended (r : Report)
  | opens (sub : Text) (opts : Options) (path : Text)

def complain (exitCode : Nat) (message : Text) : Report :=
  { exitCode := exitCode, complaint := ascii "acva memory: " ++ message ++ ascii "\n" }

/-- `run_memory_subcommand` up to `open_db_or_die`. -/
def Invocation.front (readYaml : YamlReader) (i : Invocation) : Front :=
  match i.args with
  | [] => .ended { exitCode := 1, helped := true }
  | sub :: args =>
    if sub = ascii "-h" ∨ sub = ascii "--help" then .ended { helped := true }
    else
      match parseOptions args {} with
      | .refused message => .ended (complain 1 message)
      | .help => .ended { helped := true }
      | .options opts =>
        if sub = ascii "restart" then .ended (cmdRestart opts i.reply)
        else
          match resolveDbPath readYaml i.host opts with
          | .error message => .ended (complain 2 message)
          | .ok path => .opens sub opts path

/-- The databases by their paths. -/
abbrev Databases := Text → Option Tables

/-- `run_memory_subcommand`. -/
def runMemorySubcommand (readYaml : YamlReader) (dbs : Databases) (i : Invocation) : Databases × Report :=
  match i.front readYaml with
  | .ended r => (dbs, r)
  | .opens sub opts path =>
    match dbs path with
    | none => (dbs, complain 2 (ascii "database not found at " ++ path))
    | some x =>
      if ¬i.opened then (dbs, complain 2 (ascii "open " ++ path ++ ascii " failed: " ++ i.db.message))
      else
        match Subcommand.all.find? fun c => c.name = sub with
        | none =>
          (dbs, { exitCode := 1, helped := true
                  complaint := ascii "acva memory: unknown subcommand '" ++ sub ++ ascii "'\n\n" })
        | some c =>
          let (y, r) := c.run x opts i.db
          (Function.update dbs path (some y), r)

/-! ### What a command does -/

section Commands

variable {x : Tables} {opts : Options} {db : DbRun}

/-- The call of a command that writes. -/
def Subcommand.call (opts : Options) : Subcommand → Option Call
  | .deleteTurn => (opts.positional.head?.bind MemoryCli.parseInt).map .deleteTurn
  | .deleteSession => (opts.positional.head?.bind MemoryCli.parseInt).map .deleteSession
  | .deleteFact => (opts.positional.head?.bind MemoryCli.parseInt).map .deleteFact
  | .wipe => some .wipeAll
  | _ => none

lemma idArgument_cases (c : Subcommand) (opts : Options) :
    (∃ r, c.idArgument opts = .error r ∧ r.exitCode = 1 ∧ r.printed = [] ∧ r.said = []) ∨
      ∃ id, c.idArgument opts = .ok id ∧ opts.positional.head?.bind MemoryCli.parseInt = some id := by
  unfold Subcommand.idArgument
  cases hpositional : opts.positional with
  | nil => exact .inl ⟨_, rfl, rfl, rfl, rfl⟩
  | cons text rest =>
    cases hparse : MemoryCli.parseInt text with
    | none => exact .inl ⟨c.failed 1 (ascii "<id> must be an integer"), by simp [hparse], rfl, rfl, rfl⟩
    | some id => exact .inr ⟨id, by simp [hparse], by simp [hparse]⟩

lemma eq_wipe_of_call {c : Subcommand} (h : c.call opts = some .wipeAll) : c = .wipe := by
  cases c with
  | wipe => rfl
  | deleteTurn | deleteSession | deleteFact =>
    obtain ⟨id, -, hid⟩ := Option.map_eq_some_iff.mp h
    cases hid
  | _ => cases h

/-- A command leaves the tables alone, or it makes its call and is not a dry run, unless it wipes. -/
lemma run_cases (x : Tables) (opts : Options) (db : DbRun) (c : Subcommand) :
    (c.run x opts db).1 = x ∨ ∃ call, c.call opts = some call ∧ (c.run x opts db).1 = x.step (call, db.write) ∧
      (opts.dryRun = false ∨ c = .wipe ∧ opts.yes = true) := by
  have hargument := idArgument_cases c opts
  cases c with
  | deleteTurn | deleteSession | deleteFact =>
    simp only [Subcommand.run, cmdDeleteTurn, cmdDeleteSession, cmdDeleteFact, Subcommand.call]
    rcases hargument with ⟨r, hr, -⟩ | ⟨id, hid, hparse⟩
    · exact .inl (by rw [hr])
    · rw [hid, hparse]
      dsimp only
      split_ifs
      all_goals first
        | exact .inl rfl
        | have hdone : db.write = .done := not_not.mp ‹¬db.write ≠ .done›
          exact .inr ⟨_, rfl, by rw [hdone]; rfl, .inl (Bool.eq_false_iff.mpr ‹¬opts.dryRun = true›)⟩
  | wipe =>
    simp only [Subcommand.run, cmdWipe, Subcommand.call]
    split_ifs
    all_goals first
      | exact .inl rfl
      | exact .inr ⟨_, rfl, rfl, .inr ⟨trivial, ‹opts.yes = true›⟩⟩
  | _ => exact .inl rfl

/-- The subcommands that list rows. -/
def Subcommand.lists (c : Subcommand) : Bool := c ∈ [.sessions, .session, .turns, .turn, .facts, .summaries]

lemma said_of_lists {c : Subcommand} (h : c.lists = true) : (c.run x opts db).2.said = [] := by
  have hargument := idArgument_cases c opts
  cases c with
  | sessions | turns | facts | summaries =>
    simp only [Subcommand.run, cmdSessions, cmdTurns, cmdFacts, cmdSummaries]
    split_ifs <;> first | rfl | (split <;> rfl)
  | session | turn =>
    simp only [Subcommand.run, cmdSession, cmdTurn]
    rcases hargument with ⟨r, hr, -, -, hsaid⟩ | ⟨id, hid, -⟩
    · rw [hr]
      exact hsaid
    · rw [hid]
      dsimp only
      split_ifs <;> first | rfl | (split <;> rfl)
  | _ => exact absurd h (by decide)

lemma printed_of_not_lists {c : Subcommand} (h : c.lists = false) : (c.run x opts db).2.printed = [] := by
  have hargument := idArgument_cases c opts
  cases c with
  | deleteTurn | deleteSession | deleteFact =>
    simp only [Subcommand.run, cmdDeleteTurn, cmdDeleteSession, cmdDeleteFact]
    rcases hargument with ⟨r, hr, -, hnone, -⟩ | ⟨id, hid, -⟩
    · rw [hr]
      exact hnone
    · rw [hid]
      dsimp only
      split_ifs <;> rfl
  | wipe | vacuum =>
    simp only [Subcommand.run, cmdWipe, cmdVacuum]
    split_ifs <;> rfl
  | _ => exact absurd h (by decide)

/-- The session that a row names. -/
def Row.session? : Row → Option SessionId
  | .session s => some s.id
  | .sessionTurn t | .listedTurn t | .turn t => some t.session
  | .fact _ => none
  | .summary s => some s.session

end Commands

section Listed

variable {x : Tables} {opts : Options} {db : DbRun}

lemma mem_limited {ρ : Type} {limit : Int} {rows : List ρ} {r : ρ} (h : r ∈ Tables.limited limit rows) : r ∈ rows := by
  unfold Tables.limited at h
  split at h
  · exact h
  · exact List.mem_of_mem_take h

lemma mem_recentTurns {session : SessionId} {limit : Int} {t : TurnRow} (h : t ∈ x.recentTurns session limit) :
    t ∈ x.turns.rows := by
  have hrows : t ∈ (x.turns.rows.filter fun t => t.session = session).reverse := by
    unfold Tables.recentTurns at h
    dsimp only at h
    split at h
    · exact List.mem_reverse.mp h
    · exact List.mem_of_mem_take (List.mem_reverse.mp h)
  exact (List.mem_filter.mp (List.mem_reverse.mp hrows)).1

/-- The row is stored. -/
def Row.Stored (x : Tables) : Row → Prop
  | .session s => s ∈ x.sessions.rows
  | .sessionTurn t | .listedTurn t | .turn t => t ∈ x.turns.rows
  | .fact f => f ∈ x.facts.rows
  | .summary s => s ∈ x.summaries.rows

lemma Row.Stored.mentions {row : Row} (h : row.Stored x) {id : SessionId} (hid : row.session? = some id) :
    x.Mentions id := by
  cases row with
  | session s => exact .inl (Option.some.inj hid ▸ Table.mem_ids h)
  | sessionTurn t | listedTurn t | turn t => exact .inr (.inl ⟨t, h, Option.some.inj hid⟩)
  | fact f => cases hid
  | summary s => exact .inr (.inr (.inl ⟨s, h, Option.some.inj hid⟩))

/-- The row is stored, and a fact with a confidence of at least zero. -/
def Row.Shown (x : Tables) : Row → Prop
  | .fact f => f ∈ x.facts.rows ∧ Config.Number.le 0 f.fact.confidence = true
  | row => row.Stored x

lemma Row.Shown.stored {row : Row} (h : row.Shown x) : row.Stored x := by
  cases row with
  | fact f => exact h.1
  | _ => exact h

lemma shown_turns {session : SessionId} {limit : Int} {f : TurnRow → Row} (hf : ∀ t ∈ x.turns.rows, (f t).Shown x)
    {row : Row} (h : row ∈ (x.recentTurns session limit).map f) : row.Shown x := by
  obtain ⟨t, ht, rfl⟩ := List.mem_map.mp h
  exact hf t (mem_recentTurns ht)

lemma shown_cmdSession {row : Row} (h : row ∈ (cmdSession x opts db).printed) : row.Shown x := by
  unfold cmdSession at h
  rcases idArgument_cases .session opts with ⟨r, hr, -, hnone, -⟩ | ⟨id, hid, -⟩
  · rw [hr] at h
    rw [hnone] at h
    cases h
  · rw [hid] at h
    dsimp only at h
    split at h
    · cases h
    · cases hget : x.getSession id with
      | none =>
        rw [hget] at h
        cases h
      | some s =>
        rw [hget] at h
        have hs : (Row.session s).Shown x := List.mem_of_find?_eq_some hget
        dsimp only at h
        split at h
        · exact List.mem_singleton.mp h ▸ hs
        · split at h
          · exact List.mem_singleton.mp h ▸ hs
          · rcases List.mem_cons.mp h with rfl | h
            · exact hs
            · exact shown_turns (f := .sessionTurn) (fun _ ht => ht) h

lemma shown_cmdTurn {row : Row} (h : row ∈ (cmdTurn x opts db).printed) : row.Shown x := by
  unfold cmdTurn at h
  rcases idArgument_cases .turn opts with ⟨r, hr, -, hnone, -⟩ | ⟨id, hid, -⟩
  · rw [hr] at h
    rw [hnone] at h
    cases h
  · rw [hid] at h
    dsimp only at h
    split at h
    · cases h
    · cases hget : x.getTurn id with
      | none =>
        rw [hget] at h
        cases h
      | some t =>
        rw [hget] at h
        rw [List.mem_singleton.mp h]
        exact List.mem_of_find?_eq_some hget

lemma shown_cmdTurns {row : Row} (h : row ∈ (cmdTurns x opts db).printed) : row.Shown x := by
  unfold cmdTurns at h
  split at h
  · cases h
  · cases hfilter : opts.sessionFilter with
    | none =>
      rw [hfilter] at h
      obtain ⟨t, ht, rfl⟩ := List.mem_map.mp h
      exact List.mem_reverse.mp (mem_limited ht)
    | some session =>
      rw [hfilter] at h
      exact shown_turns (f := .listedTurn) (fun _ ht => ht) h

lemma shown_cmdFacts {row : Row} (h : row ∈ (cmdFacts x opts db).printed) : row.Shown x := by
  have hfact : ∀ f ∈ x.factsWithMinConfidence 0, Row.Shown x (.fact f) :=
    fun f hf => List.mem_filter.mp (List.mem_mergeSort.mp hf)
  unfold cmdFacts at h
  split at h
  · cases h
  · cases hfilter : opts.sessionFilter with
    | none =>
      rw [hfilter] at h
      obtain ⟨f, hf, rfl⟩ := List.mem_map.mp h
      exact hfact f hf
    | some session =>
      rw [hfilter] at h
      obtain ⟨f, hf, rfl⟩ := List.mem_map.mp h
      exact hfact f (List.mem_of_mem_filter hf)

lemma shown_cmdSummaries {row : Row} (h : row ∈ (cmdSummaries x opts db).printed) : row.Shown x := by
  unfold cmdSummaries at h
  split at h
  · cases h
  · cases hfilter : opts.sessionFilter with
    | none =>
      rw [hfilter] at h
      obtain ⟨s, hs, rfl⟩ := List.mem_map.mp h
      exact hs
    | some session =>
      rw [hfilter] at h
      obtain ⟨s, hs, rfl⟩ := List.mem_map.mp h
      exact List.mem_of_mem_filter (List.mem_mergeSort.mp hs)

lemma shown_of_printed (c : Subcommand) {row : Row} (h : row ∈ (c.run x opts db).2.printed) : row.Shown x := by
  cases c with
  | sessions =>
    simp only [Subcommand.run, cmdSessions] at h
    split at h
    · cases h
    · obtain ⟨s, hs, rfl⟩ := List.mem_map.mp h
      exact List.mem_reverse.mp (mem_limited hs)
  | session => exact shown_cmdSession h
  | turns => exact shown_cmdTurns h
  | turn => exact shown_cmdTurn h
  | facts => exact shown_cmdFacts h
  | summaries => exact shown_cmdSummaries h
  | _ =>
    rw [printed_of_not_lists (by decide)] at h
    cases h

end Listed

/-! ### Runs -/

/-- A call of a program on the database at its path, which it creates if there is none, or an invocation of the tool. -/
inductive StoreEvent
  | program (path : Text) (c : Call × CallEnd)
  | tool (i : Invocation)

def Databases.step (readYaml : YamlReader) (dbs : Databases) : StoreEvent → Databases
  | .program path c => Function.update dbs path (some (((dbs path).getD {}).step c))
  | .tool i => (runMemorySubcommand readYaml dbs i).1

/-- The event may drop the tables at the path. -/
def StoreEvent.Wipes (readYaml : YamlReader) (path : Text) : StoreEvent → Prop
  | .program p c => p = path ∧ c.1 = .wipeAll
  | .tool i => ∃ opts, i.front readYaml = .opens (ascii "wipe") opts path

section Runs

variable {readYaml : YamlReader} {dbs : Databases} {i : Invocation} {sub path : Text} {opts : Options} {x : Tables}

/-- An invocation that gets to a database runs a subcommand on it, or ends before. -/
lemma run_opens (dbs : Databases) (hfront : i.front readYaml = .opens sub opts path) :
    ((runMemorySubcommand readYaml dbs i).1 = dbs ∧ (runMemorySubcommand readYaml dbs i).2.exitCode ≠ 0 ∧
        (runMemorySubcommand readYaml dbs i).2.printed = [] ∧ (runMemorySubcommand readYaml dbs i).2.said = []) ∨
      ∃ x c, dbs path = some x ∧ Subcommand.all.find? (fun c => c.name = sub) = some c ∧
        runMemorySubcommand readYaml dbs i =
          (Function.update dbs path (some (c.run x opts i.db).1), (c.run x opts i.db).2) := by
  unfold runMemorySubcommand
  rw [hfront]
  dsimp only
  cases hpath : dbs path with
  | none => exact .inl ⟨rfl, by simp [complain], rfl, rfl⟩
  | some x =>
    dsimp only
    split
    · exact .inl ⟨rfl, by simp [complain], rfl, rfl⟩
    · cases hfind : Subcommand.all.find? fun c => c.name = sub with
      | none => exact .inl ⟨rfl, by simp, rfl, rfl⟩
      | some c => exact .inr ⟨x, c, rfl, rfl, rfl⟩

lemma run_ended {r : Report} (hfront : i.front readYaml = .ended r) :
    runMemorySubcommand readYaml dbs i = (dbs, r) := by
  unfold runMemorySubcommand
  rw [hfront]

lemma step_at (readYaml : YamlReader) (dbs : Databases) (e : StoreEvent) (path : Text) :
    dbs.step readYaml e path = dbs path ∨ ∃ c, dbs.step readYaml e path = some (((dbs path).getD {}).step c) ∧
      (c.1 = .wipeAll → e.Wipes readYaml path) := by
  cases e with
  | program p c =>
    by_cases hp : path = p
    · subst hp
      exact .inr ⟨c, by simp [Databases.step], fun hc => ⟨rfl, hc⟩⟩
    · exact .inl (by simp [Databases.step, hp])
  | tool i =>
    cases hfront : i.front readYaml with
    | ended r => exact .inl (by rw [Databases.step, run_ended hfront])
    | opens sub opts p =>
      rcases run_opens dbs hfront with ⟨hsame, -⟩ | ⟨x, c, hx, hfind, hrun⟩
      · exact .inl (by rw [Databases.step, hsame])
      · by_cases hp : path = p
        · subst hp
          rcases run_cases x opts i.db c with hsame | ⟨call, hcall, hstep, -⟩
          · exact .inl (by simp only [Databases.step, hrun, hsame, hx, Function.update_self])
          · refine .inr ⟨(call, i.db.write), ?_, fun hwipe => ?_⟩
            · simp only [Databases.step, hrun, hstep, hx, Function.update_self, Option.getD_some]
            -- of the commands only `wipe` makes the call that drops the tables
            · obtain rfl : c = .wipe := eq_wipe_of_call (hcall.trans (congrArg some hwipe))
              obtain rfl : Subcommand.wipe.name = sub := by simpa using List.find?_some hfind
              exact ⟨opts, hfront⟩
        · exact .inl (by simp [Databases.step, hrun, hp])

/-- All databases are sound. -/
def Databases.Sound (dbs : Databases) : Prop := ∀ p x, dbs p = some x → x.Sound

lemma Databases.Sound.step (h : dbs.Sound) (e : StoreEvent) : (dbs.step readYaml e).Sound := by
  intro p y hy
  rcases step_at readYaml dbs e p with hsame | ⟨c, hc, -⟩
  · exact h p y (hsame ▸ hy)
  · rw [hc] at hy
    obtain rfl := Option.some.inj hy
    apply Tables.Sound.step
    cases hx : dbs p with
    | none => exact .empty
    | some x => exact h p x hx

/-- The session is gone from the database at the path, and its id is not given out again. -/
def Databases.Erased (path : Text) (id : SessionId) (dbs : Databases) : Prop :=
  ∃ y, dbs path = some y ∧ y.Erased id []

lemma Databases.Erased.step {id : SessionId} (h : dbs.Erased path id) {e : StoreEvent}
    (he : ¬e.Wipes readYaml path) : (dbs.step readYaml e).Erased path id := by
  obtain ⟨y, hy, herased⟩ := h
  rcases step_at readYaml dbs e path with hsame | ⟨c, hc, hwipe⟩
  · exact ⟨y, by rw [hsame, hy], herased⟩
  · rw [hy] at hc
    exact ⟨_, hc, herased.step fun hcall => he (hwipe hcall)⟩

lemma cmdDeleteSession_ok {db : DbRun} (h : (cmdDeleteSession x opts db).2.exitCode = 0) (hdry : opts.dryRun = false) :
    ∃ id, opts.positional.head?.bind MemoryCli.parseInt = some id ∧ id ∈ x.sessions.ids ∧
      (cmdDeleteSession x opts db).1 = x.deleteSession id := by
  rcases idArgument_cases .deleteSession opts with ⟨r, hr, hexit, -⟩ | ⟨id, hid, hparse⟩
  · rw [cmdDeleteSession, hr] at h
    exact absurd (hexit.symm.trans h) (by decide)
  · have hread : db.readOk = true := by
      by_contra hno
      simp [cmdDeleteSession, hid, hno, Subcommand.failed] at h
    cases hget : x.getSession id with
    | none => simp [cmdDeleteSession, hid, hread, hget, Subcommand.notFound, Subcommand.failed] at h
    | some s =>
      have hwrite : db.write = .done := by
        by_contra hno
        simp [cmdDeleteSession, hid, hread, hget, hdry, hno, Subcommand.failed] at h
      have hsid : s.id = id := by simpa using List.find?_some hget
      refine ⟨id, hparse, hsid ▸ Table.mem_ids (List.mem_of_find?_eq_some hget), ?_⟩
      simp [cmdDeleteSession, hid, hread, hget, hdry, hwrite]

/-- Whatever texts are stored, what a listing prints under `--json` is read line by line as the
rows printed, and these are stored rows; only a fact with an infinite confidence is not JSON. -/
theorem listing_reads_back (readYaml : YamlReader) (dbs : Databases) {i : Invocation} {c : Subcommand} {opts : Options}
    {path : Text} {x : Tables} (hi : i.front readYaml = .opens c.name opts path) (hlists : c.lists = true)
    (hjson : opts.json = true) (hx : dbs path = some x) (hfinite : ∀ f ∈ x.facts.rows, f.fact.confidence ≠ .posInf) :
    let r := (runMemorySubcommand readYaml dbs i).2
    (r.stdout opts).bind Json.readLines = some (r.printed.map Row.json) ∧ ∀ row ∈ r.printed, row.Stored x := by
  intro r
  rcases run_opens dbs hi with ⟨-, -, hnone, hsaid⟩ | ⟨y, c', hy, hfind, hrun⟩
  · exact ⟨readLines_stdout hjson hsaid fun row hrow => (by rw [hnone] at hrow; cases hrow), fun row hrow => by
      rw [hnone] at hrow
      cases hrow⟩
  · obtain rfl : x = y := Option.some.inj (hx.symm.trans hy)
    obtain rfl : c = c' := by
      have hself : Subcommand.all.find? (fun d => d.name = c.name) = some c := by cases c <;> rfl
      exact Option.some.inj (hself.symm.trans hfind)
    have hprinted : r = (c.run x opts i.db).2 := congrArg Prod.snd hrun
    rw [hprinted]
    have hstored : ∀ row ∈ (c.run x opts i.db).2.printed, row.Stored x :=
      fun row hrow => (shown_of_printed c hrow).stored
    refine ⟨readLines_stdout hjson (said_of_lists hlists) fun row hrow => ?_, hstored⟩
    have hshown := shown_of_printed c hrow
    cases row with
    | fact f => exact finite_of_le hshown.2 (hfinite f hshown.1)
    | _ => trivial

/-- A title with a quote and a newline. -/
theorem odd_title_reads_back :
    let host : Host := ⟨fun _ => none, fun _ => none, fun _ => false⟩
    let x := Runs.exec Tables.step {} [(.insertSession 5 (some (ascii "a\"\nb")), .done)]
    let opts : Options := { dbPath := some (ascii "/d"), json := true }
    let r := (runMemorySubcommand (fun _ => .error []) (fun _ => some x)
      { args := ["sessions", "--json", "--db", "/d"].map ascii, host := host }).2
    ((r.stdout opts).bind Json.readLines = some (r.printed.map Row.json) ∧ ∀ row ∈ r.printed, row.Stored x) ∧
      r.printed = [.session ⟨1, 5, none, some (ascii "a\"\nb")⟩] := by
  intro host x opts r
  let i : Invocation := { args := ["sessions", "--json", "--db", "/d"].map ascii, host := host }
  have hi : i.front (fun _ => .error []) = .opens Subcommand.sessions.name opts (ascii "/d") := rfl
  exact ⟨listing_reads_back (fun _ => .error []) (fun _ => some x) hi rfl rfl rfl (by decide), by decide⟩

/-- Once the tool has deleted a session, whatever programs and invocations of
the tool come after, no listing of that database shows a row of the session, unless the database is wiped. -/
theorem deleted_session_not_listed (readYaml : YamlReader) (before after : List StoreEvent) {d i : Invocation}
    {path sub text : Text} {opts opts' : Options} {id : SessionId}
    (hd : d.front readYaml = .opens (ascii "delete-session") opts path) (hdry : opts.dryRun = false)
    (htext : opts.positional.head? = some text) (hid : MemoryCli.parseInt text = some id)
    (hi : i.front readYaml = .opens sub opts' path) (hwipe : ∀ e ∈ after, ¬e.Wipes readYaml path) :
    let dbs := Runs.exec (Databases.step readYaml) (fun _ => none) before
    let later := Runs.exec (Databases.step readYaml) dbs (.tool d :: after)
    (runMemorySubcommand readYaml dbs d).2.exitCode = 0 →
      ∀ row ∈ (runMemorySubcommand readYaml later i).2.printed, row.session? ≠ some id := by
  intro dbs later hexit row hrow hsession
  have hsound : dbs.Sound :=
    Runs.exec_invariant Databases.Sound (fun _ e h => h.step e) (fun _ _ hx => by cases hx) before
  have hdeleted : ((runMemorySubcommand readYaml dbs d).1).Erased path id := by
    rcases run_opens dbs hd with ⟨-, hfailed, -, -⟩ | ⟨x, c, hx, hfind, hrun⟩
    · exact absurd hexit hfailed
    · obtain rfl : Subcommand.deleteSession = c := Option.some.inj (show some _ = some _ from hfind)
      rw [hrun] at hexit ⊢
      obtain ⟨k, hk, hmem, hgone⟩ := cmdDeleteSession_ok hexit hdry
      obtain rfl : id = k := by simpa [htext, hid] using hk
      have herased := Tables.Erased.deleteSession (hsound path x hx) hmem
      have hpath : Function.update dbs path (some (x.deleteSession id)) path = some (x.deleteSession id) :=
        Function.update_self ..
      exact ⟨_, hgone ▸ hpath, ⟨herased.sound, herased.session, fun k hk => by cases hk⟩⟩
  have hlater : later.Erased path id :=
    (Runs.Along.of_forall hwipe _).invariant (Databases.Erased path id) (fun _ _ h he => h.step he) hdeleted
  obtain ⟨y, hy, herased⟩ := hlater
  rcases run_opens later hi with ⟨-, -, hnone, -⟩ | ⟨x, c, hx, -, hrun⟩
  · rw [hnone] at hrow
    cases hrow
  · obtain rfl : x = y := Option.some.inj (hx.symm.trans hy)
    rw [hrun] at hrow
    exact herased.sound.not_mentions herased.session.absent ((shown_of_printed c hrow).stored.mentions hsession)

/-- The next session of the program is listed alone. -/
theorem first_session_not_listed :
    let host : Host := ⟨fun _ => none, fun _ => none, fun _ => false⟩
    let readYaml : YamlReader := fun _ => .error []
    let before : List StoreEvent := [.program (ascii "/d") (.insertSession 5 none, .done)]
    let after : List StoreEvent := [.program (ascii "/d") (.insertSession 7 none, .done)]
    let d : Invocation := { args := ["delete-session", "1", "--db", "/d"].map ascii, host := host }
    let i : Invocation := { args := ["sessions", "--db", "/d"].map ascii, host := host }
    let dbs := Runs.exec (Databases.step readYaml) (fun _ => none) before
    let later := Runs.exec (Databases.step readYaml) dbs (.tool d :: after)
    (∀ row ∈ (runMemorySubcommand readYaml later i).2.printed, row.session? ≠ some 1) ∧
      (runMemorySubcommand readYaml later i).2.printed = [.session ⟨2, 7, none, none⟩] := by
  intro host readYaml before after d i dbs later
  have hd : d.front readYaml = .opens (ascii "delete-session")
      { dbPath := some (ascii "/d"), positional := [ascii "1"] } (ascii "/d") := rfl
  have hi : i.front readYaml = .opens (ascii "sessions") { dbPath := some (ascii "/d") } (ascii "/d") := rfl
  have hwipe : ∀ e ∈ after, ¬e.Wipes readYaml (ascii "/d") := by
    intro e he hwipe
    obtain rfl := List.mem_singleton.mp he
    cases hwipe.2
  exact ⟨deleted_session_not_listed readYaml before after hd rfl rfl (by decide) hi hwipe (by decide), by decide⟩

end Runs

end MemoryCli

end Schema

end Acva
