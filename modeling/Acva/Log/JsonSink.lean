import Acva.Event.Event
import Acva.Lib.Json
import Mathlib.Data.List.Forall2

/-!
# Structured log lines

`log::event` puts the fields of an event behind a marker into the text of a record, already as JSON. `JsonSink` writes
each record as one line, takes the record's text apart and puts the fields in.
-/

namespace Acva

namespace Log

open Decimal

/-- In the source the `E` belongs to the escape before it: `"\x01EVT\x01"` is these four bytes. -/
def kEventMarker : Text := [0x1E, 86, 84, 1]

/-- The characters that `escape_json_string` and `escape_string` give a letter. -/
def shortEscapes : List (UInt8 × UInt8) := [(34, 34), (92, 92), (10, 110), (13, 114), (9, 116), (8, 98), (12, 102)]

def escapeJsonString (s : Text) : Text := Json.quoted shortEscapes s

def escapeString (s : Text) : Text := Json.quoted shortEscapes s

/-- The levels of spdlog. -/
inductive Level
  | trace
  | debug
  | info
  | warn
  | err
  | critical
  | off
  deriving DecidableEq, Repr

structure LogMsg where
  /-- Nanoseconds since the epoch. -/
  time : Int
  level : Level
  payload : Text
  deriving DecidableEq, Repr

/-- The text of `log::info`, `warn`, `error` and `debug`. -/
def plain (component message : Text) : Text := ascii "[" ++ component ++ ascii "] " ++ message

/-- The text of `log::event`, whose level is `info`. -/
def event (component eventName : Text) (turn : TurnId) (kv : List (Text × Text)) : Text :=
  ascii "[" ++ component ++ ascii "] " ++ kEventMarker ++ ascii "\"event\":" ++ escapeJsonString eventName ++
    (if turn ≠ kNoTurn then ascii ",\"turn_id\":" ++ decimal turn else []) ++
    kv.flatMap fun (k, v) => ascii "," ++ escapeJsonString k ++ ascii ":" ++ escapeJsonString v

/-- The local calendar time that `localtime_r` gives. -/
structure Tm where
  year : Int
  mon : Int
  mday : Int
  hour : Int
  min : Int
  sec : Int
  gmtoff : Int
  deriving DecidableEq, Repr

def formatTimestamp (localtime : Int → Tm) (time : Int) : Text :=
  let secs := time.tdiv 1000000000
  let ms := (time - secs * 1000000000).tdiv 1000000
  let tm := localtime secs
  paddedInt 4 (tm.year + 1900) ++ ascii "-" ++ paddedInt 2 (tm.mon + 1) ++ ascii "-" ++ paddedInt 2 tm.mday ++
    ascii "T" ++ paddedInt 2 tm.hour ++ ascii ":" ++ paddedInt 2 tm.min ++ ascii ":" ++ paddedInt 2 tm.sec ++
    ascii "." ++ paddedInt 3 ms ++ signed 3 (tm.gmtoff.tdiv 3600) ++
    padded 2 ((tm.gmtoff.tmod 3600).natAbs / 60)

def levelName : Level → Text
  | .trace => ascii "trace"
  | .debug => ascii "debug"
  | .info => ascii "info"
  | .warn => ascii "warn"
  | .err => ascii "error"
  | .critical => ascii "critical"
  | .off => ascii "off"

/-- The text up to the first `"] "`, and what follows. -/
def findClose : Text → Option (Text × Text)
  | [] => none
  | b :: s =>
    if b = 93 ∧ s.head? = some 32 then some ([], s.tail)
    else (findClose s).map fun (c, rest) => (b :: c, rest)

/-- The component and the rest of a text `"[component] rest"`. -/
def splitComponent (payload : Text) : Option (Text × Text) :=
  if payload.head? = some 91 then findClose payload.tail else none

namespace JsonSink

/-- What `sink_it_` writes. -/
def sinkIt (localtime : Int → Tm) (msg : LogMsg) : Text :=
  ascii "\x7b\"ts\":\"" ++ formatTimestamp localtime msg.time ++ ascii "\",\"level\":\"" ++ levelName msg.level ++
    ascii "\"" ++
    (match splitComponent msg.payload with
    | some (component, rest) =>
      ascii ",\"component\":" ++ escapeString component ++
        if kEventMarker <+: rest then
          let inner := rest.drop kEventMarker.length
          if inner ≠ [] then ascii "," ++ inner else []
        else ascii ",\"msg\":" ++ escapeString rest
    | none => ascii ",\"msg\":" ++ escapeString msg.payload) ++
    ascii "\x7d\n"

/-- The bytes are one line, a JSON object with the members. -/
def IsLine (s : Text) (members : List (Text × Json)) : Prop :=
  ∃ body, s = body ++ [10] ∧ 10 ∉ body ∧ Json.parse body = some (.object members)

lemma sound_shortEscapes : Json.Sound shortEscapes :=
  Json.sound_of_all (by decide) (by decide) (by decide)

lemma mem_formatTimestamp {localtime : Int → Tm} {time : Int} {b : UInt8} (hb : b ∈ formatTimestamp localtime time) :
    (48 ≤ b ∧ b ≤ 57) ∨ b ∈ ascii "+-:.T" := by
  have hsep : ∀ {s : Text}, b ∈ s → s.all (· ∈ ascii "+-:.T") → b ∈ ascii "+-:.T" :=
    fun hb h => of_decide_eq_true (List.all_eq_true.mp h b hb)
  have hint : ∀ {width : Nat} {n : Int}, b ∈ paddedInt width n → (48 ≤ b ∧ b ≤ 57) ∨ b ∈ ascii "+-:.T" := by
    intro width n hb
    rcases mem_paddedInt hb with rfl | hdigit
    · exact .inr (by decide)
    · exact .inl hdigit
  unfold formatTimestamp at hb
  simp only [List.mem_append] at hb
  rcases hb with ((((((((((((((hb | hb) | hb) | hb) | hb) | hb) | hb) | hb) | hb) | hb) | hb) | hb) | hb) | hb) | hb)
  · exact hint hb
  · exact .inr (hsep hb (by decide))
  · exact hint hb
  · exact .inr (hsep hb (by decide))
  · exact hint hb
  · exact .inr (hsep hb (by decide))
  · exact hint hb
  · exact .inr (hsep hb (by decide))
  · exact hint hb
  · exact .inr (hsep hb (by decide))
  · exact hint hb
  · exact .inr (hsep hb (by decide))
  · exact hint hb
  · rcases mem_signed hb with rfl | rfl | hdigit
    · exact .inr (by decide)
    · exact .inr (by decide)
    · exact .inl hdigit
  · exact .inl (mem_padded hb)

lemma plain_formatTimestamp (localtime : Int → Tm) (time : Int) :
    (formatTimestamp localtime time).all Json.isPlain := by
  rw [List.all_eq_true]
  intro b hb
  rcases mem_formatTimestamp hb with ⟨hlo, hhi⟩ | hsep
  · refine Json.isPlain_iff.mpr ⟨?_, ?_, UInt8.le_trans (by decide) hlo, UInt8.lt_of_le_of_lt hhi (by decide)⟩
    · rintro rfl
      exact absurd hlo (by decide)
    · rintro rfl
      exact absurd hhi (by decide)
  · have hplain : (ascii "+-:.T").all Json.isPlain = true := by decide
    exact List.all_eq_true.mp hplain b hsep

lemma plain_levelName (level : Level) : (levelName level).all Json.isPlain := by cases level <;> decide

/-- The time and the level come first, and each member after them has a comma before it. -/
lemma isLine_of_reads {ts level : Text} (hts : ts.all Json.isPlain) (hlevel : level.all Json.isPlain)
    {items : List Text} {members : List (Text × Json)} (hreads : List.Forall₂ Json.ReadsMember items members)
    (hprint : ∀ e ∈ items, e.all (32 ≤ ·)) :
    IsLine (ascii "\x7b\"ts\":\"" ++ ts ++ ascii "\",\"level\":\"" ++ level ++ ascii "\"" ++
        items.flatMap (44 :: ·) ++ ascii "\x7d\n")
      ((ascii "ts", .string ts) :: (ascii "level", .string level) :: members) := by
  have hobject := Json.reads_object (.cons (Json.readsMember_plain (k := ascii "ts") (by decide)
    (Json.reads_plain hts)) (.cons (Json.readsMember_plain (k := ascii "level") (by decide)
    (Json.reads_plain hlevel)) hreads))
  have hparse := Json.parse_of_reads (t := []) hobject rfl
  rw [List.append_nil] at hparse
  refine ⟨_, ?_, ?_, hparse⟩
  · simp [Json.writeObject, Json.writeMember, Json.intercalate_cons, ascii]
  · have hnone : ∀ {s : Text} {p : UInt8 → Bool}, s.all p → p 10 = false → 10 ∉ s := by
      intro s p h hten hmem
      simp [List.all_eq_true.mp h 10 hmem] at hten
    have hts' : 10 ∉ ts := hnone hts (by decide)
    have hlevel' : 10 ∉ level := hnone hlevel (by decide)
    have hitems : ∀ e ∈ items, 10 ∉ e := fun e he => hnone (hprint e he) (by decide)
    simpa [Json.writeObject, Json.writeMember, Json.intercalate_cons, ascii, hts', hlevel'] using hitems

lemma readsMember_quoted (name s : Text) :
    Json.ReadsMember (escapeJsonString name ++ ascii ":" ++ escapeJsonString s) (name, .string s) := by
  refine ⟨Json.escape shortEscapes name, Json.quoted shortEscapes s, ?_, sound_shortEscapes.encodes_escape name,
    sound_shortEscapes.reads_quoted s⟩
  simp [escapeJsonString, Json.quoted, Json.writeMember, ascii]

lemma readsMember_named {name v : Text} {j : Json} (hname : name.all Json.isPlain)
    (hv : Json.Reads v j) : Json.ReadsMember (ascii "\"" ++ name ++ ascii "\":" ++ v) (name, j) := by
  have h := Json.readsMember_plain hname hv
  simpa [Json.writeMember, ascii] using h

lemma findClose_append {component : Text} (h : ¬[93, 32] <:+: component) (rest : Text) :
    findClose (component ++ 93 :: 32 :: rest) = some (component, rest) := by
  induction component with
  | nil => simp [findClose]
  | cons b s ih =>
    have htail : ¬[93, 32] <:+: s := fun hs => h (hs.trans (List.suffix_cons b s).isInfix)
    have hno : ¬(b = 93 ∧ (s ++ 93 :: 32 :: rest).head? = some 32) := by
      rintro ⟨rfl, hhead⟩
      cases s with
      | nil => cases hhead
      | cons c s =>
        obtain rfl : c = 32 := by simpa using hhead
        exact h (List.prefix_append [93, 32] s).isInfix
    rw [List.cons_append, findClose, if_neg hno, ih htail]
    rfl

lemma splitComponent_plain {component : Text} (h : ¬[93, 32] <:+: component) (message : Text) :
    splitComponent (plain component message) = some (component, message) := by
  have hclose := findClose_append h message
  simpa [splitComponent, plain, ascii] using hclose

/-- The members that an event has after its component. -/
def eventItems (eventName : Text) (turn : TurnId) (kv : List (Text × Text)) : List Text :=
  (ascii "\"" ++ ascii "event" ++ ascii "\":" ++ escapeJsonString eventName) ::
    (if turn ≠ kNoTurn then [ascii "\"" ++ ascii "turn_id" ++ ascii "\":" ++ decimal turn] else []) ++
    kv.map fun (k, v) => escapeJsonString k ++ ascii ":" ++ escapeJsonString v

def eventMembers (eventName : Text) (turn : TurnId) (kv : List (Text × Text)) : List (Text × Json) :=
  (ascii "event", .string eventName) ::
    (if turn ≠ kNoTurn then [(ascii "turn_id", .number (decimal turn))] else []) ++
    kv.map fun (k, v) => (k, .string v)

lemma reads_eventItems (eventName : Text) (turn : TurnId) (kv : List (Text × Text)) :
    List.Forall₂ Json.ReadsMember (eventItems eventName turn kv) (eventMembers eventName turn kv) := by
  refine .cons (readsMember_named (by decide) (sound_shortEscapes.reads_quoted eventName))
    (List.rel_append ?_ ?_)
  · split
    · exact .cons (readsMember_named (by decide) (Json.reads_decimal turn)) .nil
    · exact .nil
  · induction kv with
    | nil => exact .nil
    | cons p kv ih => exact .cons (readsMember_quoted p.1 p.2) ih

/-- The text of an event is that of a plain message whose fields are behind the marker. -/
lemma event_eq (component eventName : Text) (turn : TurnId) (kv : List (Text × Text)) :
    ∃ inner, event component eventName turn kv = plain component (kEventMarker ++ inner) ∧ inner ≠ [] ∧
      44 :: inner = (eventItems eventName turn kv).flatMap (44 :: ·) := by
  refine ⟨_, by simp only [event, plain, List.append_assoc]; rfl, by simp [ascii], ?_⟩
  by_cases hturn : turn ≠ kNoTurn
  · simp [eventItems, hturn, ascii, List.flatMap_map]
  · simp [eventItems, hturn, ascii, List.flatMap_map]

/-- The member for the component. -/
def componentItem (component : Text) : Text := ascii "\"" ++ ascii "component" ++ ascii "\":" ++ escapeString component

/-- What every line starts with. -/
def head (localtime : Int → Tm) (time : Int) (level : Level) : Text :=
  ascii "\x7b\"ts\":\"" ++ formatTimestamp localtime time ++ ascii "\",\"level\":\"" ++ levelName level ++ ascii "\""

lemma sinkIt_event (localtime : Int → Tm) (time : Int) {component : Text} (h : ¬[93, 32] <:+: component)
    (eventName : Text) (turn : TurnId) (kv : List (Text × Text)) :
    sinkIt localtime ⟨time, .info, event component eventName turn kv⟩ =
      head localtime time .info ++
        (componentItem component :: eventItems eventName turn kv).flatMap (44 :: ·) ++ ascii "\x7d\n" := by
  obtain ⟨inner, hevent, hne, hinner⟩ := event_eq component eventName turn kv
  have hdrop : (kEventMarker ++ inner).drop kEventMarker.length = inner := List.drop_left
  rw [List.flatMap_cons, ← hinner, hevent]
  simp [sinkIt, splitComponent_plain h, hdrop, hne, head, componentItem, ascii]

lemma sinkIt_plain (localtime : Int → Tm) (time : Int) (level : Level) {component message payload : Text}
    (hsplit : splitComponent payload = some (component, message)) (hmessage : ¬kEventMarker <+: message) :
    sinkIt localtime ⟨time, level, payload⟩ =
      head localtime time level ++
        [componentItem component,
          ascii "\"" ++ ascii "msg" ++ ascii "\":" ++ escapeString message].flatMap (44 :: ·) ++ ascii "\x7d\n" := by
  simp [sinkIt, hsplit, hmessage, head, componentItem, ascii]

lemma sinkIt_unsplit (localtime : Int → Tm) (time : Int) (level : Level) {payload : Text}
    (hsplit : splitComponent payload = none) :
    sinkIt localtime ⟨time, level, payload⟩ =
      head localtime time level ++
        [ascii "\"" ++ ascii "msg" ++ ascii "\":" ++ escapeString payload].flatMap (44 :: ·) ++ ascii "\x7d\n" := by
  simp [sinkIt, hsplit, head, ascii]

lemma isLine_head (localtime : Int → Tm) (time : Int) (level : Level) {items : List Text}
    {members : List (Text × Json)} (hreads : List.Forall₂ Json.ReadsMember items members)
    (hprint : ∀ e ∈ items, e.all (32 ≤ ·)) :
    IsLine (head localtime time level ++ items.flatMap (44 :: ·) ++ ascii "\x7d\n")
      ((ascii "ts", .string (formatTimestamp localtime time)) :: (ascii "level", .string (levelName level)) ::
        members) :=
  isLine_of_reads (plain_formatTimestamp localtime time) (plain_levelName level) hreads hprint

lemma reads_componentItem (component : Text) :
    Json.ReadsMember (componentItem component) (ascii "component", .string component) :=
  readsMember_named (by decide) (sound_shortEscapes.reads_quoted component)

lemma print_named {name v : Text} (hname : name.all (32 ≤ ·)) (hv : v.all (32 ≤ ·)) :
    (ascii "\"" ++ name ++ ascii "\":" ++ v).all (32 ≤ ·) := by
  simp only [List.all_append, Bool.and_eq_true]
  exact ⟨⟨⟨by decide, hname⟩, by decide⟩, hv⟩

lemma print_quoted (s : Text) : (Json.quoted shortEscapes s).all (32 ≤ ·) := by
  rw [List.all_eq_true]
  intro b hb
  exact decide_eq_true (sound_shortEscapes.mem_quoted hb)

lemma print_eventItems (eventName : Text) (turn : TurnId) (kv : List (Text × Text)) :
    ∀ e ∈ eventItems eventName turn kv, e.all (32 ≤ ·) := by
  intro e he
  simp only [eventItems, List.cons_append, List.mem_cons, List.mem_append] at he
  rcases he with rfl | hturn | hkv
  · exact print_named (by decide) (print_quoted eventName)
  · split at hturn
    · obtain rfl := List.mem_singleton.mp hturn
      apply print_named (by decide)
      rw [List.all_eq_true]
      intro b hb
      exact decide_eq_true (UInt8.le_trans (by decide) (mem_decimal hb).1)
    · cases hturn
  · obtain ⟨p, -, rfl⟩ := List.mem_map.mp hkv
    simp only [List.all_append, Bool.and_eq_true]
    exact ⟨⟨print_quoted p.1, by decide⟩, print_quoted p.2⟩

lemma valid_named {name v : Text} (hname : name.all Json.isPlain) (hv : Utf8.Valid v) :
    Utf8.Valid (ascii "\"" ++ name ++ ascii "\":" ++ v) := by
  have hopen : Utf8.Valid (ascii "\"") := Utf8.valid_of_all (by decide)
  have hclose : Utf8.Valid (ascii "\":") := Utf8.valid_of_all (by decide)
  exact ((hopen.append (Json.valid_plain hname)).append hclose).append hv

lemma valid_eventItems {eventName : Text} (hname : Utf8.Valid eventName) (turn : TurnId) {kv : List (Text × Text)}
    (hkv : ∀ p ∈ kv, Utf8.Valid p.1 ∧ Utf8.Valid p.2) : ∀ e ∈ eventItems eventName turn kv, Utf8.Valid e := by
  intro e he
  simp only [eventItems, List.cons_append, List.mem_cons, List.mem_append] at he
  rcases he with rfl | hturn | he
  · exact valid_named (by decide) (sound_shortEscapes.valid_quoted hname)
  · split at hturn
    · obtain rfl := List.mem_singleton.mp hturn
      refine valid_named (by decide) (Utf8.valid_of_lt fun b hb => ?_)
      exact UInt8.lt_of_le_of_lt (mem_decimal hb).2 (by decide)
    · cases hturn
  · obtain ⟨p, hp, rfl⟩ := List.mem_map.mp he
    have hvalid := hkv p hp
    exact .append (.append (sound_shortEscapes.valid_quoted hvalid.1) (Utf8.valid_of_all (by decide)))
      (sound_shortEscapes.valid_quoted hvalid.2)

lemma valid_line (localtime : Int → Tm) (time : Int) (level : Level) {items : List Text}
    (h : ∀ e ∈ items, Utf8.Valid e) :
    Utf8.Valid (head localtime time level ++ items.flatMap (44 :: ·) ++ ascii "\x7d\n") := by
  have hitems : Utf8.Valid (items.flatMap (44 :: ·)) := by
    induction items with
    | nil => exact .nil
    | cons e items ih =>
      have he := h e List.mem_cons_self
      have htail := ih fun e' he' => h e' (List.mem_cons_of_mem e he')
      exact .append (.append (Utf8.valid_of_all (s := [44]) (by decide)) he) htail
  refine .append (.append (.append (.append (.append (.append ?_ ?_) ?_) ?_) ?_) hitems) ?_
  · exact Utf8.valid_of_all (by decide)
  · exact Json.valid_plain (plain_formatTimestamp localtime time)
  · exact Utf8.valid_of_all (by decide)
  · exact Json.valid_plain (plain_levelName level)
  · exact Utf8.valid_of_all (by decide)
  · exact Utf8.valid_of_all (by decide)

lemma valid_event (localtime : Int → Tm) (time : Int) {component eventName : Text} (h : ¬[93, 32] <:+: component)
    (hcomponent : Utf8.Valid component) (hname : Utf8.Valid eventName) (turn : TurnId) {kv : List (Text × Text)}
    (hkv : ∀ p ∈ kv, Utf8.Valid p.1 ∧ Utf8.Valid p.2) :
    Utf8.Valid (sinkIt localtime ⟨time, .info, event component eventName turn kv⟩) := by
  rw [sinkIt_event localtime time h]
  apply valid_line localtime time .info
  intro e he
  rcases List.mem_cons.mp he with rfl | he
  · exact valid_named (by decide) (sound_shortEscapes.valid_quoted hcomponent)
  · exact valid_eventItems hname turn hkv e he

lemma isLine_event (localtime : Int → Tm) (time : Int) {component : Text} (h : ¬[93, 32] <:+: component)
    (eventName : Text) (turn : TurnId) (kv : List (Text × Text)) :
    IsLine (sinkIt localtime ⟨time, .info, event component eventName turn kv⟩)
      ((ascii "ts", .string (formatTimestamp localtime time)) :: (ascii "level", .string (ascii "info")) ::
        (ascii "component", .string component) :: eventMembers eventName turn kv) := by
  rw [sinkIt_event localtime time h]
  apply isLine_head localtime time .info (.cons (reads_componentItem component) (reads_eventItems eventName turn kv))
  intro e he
  rcases List.mem_cons.mp he with rfl | he
  · exact print_named (by decide) (print_quoted component)
  · exact print_eventItems eventName turn kv e he

lemma isLine_plain (localtime : Int → Tm) (time : Int) (level : Level) {component message : Text}
    (h : ¬[93, 32] <:+: component) (hmessage : ¬kEventMarker <+: message) :
    IsLine (sinkIt localtime ⟨time, level, plain component message⟩)
      [(ascii "ts", .string (formatTimestamp localtime time)), (ascii "level", .string (levelName level)),
       (ascii "component", .string component), (ascii "msg", .string message)] := by
  rw [sinkIt_plain localtime time level (splitComponent_plain h message) hmessage]
  apply isLine_head localtime time level (.cons (reads_componentItem component)
    (.cons (readsMember_named (by decide) (sound_shortEscapes.reads_quoted message)) .nil))
  simp only [List.mem_cons, List.not_mem_nil, or_false, forall_eq_or_imp, forall_eq]
  constructor
  · exact print_named (by decide) (print_quoted component)
  · exact print_named (by decide) (print_quoted message)

lemma isLine_unsplit (localtime : Int → Tm) (time : Int) (level : Level) {payload : Text}
    (hsplit : splitComponent payload = none) :
    IsLine (sinkIt localtime ⟨time, level, payload⟩)
      [(ascii "ts", .string (formatTimestamp localtime time)), (ascii "level", .string (levelName level)),
       (ascii "msg", .string payload)] := by
  rw [sinkIt_unsplit localtime time level hsplit]
  apply isLine_head localtime time level
    (.cons (readsMember_named (by decide) (sound_shortEscapes.reads_quoted payload)) .nil)
  simp only [List.mem_cons, List.not_mem_nil, or_false, forall_eq]
  exact print_named (by decide) (print_quoted payload)

/-- An event is one line, a JSON object with what it has been given. A record that is no event has no members but the
time, the level, its component and its message. -/
theorem sinkIt_isLine (localtime : Int → Tm) (time : Int) {component : Text} (h : ¬[93, 32] <:+: component) :
    (Utf8.Valid component → ∀ (eventName : Text) (turn : TurnId) (kv : List (Text × Text)), Utf8.Valid eventName →
      (∀ p ∈ kv, Utf8.Valid p.1 ∧ Utf8.Valid p.2) →
        let line := sinkIt localtime ⟨time, .info, event component eventName turn kv⟩
        Utf8.Valid line ∧ IsLine line
          ([(ascii "ts", .string (formatTimestamp localtime time)), (ascii "level", .string (ascii "info")),
            (ascii "component", .string component), (ascii "event", .string eventName)] ++
            (if turn ≠ kNoTurn then [(ascii "turn_id", .number (decimal turn))] else []) ++
            kv.map fun (k, v) => (k, .string v))) ∧
    (∀ (level : Level) (message : Text), ¬kEventMarker <+: message →
      IsLine (sinkIt localtime ⟨time, level, plain component message⟩)
        [(ascii "ts", .string (formatTimestamp localtime time)), (ascii "level", .string (levelName level)),
         (ascii "component", .string component), (ascii "msg", .string message)]) ∧
    ∀ (level : Level) (payload : Text), splitComponent payload = none →
      IsLine (sinkIt localtime ⟨time, level, payload⟩)
        [(ascii "ts", .string (formatTimestamp localtime time)), (ascii "level", .string (levelName level)),
         (ascii "msg", .string payload)] := by
  refine ⟨?_, ?_, ?_⟩
  · intro hcomponent eventName turn kv hname hkv
    refine ⟨valid_event localtime time h hcomponent hname turn hkv, ?_⟩
    exact isLine_event localtime time h eventName turn kv
  · intro level message hmessage
    exact isLine_plain localtime time level h hmessage
  · intro level payload hsplit
    exact isLine_unsplit localtime time level hsplit

/-- A component that ends in a bracket, and a value with a quote and a newline. -/
theorem sinkIt_isLine_bracket :
    let localtime : Int → Tm := fun _ => ⟨126, 4, 3, 15, 3, 29, 7200⟩
    IsLine (sinkIt localtime ⟨5123456789, .info, event (ascii "llm]") (ascii "done") 7 [(ascii "k", [34, 10])]⟩)
      [(ascii "ts", .string (ascii "2026-05-03T15:03:29.123+0200")), (ascii "level", .string (ascii "info")),
       (ascii "component", .string (ascii "llm]")), (ascii "event", .string (ascii "done")),
       (ascii "turn_id", .number (ascii "7")), (ascii "k", .string [34, 10])] :=
  have h : ¬[93, 32] <:+: ascii "llm]" := by decide
  ((sinkIt_isLine (fun _ => ⟨126, 4, 3, 15, 3, 29, 7200⟩) 5123456789 h).1
    (Utf8.valid_of_all (by decide)) (ascii "done") 7 [(ascii "k", [34, 10])]
    (Utf8.valid_of_all (by decide))
    (by simpa using ⟨Utf8.valid_of_all (by decide), Utf8.valid_of_all (by decide)⟩)).2

end JsonSink

end Log

end Acva
