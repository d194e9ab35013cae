import Acva.Event.Event

/-!
# Server-sent events

`SseParser`: bytes of the response in, payloads of `data:` lines out. `feed` reports the events that
are complete, `finish` the one the stream left unterminated, and nothing is reported after `[DONE]`.
-/

namespace Acva

/-- A call of one of the three callbacks of the parser. -/
inductive SseCallback
  | data (payload : Text)
  | done
  | comment (line : Text)
  deriving DecidableEq, Repr

structure SseParser where
  buffer : Text := []
  doneSeen : Bool := false
  deriving DecidableEq, Repr

namespace SseParser

def kDataPrefix : Text := ascii "data:"
def kDoneSentinel : Text := ascii "[DONE]"

def trimLeadingSpace : Text → Text
  | 0x20 :: s => s
  | s => s

/-- The pieces before each newline of `s`, and what follows the last one. -/
def lines (line : Text) : Text → List Text
  | [] => [line]
  | c :: s => if c = 0x0A then line :: lines [] s else lines (line ++ [c]) s

/-- The loop of `emit_event`: whether the sentinel was reached, and the calls made until then. -/
def emitLines : List Text → Bool × List SseCallback
  | [] => (false, [])
  | line :: rest =>
    if line.head? = some 0x3A then
      let r := emitLines rest
      (r.1, .comment (line.drop 1) :: r.2)
    else if kDataPrefix.isPrefixOf line then
      let payload := trimLeadingSpace (line.drop kDataPrefix.length)
      if payload = kDoneSentinel then (true, [.done])
      else
        let r := emitLines rest
        (r.1, .data payload :: r.2)
    else emitLines rest

def emitEvent (eventText : Text) : Bool × List SseCallback := emitLines (lines [] eventText)

/-- The event texts that a blank line ends, and the text after the last blank line. -/
def splitEvents (cur : Text) : Text → List Text × Text
  | 0x0A :: 0x0A :: s =>
    let r := splitEvents [] s
    (cur :: r.1, r.2)
  | c :: s => splitEvents (cur ++ [c]) s
  | [] => ([], cur)

/-- Reports complete events in order, and none after the sentinel. -/
def emitEvents : List Text → Bool × List SseCallback
  | [] => (false, [])
  | t :: ts =>
    let one := emitEvent t
    if one.1 then one
    else
      let rest := emitEvents ts
      (rest.1, one.2 ++ rest.2)

def feed (p : SseParser) (bytes : Text) : SseParser × List SseCallback :=
  if p.doneSeen then (p, [])
  else
    let split := splitEvents [] (p.buffer ++ bytes)
    let emitted := emitEvents split.1
    ({ buffer := if emitted.1 then [] else split.2, doneSeen := emitted.1 }, emitted.2)

def finish (p : SseParser) : SseParser × List SseCallback :=
  if p.doneSeen then (p, [])
  else if p.buffer = [] then (p, [])
  else
    let emitted := emitEvent p.buffer
    ({ buffer := [], doneSeen := emitted.1 }, emitted.2)

/-- The payloads among the calls of the parser. -/
def payloads (cs : List SseCallback) : List Text :=
  cs.filterMap fun c => match c with
    | .data p => some p
    | _ => none

example : (feed {} (ascii "data: a\n\n: b\ndata:c\n\ndata: [DONE]\n\ndata: d\n\n")).2 =
    [.data (ascii "a"), .comment (ascii " b"), .data (ascii "c"), .done] := by decide

end SseParser

end Acva
