import Acva.Event.Event
import Acva.Lib.Json
import Mathlib.Data.List.Forall2

/-!
# The body of a speech request

`build_body` writes the JSON of a request by hand. The voice and the speed are optional.
-/

namespace Acva

namespace OpenAiTts

open Decimal

/-- The characters that `json_escape` gives a letter. -/
def shortEscapes : List (UInt8 × UInt8) := [(34, 34), (92, 92), (10, 110), (13, 114), (9, 116)]

def jsonEscape (s : Text) : Text := Json.escape shortEscapes s

def kNativeWpm : Nat := 160

/-- The nearest integer, the even one of two. -/
def roundHalfEven (num den : Nat) : Nat :=
  let q := num / den
  let r := num % den
  if 2 * r < den then q else if den < 2 * r then q + 1 else q + q % 2

/-- The double nearest to a positive quotient, as a numerator over a power of two. -/
def quotient (num den : Nat) : Nat × Nat :=
  let exponent := ((List.range 64).find? fun e => 2 ^ 52 * den ≤ num * 2 ^ e).getD 0
  (roundHalfEven (num * 2 ^ exponent) den, 2 ^ exponent)

/-- `{:.3f}` of the speed. -/
def speedText (tempoWpm : UInt32) : Text :=
  let speed := quotient tempoWpm.toNat kNativeWpm
  let thousandths := roundHalfEven (speed.1 * 1000) speed.2
  decimal (thousandths / 1000) ++ ascii "." ++ padded 3 (thousandths % 1000)

def buildBody (modelId voiceId text : Text) (tempoWpm : UInt32) : Text :=
  ascii "\x7b\"model\":\"" ++ jsonEscape modelId ++ ascii "\",\"input\":\"" ++ jsonEscape text ++ ascii "\"," ++
    (if voiceId ≠ [] then ascii "\"voice\":\"" ++ jsonEscape voiceId ++ ascii "\"," else []) ++
    (if 0 < tempoWpm then ascii "\"speed\":" ++ speedText tempoWpm ++ ascii "," else []) ++
    ascii "\"response_format\":\"pcm\"\x7d"

/-- The tempo 10 is half way between two thousandths of the speed, the tempo 2 is not as a double. -/
example : speedText 10 = ascii "0.062" ∧ speedText 2 = ascii "0.013" ∧ speedText 200 = ascii "1.250" := by
  decide

lemma sound_shortEscapes : Json.Sound shortEscapes :=
  Json.sound_of_all (by decide) (by decide) (by decide)

lemma reads_speedText (tempoWpm : UInt32) : Json.Reads (speedText tempoWpm) (.number (speedText tempoWpm)) := by
  unfold speedText
  rw [List.append_assoc]
  apply Json.reads_number (Json.isInteger_decimal _)
  right
  refine ⟨padded 3 _, rfl, padded_ne_nil _ _, ?_⟩
  intro b hb
  simpa [Json.isDigit] using mem_padded hb

/-- The members of a body. -/
def members (modelId voiceId text : Text) (tempoWpm : UInt32) : List (Text × Json) :=
  [(ascii "model", .string modelId), (ascii "input", .string text)] ++
    (if voiceId ≠ [] then [(ascii "voice", .string voiceId)] else []) ++
    (if 0 < tempoWpm then [(ascii "speed", .number (speedText tempoWpm))] else []) ++
    [(ascii "response_format", .string (ascii "pcm"))]

/-- The body is a comma-separated object, whichever of the optional members it has. -/
lemma buildBody_eq (modelId voiceId text : Text) (tempoWpm : UInt32) : buildBody modelId voiceId text tempoWpm =
    Json.writeObject
      ([Json.writeMember (ascii "model") (Json.quoted shortEscapes modelId),
        Json.writeMember (ascii "input") (Json.quoted shortEscapes text)] ++
        (if voiceId ≠ [] then [Json.writeMember (ascii "voice") (Json.quoted shortEscapes voiceId)] else []) ++
        (if 0 < tempoWpm then [Json.writeMember (ascii "speed") (speedText tempoWpm)] else []) ++
        [Json.writeMember (ascii "response_format") (Json.quoted shortEscapes (ascii "pcm"))]) := by
  have hpcm : Json.quoted shortEscapes (ascii "pcm") = ascii "\"pcm\"" := by decide
  rw [hpcm]
  unfold buildBody
  by_cases hvoice : voiceId ≠ []
  · by_cases htempo : 0 < tempoWpm
    · simp [hvoice, htempo, jsonEscape, Json.writeObject, Json.writeMember, Json.quoted, ascii,
        List.intercalate_cons_cons]
    · simp [hvoice, htempo, jsonEscape, Json.writeObject, Json.writeMember, Json.quoted, ascii,
        List.intercalate_cons_cons]
  · by_cases htempo : 0 < tempoWpm
    · simp [hvoice, htempo, jsonEscape, Json.writeObject, Json.writeMember, Json.quoted, ascii,
        List.intercalate_cons_cons]
    · simp [hvoice, htempo, jsonEscape, Json.writeObject, Json.writeMember, Json.quoted, ascii,
        List.intercalate_cons_cons]

lemma reads_buildBody (modelId voiceId text : Text) (tempoWpm : UInt32) :
    Json.Reads (buildBody modelId voiceId text tempoWpm) (.object (members modelId voiceId text tempoWpm)) := by
  have hquoted : ∀ (name s : Text), name.all Json.isPlain →
      Json.ReadsMember (Json.writeMember name (Json.quoted shortEscapes s)) (name, .string s) :=
    fun name s hname => Json.readsMember_plain hname (sound_shortEscapes.reads_quoted s)
  rw [buildBody_eq]
  apply Json.reads_object
  refine List.rel_append (List.rel_append (List.rel_append ?_ ?_) ?_) ?_
  · exact .cons (hquoted _ _ (by decide)) (.cons (hquoted _ _ (by decide)) .nil)
  · split
    · exact .cons (hquoted _ _ (by decide)) .nil
    · exact .nil
  · split
    · exact .cons (Json.readsMember_plain (by decide) (reads_speedText tempoWpm)) .nil
    · exact .nil
  · exact .cons (hquoted _ _ (by decide)) .nil

lemma valid_speedText (tempoWpm : UInt32) : Utf8.Valid (speedText tempoWpm) := by
  apply Utf8.valid_of_lt
  intro b hb
  unfold speedText at hb
  simp only [List.mem_append] at hb
  rcases hb with (hb | hb) | hb
  · exact UInt8.lt_of_le_of_lt (mem_decimal hb).2 (by decide)
  · obtain rfl : b = 46 := by simpa [ascii] using hb
    decide
  · exact UInt8.lt_of_le_of_lt (mem_padded hb).2 (by decide)

lemma valid_buildBody {modelId voiceId text : Text} (hmodel : Utf8.Valid modelId) (hvoice : Utf8.Valid voiceId)
    (htext : Utf8.Valid text) (tempoWpm : UInt32) : Utf8.Valid (buildBody modelId voiceId text tempoWpm) := by
  have hescape : ∀ {s : Text}, Utf8.Valid s → Utf8.Valid (jsonEscape s) := sound_shortEscapes.valid_escape
  have hplain : ∀ {s : Text}, s.all (· < 0x80) → Utf8.Valid s := Utf8.valid_of_all
  unfold buildBody
  refine .append (.append (.append (.append (.append (.append (.append ?_ ?_) ?_) ?_) ?_) ?_) ?_) ?_
  · exact hplain (by decide)
  · exact hescape hmodel
  · exact hplain (by decide)
  · exact hescape htext
  · exact hplain (by decide)
  · split
    · exact .append (.append (hplain (by decide)) (hescape hvoice)) (hplain (by decide))
    · exact .nil
  · split
    · exact .append (.append (hplain (by decide)) (valid_speedText tempoWpm)) (hplain (by decide))
    · exact .nil
  · exact hplain (by decide)

/-- The body is a JSON object with the model, the text and, if there is one, the voice as they are. -/
theorem buildBody_isText {modelId voiceId text : Text} (hmodel : Utf8.Valid modelId) (hvoice : Utf8.Valid voiceId)
    (htext : Utf8.Valid text) (tempoWpm : UInt32) :
    Json.IsText (buildBody modelId voiceId text tempoWpm) (.object (members modelId voiceId text tempoWpm)) := by
  have hparse := Json.parse_of_reads (t := []) (reads_buildBody modelId voiceId text tempoWpm) rfl
  rw [List.append_nil] at hparse
  exact ⟨valid_buildBody hmodel hvoice htext tempoWpm, hparse⟩

/-- A text with a quote, a newline and a character of two bytes. -/
theorem buildBody_isText_quote :
    Json.IsText (buildBody (ascii "piper") [] [34, 10, 0xC3, 0xA9] 200) (.object
      [(ascii "model", .string (ascii "piper")), (ascii "input", .string [34, 10, 0xC3, 0xA9]),
       (ascii "speed", .number (speedText 200)), (ascii "response_format", .string (ascii "pcm"))]) :=
  buildBody_isText (Utf8.valid_of_all (by decide)) .nil
    ((Utf8.valid_of_all (s := [34, 10]) (by decide)).append ⟨[Char.ofNat 0xE9], by decide⟩) 200

end OpenAiTts

end Acva
