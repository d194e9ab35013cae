import Acva.Lib.Json
import Acva.Lib.Pcm
import Acva.Stt.Base64
import Acva.Stt.Matching
import Mathlib.Data.List.Forall2

/-!
# The audio that the realtime server hears

The worker, and the two subscribers that begin and end an utterance, make their messages inside the client's lock and
send them after it. The server keeps an input buffer that is cleared, appended to and committed. If each thread sends
what it has made before another enters the lock, every committed buffer holds what the resampler makes of the audio
taken for its utterance.
-/

namespace Acva

open Realtime

/-! ### Messages -/

def idAlphabet : Text := ascii "ABCDEFGHIJKLMNOPQRSTUVWXYZabcdefghijklmnopqrstuvwxyz0123456789"

/-- The draws are of the random generator. -/
def randomEventId (draws : Nat → Nat) : Text :=
  ascii "evt_" ++ (List.range 20).map fun i => idAlphabet.getD (draws i % idAlphabet.length) 0

def buildInputAudioBufferAppendJson (eventId base64Audio : Text) : Text :=
  ascii "\x7b\"event_id\":\"" ++ eventId ++ ascii "\",\"type\":\"input_audio_buffer.append\",\"audio\":\"" ++
    base64Audio ++ ascii "\"\x7d"

def buildSimpleEventJson (eventId type : Text) : Text :=
  ascii "\x7b\"event_id\":\"" ++ eventId ++ ascii "\",\"type\":\"" ++ type ++ ascii "\"\x7d"

namespace ClientMessage

def toText (eventId : Text) : ClientMessage → Text
  | .clear => buildSimpleEventJson eventId (ascii "input_audio_buffer.clear")
  | .append pcm => buildInputAudioBufferAppendJson eventId (base64Encode (Pcm.encode pcm))
  | .commit => buildSimpleEventJson eventId (ascii "input_audio_buffer.commit")

/-- What the protocol says of a text: its type, and the samples in little endian under base64. -/
def read (text : Text) : Option ClientMessage :=
  match Json.parse text with
  | some (.object ms) =>
    match ms.lookup (ascii "type"), ms.lookup (ascii "audio") with
    | some (.string type), audio =>
      if type = ascii "input_audio_buffer.clear" then some .clear
      else if type = ascii "input_audio_buffer.commit" then some .commit
      else if type = ascii "input_audio_buffer.append" then
        match audio with
        | some (.string encoded) => (base64Decode encoded).map fun bytes => .append (Pcm.decode bytes)
        | _ => none
      else none
    | _, _ => none
  | _ => none

end ClientMessage

lemma plain_randomEventId (draws : Nat → Nat) : (randomEventId draws).all Json.isPlain := by
  have halphabet : ∀ i < idAlphabet.length, Json.isPlain (idAlphabet.getD i 0) = true := by decide +kernel
  rw [randomEventId, List.all_append, Bool.and_eq_true]
  refine ⟨by decide, ?_⟩
  rw [List.all_map, List.all_eq_true]
  exact fun i _ => halphabet _ (Nat.mod_lt _ (by decide))

lemma plain_base64Encode (x : Text) : (base64Encode x).all Json.isPlain := by
  have halphabet : ∀ i < 64, Json.isPlain (alphaAt i) = true := by decide +kernel
  have hdigit : ∀ triple shift, Json.isPlain (digitAt triple shift) = true := by
    intro triple shift
    rw [digitAt_eq]
    exact halphabet _ (sextet_lt _ _)
  have hpadding : Json.isPlain padding = true := by decide
  induction x using base64Encode.induct <;> simp_all [base64Encode]

namespace ClientMessage

lemma reads_simpleEvent {eventId type : Text} (hid : eventId.all Json.isPlain) (htype : type.all Json.isPlain) :
    Json.parse (buildSimpleEventJson eventId type) =
      some (.object [(ascii "event_id", .string eventId), (ascii "type", .string type)]) := by
  have htext : buildSimpleEventJson eventId type = Json.writeObject
      [Json.writeMember (ascii "event_id") (34 :: eventId ++ [34]),
        Json.writeMember (ascii "type") (34 :: type ++ [34])] := by
    simp [buildSimpleEventJson, Json.writeObject, Json.writeMember, ascii, List.intercalate_cons_cons]
  have hreads : Json.Reads (buildSimpleEventJson eventId type)
      (.object [(ascii "event_id", .string eventId), (ascii "type", .string type)]) := by
    rw [htext]
    exact Json.reads_object (.cons (Json.readsMember_plain (by decide) (Json.reads_plain hid))
      (.cons (Json.readsMember_plain (by decide) (Json.reads_plain htype)) .nil))
  have hparse := Json.parse_of_reads (t := []) hreads rfl
  rwa [List.append_nil] at hparse

lemma reads_appendEvent {eventId audio : Text} (hid : eventId.all Json.isPlain) (haudio : audio.all Json.isPlain) :
    Json.parse (buildInputAudioBufferAppendJson eventId audio) =
      some (.object [(ascii "event_id", .string eventId), (ascii "type", .string (ascii "input_audio_buffer.append")),
        (ascii "audio", .string audio)]) := by
  have htext : buildInputAudioBufferAppendJson eventId audio = Json.writeObject
      [Json.writeMember (ascii "event_id") (34 :: eventId ++ [34]),
       Json.writeMember (ascii "type") (34 :: ascii "input_audio_buffer.append" ++ [34]),
       Json.writeMember (ascii "audio") (34 :: audio ++ [34])] := by
    simp [buildInputAudioBufferAppendJson, Json.writeObject, Json.writeMember, ascii, List.intercalate_cons_cons]
  have hreads : Json.Reads (buildInputAudioBufferAppendJson eventId audio)
      (.object [(ascii "event_id", .string eventId), (ascii "type", .string (ascii "input_audio_buffer.append")),
        (ascii "audio", .string audio)]) := by
    rw [htext]
    exact Json.reads_object (.cons (Json.readsMember_plain (by decide) (Json.reads_plain hid))
      (.cons (Json.readsMember_plain (by decide) (Json.reads_plain (by decide)))
        (.cons (Json.readsMember_plain (by decide) (Json.reads_plain haudio)) .nil)))
  have hparse := Json.parse_of_reads (t := []) hreads rfl
  rwa [List.append_nil] at hparse

/-- The text of a message reads as the message, whatever its id. -/
theorem read_toText (draws : Nat → Nat) (m : ClientMessage) : read (m.toText (randomEventId draws)) = some m := by
  have hid := plain_randomEventId draws
  cases m with
  | clear =>
    rw [read, toText, reads_simpleEvent hid (by decide)]
    rfl
  | commit =>
    rw [read, toText, reads_simpleEvent hid (by decide)]
    rfl
  | append pcm =>
    rw [read, toText, reads_appendEvent hid (plain_base64Encode _)]
    have hround : base64Decode (base64Encode (Pcm.encode pcm)) = some (Pcm.encode pcm) := by
      simp [base64Decode, length_base64Encode, decodeQuads_base64Encode]
    simp [List.lookup_cons, ascii, hround, Pcm.decode_encode]

end ClientMessage

/-! ### The resampler and the server's buffer -/

/-- A resampler by what it gives for a block, in its state, and when it is flushed. -/
structure Resampler (ρ : Type) where
  start : ρ
  process : ρ → List Int16 → List Int16 × ρ
  flush : ρ → List Int16

namespace Resampler

variable {ρ : Type} (r : Resampler ρ)

/-- What comes out for some blocks, and the state after them. -/
def run (blocks : List (List Int16)) : List Int16 × ρ :=
  blocks.foldl (fun out block => (out.1 ++ (r.process out.2 block).1, (r.process out.2 block).2)) ([], r.start)

/-- What comes out for a whole utterance. -/
def all (blocks : List (List Int16)) : List Int16 := (r.run blocks).1 ++ r.flush (r.run blocks).2

lemma run_concat (blocks : List (List Int16)) (block : List Int16) : r.run (blocks ++ [block]) =
    ((r.run blocks).1 ++ (r.process (r.run blocks).2 block).1, (r.process (r.run blocks).2 block).2) := by
  simp [run, List.foldl_append]

end Resampler

/-- The input buffer of the server, and what was committed of it. -/
structure InputBuffer where
  current : List Int16 := []
  committed : List (List Int16) := []
  deriving DecidableEq, Repr

namespace InputBuffer

def take (b : InputBuffer) : ClientMessage → InputBuffer
  | .clear => { b with current := [] }
  | .append pcm => { b with current := b.current ++ pcm }
  | .commit => { current := [], committed := b.committed ++ [b.current] }

def hear (ms : List ClientMessage) : InputBuffer := Runs.exec take {} ms

lemma hear_append (a b : List ClientMessage) : hear (a ++ b) = Runs.exec take (hear a) b := Runs.exec_append _ _ _

lemma committed_take (b : InputBuffer) (m : ClientMessage) : b.committed <+: (b.take m).committed := by
  cases m with
  | commit => exact List.prefix_append _ _
  | _ => exact List.prefix_refl _

lemma committed_prefix (ms : List ClientMessage) (b : InputBuffer) :
    b.committed <+: (Runs.exec take b ms).committed := by
  induction ms generalizing b with
  | nil => exact List.prefix_refl _
  | cons m ms ih => exact (b.committed_take m).trans (ih _)

end InputBuffer

/-! ### The client and its threads -/

/-- The worker of the audio pipeline, and the subscribers that begin and end an utterance. -/
inductive Sender
  | worker
  | starts
  | stops
  deriving DecidableEq, Repr

/-- The client with the messages that each thread has made and not yet sent, and the texts sent. `client.sent` has the
messages in the order of the lock. `taken` are the blocks taken for the utterance that is followed, and `utterances`
those of each one that was ended. -/
structure RealtimeLine (ρ : Type) where
  client : RealtimeSttClient := { state := .ready }
  resampler : Option ρ := none
  pending : Sender → List ClientMessage := fun _ => []
  wire : List Text := []
  taken : List (List Int16) := []
  utterances : List (List (List Int16)) := []

/-- What a thread does inside the lock, one of its sends, an event of the server, or the cancellation of the token. -/
inductive LineAction
  | beginUtterance (turn : TurnId) (utterance : Nat)
  | pushAudio (samples : List Int16)
  | endUtterance
  | send (s : Sender) (draws : Nat → Nat)
  | server (e : ServerEvent)
  | cancel

namespace RealtimeLine

variable {ρ : Type} (r : Resampler ρ)

/-- The messages that the client makes are for the thread to send. -/
def within (l : RealtimeLine ρ) (s : Sender) (c : RealtimeSttClient) : RealtimeLine ρ :=
  { l with client := c
           pending := fun t => if t = s then c.sent.drop l.client.sent.length else l.pending t }

/-- A thread does not come back to the lock before it has sent what it has made. -/
def step (l : RealtimeLine ρ) : LineAction → RealtimeLine ρ
  | .beginUtterance turn u =>
    if l.pending .starts ≠ [] ∨ l.client.state ≠ .ready then l
    else
      { l.within .starts (l.client.beginUtterance turn u).1 with
        resampler := some r.start
        taken := [] }
  | .pushAudio samples =>
    if l.pending .worker ≠ [] ∨ ¬l.client.active ∨ l.client.activeCancelled then l
    else
      match l.resampler with
      | some state =>
        { l.within .worker (l.client.pushAudio (r.process state samples).1) with
          resampler := some (r.process state samples).2
          taken := l.taken ++ [samples] }
      | none => l
  | .endUtterance =>
    if l.pending .stops ≠ [] ∨ ¬l.client.active then l
    else
      match l.resampler with
      | some state =>
        { l.within .stops (l.client.endUtterance (r.flush state)) with
          resampler := none
          utterances := l.utterances ++ [l.taken] }
      | none => l
  | .send s draws =>
    match l.pending s with
    | m :: ms =>
      { l with wire := l.wire ++ [m.toText (randomEventId draws)]
               pending := fun t => if t = s then ms else l.pending t }
    | [] => l
  | .server e =>
    let c := (l.client.dispatch e).1
    { l with client := c, resampler := if c.hasResampler then l.resampler else none }
  | .cancel => { l with client := { l.client with activeCancelled := true } }

/-- No thread but `s` has anything to send. -/
def Quiet (l : RealtimeLine ρ) (s : Sender) : Prop := ∀ t ∈ [Sender.worker, .starts, .stops], t ≠ s → l.pending t = []

end RealtimeLine

/-- The thread that enters the lock. -/
def LineAction.sender : LineAction → Option Sender
  | .beginUtterance _ _ => some .starts
  | .pushAudio _ => some .worker
  | .endUtterance => some .stops
  | .send _ _ | .server _ | .cancel => none

namespace RealtimeLine

variable {ρ : Type} {r : Resampler ρ} {l : RealtimeLine ρ}

/-- A thread that enters the lock does not overtake another that has still to send. -/
def Prompt (l : RealtimeLine ρ) (a : LineAction) : Prop := ∀ s ∈ a.sender, l.Quiet s

instance (l : RealtimeLine ρ) (a : LineAction) : Decidable (l.Prompt a) :=
  match h : a.sender with
  | none => isTrue fun s hs => by rw [h] at hs; cases hs
  | some s =>
    decidable_of_iff (∀ t ∈ [Sender.worker, .starts, .stops], t ≠ s → l.pending t = [])
      ⟨fun hquiet s' hs => by rw [h] at hs; exact Option.some.inj hs ▸ hquiet, fun hprompt => hprompt s h⟩

/-! ### In the order of the lock -/

/-- What the messages say, in the order in which they were made, of the audio taken. -/
structure Sound (r : Resampler ρ) (l : RealtimeLine ρ) : Prop where
  ready : l.client.state = .ready
  channel : l.client.hasChannel = true
  resampler : l.client.hasResampler = l.resampler.isSome
  committed : (InputBuffer.hear l.client.sent).committed = l.utterances.map r.all
  current : ∀ state, l.resampler = some state → r.run l.taken = ((InputBuffer.hear l.client.sent).current, state)

lemma Sound.initial : Sound r {} := ⟨rfl, rfl, rfl, rfl, nofun⟩

lemma dispatch_sent (c : RealtimeSttClient) (e : ServerEvent) (hready : c.state = .ready) :
    (c.dispatch e).1.sent = c.sent ∧ (c.dispatch e).1.state = .ready ∧ (c.dispatch e).1.hasChannel = c.hasChannel ∧
      ((c.dispatch e).1.hasResampler = c.hasResampler ∨ (c.dispatch e).1.hasResampler = false) := by
  cases e with
  | sessionUpdated | other => simp [RealtimeSttClient.dispatch, hready]
  | committed itemId =>
    simp only [RealtimeSttClient.dispatch, RealtimeSttClient.onCommitted]
    split
    · exact ⟨rfl, hready, rfl, .inl rfl⟩
    · split <;> exact ⟨rfl, hready, rfl, .inl rfl⟩
  | delta itemId delta =>
    simp only [RealtimeSttClient.dispatch, RealtimeSttClient.onPartial]
    split
    · exact ⟨rfl, hready, rfl, .inl rfl⟩
    · split <;> exact ⟨rfl, hready, rfl, .inl rfl⟩
  | completed itemId transcript language =>
    simp only [RealtimeSttClient.dispatch, RealtimeSttClient.onFinal]
    split
    · exact ⟨rfl, hready, rfl, .inl rfl⟩
    · split
      · exact ⟨rfl, hready, rfl, .inl rfl⟩
      · split <;> exact ⟨rfl, hready, rfl, .inr rfl⟩
  | error =>
    simp only [RealtimeSttClient.dispatch, RealtimeSttClient.onServerError]
    split
    · exact ⟨rfl, hready, rfl, .inr rfl⟩
    · exact ⟨rfl, hready, rfl, .inl rfl⟩

/-! What each operation makes of a client that is ready. -/

lemma begin_eq {c : RealtimeSttClient} (hready : c.state = .ready) (hchannel : c.hasChannel = true) (turn : TurnId)
    (u : Nat) : (c.beginUtterance turn u).1 =
      { c.clearActive with active := true, activeTurn := turn, activeCb := some u, hasResampler := true,
                           sent := c.sent ++ [.clear] } := by
  simp [RealtimeSttClient.beginUtterance, RealtimeSttClient.send, RealtimeSttClient.clearActive, hready, hchannel]

lemma push_eq {c : RealtimeSttClient} (hchannel : c.hasChannel = true) (hactive : c.active = true)
    (hresampler : c.hasResampler = true) (hcancelled : c.activeCancelled = false) (pcm : List Int16) :
    c.pushAudio pcm = { c with sent := c.sent ++ if pcm = [] then [] else [.append pcm] } := by
  by_cases hpcm : pcm = []
  · simp [RealtimeSttClient.pushAudio, hpcm]
  · simp [RealtimeSttClient.pushAudio, RealtimeSttClient.send, hchannel, hactive, hresampler, hcancelled, hpcm]

lemma end_eq {c : RealtimeSttClient} (hchannel : c.hasChannel = true) (hactive : c.active = true)
    (hresampler : c.hasResampler = true) (tail : List Int16) : c.endUtterance tail =
      { c with hasResampler := false
               sent := c.sent ++ if tail = [] then [.commit] else [.append tail, .commit] } := by
  simp [RealtimeSttClient.endUtterance, RealtimeSttClient.send, hchannel, hactive, hresampler]

lemma take_append (b : InputBuffer) (pcm : List Int16) : Runs.exec InputBuffer.take b
    (if pcm = [] then [] else [.append pcm]) = { b with current := b.current ++ pcm } := by
  by_cases hpcm : pcm = []
  · simp [hpcm]
  · simp [hpcm, InputBuffer.take]

lemma take_commit (b : InputBuffer) (tail : List Int16) : Runs.exec InputBuffer.take b
    (if tail = [] then [.commit] else [.append tail, .commit]) =
      { current := [], committed := b.committed ++ [b.current ++ tail] } := by
  by_cases htail : tail = []
  · simp [htail, InputBuffer.take]
  · simp [htail, InputBuffer.take]

lemma Sound.step (h : l.Sound r) (a : LineAction) : (l.step r a).Sound r := by
  cases a with
  | beginUtterance turn u =>
    simp only [RealtimeLine.step]
    split
    · exact h
    · have hclient := begin_eq h.ready h.channel turn u
      refine ⟨?_, ?_, ?_, ?_, ?_⟩
      · exact hclient ▸ h.ready
      · exact hclient ▸ h.channel
      · simp [within, hclient]
      · simpa [within, hclient, InputBuffer.hear_append, InputBuffer.take] using h.committed
      · rintro state hstate
        obtain rfl := Option.some.inj hstate
        simp [within, hclient, InputBuffer.hear_append, InputBuffer.take, Resampler.run]
  | pushAudio samples =>
    simp only [RealtimeLine.step]
    split
    · exact h
    · rename_i hopen
      obtain ⟨-, hactive, hcancelled⟩ : _ ∧ l.client.active = true ∧ l.client.activeCancelled = false := by
        simpa [not_or] using hopen
      cases hstate : l.resampler with
      | none => exact h
      | some state =>
        have hresampler : l.client.hasResampler = true := by rw [h.resampler, hstate]; rfl
        have hclient := push_eq h.channel hactive hresampler hcancelled (r.process state samples).1
        have hrun := h.current state hstate
        refine ⟨?_, ?_, ?_, ?_, ?_⟩
        · simpa [within, hclient] using h.ready
        · simpa [within, hclient] using h.channel
        · simp [within, hclient, hresampler]
        · simpa [within, hclient, InputBuffer.hear_append, take_append] using h.committed
        · rintro state' hstate'
          obtain rfl := Option.some.inj hstate'
          simp [within, hclient, InputBuffer.hear_append, take_append, Resampler.run_concat, hrun]
  | endUtterance =>
    simp only [RealtimeLine.step]
    split
    · exact h
    · rename_i hopen
      obtain ⟨-, hactive⟩ : _ ∧ l.client.active = true := by simpa [not_or] using hopen
      cases hstate : l.resampler with
      | none => exact h
      | some state =>
        have hresampler : l.client.hasResampler = true := by rw [h.resampler, hstate]; rfl
        have hclient := end_eq h.channel hactive hresampler (r.flush state)
        have hrun := h.current state hstate
        refine ⟨?_, ?_, ?_, ?_, nofun⟩
        · simpa [within, hclient] using h.ready
        · simpa [within, hclient] using h.channel
        · simp [within, hclient]
        · simp [within, hclient, InputBuffer.hear_append, take_commit, h.committed, Resampler.all, hrun]
  | send s draws =>
    simp only [RealtimeLine.step]
    split
    · exact { h with }
    · exact h
  | server e =>
    obtain ⟨hsent, hready, hchannel, hresampler⟩ := dispatch_sent l.client e h.ready
    simp only [RealtimeLine.step]
    refine ⟨hready, hchannel.trans h.channel, ?_, ?_, ?_⟩
    · rcases hresampler with hkept | hgone
      · rw [hkept]
        cases hhas : l.client.hasResampler with
        | true => simp [← h.resampler, hhas]
        | false => simp
      · simp [hgone]
    · simpa [hsent] using h.committed
    · intro state hstate
      simp only [hsent]
      split at hstate
      · exact h.current state hstate
      · cases hstate
  | cancel => exact { h with }

lemma locked_step (h : l.Sound r) {a : LineAction} {s : Sender} (ha : a.sender = some s) :
    l.step r a = l ∨ ∃ ms, (l.step r a).client.sent = l.client.sent ++ ms ∧ l.pending s = [] ∧
      (l.step r a).pending = (fun t => if t = s then ms else l.pending t) ∧ (l.step r a).wire = l.wire := by
  cases a with
  | beginUtterance turn u =>
    obtain rfl := Option.some.inj ha
    simp only [RealtimeLine.step]
    split
    · exact .inl rfl
    · rename_i hopen
      obtain ⟨hidle, -⟩ : l.pending .starts = [] ∧ _ := by simpa [not_or] using hopen
      have hclient := begin_eq h.ready h.channel turn u
      exact .inr ⟨[.clear], by simp [within, hclient], hidle, by simp [within, hclient], rfl⟩
  | pushAudio samples =>
    obtain rfl := Option.some.inj ha
    simp only [RealtimeLine.step]
    split
    · exact .inl rfl
    · rename_i hopen
      obtain ⟨hidle, hactive, hcancelled⟩ :
          l.pending .worker = [] ∧ l.client.active = true ∧ l.client.activeCancelled = false := by
        simpa [not_or] using hopen
      cases hstate : l.resampler with
      | none => exact .inl rfl
      | some state =>
        have hresampler : l.client.hasResampler = true := by rw [h.resampler, hstate]; rfl
        have hclient := push_eq h.channel hactive hresampler hcancelled (r.process state samples).1
        refine .inr ⟨if (r.process state samples).1 = [] then [] else [.append (r.process state samples).1], ?_, hidle,
          ?_, rfl⟩
        · simp only [within, hclient]
        · simp [within, hclient]
  | endUtterance =>
    obtain rfl := Option.some.inj ha
    simp only [RealtimeLine.step]
    split
    · exact .inl rfl
    · rename_i hopen
      obtain ⟨hidle, hactive⟩ : l.pending .stops = [] ∧ l.client.active = true := by simpa [not_or] using hopen
      cases hstate : l.resampler with
      | none => exact .inl rfl
      | some state =>
        have hresampler : l.client.hasResampler = true := by rw [h.resampler, hstate]; rfl
        have hclient := end_eq h.channel hactive hresampler (r.flush state)
        refine .inr ⟨if r.flush state = [] then [.commit] else [.append (r.flush state), .commit], ?_, hidle, ?_, rfl⟩
        · simp only [within, hclient]
        · simp [within, hclient]
  | send | server | cancel => cases ha

/-! ### In the order of the wire -/

/-- The texts sent, as messages. -/
def heard (l : RealtimeLine ρ) : List ClientMessage := l.wire.filterMap ClientMessage.read

/-- One thread at most has something to send, and that comes next. -/
def InOrder (l : RealtimeLine ρ) : Prop := ∃ s, l.Quiet s ∧ l.heard ++ l.pending s = l.client.sent

lemma Quiet.pending {s t : Sender} (h : l.Quiet s) (ht : t ≠ s) : l.pending t = [] :=
  h t (by cases t <;> simp) ht

lemma heard_send (l : RealtimeLine ρ) (m : ClientMessage) (draws : Nat → Nat) :
    (l.wire ++ [m.toText (randomEventId draws)]).filterMap ClientMessage.read = l.heard ++ [m] := by
  rw [List.filterMap_append, List.filterMap_cons, ClientMessage.read_toText]
  rfl

lemma InOrder.step (h : l.InOrder) (hsound : l.Sound r) {a : LineAction} (hprompt : l.Prompt a) :
    (l.step r a).InOrder := by
  obtain ⟨s, hquiet, horder⟩ := h
  cases ha : a.sender with
  | some s' =>
    rcases locked_step hsound ha with hsame | ⟨ms, hsent, hidle, hpending, hwire⟩
    · rw [hsame]
      exact ⟨s, hquiet, horder⟩
    · -- nobody else has anything to send, nor has the thread itself
      have hempty : l.pending s = [] := by
        by_cases hs : s = s'
        · exact hs ▸ hidle
        · exact (hprompt s' ha).pending hs
      refine ⟨s', fun t _ ht => ?_, ?_⟩
      · rw [hpending]
        simp only [if_neg ht]
        exact (hprompt s' ha).pending ht
      · rw [hempty, List.append_nil] at horder
        simp only [heard, hwire, hpending, hsent, if_true]
        exact congrArg (· ++ ms) horder
  | none =>
    cases a with
    | send t draws =>
      cases hms : l.pending t with
      | nil =>
        have hsame : l.step r (.send t draws) = l := by simp [RealtimeLine.step, hms]
        rw [hsame]
        exact ⟨s, hquiet, horder⟩
      | cons m ms =>
        have ht : t = s := by
          by_contra hne
          rw [hquiet.pending hne] at hms
          cases hms
        subst ht
        refine ⟨t, fun u _ hu => ?_, ?_⟩
        · simp only [RealtimeLine.step, hms, if_neg hu]
          exact hquiet.pending hu
        · simp only [RealtimeLine.step, hms, heard, if_true]
          rw [heard_send, List.append_assoc, List.singleton_append, ← hms]
          exact horder
    | server e =>
      obtain ⟨hsent, -⟩ := dispatch_sent l.client e hsound.ready
      exact ⟨s, hquiet, horder.trans hsent.symm⟩
    | cancel => exact ⟨s, hquiet, horder⟩
    | beginUtterance | pushAudio | endUtterance => cases ha

lemma reads_step (hsound : l.Sound r) (h : ∀ text ∈ l.wire, (ClientMessage.read text).isSome = true) (a : LineAction) :
    ∀ text ∈ (l.step r a).wire, (ClientMessage.read text).isSome = true := by
  cases ha : a.sender with
  | some s =>
    rcases locked_step hsound ha with hsame | ⟨-, -, -, -, hwire⟩
    · exact hsame.symm ▸ h
    · exact hwire.symm ▸ h
  | none =>
    cases a with
    | send s draws =>
      simp only [RealtimeLine.step]
      split
      · rename_i m ms _
        intro text htext
        rcases List.mem_append.mp htext with htext | htext
        · exact h text htext
        · rw [List.mem_singleton.mp htext, ClientMessage.read_toText]
          rfl
      · exact h
    | server | cancel => exact h
    | beginUtterance | pushAudio | endUtterance => cases ha

/-- If every thread sends what it has made inside the lock before another enters it, the buffers that the server is
told to commit are, in order, what the resampler makes of the audio that was taken for each utterance from its
beginning to its end; none is missing once nothing is left to be sent. -/
theorem commits_carry_utterances (r : Resampler ρ) (acts : List LineAction)
    (hprompt : Runs.Along (step r) Prompt {} acts) :
    let l := Runs.exec (step r) {} acts
    (∀ text ∈ l.wire, (ClientMessage.read text).isSome = true) ∧
      (InputBuffer.hear l.heard).committed <+: l.utterances.map r.all ∧
      ((∀ s, l.pending s = []) → (InputBuffer.hear l.heard).committed = l.utterances.map r.all) := by
  intro l
  have hinv : l.Sound r ∧ l.InOrder ∧ ∀ text ∈ l.wire, (ClientMessage.read text).isSome = true := by
    exact hprompt.invariant (fun l => l.Sound r ∧ l.InOrder ∧ ∀ text ∈ l.wire, (ClientMessage.read text).isSome = true)
      (fun l a h hp => ⟨h.1.step a, h.2.1.step h.1 hp, reads_step h.1 h.2.2 a⟩)
      ⟨.initial, ⟨.worker, fun _ _ _ => rfl, rfl⟩, by simp⟩
  obtain ⟨hsound, ⟨s, hquiet, horder⟩, hreads⟩ := hinv
  have hcommitted := hsound.committed
  rw [← horder, InputBuffer.hear_append] at hcommitted
  refine ⟨hreads, hcommitted ▸ InputBuffer.committed_prefix _ _, fun hnone => ?_⟩
  rw [hnone s] at hcommitted
  exact hcommitted

/-- A resampler that doubles each sample and holds the last one back. -/
def doubling : Resampler (List Int16) where
  start := []
  process held block := ((held ++ block).dropLast.flatMap fun x => [x, x], (held ++ block).getLast?.toList)
  flush held := held.flatMap fun x => [x, x]

/-- Two utterances, with a server error in between them that ends one early. -/
theorem two_utterances_heard :
    let acts := [.beginUtterance 0 1, .send .starts id, .pushAudio [1, 2], .send .worker id, .endUtterance,
      .send .stops id, .send .stops id, .beginUtterance 0 2, .send .starts id, .pushAudio [9, 9], .send .worker id,
      .server .error, .beginUtterance 0 3, .send .starts id, .pushAudio [5], .endUtterance, .send .stops id,
      .send .stops id]
    let l := Runs.exec (step doubling) {} acts
    ((∀ text ∈ l.wire, (ClientMessage.read text).isSome = true) ∧
      (InputBuffer.hear l.heard).committed <+: l.utterances.map doubling.all ∧
      ((∀ s, l.pending s = []) → (InputBuffer.hear l.heard).committed = l.utterances.map doubling.all)) ∧
      l.utterances.map doubling.all = [[1, 1, 2, 2], [5, 5]] :=
  ⟨commits_carry_utterances doubling _ (by decide +kernel), by decide +kernel⟩

end RealtimeLine

end Acva
