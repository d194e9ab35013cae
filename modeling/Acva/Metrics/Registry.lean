import Acva.Event.Event
import Acva.Lib.Runs
import Acva.Lib.Stopwatches

/-!
# The timers of the metrics registry

`Registry::subscribe` has one subscription for the timing of the LLM, with a timer for each turn, and one for the
speech synthesis, with a timer for each sentence. The key of a sentence is the low half of its turn id before its
sequence number. Each subscription handles its events on a worker of its own. Durations are in nanoseconds.
-/

namespace Acva

open Stopwatches (Press Watch presses startOf beforeLaps)

structure TurnTimer where
  startedAt : Time
  firstTokenSeen : Bool := false
  deriving DecidableEq, Repr

structure TtsTimer where
  startedAt : Time
  firstAudioSeen : Bool := false
  deriving DecidableEq, Repr

/-- The timers, and what the histograms have observed. -/
structure Registry where
  timers : TurnId → Option TurnTimer := fun _ => none
  ttsTimers : Nat → Option TtsTimer := fun _ => none
  llmFirstTokenMs : List Time := []
  llmTokensPerSec : List (Nat × Time) := []
  ttsFirstAudioMs : List Time := []
  ttsAudioBytes : Nat := 0

/-- A worker handles an event, at the time that it reads. -/
inductive RegistryAction
  | llm (now : Time) (e : Event)
  | tts (now : Time) (e : Event)
  deriving DecidableEq, Repr

/-- `(turn << 32) | seq` in 64 bits. -/
def ttsKey (e : SentenceRef) : Nat := (e.turn <<< 32) % 2 ^ 64 ||| e.seq.toNat

namespace Registry

def onTtsFirstAudio (r : Registry) (ms : Option Time) : Registry :=
  match ms with
  | some ms => if 0 ≤ ms then { r with ttsFirstAudioMs := r.ttsFirstAudioMs ++ [ms] } else r
  | none => r

def onTtsAudioBytes (r : Registry) (bytes : Nat) : Registry := { r with ttsAudioBytes := r.ttsAudioBytes + bytes }

/-- The handler of `metrics.llm`. -/
def onLlm (r : Registry) (now : Time) : Event → Registry
  | .llmStarted turn => { r with timers := Function.update r.timers turn (some { startedAt := now }) }
  | .llmToken turn _ =>
    match r.timers turn with
    | none => r
    | some timer =>
      if timer.firstTokenSeen then r
      else
        let r := { r with timers := Function.update r.timers turn (some { timer with firstTokenSeen := true }) }
        let ms := now - timer.startedAt
        if 0 ≤ ms then { r with llmFirstTokenMs := r.llmFirstTokenMs ++ [ms] } else r
  | .llmFinished e =>
    match r.timers e.turn with
    | none => r
    | some timer =>
      let r := { r with timers := Function.update r.timers e.turn none }
      let secs := now - timer.startedAt
      if 0 < secs ∧ 0 < e.tokensGenerated then
        { r with llmTokensPerSec := r.llmTokensPerSec ++ [(e.tokensGenerated, secs)] }
      else r
  | _ => r

/-- The handler of `metrics.tts`. -/
def onTts (r : Registry) (now : Time) : Event → Registry
  | .ttsStarted e => { r with ttsTimers := Function.update r.ttsTimers (ttsKey e) (some { startedAt := now }) }
  | .ttsAudioChunk e bytes =>
    match r.ttsTimers (ttsKey e) with
    | some timer =>
      if timer.firstAudioSeen then (r.onTtsFirstAudio none).onTtsAudioBytes bytes
      else
        let r := { r with
          ttsTimers := Function.update r.ttsTimers (ttsKey e) (some { timer with firstAudioSeen := true }) }
        (r.onTtsFirstAudio (some (now - timer.startedAt))).onTtsAudioBytes bytes
    | none => (r.onTtsFirstAudio none).onTtsAudioBytes bytes
  | .ttsFinished e => { r with ttsTimers := Function.update r.ttsTimers (ttsKey e) none }
  | _ => r

def step (r : Registry) : RegistryAction → Registry
  | .llm now e => r.onLlm now e
  | .tts now e => r.onTts now e

end Registry

/-! ### What a history of events amounts to -/

/-- What the events of the LLM do to the timer of their turn. -/
def llmPress : Time × Event → Option (Press TurnId Time)
  | (now, .llmStarted turn) => some ⟨turn, .start, now⟩
  | (now, .llmToken turn _) => some ⟨turn, .lap, now⟩
  | (now, .llmFinished e) => some ⟨e.turn, .stop, now⟩
  | _ => none

def ttsPress : Time × Event → Option (Press SentenceRef Time)
  | (now, .ttsStarted e) => some ⟨e, .start, now⟩
  | (now, .ttsAudioChunk e _) => some ⟨e, .lap, now⟩
  | (now, .ttsFinished e) => some ⟨e, .stop, now⟩
  | _ => none

/-- What is observed at the events, given the events before each. -/
def collect {ε α : Type} (observe : List ε → ε → Option α) (before : List ε) : List ε → List α
  | [] => []
  | e :: after => (observe before e).toList ++ collect observe (before ++ [e]) after

/-- A token is timed if the last event of its turn before it was the start. -/
def firstToken (before : List (Time × Event)) : Time × Event → Option Time
  | (now, .llmToken turn _) =>
    (startOf (presses turn (before.filterMap llmPress))).bind fun started =>
      if started ≤ now then some (now - started) else none
  | _ => none

/-- The end of a turn is timed if there were only tokens since its start. -/
def tokenRate (before : List (Time × Event)) : Time × Event → Option (Nat × Time)
  | (now, .llmFinished e) =>
    (startOf (beforeLaps (presses e.turn (before.filterMap llmPress)))).bind fun started =>
      if started < now ∧ 0 < e.tokensGenerated then some (e.tokensGenerated, now - started) else none
  | _ => none

/-- A chunk of audio is timed if the last event of its sentence before it was the start. -/
def firstAudio (before : List (Time × Event)) : Time × Event → Option Time
  | (now, .ttsAudioChunk e _) =>
    (startOf (presses e (before.filterMap ttsPress))).bind fun started =>
      if started ≤ now then some (now - started) else none
  | _ => none

/-- The bytes of audio in the events. -/
def audioBytes (events : List (Time × Event)) : Nat :=
  (events.map fun x => match x.2 with
    | .ttsAudioChunk _ bytes => bytes
    | _ => 0).sum

def RegistryAction.llmEvent : RegistryAction → Option (Time × Event)
  | .llm now e => some (now, e)
  | .tts _ _ => none

def RegistryAction.ttsEvent : RegistryAction → Option (Time × Event)
  | .llm _ _ => none
  | .tts now e => some (now, e)

lemma collect_append_singleton {ε α : Type} (observe : List ε → ε → Option α) (before l : List ε) (e : ε) :
    collect observe before (l ++ [e]) = collect observe before l ++ (observe (before ++ l) e).toList := by
  induction l generalizing before with
  | nil => simp [collect]
  | cons x l ih => simp [collect, ih]

/-! ### The timers of the turns -/

def TurnTimer.ofWatch (w : Watch Time) : TurnTimer := ⟨w.startedAt, w.lapped⟩

def TtsTimer.ofWatch (w : Watch Time) : TtsTimer := ⟨w.startedAt, w.lapped⟩

namespace Registry

lemma timers_onLlm {r : Registry} {m : TurnId → Option (Watch Time)} (h : r.timers = Option.map TurnTimer.ofWatch ∘ m)
    (now : Time) (e : Event) :
    (r.onLlm now e).timers = Option.map TurnTimer.ofWatch ∘ (llmPress (now, e)).elim m (Stopwatches.press m) := by
  have hturn : ∀ turn, r.timers turn = (m turn).map TurnTimer.ofWatch := fun turn => congrFun h turn
  cases e with
  | llmStarted turn => simp [Registry.onLlm, llmPress, Stopwatches.press, h, Function.comp_update, TurnTimer.ofWatch]
  | llmToken turn token =>
    simp only [Registry.onLlm, hturn, llmPress, Option.elim, Stopwatches.press, Function.comp_update]
    cases hm : m turn with
    | none =>
      have hsame : Function.update (Option.map TurnTimer.ofWatch ∘ m) turn none = Option.map TurnTimer.ofWatch ∘ m := by
        simp [hm]
      simpa [h] using hsame.symm
    | some w =>
      obtain ⟨started, lapped⟩ := w
      cases lapped with
      | true =>
        have hsame : Function.update (Option.map TurnTimer.ofWatch ∘ m) turn (some ⟨started, true⟩) =
            Option.map TurnTimer.ofWatch ∘ m := by
          simp [hm, TurnTimer.ofWatch]
        simpa [h, TurnTimer.ofWatch] using hsame.symm
      | false =>
        simp only [Option.map_some, TurnTimer.ofWatch, Bool.false_eq_true, if_false]
        split <;> simp [h]
  | llmFinished e =>
    simp only [Registry.onLlm, hturn, llmPress, Option.elim, Stopwatches.press, Function.comp_update]
    cases hm : m e.turn with
    | none =>
      have hsame : Function.update (Option.map TurnTimer.ofWatch ∘ m) e.turn none =
        Option.map TurnTimer.ofWatch ∘ m := by
        simp [hm]
      simpa [h] using hsame.symm
    | some w =>
      simp only [Option.map_some]
      split <;> simp [h]
  | _ => exact h

lemma firstToken_onLlm {r : Registry} {events : List (Time × Event)}
    (h : r.timers = Option.map TurnTimer.ofWatch ∘ Stopwatches.run (events.filterMap llmPress))
    (now : Time) (e : Event) :
    (r.onLlm now e).llmFirstTokenMs = r.llmFirstTokenMs ++ (firstToken events (now, e)).toList := by
  cases e with
  | llmToken turn token =>
    have hread := Stopwatches.reads_lap_eq (events.filterMap llmPress) (p := ⟨turn, .lap, now⟩) rfl
    have hturn := congrFun h turn
    simp only [Stopwatches.reads] at hread
    simp only [Registry.onLlm, firstToken, ← hread, hturn, Function.comp_apply]
    cases Stopwatches.run (events.filterMap llmPress) turn with
    | none => simp
    | some w =>
      obtain ⟨started, lapped⟩ := w
      cases lapped with
      | true => simp [TurnTimer.ofWatch]
      | false => by_cases hle : started ≤ now <;> simp [TurnTimer.ofWatch, hle]
  | llmFinished e =>
    simp only [Registry.onLlm, firstToken, Option.toList_none, List.append_nil]
    split
    · rfl
    · split <;> rfl
  | _ => simp [Registry.onLlm, firstToken]

lemma tokenRate_onLlm {r : Registry} {events : List (Time × Event)}
    (h : r.timers = Option.map TurnTimer.ofWatch ∘ Stopwatches.run (events.filterMap llmPress))
    (now : Time) (e : Event) :
    (r.onLlm now e).llmTokensPerSec = r.llmTokensPerSec ++ (tokenRate events (now, e)).toList := by
  cases e with
  | llmFinished e =>
    have hread := Stopwatches.reads_stop_eq (events.filterMap llmPress) (p := ⟨e.turn, .stop, now⟩) rfl
    have hturn := congrFun h e.turn
    simp only [Stopwatches.reads] at hread
    simp only [Registry.onLlm, tokenRate, ← hread, hturn, Function.comp_apply]
    cases Stopwatches.run (events.filterMap llmPress) e.turn with
    | none => simp
    | some w => by_cases hlt : w.startedAt < now ∧ 0 < e.tokensGenerated <;> simp [TurnTimer.ofWatch, hlt]
  | llmToken turn token =>
    simp only [Registry.onLlm, tokenRate, Option.toList_none, List.append_nil]
    split
    · rfl
    · split
      · rfl
      · split <;> rfl
  | _ => simp [Registry.onLlm, tokenRate]

end Registry

/-! ### The timers of the sentences -/

lemma pack_eq {turn seq : Nat} (hturn : turn < 2 ^ 32) (hseq : seq < 2 ^ 32) :
    (turn <<< 32) % 2 ^ 64 ||| seq = 2 ^ 32 * turn + seq := by
  rw [Nat.shiftLeft_eq, Nat.mod_eq_of_lt (by omega), Nat.mul_comm, Nat.two_pow_add_eq_or_of_lt hseq]

lemma ttsKey_inj {e e' : SentenceRef} (h : e.turn < 2 ^ 32) (h' : e'.turn < 2 ^ 32) :
    ttsKey e = ttsKey e' ↔ e = e' := by
  obtain ⟨turn, seq⟩ := e
  obtain ⟨turn', seq'⟩ := e'
  have hpack : ∀ a b c d : Nat, b < 2 ^ 32 → d < 2 ^ 32 → (2 ^ 32 * a + b = 2 ^ 32 * c + d ↔ a = c ∧ b = d) := by
    intro a b c d hb hd
    omega
  rw [ttsKey, ttsKey, pack_eq h seq.toNat_lt, pack_eq h' seq'.toNat_lt, hpack _ _ _ _ seq.toNat_lt seq'.toNat_lt,
    UInt32.toNat_inj, SentenceRef.mk.injEq]

def ttsKeyed (p : Press SentenceRef Time) : Press Nat Time := ⟨ttsKey p.key, p.button, p.now⟩

lemma startOf_ttsKeyed {ps : List (Press SentenceRef Time)} (hps : ∀ p ∈ ps, p.key.turn < 2 ^ 32) {e : SentenceRef}
    (he : e.turn < 2 ^ 32) : startOf (presses (ttsKey e) (ps.map ttsKeyed)) = startOf (presses e ps) := by
  have hpresses : presses (ttsKey e) (ps.map ttsKeyed) = (presses e ps).map ttsKeyed := by
    rw [presses, presses, List.filter_map]
    congr 1
    apply List.filter_congr
    intro p hp
    simp only [Function.comp_apply, ttsKeyed, ttsKey_inj (hps p hp) he]
  rw [hpresses, startOf, startOf, List.getLast?_map, Option.bind_map]
  rfl

namespace Registry

lemma ttsTimers_onTts {r : Registry} {m : Nat → Option (Watch Time)} (h : r.ttsTimers = Option.map TtsTimer.ofWatch ∘ m)
    (now : Time) (e : Event) :
    (r.onTts now e).ttsTimers =
      Option.map TtsTimer.ofWatch ∘ ((ttsPress (now, e)).map ttsKeyed).elim m (Stopwatches.press m) := by
  have hsentence : ∀ k, r.ttsTimers k = (m k).map TtsTimer.ofWatch := fun k => congrFun h k
  cases e with
  | ttsStarted e =>
    simp [Registry.onTts, ttsPress, ttsKeyed, Stopwatches.press, h, Function.comp_update, TtsTimer.ofWatch]
  | ttsAudioChunk e bytes =>
    simp only [Registry.onTts, hsentence, ttsPress, ttsKeyed, Option.map_some, Option.elim, Stopwatches.press,
      Function.comp_update]
    cases hm : m (ttsKey e) with
    | none =>
      have hsame : Function.update (Option.map TtsTimer.ofWatch ∘ m) (ttsKey e) none =
        Option.map TtsTimer.ofWatch ∘ m := by
        simp [hm]
      simpa [h, onTtsFirstAudio, onTtsAudioBytes] using hsame.symm
    | some w =>
      obtain ⟨started, lapped⟩ := w
      cases lapped with
      | true =>
        have hsame : Function.update (Option.map TtsTimer.ofWatch ∘ m) (ttsKey e) (some ⟨started, true⟩) =
            Option.map TtsTimer.ofWatch ∘ m := by
          simp [hm, TtsTimer.ofWatch]
        simpa [h, TtsTimer.ofWatch, onTtsFirstAudio, onTtsAudioBytes] using hsame.symm
      | false =>
        simp only [Option.map_some, TtsTimer.ofWatch, Bool.false_eq_true, if_false, onTtsFirstAudio, onTtsAudioBytes]
        split <;> simp [h]
  | ttsFinished e => simp [Registry.onTts, ttsPress, ttsKeyed, Stopwatches.press, h, Function.comp_update]
  | _ => exact h

lemma firstAudio_onTts {r : Registry} {events : List (Time × Event)}
    (h : r.ttsTimers = Option.map TtsTimer.ofWatch ∘ Stopwatches.run ((events.filterMap ttsPress).map ttsKeyed))
    {now : Time} {e : Event} (hturns : ∀ p ∈ (events ++ [(now, e)]).filterMap ttsPress, p.key.turn < 2 ^ 32) :
    (r.onTts now e).ttsFirstAudioMs = r.ttsFirstAudioMs ++ (firstAudio events (now, e)).toList := by
  cases e with
  | ttsAudioChunk e bytes =>
    have hread := Stopwatches.reads_lap_eq ((events.filterMap ttsPress).map ttsKeyed) (p := ⟨ttsKey e, .lap, now⟩) rfl
    have hsentence := congrFun h (ttsKey e)
    rw [startOf_ttsKeyed (fun p hp => hturns p (by simp [hp])) (hturns ⟨e, .lap, now⟩ (by simp [ttsPress]))] at hread
    simp only [Stopwatches.reads] at hread
    simp only [Registry.onTts, firstAudio, ← hread, hsentence, Function.comp_apply]
    cases Stopwatches.run ((events.filterMap ttsPress).map ttsKeyed) (ttsKey e) with
    | none => simp [onTtsFirstAudio, onTtsAudioBytes]
    | some w =>
      obtain ⟨started, lapped⟩ := w
      cases lapped with
      | true => simp [TtsTimer.ofWatch, onTtsFirstAudio, onTtsAudioBytes]
      | false => by_cases hle : started ≤ now <;> simp [TtsTimer.ofWatch, onTtsFirstAudio, onTtsAudioBytes, hle]
  | _ => simp [Registry.onTts, firstAudio]

lemma audioBytes_onTts (r : Registry) (now : Time) (e : Event) :
    (r.onTts now e).ttsAudioBytes = r.ttsAudioBytes + audioBytes [(now, e)] := by
  have hfirst : ∀ (r : Registry) ms, (r.onTtsFirstAudio ms).ttsAudioBytes = r.ttsAudioBytes := by
    intro r ms
    unfold onTtsFirstAudio
    split
    · split <;> rfl
    · rfl
  cases e with
  | ttsAudioChunk e bytes =>
    simp only [Registry.onTts, audioBytes, List.map_cons, List.map_nil, List.sum_cons, List.sum_nil, Nat.add_zero]
    split
    · split <;> simp [onTtsAudioBytes, hfirst]
    · simp [onTtsAudioBytes, hfirst]
  | _ => rfl

lemma llm_of_onTts (r : Registry) (now : Time) (e : Event) :
    (r.onTts now e).timers = r.timers ∧ (r.onTts now e).llmFirstTokenMs = r.llmFirstTokenMs ∧
      (r.onTts now e).llmTokensPerSec = r.llmTokensPerSec := by
  have hfirst : ∀ (r : Registry) ms, (r.onTtsFirstAudio ms).timers = r.timers ∧
      (r.onTtsFirstAudio ms).llmFirstTokenMs = r.llmFirstTokenMs ∧
      (r.onTtsFirstAudio ms).llmTokensPerSec = r.llmTokensPerSec := by
    intro r ms
    unfold onTtsFirstAudio
    split
    · split <;> exact ⟨rfl, rfl, rfl⟩
    · exact ⟨rfl, rfl, rfl⟩
  cases e with
  | ttsAudioChunk e bytes =>
    simp only [Registry.onTts]
    split
    · split
      · exact hfirst r none
      · exact hfirst _ _
    · exact hfirst r none
  | _ => exact ⟨rfl, rfl, rfl⟩

lemma tts_of_onLlm (r : Registry) (now : Time) (e : Event) :
    (r.onLlm now e).ttsTimers = r.ttsTimers ∧ (r.onLlm now e).ttsFirstAudioMs = r.ttsFirstAudioMs ∧
      (r.onLlm now e).ttsAudioBytes = r.ttsAudioBytes := by
  cases e with
  | llmToken turn token =>
    simp only [Registry.onLlm]
    split
    · exact ⟨rfl, rfl, rfl⟩
    · split
      · exact ⟨rfl, rfl, rfl⟩
      · split <;> exact ⟨rfl, rfl, rfl⟩
  | llmFinished e =>
    simp only [Registry.onLlm]
    split
    · exact ⟨rfl, rfl, rfl⟩
    · split <;> exact ⟨rfl, rfl, rfl⟩
  | _ => exact ⟨rfl, rfl, rfl⟩

/-! ### Whole runs -/

/-- The registry after the events that each worker has handled. -/
structure Follows (r : Registry) (llm tts : List (Time × Event)) : Prop where
  timers : r.timers = Option.map TurnTimer.ofWatch ∘ Stopwatches.run (llm.filterMap llmPress)
  ttsTimers : r.ttsTimers = Option.map TtsTimer.ofWatch ∘ Stopwatches.run ((tts.filterMap ttsPress).map ttsKeyed)
  firstToken : r.llmFirstTokenMs = collect Acva.firstToken [] llm
  tokenRate : r.llmTokensPerSec = collect Acva.tokenRate [] llm
  firstAudio : r.ttsFirstAudioMs = collect Acva.firstAudio [] tts
  bytes : r.ttsAudioBytes = audioBytes tts

variable {r : Registry} {llm tts : List (Time × Event)}

lemma run_filterMap_snoc {κ : Type} [DecidableEq κ] (press : Time × Event → Option (Press κ Time))
    (events : List (Time × Event)) (x : Time × Event) :
    Stopwatches.run ((events ++ [x]).filterMap press) =
      (press x).elim (Stopwatches.run (events.filterMap press))
        (Stopwatches.press (Stopwatches.run (events.filterMap press))) := by
  cases hx : press x with
  | none => simp [hx]
  | some p => simp [hx, Stopwatches.run_append_singleton]

lemma Follows.onLlm (h : r.Follows llm tts) (now : Time) (e : Event) :
    (r.onLlm now e).Follows (llm ++ [(now, e)]) tts := by
  obtain ⟨htimers, haudio, hbytes⟩ := tts_of_onLlm r now e
  refine ⟨?_, htimers.trans h.ttsTimers, ?_, ?_, haudio.trans h.firstAudio, hbytes.trans h.bytes⟩
  · rw [timers_onLlm h.timers, run_filterMap_snoc]
  · rw [firstToken_onLlm h.timers, h.firstToken, collect_append_singleton, List.nil_append]
  · rw [tokenRate_onLlm h.timers, h.tokenRate, collect_append_singleton, List.nil_append]

lemma Follows.onTts (h : r.Follows llm tts) {now : Time} {e : Event}
    (hturns : ∀ p ∈ (tts ++ [(now, e)]).filterMap ttsPress, p.key.turn < 2 ^ 32) :
    (r.onTts now e).Follows llm (tts ++ [(now, e)]) := by
  obtain ⟨htimers, hfirst, hrate⟩ := llm_of_onTts r now e
  have hkeyed : ∀ l : List (Time × Event), (l.filterMap ttsPress).map ttsKeyed =
    l.filterMap fun x => (ttsPress x).map ttsKeyed :=
    fun l => List.map_filterMap
  refine ⟨htimers.trans h.timers, ?_, hfirst.trans h.firstToken, hrate.trans h.tokenRate, ?_, ?_⟩
  · rw [ttsTimers_onTts h.ttsTimers, hkeyed, hkeyed, run_filterMap_snoc]
  · rw [firstAudio_onTts h.ttsTimers hturns, h.firstAudio, collect_append_singleton, List.nil_append]
  · rw [audioBytes_onTts, h.bytes]
    simp [audioBytes]

/-- However the two workers take turns: the first token of a turn is timed if nothing of the turn came between it and
the start, the end of the turn if only tokens did, and the first audio of a sentence likewise, each by the time since
the start and nothing else. -/
theorem histograms_of_events {actions : List RegistryAction}
    (hturns : ∀ p ∈ (actions.filterMap RegistryAction.ttsEvent).filterMap ttsPress, p.key.turn < 2 ^ 32) :
    let r := Runs.exec step {} actions
    r.llmFirstTokenMs = collect Acva.firstToken [] (actions.filterMap RegistryAction.llmEvent) ∧
      r.llmTokensPerSec = collect Acva.tokenRate [] (actions.filterMap RegistryAction.llmEvent) ∧
      r.ttsFirstAudioMs = collect Acva.firstAudio [] (actions.filterMap RegistryAction.ttsEvent) ∧
      r.ttsAudioBytes = audioBytes (actions.filterMap RegistryAction.ttsEvent) := by
  have hfollows : (Runs.exec step {} actions).Follows (actions.filterMap RegistryAction.llmEvent)
      (actions.filterMap RegistryAction.ttsEvent) := by
    induction actions using List.reverseRecOn with
    | nil => exact ⟨rfl, rfl, rfl, rfl, rfl, rfl⟩
    | append_singleton actions a ih =>
      rw [List.filterMap_append] at hturns
      have hrest := ih fun p hp => hturns p (by simp [hp])
      rw [Runs.exec_append, List.filterMap_append, List.filterMap_append]
      cases a with
      | llm now e =>
        have htts : [RegistryAction.llm now e].filterMap RegistryAction.ttsEvent = [] := rfl
        rw [htts, List.append_nil]
        exact hrest.onLlm now e
      | tts now e =>
        have hllm : [RegistryAction.tts now e].filterMap RegistryAction.llmEvent = [] := rfl
        rw [hllm, List.append_nil]
        exact hrest.onTts hturns
  exact ⟨hfollows.firstToken, hfollows.tokenRate, hfollows.firstAudio, hfollows.bytes⟩

/-- Two turns at once, and a second token of the first one. -/
theorem histograms_of_two_turns :
    let actions : List RegistryAction :=
      [.llm 0 (.llmStarted 1), .tts 3 (.ttsStarted ⟨1, 1⟩), .llm 5 (.llmStarted 2), .llm 7 (.llmToken 1 []),
       .tts 9 (.ttsAudioChunk ⟨1, 1⟩ 100), .llm 10 (.llmToken 2 []), .llm 12 (.llmToken 1 []),
       .llm 20 (.llmFinished { turn := 1, tokensGenerated := 2 })]
    let r := Runs.exec step {} actions
    r.llmFirstTokenMs = collect Acva.firstToken [] (actions.filterMap RegistryAction.llmEvent) ∧
      r.llmFirstTokenMs = [7, 5] ∧ r.llmTokensPerSec = [(2, 20)] ∧ r.ttsFirstAudioMs = [6] := by
  intro actions r
  exact ⟨(@histograms_of_events actions (by decide)).1, by decide +kernel⟩

end Registry

end Acva
