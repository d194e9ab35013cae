import Acva.Event.Event
import Mathlib.Data.List.Basic

/-!
# Persisting turns

`TurnWriter` follows each answer by turn id and posts a row when it ends: the full text, or only the
sentences heard if the generation was cancelled. The in-flight map is a function of the turn id;
rows are kept in the order in which they are posted to the memory thread.
-/

namespace Acva

inductive TurnRole
  | user
  | assistant
  deriving DecidableEq, Repr

inductive TurnStatus
  | inProgress
  | committed
  | interrupted
  | discarded
  deriving DecidableEq, Repr

abbrev SessionId := Int

/-- A row as the memory thread inserts it and sets its final status. -/
structure TurnRow where
  session : SessionId
  role : TurnRole
  text : Text
  lang : Option Text
  startedAt : Int
  endedAt : Int
  status : TurnStatus
  interruptedAt : Option Nat
  deriving DecidableEq, Repr

structure AssistantState where
  sentences : List Text := []
  played : List Bool := []
  lang : Text := []
  startedAt : Int := 0
  deriving DecidableEq, Repr

/-- `posts` pairs a row with the turn whose event it comes from. -/
structure TurnWriter where
  session : SessionId := 0
  inFlight : TurnId → Option AssistantState := fun _ => none
  posts : List (TurnId × TurnRow) := []

/-- `std::vector::resize`. -/
def resize {α : Type} (n : Nat) (x : α) (l : List α) : List α := l.take n ++ List.replicate (n - l.length) x

/-- `lang.empty() ? nullopt : lang`. -/
def optionalLang (lang : Text) : Option Text := if lang = [] then none else some lang

/-- Appends `s` after a blank if there is text already. -/
def appendSentence (text s : Text) : Text := (if text = [] then [] else text ++ [0x20]) ++ s

namespace AssistantState

/-- `resize(seq + 1)` of both vectors; the sum is a 32-bit one. -/
def grow (st : AssistantState) (seq : SequenceNo) : AssistantState :=
  { st with sentences := resize (seq + 1).toNat [] st.sentences
            played := resize (seq + 1).toNat false st.played }

def onSentence (st : AssistantState) (e : LlmSentence) : AssistantState :=
  let st := { st with lang := if st.lang = [] then e.lang else st.lang }
  let st := if e.seq.toNat ≥ st.sentences.length then st.grow e.seq else st
  { st with sentences := st.sentences.set e.seq.toNat e.text }

def onPlayback (st : AssistantState) (e : SentenceRef) : AssistantState :=
  let st := if e.seq.toNat ≥ st.played.length then st.grow e.seq else st
  { st with played := st.played.set e.seq.toNat true }

/-- The sentences that the row keeps: not empty, and played if the turn was cancelled. -/
def kept (st : AssistantState) (cancelled : Bool) : List Text :=
  ((List.range st.sentences.length).filter fun i =>
    st.sentences[i]? ≠ some [] && (!cancelled || st.played[i]? = some true)).filterMap fun i => st.sentences[i]?

/-- The row for an answer that has ended. -/
def row (st : AssistantState) (session : SessionId) (now : Int) (e : LlmFinished) : TurnRow :=
  { session := session
    role := .assistant
    text := (st.kept e.cancelled).foldl appendSentence []
    lang := optionalLang st.lang
    startedAt := st.startedAt
    endedAt := now
    status := if e.cancelled then .interrupted else .committed
    interruptedAt := if e.cancelled then some (st.kept e.cancelled).length else none }

end AssistantState

namespace TurnWriter

def setEntry (w : TurnWriter) (t : TurnId) (o : Option AssistantState) : TurnWriter :=
  { w with inFlight := fun u => if u = t then o else w.inFlight u }

def handleFinal (w : TurnWriter) (now : Int) (e : FinalTranscript) : TurnWriter :=
  if w.session = 0 then w
  else if e.text = [] then w
  else
    { w with posts := w.posts ++ [(e.turn,
        { session := w.session, role := .user, text := e.text, lang := optionalLang e.lang, startedAt := now,
          endedAt := now, status := .committed, interruptedAt := none })] }

/-- `try_emplace`: an entry that exists is kept. -/
def handleStarted (w : TurnWriter) (now : Int) (turn : TurnId) : TurnWriter :=
  w.setEntry turn (some ((w.inFlight turn).getD { startedAt := now }))

def handleSentence (w : TurnWriter) (e : LlmSentence) : TurnWriter :=
  w.setEntry e.turn (some (((w.inFlight e.turn).getD {}).onSentence e))

def handlePlaybackFinished (w : TurnWriter) (e : SentenceRef) : TurnWriter :=
  w.setEntry e.turn ((w.inFlight e.turn).map (·.onPlayback e))

def handleFinished (w : TurnWriter) (now : Int) (e : LlmFinished) : TurnWriter :=
  match w.inFlight e.turn with
  | none => w
  | some st =>
    let w := w.setEntry e.turn none
    if w.session = 0 then w
    else if e.cancelled ∧ st.kept e.cancelled = [] then w
    else { w with posts := w.posts ++ [(e.turn, st.row w.session now e)] }

def onEvent (w : TurnWriter) (now : Int) : Event → TurnWriter
  | .finalTranscript e => w.handleFinal now e
  | .llmStarted turn => w.handleStarted now turn
  | .llmSentence e => w.handleSentence e
  | .llmFinished e => w.handleFinished now e
  | .playbackFinished e => w.handlePlaybackFinished e
  | _ => w

/-- The assistant rows posted for a turn. -/
def rowsOf (w : TurnWriter) (t : TurnId) : List TurnRow :=
  (w.posts.filter fun p => p.1 = t && p.2.role = .assistant).map Prod.snd

end TurnWriter

/-! ### The text of a row -/

/-- The sentences joined by single blanks. -/
def spaceJoin : List Text → Text
  | [] => []
  | [s] => s
  | s :: ss => s ++ 0x20 :: spaceJoin ss

/-- The members of `texts` whose index meets `p`. -/
def select (texts : List Text) (p : Nat → Bool) : List Text :=
  ((List.range texts.length).filter p).filterMap fun i => texts[i]?

lemma select_true (texts : List Text) : select texts (fun _ => true) = texts := by
  rw [select, List.filter_eq_self.2 (fun _ _ => rfl)]
  induction texts with
  | nil => rfl
  | cons s ss ih =>
    rw [List.length_cons, List.range_succ_eq_map, List.filterMap_cons]
    simpa [List.filterMap_map, Function.comp_def] using ih

lemma mem_of_mem_select {texts : List Text} {p : Nat → Bool} {s : Text} (h : s ∈ select texts p) :
    s ∈ texts := by
  obtain ⟨i, _, hi⟩ := List.mem_filterMap.1 h
  exact List.mem_of_getElem? hi

lemma select_length (texts : List Text) (p : Nat → Bool) :
    (select texts p).length = ((List.range texts.length).filter p).length := by
  rw [select, List.length_filterMap_eq_countP]
  refine List.countP_eq_length.2 fun i hi => ?_
  have hlt : i < texts.length := List.mem_range.1 (List.mem_filter.1 hi).1
  simp [hlt]

lemma foldl_appendSentence (ss : List Text) (hss : ∀ s ∈ ss, s ≠ []) :
    ss.foldl appendSentence [] = spaceJoin ss := by
  have hgen : ∀ (ss : List Text) (text : Text), text ≠ [] → (∀ s ∈ ss, s ≠ []) →
      ss.foldl appendSentence text = spaceJoin (text :: ss) := by
    intro ss
    induction ss with
    | nil => exact fun text _ _ => rfl
    | cons s ss ih =>
      intro text htext hss
      have hs : s ≠ [] := hss s List.mem_cons_self
      rw [List.foldl_cons, ih _ (by simp [appendSentence, hs]) fun x hx => hss x (List.mem_cons_of_mem _ hx)]
      cases ss <;> simp [appendSentence, htext, spaceJoin]
  cases ss with
  | nil => rfl
  | cons s ss =>
    have hs : appendSentence [] s = s := rfl
    rw [List.foldl_cons, hs]
    exact hgen ss s (hss s List.mem_cons_self) fun x hx => hss x (List.mem_cons_of_mem _ hx)

lemma spaceJoin_length {ss : List Text} (h : ss ≠ []) :
    (spaceJoin ss).length + 1 = (ss.map fun s => s.length + 1).sum := by
  induction ss with
  | nil => exact absurd rfl h
  | cons s ss ih =>
    cases ss with
    | nil => simp [spaceJoin]
    | cons x xs =>
      have hx := ih (by simp)
      simp only [spaceJoin, List.length_append, List.length_cons, List.map_cons, List.sum_cons] at hx ⊢
      omega

lemma sum_length_sublist {l₁ l₂ : List Text} (h : l₁.Sublist l₂) :
    (l₁.map fun s => s.length + 1).sum + l₂.length ≤ (l₂.map fun s => s.length + 1).sum + l₁.length := by
  induction h with
  | slnil => simp
  | cons a _ ih =>
    simp only [List.map_cons, List.sum_cons, List.length_cons] at ih ⊢
    omega
  | cons_cons a _ ih =>
    simp only [List.map_cons, List.sum_cons, List.length_cons] at ih ⊢
    omega

lemma length_eq_of_spaceJoin_eq {l₁ l₂ : List Text} (hsub : l₁.Sublist l₂) (hne : l₁ ≠ [])
    (h : spaceJoin l₁ = spaceJoin l₂) : l₁.length = l₂.length := by
  have hne₂ : l₂ ≠ [] := by
    rintro rfl
    exact hne (List.sublist_nil.1 hsub)
  have h₁ := spaceJoin_length hne
  have h₂ := spaceJoin_length hne₂
  have hle := hsub.length_le
  have hsum := sum_length_sublist hsub
  rw [h] at h₁
  omega

/-- The entry of an answer of which `texts` were received and the indices `heard` were played. Reports
may run ahead of the sentences, so there can be empty places at the end. -/
structure AssistantState.Tracks (st : AssistantState) (texts : List Text) (heard : List Nat) : Prop where
  sentences : ∃ k, st.sentences = texts ++ List.replicate k []
  played : st.played = (List.range st.sentences.length).map fun i => decide (i ∈ heard)
  heard : ∀ i ∈ heard, i < st.sentences.length

namespace AssistantState

variable {st : AssistantState} {texts : List Text} {heard : List Nat}

lemma seq_succ {seq : SequenceNo} (h : seq.toNat + 1 < 2 ^ 32) : (seq + 1).toNat = seq.toNat + 1 := by
  rw [UInt32.toNat_add]
  exact Nat.mod_eq_of_lt h

lemma resize_of_le {α : Type} {n : Nat} {x : α} {l : List α} (h : l.length ≤ n) :
    resize n x l = l ++ List.replicate (n - l.length) x := by
  rw [resize, List.take_of_length_le h]

lemma Tracks.grow (h : st.Tracks texts heard) (seq : SequenceNo) (hb : seq.toNat + 1 < 2 ^ 32)
    (hlen : st.sentences.length ≤ seq.toNat) : (st.grow seq).Tracks texts heard := by
  obtain ⟨k, hk⟩ := h.sentences
  have hplen : st.played.length = st.sentences.length := by simp [h.played]
  have hs : (st.grow seq).sentences =
      st.sentences ++ List.replicate (seq.toNat + 1 - st.sentences.length) [] := by
    rw [AssistantState.grow, seq_succ hb]
    exact resize_of_le (by omega)
  have hp : (st.grow seq).played =
      st.played ++ List.replicate (seq.toNat + 1 - st.sentences.length) false := by
    rw [← hplen, AssistantState.grow, seq_succ hb]
    exact resize_of_le (by omega)
  refine ⟨⟨k + (seq.toNat + 1 - st.sentences.length), ?_⟩, ?_, ?_⟩
  · rw [hs, hk, List.append_assoc, List.replicate_append_replicate]
  · rw [hp, hs, List.length_append, List.length_replicate, List.range_add, List.map_append, h.played]
    congr 1
    refine (List.eq_replicate_iff.2 ⟨by simp, ?_⟩).symm
    intro b hb
    simp only [List.map_map, List.mem_map, List.mem_range, Function.comp_apply] at hb
    obtain ⟨i, _, rfl⟩ := hb
    have hi : st.sentences.length + i ∉ heard := fun hmem => absurd (h.heard _ hmem) (by omega)
    simp [hi]
  · intro i hi
    have := h.heard i hi
    rw [hs, List.length_append]
    omega

lemma Tracks.onSentence (h : st.Tracks texts heard) {e : LlmSentence} (hseq : e.seq.toNat = texts.length)
    (hb : texts.length + 1 < 2 ^ 32) : (st.onSentence e).Tracks (texts ++ [e.text]) heard := by
  have hset : ∀ st' : AssistantState, st'.Tracks texts heard → texts.length < st'.sentences.length →
      ({ st' with sentences := st'.sentences.set e.seq.toNat e.text } : AssistantState).Tracks
        (texts ++ [e.text]) heard := by
    intro st' h' hlen
    obtain ⟨k, hk⟩ := h'.sentences
    obtain ⟨j, rfl⟩ : ∃ j, k = j + 1 := by
      apply Nat.exists_eq_succ_of_ne_zero
      rintro rfl
      simp [hk] at hlen
    refine ⟨⟨j, ?_⟩, by simpa using h'.played, by simpa using h'.heard⟩
    simp [hk, hseq, List.replicate_succ]
  have hlang : ({ st with lang := if st.lang = [] then e.lang else st.lang } : AssistantState).Tracks texts heard :=
    ⟨h.sentences, h.played, h.heard⟩
  simp only [AssistantState.onSentence]
  by_cases hge : e.seq.toNat ≥ st.sentences.length
  · rw [if_pos hge]
    have hgrow := hlang.grow e.seq (by omega) hge
    apply hset _ hgrow
    simp only [AssistantState.grow, seq_succ (show e.seq.toNat + 1 < 2 ^ 32 by omega)]
    rw [resize_of_le (by omega), List.length_append, List.length_replicate]
    omega
  · rw [if_neg hge]
    exact hset _ hlang (show texts.length < st.sentences.length by omega)

lemma Tracks.onPlayback (h : st.Tracks texts heard) {e : SentenceRef} (hb : e.seq.toNat + 1 < 2 ^ 32) :
    (st.onPlayback e).Tracks texts (heard ++ [e.seq.toNat]) := by
  have hset : ∀ st' : AssistantState, st'.Tracks texts heard → e.seq.toNat < st'.sentences.length →
      ({ st' with played := st'.played.set e.seq.toNat true } : AssistantState).Tracks texts
        (heard ++ [e.seq.toNat]) := by
    intro st' h' hlen
    refine ⟨h'.sentences, ?_, ?_⟩
    · refine List.ext_getElem? fun i => ?_
      rw [List.getElem?_set, h'.played]
      by_cases hi : e.seq.toNat = i
      · subst hi
        simp [hlen]
      · rw [if_neg hi]
        by_cases hlt : i < st'.sentences.length
        · simp [hlt, Ne.symm hi]
        · simp [hlt]
    · intro i hi
      rcases List.mem_append.1 hi with hi | hi
      · exact h'.heard i hi
      · rw [List.mem_singleton.1 hi]
        exact hlen
  have hplen : st.played.length = st.sentences.length := by simp [h.played]
  simp only [AssistantState.onPlayback, hplen]
  by_cases hge : e.seq.toNat ≥ st.sentences.length
  · rw [if_pos hge]
    apply hset _ (h.grow e.seq hb hge)
    simp only [AssistantState.grow, seq_succ hb]
    rw [resize_of_le (by omega), List.length_append, List.length_replicate]
    omega
  · rw [if_neg hge]
    exact hset _ h (by omega)

/-- What the row keeps: every sentence, or those heard if the answer was cancelled. -/
lemma Tracks.kept (h : st.Tracks texts heard) (htexts : ∀ s ∈ texts, s ≠ []) (cancelled : Bool) :
    st.kept cancelled = select texts fun i => !cancelled || decide (i ∈ heard) := by
  obtain ⟨k, hk⟩ := h.sentences
  have hlen : st.sentences.length = texts.length + k := by simp [hk]
  have hpad : ((List.range k).map (texts.length + ·)).filter (fun i =>
      st.sentences[i]? ≠ some [] && (!cancelled || st.played[i]? = some true)) = [] := by
    refine List.filter_eq_nil_iff.2 fun i hi => ?_
    obtain ⟨j, hj, rfl⟩ := List.mem_map.1 hi
    simp [hk, List.mem_range.1 hj]
  have hget : ∀ i < texts.length, st.sentences[i]? = texts[i]? := fun i hi => by
    rw [hk, List.getElem?_append_left hi]
  have hplayed : ∀ i < texts.length, st.played[i]? = some (decide (i ∈ heard)) := fun i hi => by
    simp [h.played, hlen, Nat.lt_of_lt_of_le hi (Nat.le_add_right _ k)]
  rw [AssistantState.kept, hlen, List.range_add, List.filter_append, hpad, List.append_nil, select]
  have hfilter : (List.range texts.length).filter (fun i =>
      st.sentences[i]? ≠ some [] && (!cancelled || st.played[i]? = some true)) =
      (List.range texts.length).filter fun i => !cancelled || decide (i ∈ heard) := by
    refine List.filter_congr fun i hi => ?_
    have hi : i < texts.length := List.mem_range.1 hi
    have hne : texts[i] ≠ [] := htexts _ (List.getElem_mem hi)
    simp [hget i hi, hplayed i hi, hi, hne]
  rw [hfilter]
  refine List.filterMap_congr fun i hi => ?_
  exact hget i (List.mem_range.1 (List.mem_filter.1 hi).1)

end AssistantState

/-! ### One turn among others -/

/-- The turn of the answer that the event belongs to. -/
def Event.answers : Event → Option TurnId
  | .llmStarted turn => some turn
  | .llmSentence e => some e.turn
  | .llmFinished e => some e.turn
  | .playbackFinished e => some e.turn
  | _ => none

namespace TurnWriter

@[simp] lemma setEntry_inFlight (w : TurnWriter) (t u : TurnId) (o : Option AssistantState) :
    (w.setEntry t o).inFlight u = if u = t then o else w.inFlight u := rfl

@[simp] lemma setEntry_posts (w : TurnWriter) (t : TurnId) (o : Option AssistantState) :
    (w.setEntry t o).posts = w.posts := rfl

@[simp] lemma setEntry_session (w : TurnWriter) (t : TurnId) (o : Option AssistantState) :
    (w.setEntry t o).session = w.session := rfl

lemma onEvent_session (w : TurnWriter) (now : Int) (e : Event) : (w.onEvent now e).session = w.session := by
  cases e with
  | finalTranscript f =>
    simp only [onEvent, handleFinal]
    split
    · rfl
    · split <;> rfl
  | llmFinished f =>
    simp only [onEvent, handleFinished]
    split
    · rfl
    · split
      · rfl
      · split <;> rfl
  | _ => rfl

lemma onEvent_other (w : TurnWriter) (now : Int) {e : Event} {t : TurnId} (h : e.answers ≠ some t) :
    (w.onEvent now e).inFlight t = w.inFlight t ∧ (w.onEvent now e).rowsOf t = w.rowsOf t := by
  cases e with
  | finalTranscript f =>
    simp only [onEvent, handleFinal]
    split
    · exact ⟨rfl, rfl⟩
    · split
      · exact ⟨rfl, rfl⟩
      · exact ⟨rfl, by simp [rowsOf]⟩
  | llmStarted turn =>
    have hne : t ≠ turn := fun he => h (congrArg some he.symm)
    simp [onEvent, handleStarted, hne, rowsOf]
  | llmSentence s =>
    have hne : t ≠ s.turn := fun he => h (congrArg some he.symm)
    simp [onEvent, handleSentence, hne, rowsOf]
  | playbackFinished p =>
    have hne : t ≠ p.turn := fun he => h (congrArg some he.symm)
    simp [onEvent, handlePlaybackFinished, hne, rowsOf]
  | llmFinished f =>
    have hne : t ≠ f.turn := fun he => h (congrArg some he.symm)
    simp only [onEvent, handleFinished]
    split
    · exact ⟨rfl, rfl⟩
    · split
      · simp [hne, rowsOf]
      · split
        · simp [hne, rowsOf]
        · simp [hne, Ne.symm hne, rowsOf]
  | _ => exact ⟨rfl, rfl⟩

/-- Rows are only added, by the end of the answer and with the status it calls for. -/
lemma mem_rowsOf_onEvent (w : TurnWriter) (now : Int) {e : Event} {t : TurnId} {row : TurnRow}
    (h : row ∈ (w.onEvent now e).rowsOf t) : row ∈ w.rowsOf t ∨
      ∃ f, e = .llmFinished f ∧ f.turn = t ∧ row.status = if f.cancelled then .interrupted else .committed := by
  by_cases hmine : ∃ f, e = .llmFinished f ∧ f.turn = t
  · obtain ⟨f, rfl, rfl⟩ := hmine
    simp only [onEvent, handleFinished] at h
    split at h
    · exact .inl h
    · split at h
      · exact .inl h
      · split at h
        · exact .inl h
        · simp only [rowsOf, setEntry, List.filter_append, List.map_append, List.mem_append] at h
          refine h.imp_right fun hnew => ⟨f, rfl, rfl, ?_⟩
          simp only [AssistantState.row] at hnew
          simp at hnew
          simp [hnew]
  · left
    have hother : e.answers ≠ some t → row ∈ w.rowsOf t := fun hne => (w.onEvent_other now hne).2 ▸ h
    cases e with
    | llmStarted turn => exact h
    | llmSentence s => exact h
    | playbackFinished p => exact h
    | llmFinished f => exact hother fun hf => hmine ⟨f, rfl, Option.some.inj hf⟩
    | _ => exact hother (by simp [Event.answers])

lemma rowsOf_finished (w : TurnWriter) (now : Int) {e : LlmFinished} {st : AssistantState}
    (hst : w.inFlight e.turn = some st) (hsession : w.session ≠ 0) :
    (w.onEvent now (.llmFinished e)).inFlight e.turn = none ∧
      (w.onEvent now (.llmFinished e)).rowsOf e.turn = w.rowsOf e.turn ++
        if e.cancelled ∧ st.kept e.cancelled = [] then [] else [st.row w.session now e] := by
  simp only [onEvent, handleFinished, hst, setEntry_session, hsession, if_false]
  split
  · simp [rowsOf]
  · simp [rowsOf, AssistantState.row]

end TurnWriter

end Acva
