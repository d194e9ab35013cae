import Acva.Dialogue.TurnWriter
import Acva.Lib.Runs

/-!
# The row of a turn

What the assistant row of a turn holds, in terms of the events handled. An entry of the in-flight map
stands for the events since it was created: the place `i` of its vectors holds the last text received for
sequence number `i` and whether a playback of it was reported.
-/

namespace Acva

/-! ### What an entry stands for -/

/-- The events since the entry of turn `t` was created, or `none` if it has no entry. -/
def entryStep (t : TurnId) (o : Option (List Event)) (e : Event) : Option (List Event) :=
  match o, e with
  | none, .llmStarted u => if u = t then some [e] else none
  | none, .llmSentence s => if s.turn = t then some [e] else none
  | none, _ => none
  | some es, .llmFinished f => if f.turn = t then none else some (es ++ [e])
  | some es, _ => some (es ++ [e])

def entryEvents (t : TurnId) (handled : List Event) : Option (List Event) := handled.foldl (entryStep t) none

/-- The texts received for sequence number `i` of turn `t`. -/
def textsFor (t : TurnId) (i : SequenceNo) (es : List Event) : List Text :=
  es.filterMap fun e => match e with
    | .llmSentence s => if s.turn = t ∧ s.seq = i then some s.text else none
    | _ => none

/-- The last of them. -/
def lastText (t : TurnId) (i : SequenceNo) (es : List Event) : Text := ((textsFor t i es).getLast?).getD []

/-- Sequence number `i` has a text that the row of turn `t` joins. -/
def Joined (t : TurnId) (es : List Event) (cancelled : Bool) (i : SequenceNo) : Prop :=
  lastText t i es ≠ [] ∧ (cancelled → .playbackFinished ⟨t, i⟩ ∈ es)

/-- Sequence numbers that can still be incremented. -/
def Event.SeqFits : Event → Prop
  | .llmSentence e => e.seq.toNat + 1 < 2 ^ 32
  | .playbackFinished e => e.seq.toNat + 1 < 2 ^ 32
  | _ => True

/-- The entry `st` of turn `t` holds what the events `es` say. -/
structure AssistantState.Holds (st : AssistantState) (t : TurnId) (es : List Event) : Prop where
  lengths : st.played.length = st.sentences.length
  short : st.sentences.length < 2 ^ 32
  text : ∀ i : SequenceNo, (st.sentences[i.toNat]?).getD [] = lastText t i es
  played : ∀ i : SequenceNo, (st.played[i.toNat]?).getD false = true ↔ .playbackFinished ⟨t, i⟩ ∈ es

namespace AssistantState

variable {st : AssistantState} {t : TurnId} {es : List Event}

lemma holds_new (t : TurnId) (now : Int) (es : List Event) (htext : ∀ i, textsFor t i es = [])
    (hplayed : ∀ i, .playbackFinished ⟨t, i⟩ ∉ es) : Holds { startedAt := now } t es :=
  ⟨rfl, by simp, fun i => by simp [lastText, htext], fun i => by simp [hplayed i]⟩

lemma lastText_append (i : SequenceNo) (e : Event) :
    lastText t i (es ++ [e]) = match e with
      | .llmSentence s => if s.turn = t ∧ s.seq = i then s.text else lastText t i es
      | _ => lastText t i es := by
  cases e with
  | llmSentence s =>
    by_cases hs : s.turn = t ∧ s.seq = i <;> simp [lastText, textsFor, hs]
  | _ => simp [lastText, textsFor]

/-- Filling up with `x` is not seen by who reads `x` where there is nothing. -/
lemma getD_resize {α : Type} {n : Nat} {x : α} {l : List α} (h : l.length ≤ n) (i : Nat) :
    ((resize n x l)[i]?).getD x = (l[i]?).getD x := by
  rw [resize_of_le h]
  by_cases hi : i < l.length
  · rw [List.getElem?_append_left hi]
  · rw [List.getElem?_append_right (by omega), List.getElem?_eq_none (by omega : l.length ≤ i)]
    by_cases hr : i - l.length < n - l.length <;> simp [hr]

lemma length_resize {α : Type} {n : Nat} {x : α} {l : List α} (h : l.length ≤ n) : (resize n x l).length = n := by
  rw [resize_of_le h, List.length_append, List.length_replicate]
  omega

lemma Holds.grow (h : st.Holds t es) {seq : SequenceNo} (hb : seq.toNat + 1 < 2 ^ 32)
    (hlen : st.sentences.length ≤ seq.toNat) :
    (st.grow seq).Holds t es ∧ seq.toNat < (st.grow seq).sentences.length := by
  have hs : (st.grow seq).sentences = resize (seq.toNat + 1) [] st.sentences := by
    rw [AssistantState.grow, seq_succ hb]
  have hp : (st.grow seq).played = resize (seq.toNat + 1) false st.played := by
    rw [AssistantState.grow, seq_succ hb]
  have hslen : (st.grow seq).sentences.length = seq.toNat + 1 := by
    rw [hs]
    exact length_resize (by omega)
  have hplen : (st.grow seq).played.length = seq.toNat + 1 := by
    rw [hp]
    exact length_resize (by rw [h.lengths]; omega)
  refine ⟨⟨by rw [hslen, hplen], by omega, fun i => ?_, fun i => ?_⟩, by omega⟩
  · rw [hs, getD_resize (by omega)]
    exact h.text i
  · rw [hp, getD_resize (by rw [h.lengths]; omega)]
    exact h.played i

lemma Holds.append_other (h : st.Holds t es) {e : Event} (hsentence : ∀ i, lastText t i (es ++ [e]) = lastText t i es)
    (hplayed : ∀ i, e ≠ .playbackFinished ⟨t, i⟩) : st.Holds t (es ++ [e]) := by
  refine ⟨h.lengths, h.short, fun i => ?_, fun i => ?_⟩
  · rw [hsentence, h.text]
  · rw [h.played, List.mem_append, List.mem_singleton]
    exact ⟨.inl, fun hor => hor.resolve_right fun he => hplayed i he.symm⟩

lemma getD_set {α : Type} {l : List α} {n : Nat} (h : n < l.length) (x d : α) (i : Nat) :
    ((l.set n x)[i]?).getD d = if n = i then x else (l[i]?).getD d := by
  rw [List.getElem?_set]
  by_cases hi : n = i
  · subst hi
    simp [h]
  · simp [hi]

lemma Holds.onSentence (h : st.Holds t es) {e : LlmSentence} (hturn : e.turn = t) (hb : e.seq.toNat + 1 < 2 ^ 32) :
    (st.onSentence e).Holds t (es ++ [.llmSentence e]) := by
  have hset : ∀ st' : AssistantState, st'.Holds t es → e.seq.toNat < st'.sentences.length →
      ({ st' with sentences := st'.sentences.set e.seq.toNat e.text } : AssistantState).Holds t
        (es ++ [.llmSentence e]) := by
    intro st' h' hlen
    refine ⟨by simpa using h'.lengths, by simpa using h'.short, fun i => ?_, fun i => ?_⟩
    · rw [lastText_append]
      dsimp only
      rw [getD_set hlen, h'.text]
      simp [hturn, UInt32.toNat_inj]
    · rw [h'.played]
      simp
  have hlang : ({ st with lang := if st.lang = [] then e.lang else st.lang } : AssistantState).Holds t es :=
    ⟨h.lengths, h.short, h.text, h.played⟩
  simp only [AssistantState.onSentence]
  by_cases hge : e.seq.toNat ≥ st.sentences.length
  · rw [if_pos hge]
    obtain ⟨hgrow, hlen⟩ := hlang.grow hb hge
    exact hset _ hgrow hlen
  · rw [if_neg hge]
    exact hset _ hlang (Nat.lt_of_not_le hge)

lemma Holds.onPlayback (h : st.Holds t es) {e : SentenceRef} (hturn : e.turn = t) (hb : e.seq.toNat + 1 < 2 ^ 32) :
    (st.onPlayback e).Holds t (es ++ [.playbackFinished e]) := by
  have hset : ∀ st' : AssistantState, st'.Holds t es → e.seq.toNat < st'.sentences.length →
      ({ st' with played := st'.played.set e.seq.toNat true } : AssistantState).Holds t
        (es ++ [.playbackFinished e]) := by
    intro st' h' hlen
    refine ⟨by simpa using h'.lengths, h'.short, fun i => ?_, fun i => ?_⟩
    · rw [lastText_append]
      exact h'.text i
    · rw [List.mem_append, List.mem_singleton, ← h'.played i]
      dsimp only
      rw [getD_set (by rw [h'.lengths]; exact hlen)]
      obtain ⟨turn, seq⟩ := e
      subst hturn
      by_cases hi : seq = i
      · simp [hi]
      · simp [hi, Ne.symm hi, UInt32.toNat_inj]
  simp only [AssistantState.onPlayback, h.lengths]
  by_cases hge : e.seq.toNat ≥ st.sentences.length
  · rw [if_pos hge]
    obtain ⟨hgrow, hlen⟩ := h.grow hb hge
    exact hset _ hgrow hlen
  · rw [if_neg hge]
    exact hset _ h (Nat.lt_of_not_le hge)

/-- The places that the row keeps, as sequence numbers. -/
def keptSeqs (st : AssistantState) (cancelled : Bool) : List SequenceNo :=
  ((List.range st.sentences.length).filter fun i =>
    st.sentences[i]? ≠ some [] && (!cancelled || st.played[i]? = some true)).map UInt32.ofNat

lemma Holds.toNat_ofNat (h : st.Holds t es) {i : Nat} (hi : i < st.sentences.length) :
    (UInt32.ofNat i).toNat = i := by
  rw [UInt32.toNat_ofNat']
  exact Nat.mod_eq_of_lt (Nat.lt_trans hi h.short)

lemma Holds.keptSeqs_increasing (h : st.Holds t es) (cancelled : Bool) :
    (st.keptSeqs cancelled).Pairwise (· < ·) := by
  rw [keptSeqs, List.pairwise_map]
  refine (List.pairwise_lt_range.filter _).imp_of_mem fun {i j} hi hj hij => ?_
  have hi' := List.mem_range.1 (List.mem_filter.1 hi).1
  have hj' := List.mem_range.1 (List.mem_filter.1 hj).1
  rw [UInt32.lt_iff_toNat_lt, h.toNat_ofNat hi', h.toNat_ofNat hj']
  exact hij

lemma Holds.sentence_eq (h : st.Holds t es) {i : Nat} (hi : i < st.sentences.length) :
    st.sentences[i]? = some (lastText t (UInt32.ofNat i) es) := by
  have htext := h.text (UInt32.ofNat i)
  rw [h.toNat_ofNat hi, List.getElem?_eq_getElem hi, Option.getD_some] at htext
  rw [List.getElem?_eq_getElem hi, htext]

lemma Holds.played_iff (h : st.Holds t es) {i : Nat} (hi : i < st.sentences.length) :
    st.played[i]? = some true ↔ .playbackFinished ⟨t, UInt32.ofNat i⟩ ∈ es := by
  have hplayed := h.played (UInt32.ofNat i)
  have hi' : i < st.played.length := by rw [h.lengths]; exact hi
  rw [h.toNat_ofNat hi, List.getElem?_eq_getElem hi', Option.getD_some] at hplayed
  rw [List.getElem?_eq_getElem hi', Option.some_inj, hplayed]

lemma Holds.mem_keptSeqs (h : st.Holds t es) (cancelled : Bool) (i : SequenceNo) :
    i ∈ st.keptSeqs cancelled ↔ Joined t es cancelled i := by
  have hplace : ∀ n < st.sentences.length, (st.sentences[n]? ≠ some [] && (!cancelled || st.played[n]? = some true)) ↔
      Joined t es cancelled (UInt32.ofNat n) := by
    intro n hn
    simp only [Joined, h.sentence_eq hn, ne_eq, Option.some_inj, Bool.and_eq_true, Bool.or_eq_true,
      Bool.not_eq_true', decide_eq_true_eq, h.played_iff hn]
    cases cancelled <;> simp
  constructor
  · intro hmem
    obtain ⟨n, hn, rfl⟩ := List.mem_map.1 hmem
    obtain ⟨hrange, hkeep⟩ := List.mem_filter.1 hn
    exact (hplace n (List.mem_range.1 hrange)).1 hkeep
  · intro hjoin
    have hi : i.toNat < st.sentences.length := by
      by_contra hge
      apply hjoin.1
      rw [← h.text i, List.getElem?_eq_none (Nat.not_lt.1 hge)]
      rfl
    have hback : UInt32.ofNat i.toNat = i := UInt32.ofNat_toNat
    rw [← hback] at hjoin
    exact List.mem_map.2 ⟨i.toNat, List.mem_filter.2 ⟨List.mem_range.2 hi, (hplace _ hi).2 hjoin⟩, hback⟩

lemma Holds.kept_eq (h : st.Holds t es) (cancelled : Bool) :
    st.kept cancelled = (st.keptSeqs cancelled).map fun i => lastText t i es := by
  rw [AssistantState.kept, keptSeqs, List.map_map, ← List.filterMap_eq_map]
  refine List.filterMap_congr fun i hi => ?_
  exact h.sentence_eq (List.mem_range.1 (List.mem_filter.1 hi).1)

lemma Holds.row_text (h : st.Holds t es) (session : SessionId) (now : Int) (f : LlmFinished) :
    (st.row session now f).text = spaceJoin ((st.keptSeqs f.cancelled).map fun i => lastText t i es) := by
  rw [← h.kept_eq]
  refine foldl_appendSentence _ fun s hs => ?_
  rw [h.kept_eq] at hs
  obtain ⟨i, hi, rfl⟩ := List.mem_map.1 hs
  exact ((h.mem_keptSeqs _ i).1 hi).1

end AssistantState

/-! ### Runs of the writer -/

/-- The writer handles an event, or another session is bound. -/
inductive WriterAction
  | handle (now : Int) (e : Event)
  | setSession (session : SessionId)
  deriving DecidableEq, Repr

/-- The writer with the events it has handled. -/
structure WriterLog where
  writer : TurnWriter
  handled : List Event := []

namespace WriterLog

def step (l : WriterLog) : WriterAction → WriterLog
  | .handle now e => ⟨l.writer.onEvent now e, l.handled ++ [e]⟩
  | .setSession session => { l with writer := { l.writer with session := session } }

/-- A session stays bound and sequence numbers do not wrap. -/
def Fits : WriterAction → Prop
  | .handle _ e => e.SeqFits
  | .setSession session => session ≠ 0

/-- Each turn has an entry exactly as the events say, with what they say. -/
structure Follows (l : WriterLog) : Prop where
  session : l.writer.session ≠ 0
  entries : ∀ t, match entryEvents t l.handled with
    | none => l.writer.inFlight t = none
    | some es => ∃ st, l.writer.inFlight t = some st ∧ st.Holds t es

lemma entryEvents_append (t : TurnId) (handled : List Event) (e : Event) :
    entryEvents t (handled ++ [e]) = entryStep t (entryEvents t handled) e := by
  simp [entryEvents]

lemma entryStep_other {t : TurnId} {e : Event} (h : e.answers ≠ some t) (o : Option (List Event)) :
    entryStep t o e = o.map (· ++ [e]) := by
  have hne : ∀ u : TurnId, e.answers = some u → u ≠ t := fun u hu he => h (he ▸ hu)
  cases e with
  | llmStarted u => cases o <;> simp [entryStep, hne u rfl]
  | llmSentence s => cases o <;> simp [entryStep, hne s.turn rfl]
  | llmFinished f => cases o <;> simp [entryStep, hne f.turn rfl]
  | _ => cases o <;> rfl

lemma holds_append_other {st : AssistantState} {t : TurnId} {es : List Event} {e : Event} (h : st.Holds t es)
    (hother : e.answers ≠ some t) : st.Holds t (es ++ [e]) := by
  refine h.append_other (fun i => ?_) fun i he => ?_
  · rw [AssistantState.lastText_append]
    cases e with
    | llmSentence s =>
      have hne : s.turn ≠ t := fun he => hother (congrArg some he)
      simp [hne]
    | _ => rfl
  · rw [he] at hother
    exact hother rfl

lemma entry_own {l : WriterLog} (h : l.Follows) {t : TurnId} {e : Event} (hown : e.answers = some t) (hfits : e.SeqFits)
    (now : Int) :
    match entryEvents t (l.handled ++ [e]) with
    | none => (l.writer.onEvent now e).inFlight t = none
    | some es => ∃ st, (l.writer.onEvent now e).inFlight t = some st ∧ st.Holds t es := by
  have hentry := h.entries t
  rw [entryEvents_append]
  cases e with
  | llmStarted u =>
    obtain rfl : u = t := Option.some.inj hown
    cases ho : entryEvents u l.handled with
    | none =>
      rw [ho] at hentry
      simp only [entryStep, if_true]
      refine ⟨{ startedAt := now }, ?_, AssistantState.holds_new u now _ (by simp [textsFor]) (by simp)⟩
      simp [TurnWriter.onEvent, TurnWriter.handleStarted, hentry]
    | some es =>
      rw [ho] at hentry
      obtain ⟨st, hst, hholds⟩ := hentry
      refine ⟨st, by simp [TurnWriter.onEvent, TurnWriter.handleStarted, hst], hholds.append_other ?_ (by simp)⟩
      exact fun i => AssistantState.lastText_append i _
  | llmSentence s =>
    obtain rfl : s.turn = t := Option.some.inj hown
    cases ho : entryEvents s.turn l.handled with
    | none =>
      rw [ho] at hentry
      simp only [entryStep, if_true]
      have hempty : AssistantState.Holds {} s.turn [] :=
        AssistantState.holds_new s.turn 0 [] (by simp [textsFor]) (by simp)
      exact ⟨_, by simp [TurnWriter.onEvent, TurnWriter.handleSentence, hentry], hempty.onSentence rfl hfits⟩
    | some es =>
      rw [ho] at hentry
      obtain ⟨st, hst, hholds⟩ := hentry
      exact ⟨_, by simp [TurnWriter.onEvent, TurnWriter.handleSentence, hst], hholds.onSentence rfl hfits⟩
  | llmFinished f =>
    obtain rfl : f.turn = t := Option.some.inj hown
    have hgone : (l.writer.onEvent now (.llmFinished f)).inFlight f.turn = none := by
      simp only [TurnWriter.onEvent, TurnWriter.handleFinished]
      split
      · assumption
      · split
        · simp
        · split <;> simp
    cases ho : entryEvents f.turn l.handled with
    | none => exact hgone
    | some es => simpa [entryStep] using hgone
  | playbackFinished p =>
    obtain rfl : p.turn = t := Option.some.inj hown
    cases ho : entryEvents p.turn l.handled with
    | none =>
      rw [ho] at hentry
      simp [entryStep, TurnWriter.onEvent, TurnWriter.handlePlaybackFinished, hentry]
    | some es =>
      rw [ho] at hentry
      obtain ⟨st, hst, hholds⟩ := hentry
      exact ⟨_, by simp [TurnWriter.onEvent, TurnWriter.handlePlaybackFinished, hst], hholds.onPlayback rfl hfits⟩
  | _ => simp [Event.answers] at hown

lemma Follows.step {l : WriterLog} (h : l.Follows) {a : WriterAction} (hfits : Fits a) : (l.step a).Follows := by
  cases a with
  | setSession session => exact ⟨hfits, h.entries⟩
  | handle now e =>
    refine ⟨?_, fun t => ?_⟩
    · change (l.writer.onEvent now e).session ≠ 0
      rw [TurnWriter.onEvent_session]
      exact h.session
    · by_cases hown : e.answers = some t
      · exact entry_own h hown hfits now
      · have hentry := h.entries t
        have hsame := (l.writer.onEvent_other now hown).1
        change match entryEvents t (l.handled ++ [e]) with
          | none => (l.writer.onEvent now e).inFlight t = none
          | some es => ∃ st, (l.writer.onEvent now e).inFlight t = some st ∧ st.Holds t es
        rw [entryEvents_append, entryStep_other hown, hsame]
        cases ho : entryEvents t l.handled with
        | none => simpa [ho] using hentry
        | some es =>
          rw [ho] at hentry
          obtain ⟨st, hst, hholds⟩ := hentry
          exact ⟨st, hst, holds_append_other hholds hown⟩

lemma follows_create {session : SessionId} (h : session ≠ 0) : Follows ⟨{ session := session }, []⟩ :=
  ⟨h, fun _ => rfl⟩

/-- What the end of an answer posts: the last texts of its sentences in increasing order, those played if it was
cancelled, and nothing if there is none of these. -/
theorem turn_row_law {session : SessionId} (hsession : session ≠ 0) {actions : List WriterAction}
    (hfits : ∀ a ∈ actions, Fits a) (now : Int) (f : LlmFinished) :
    let l := Runs.exec step ⟨{ session := session }, []⟩ actions
    let w := l.writer.onEvent now (.llmFinished f)
    (∀ u, u ≠ f.turn → w.inFlight u = l.writer.inFlight u) ∧
      match entryEvents f.turn l.handled with
      | none => l.writer.inFlight f.turn = none ∧ w.posts = l.writer.posts
      | some es => ∃ seqs : List SequenceNo, seqs.Pairwise (· < ·) ∧
          (∀ i, i ∈ seqs ↔ Joined f.turn es f.cancelled i) ∧
          if f.cancelled ∧ seqs = [] then w.posts = l.writer.posts
          else ∃ row, w.posts = l.writer.posts ++ [(f.turn, row)] ∧ row.role = .assistant ∧
            row.text = spaceJoin (seqs.map fun i => lastText f.turn i es) ∧
            row.interruptedAt = if f.cancelled then some seqs.length else none := by
  intro l w
  have h : l.Follows := Runs.Along.invariant Follows (fun _ _ hl ha => hl.step ha)
    (Runs.Along.of_forall hfits _) (follows_create hsession)
  have hother : ∀ u, u ≠ f.turn → (Event.llmFinished f).answers ≠ some u :=
    fun u hu he => hu (Option.some.inj he).symm
  refine ⟨fun u hu => (l.writer.onEvent_other now (hother u hu)).1, ?_⟩
  have hentry := h.entries f.turn
  cases ho : entryEvents f.turn l.handled with
  | none =>
    rw [ho] at hentry
    exact ⟨hentry, by simp [w, TurnWriter.onEvent, TurnWriter.handleFinished, hentry]⟩
  | some es =>
    rw [ho] at hentry
    obtain ⟨st, hst, hholds⟩ := hentry
    have hempty : (f.cancelled ∧ st.kept f.cancelled = []) ↔ (f.cancelled ∧ st.keptSeqs f.cancelled = []) := by
      rw [hholds.kept_eq, List.map_eq_nil_iff]
    have hposts : w.posts = l.writer.posts ++
        if f.cancelled ∧ st.kept f.cancelled = [] then [] else [(f.turn, st.row l.writer.session now f)] := by
      simp only [w, TurnWriter.onEvent, TurnWriter.handleFinished, hst, TurnWriter.setEntry_session,
        h.session, if_false]
      split <;> simp
    refine ⟨st.keptSeqs f.cancelled, hholds.keptSeqs_increasing _, hholds.mem_keptSeqs _, ?_⟩
    by_cases hnone : f.cancelled ∧ st.keptSeqs f.cancelled = []
    · rw [if_pos hnone, hposts, if_pos (hempty.2 hnone), List.append_nil]
    · rw [if_neg hnone]
      refine ⟨st.row l.writer.session now f, ?_, rfl, hholds.row_text _ _ _, ?_⟩
      · rw [hposts, if_neg (hnone ∘ hempty.1)]
      · simp [AssistantState.row, hholds.kept_eq]

/-- A report that runs ahead of its sentence, between the events of another turn. -/
theorem interrupted_row_law :
    let actions : List WriterAction :=
      [.handle 1 (.llmStarted 7), .handle 2 (.playbackFinished ⟨7, 1⟩),
        .handle 3 (.llmSentence ⟨7, 0, ascii "Hi.", []⟩),
        .handle 4 (.llmSentence ⟨8, 0, ascii "No.", []⟩), .handle 5 (.llmSentence ⟨7, 1, ascii "Yes.", []⟩)]
    let l := Runs.exec step ⟨{ session := 3 }, []⟩ actions
    let w := l.writer.onEvent 6 (.llmFinished { turn := 7, cancelled := true })
    (w.posts.map fun p => (p.1, p.2.text, p.2.interruptedAt)) = [(7, ascii "Yes.", some 1)] ∧
      ∀ u, u ≠ 7 → w.inFlight u = l.writer.inFlight u := by
  refine ⟨by decide +kernel, ?_⟩
  refine (turn_row_law (by decide) ?_ 6 { turn := 7, cancelled := true }).1
  simp [Fits, Event.SeqFits]

end WriterLog

end Acva
