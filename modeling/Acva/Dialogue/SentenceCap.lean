import Acva.Dialogue.Generations
import Acva.Dialogue.SentenceCuts

/-!
# The cap on sentences

An answer is cut off one sentence past `max_assistant_sentences`. The sentences published for a job are the
first ones that the splitter produces for all the deltas of the job, numbered from zero.
-/

namespace Acva

/-- The sentences among the events. -/
def publishedSentences (es : List Event) : List LlmSentence :=
  es.filterMap fun
    | .llmSentence s => some s
    | _ => none

/-- The sentences of a turn, numbered from zero in the 32 bits of a sequence number. -/
def numbered (turn : TurnId) (lang : Text) (texts : List Text) : List LlmSentence :=
  texts.mapIdx fun i text => { turn := turn, seq := UInt32.ofNat i, text := text, lang := lang }

/-- No token comes after the sentence with the number `cap`, at which the cap cancels the stream. -/
def QuietAfterCap (cap : UInt32) (es : List Event) : Prop :=
  es.Pairwise fun e later => (∃ s, e = .llmSentence s ∧ s.seq = cap) → ∀ turn token, later ≠ .llmToken turn token

@[simp] lemma publishedSentences_append (a b : List Event) :
    publishedSentences (a ++ b) = publishedSentences a ++ publishedSentences b :=
  List.filterMap_append

@[simp] lemma publishedSentences_sentence (s : LlmSentence) : publishedSentences [.llmSentence s] = [s] := rfl

lemma mem_publishedSentences {es : List Event} {s : LlmSentence} : s ∈ publishedSentences es ↔ .llmSentence s ∈ es := by
  simp only [publishedSentences, List.mem_filterMap]
  constructor
  · rintro ⟨e, he, hs⟩
    cases e <;> simp_all
  · intro h
    exact ⟨_, h, rfl⟩

lemma numbered_append (turn : TurnId) (lang : Text) (texts : List Text) (text : Text) :
    numbered turn lang (texts ++ [text]) =
      numbered turn lang texts ++ [{ turn := turn, seq := UInt32.ofNat texts.length, text := text, lang := lang }] := by
  simp [numbered, List.mapIdx_append]

lemma seq_of_mem_numbered {turn : TurnId} {lang : Text} {texts : List Text} {s : LlmSentence}
    (h : s ∈ numbered turn lang texts) : ∃ i < texts.length, s.seq = UInt32.ofNat i := by
  obtain ⟨i, hi, rfl⟩ := List.mem_mapIdx.1 h
  exact ⟨i, hi, rfl⟩

/-! ### Numbers in 32 bits -/

section Numbers

variable {cap : UInt32} (hcap : 0 < cap) (hmax : cap < 0xFFFFFFFF)
include hcap hmax

lemma cap_bounds : 1 ≤ cap.toNat ∧ cap.toNat + 1 < 2 ^ 32 := by
  have h1 : (0 : UInt32).toNat < cap.toNat := UInt32.lt_iff_toNat_lt.1 hcap
  have h2 : cap.toNat < (0xFFFFFFFF : UInt32).toNat := UInt32.lt_iff_toNat_lt.1 hmax
  simp at h1 h2
  omega

lemma atBackstop_iff (g : Generation) : g.atBackstop cap ↔ cap.toNat + 1 ≤ g.seq.toNat := by
  have hbounds := cap_bounds hcap hmax
  have hnat : (cap + 1).toNat = cap.toNat + 1 := by
    rw [UInt32.toNat_add]
    exact Nat.mod_eq_of_lt hbounds.2
  have hpos : (0 : UInt32) < cap + 1 := by
    rw [UInt32.lt_iff_toNat_lt, hnat]
    simp
  simp [Generation.atBackstop, capBackstop, hcap, hpos, UInt32.le_iff_toNat_le, hnat]

omit hcap in
lemma seq_next {seq : SequenceNo} (h : seq.toNat ≤ cap.toNat) : (seq + 1).toNat = seq.toNat + 1 := by
  have h2 : cap.toNat < (0xFFFFFFFF : UInt32).toNat := UInt32.lt_iff_toNat_lt.1 hmax
  simp at h2
  rw [UInt32.toNat_add]
  exact Nat.mod_eq_of_lt (by simp; omega)

lemma reaches_iff {seq : SequenceNo} (h : seq.toNat < cap.toNat) :
    (cap ≠ 0 ∧ seq + 1 = cap) ↔ seq.toNat + 1 = cap.toNat := by
  rw [← UInt32.toNat_inj, seq_next hmax h.le]
  exact and_iff_right (UInt32.pos_iff_ne_zero.1 hcap)

end Numbers

/-! ### A job under the cap -/

/-- The sentences `texts` are published; with `emitted`, which the loop still has to go through, they begin like
`whole` up to one past the cap. -/
structure Job.Capped (cap : UInt32) (j : Job) (g : Generation) (texts emitted whole : List Text) : Prop where
  turn : g.ctx.id = j.turn
  lang : g.lang = j.lang
  said : publishedSentences j.events = numbered j.turn j.lang texts
  seq : g.seq.toNat = texts.length
  bound : texts.length ≤ cap.toNat + 1
  rest : (texts ++ emitted).take (cap.toNat + 1) = whole.take (cap.toNat + 1)
  quiet : QuietAfterCap cap j.events

/-- The generation whose deltas are being handed to `on_token`. -/
def IoStage.streaming? : IoStage → Option Generation
  | .performing g | .delivering g _ _ | .emitting g _ _ _ _ => some g
  | _ => none

lemma IoStage.answering_of_streaming {io : IoStage} {g : Generation} (h : io.streaming? = some g) :
    ∃ c, io.answering? = some c := by
  cases io with
  | performing | delivering | emitting => exact ⟨_, rfl⟩
  | _ => simp [streaming?] at h

/-- What the splitter has made of the deltas so far. -/
def Job.pushed (cfg : ManagerConfig) (j : Job) : SentenceSplitter × List Text :=
  SentenceSplitter.pushAll { cfg := cfg.sentenceSplitter } j.deltas

/-- The state of the cap by the number of sentences published; until it cancels, the splitter is fed. -/
def Job.CapAt (cfg : ManagerConfig) (j : Job) (g : Generation) (n : Nat) : Prop :=
  match g.capState with
  | .none => n < cfg.maxAssistantSentences.toNat ∧ g.splitter = (j.pushed cfg).1
  | .pending => n = cfg.maxAssistantSentences.toNat ∧ g.splitter = (j.pushed cfg).1
  | .cancelled => n = cfg.maxAssistantSentences.toNat + 1

/-- The invariant of a job, by stage. -/
def Job.UnderCap (cfg : ManagerConfig) : IoStage → Job → Prop
  | .submitting ctx lang, j => j = Job.start ctx.id lang
  | .performing g, j | .delivering g _ _, j =>
    ∃ texts, j.Capped cfg.maxAssistantSentences g texts [] (j.pushed cfg).2 ∧ j.CapAt cfg g texts.length
  | .emitting g _ emitted _ _, j =>
    ∃ texts, j.Capped cfg.maxAssistantSentences g texts emitted (j.pushed cfg).2 ∧ j.CapAt cfg g texts.length
  | .flushing g emitted _, j =>
    ∃ texts, j.Capped cfg.maxAssistantSentences g texts emitted (SentenceSplitter.split cfg.sentenceSplitter j.deltas)
  | _, _ => False

/-- The sentences of a finished job. -/
structure Job.CutOff (cfg : ManagerConfig) (j : Job) : Prop where
  sentences : publishedSentences j.events = numbered j.turn j.lang
    ((SentenceSplitter.split cfg.sentenceSplitter j.deltas).take (cfg.maxAssistantSentences.toNat + 1))
  quiet : QuietAfterCap cfg.maxAssistantSentences j.events

lemma QuietAfterCap.append {cap : UInt32} {es : List Event} {e : Event} (h : QuietAfterCap cap es)
    (hlast : (∃ turn token, e = .llmToken turn token) → ∀ s ∈ publishedSentences es, s.seq ≠ cap) :
    QuietAfterCap cap (es ++ [e]) := by
  refine List.pairwise_append.2 ⟨h, List.pairwise_singleton _ _, ?_⟩
  rintro x hx y hy ⟨s, rfl, hs⟩ turn token hy'
  have he : e = .llmToken turn token := (List.mem_singleton.1 hy).symm.trans hy'
  exact hlast ⟨turn, token, he⟩ s (mem_publishedSentences.2 hx) hs

namespace Job.Capped

variable {cap : UInt32} {j : Job} {g : Generation} {texts emitted whole : List Text}

lemma full (h : j.Capped cap g texts emitted whole) (hfull : texts.length = cap.toNat + 1) {emitted' whole' : List Text}
    (hwhole : whole <+: whole') : j.Capped cap g texts emitted' whole' := by
  refine { h with rest := ?_ }
  have htexts : ∀ l : List Text, (texts ++ l).take (cap.toNat + 1) = texts := by
    intro l
    rw [← hfull, List.take_left]
  have hlen : cap.toNat + 1 ≤ whole.length := by
    have hrest := congrArg List.length h.rest
    rw [htexts, List.length_take] at hrest
    omega
  obtain ⟨more, rfl⟩ := hwhole
  rw [htexts, List.take_append_of_le_length hlen, ← h.rest, htexts]

lemma say (hmax : cap < 0xFFFFFFFF) {s : Text} {ss : List Text} (h : j.Capped cap g texts (s :: ss) whole)
    (hroom : texts.length ≤ cap.toNat) {io : IoStage} {a : IoAction} {g' : Generation}
    (hctx : g'.ctx = g.ctx) (hlang : g'.lang = g.lang) (hseq : g'.seq = g.seq + 1) :
    (j.after io a [g.sentence s]).Capped cap g' (texts ++ [s]) ss whole := by
  have hnumber : UInt32.ofNat texts.length = g.seq := by
    rw [← h.seq, UInt32.ofNat_toNat]
  refine ⟨by rw [hctx]; exact h.turn, by rw [hlang]; exact h.lang, ?_, ?_, ?_, ?_, ?_⟩
  · have hs : g.sentence s = .llmSentence { turn := j.turn, seq := g.seq, text := s, lang := j.lang } := by
      rw [Generation.sentence, h.turn, h.lang]
    simp only [Job.after, publishedSentences_append, h.said, hs, publishedSentences_sentence, numbered_append, hnumber]
  · rw [hseq, seq_next hmax (h.seq ▸ hroom), h.seq, List.length_append, List.length_singleton]
  · rw [List.length_append, List.length_singleton]
    omega
  · rw [List.append_assoc]
    exact h.rest
  · refine h.quiet.append ?_
    rintro ⟨turn, token, htoken⟩
    simp [Generation.sentence] at htoken

lemma token (h : j.Capped cap g texts [] whole) (hroom : texts.length ≤ cap.toNat) {io : IoStage} {a : IoAction}
    (turn : TurnId) (delta : Text) :
    (j.after io a [.llmToken turn delta]).Capped cap g texts [] whole := by
  refine { h with said := ?_, quiet := h.quiet.append fun _ s hs => ?_ }
  · simpa [Job.after, publishedSentences] using h.said
  · rw [h.said] at hs
    obtain ⟨i, hi, hseq⟩ := seq_of_mem_numbered hs
    intro hcap
    have hlt : cap.toNat < 2 ^ 32 := cap.toNat_lt
    have hnat : i = cap.toNat := by
      rw [← hcap, hseq, UInt32.toNat_ofNat', Nat.mod_eq_of_lt (by omega)]
    omega

lemma silent (h : j.Capped cap g texts emitted whole) (io : IoStage) (a : IoAction) :
    (j.after io a []).Capped cap g texts emitted whole := by
  refine { h with said := ?_, quiet := ?_ }
  · simpa [Job.after] using h.said
  · simpa [Job.after] using h.quiet

/-- While there is room and nothing is left to go through, everything has been published. -/
lemma whole_eq (h : j.Capped cap g texts [] whole) (hroom : texts.length ≤ cap.toNat) : whole = texts := by
  have hrest : texts = whole.take (cap.toNat + 1) := by
    rw [← h.rest, List.append_nil, List.take_of_length_le h.bound]
  have hlen : whole.length ≤ cap.toNat + 1 := by
    have hlength := congrArg List.length hrest
    rw [List.length_take] at hlength
    omega
  rw [hrest, List.take_of_length_le hlen]

end Job.Capped

namespace Job

variable {cfg : ManagerConfig} {j : Job} {io : IoStage} {a : IoAction} {evs : List Event}

lemma pushed_kept (h : io.delivers a = none) : (j.after io a evs).pushed cfg = j.pushed cfg := by
  simp [pushed, Job.after, h]

lemma pushed_delivered {d : Text} (h : io.delivers a = some d) : (j.after io a evs).pushed cfg =
    (((j.pushed cfg).1.push d).1, (j.pushed cfg).2 ++ ((j.pushed cfg).1.push d).2) := by
  simp only [pushed, Job.after, h, SentenceSplitter.pushAll_eq, Option.toList_some, List.flatten_append,
    List.flatten_singleton]
  rw [SentenceSplitter.push_append]
  rfl

lemma capAt_kept {g : Generation} {n : Nat} (h : io.delivers a = none) :
    (j.after io a evs).CapAt cfg g n ↔ j.CapAt cfg g n := by
  simp only [CapAt, pushed_kept h]

lemma split_eq_pushed (cfg : ManagerConfig) (j : Job) :
    SentenceSplitter.split cfg.sentenceSplitter j.deltas = (j.pushed cfg).2 ++ (j.pushed cfg).1.flush.2 := rfl

/-- Until the cap cancels there is room for one more sentence, and the splitter has seen all the deltas. -/
lemma CapAt.room {g : Generation} {n : Nat} (h : j.CapAt cfg g n) (hne : g.capState ≠ .cancelled) :
    n ≤ cfg.maxAssistantSentences.toNat ∧ g.splitter = (j.pushed cfg).1 := by
  unfold CapAt at h
  split at h
  · exact ⟨h.1.le, h.2⟩
  · exact ⟨h.1.le, h.2⟩
  · rename_i hc
    exact absurd hc hne

lemma CapAt.full {g : Generation} {n : Nat} (h : j.CapAt cfg g n) (hc : g.capState = .cancelled) :
    n = cfg.maxAssistantSentences.toNat + 1 := by
  simpa only [CapAt, hc] using h

lemma Capped.start (cfg : ManagerConfig) (ctx : TurnContext) (lang : Text) (io : IoStage) (a : IoAction) :
    ((Job.start ctx.id lang).after io a []).Capped cfg.maxAssistantSentences
      (ManagerWorld.newGeneration cfg ctx lang) [] [] [] := by
  apply Capped.silent
  exact ⟨rfl, rfl, rfl, rfl, Nat.zero_le _, rfl, List.pairwise_singleton _ _⟩

/-- One delta: the splitter reads it, or the cap has cancelled and it is skipped. -/
lemma UnderCap.delivered {io' : IoStage} {g : Generation} {d : Text} {ds : List Text} {ended : Bool}
    (h : UnderCap cfg (.delivering g (d :: ds) ended) j)
    (hgen : Generates cfg (.delivering g (d :: ds) ended) .advance evs io') :
    UnderCap cfg io' (j.after (.delivering g (d :: ds) ended) .advance evs) := by
  obtain ⟨texts, hcapped, hat⟩ := h
  have hpushed : (j.after (.delivering g (d :: ds) ended) .advance []).pushed cfg =
      (((j.pushed cfg).1.push d).1, (j.pushed cfg).2 ++ ((j.pushed cfg).1.push d).2) := pushed_delivered rfl
  have hsilent := hcapped.silent (.delivering g (d :: ds) ended) .advance
  cases hgen with
  | skipped hc =>
    have hfull := hat.full hc
    refine ⟨texts, ?_, by simpa only [CapAt, hc] using hfull⟩
    rw [hpushed]
    exact { hsilent.full hfull (List.prefix_append _ _) with }
  | pushed hne =>
    obtain ⟨hroom, hsplitter⟩ := hat.room hne
    refine ⟨texts, ?_, ?_⟩
    · rw [hpushed, hsplitter, hcapped.whole_eq hroom]
      exact { hsilent with rest := rfl }
    · unfold CapAt at hat ⊢
      rw [hpushed, hsplitter]
      cases hstate : g.capState with
      | cancelled => exact absurd hstate hne
      | _ =>
        simp only [hstate] at hat ⊢
        exact ⟨hat.1, trivial⟩

lemma UnderCap.performed {g : Generation} {finish : Option LlmFinished} (h : UnderCap cfg (.delivering g [] true) j) :
    UnderCap cfg (.flushing { g with splitter := g.splitter.flush.1 } g.splitter.flush.2 finish)
      (j.after (.delivering g [] true) .advance []) := by
  obtain ⟨texts, hcapped, hat⟩ := h
  have hsilent := hcapped.silent (.delivering g [] true) .advance
  refine ⟨texts, ?_⟩
  rw [split_eq_pushed, pushed_kept rfl]
  by_cases hc : g.capState = .cancelled
  · exact { hsilent.full (hat.full hc) (List.prefix_append _ _) with }
  · obtain ⟨hroom, hsplitter⟩ := hat.room hc
    rw [hsplitter, hcapped.whole_eq hroom]
    exact { hsilent with rest := rfl }

/-- The end of `on_token`. -/
lemma UnderCap.token {g : Generation} {delta : Text} {deltas : List Text} {ended : Bool}
    (h : UnderCap cfg (.emitting g delta [] deltas ended) j) :
    UnderCap cfg (.delivering g deltas ended) (j.after (.emitting g delta [] deltas ended) .advance
      (if g.capState = .cancelled then [] else [.llmToken g.ctx.id delta])) := by
  obtain ⟨texts, hcapped, hat⟩ := h
  refine ⟨texts, ?_, (capAt_kept rfl).2 hat⟩
  rw [pushed_kept rfl]
  by_cases hc : g.capState = .cancelled
  · rw [if_pos hc]
    exact hcapped.silent _ _
  · rw [if_neg hc]
    exact hcapped.token (hat.room hc).1 _ _

/-- `submit` returns: all that is published is cut off one past the cap. -/
lemma UnderCap.ended {g : Generation} {finish : Option LlmFinished} (h : UnderCap cfg (.flushing g [] finish) j) :
    (j.after (.flushing g [] finish) .advance (finish.toList.map .llmFinished)).CutOff cfg := by
  obtain ⟨texts, hcapped⟩ := h
  have htexts : texts =
      (SentenceSplitter.split cfg.sentenceSplitter j.deltas).take (cfg.maxAssistantSentences.toNat + 1) := by
    rw [← hcapped.rest, List.append_nil, List.take_of_length_le hcapped.bound]
  have hdeltas : (j.after (.flushing g [] finish) .advance (finish.toList.map .llmFinished)).deltas = j.deltas := by
    simp [Job.after, IoStage.delivers]
  constructor
  · rw [hdeltas, ← htexts]
    cases finish with
    | none => simpa [Job.after] using hcapped.said
    | some f => simpa [Job.after, publishedSentences] using hcapped.said
  · cases finish with
    | none => simpa [Job.after] using hcapped.quiet
    | some f =>
      refine hcapped.quiet.append ?_
      rintro ⟨turn, token, htoken⟩
      simp at htoken

section Step

variable (hcap : 0 < cfg.maxAssistantSentences) (hmax : cfg.maxAssistantSentences < 0xFFFFFFFF)
include hcap hmax

/-- One pass of the loop of `on_token`. -/
lemma UnderCap.emitted {g : Generation} {delta s : Text} {ss deltas : List Text} {ended : Bool}
    (h : UnderCap cfg (.emitting g delta (s :: ss) deltas ended) j) :
    UnderCap cfg (.emitting (g.emit cfg.maxAssistantSentences s).next delta
        (if (g.emit cfg.maxAssistantSentences s).cancel then [] else ss) deltas ended)
      (j.after (.emitting g delta (s :: ss) deltas ended) .advance (g.emit cfg.maxAssistantSentences s).said) := by
  obtain ⟨texts, hcapped, hat⟩ := h
  cases hstate : g.capState with
  | none =>
    obtain ⟨hlt, hsplitter⟩ : texts.length < _ ∧ _ := by simpa only [CapAt, hstate] using hat
    have hbelow : g.seq.toNat < cfg.maxAssistantSentences.toNat := hcapped.seq ▸ hlt
    rw [Generation.emit_below s hstate (.inr (UInt32.lt_iff_toNat_lt.2 hbelow))]
    simp only [reaches_iff hcap hmax hbelow]
    refine ⟨texts ++ [s], ?_, ?_⟩
    · rw [pushed_kept rfl]
      exact hcapped.say hmax hlt.le rfl rfl rfl
    · rw [capAt_kept rfl, List.length_append, List.length_singleton, ← hcapped.seq]
      by_cases hlast : g.seq.toNat + 1 = cfg.maxAssistantSentences.toNat
      · simp only [CapAt, hlast, if_true]
        exact ⟨trivial, hsplitter⟩
      · have hseq := hcapped.seq
        simp only [CapAt, hlast, if_false]
        exact ⟨by omega, hsplitter⟩
  | pending =>
    obtain ⟨heq, hsplitter⟩ : texts.length = _ ∧ _ := by simpa only [CapAt, hstate] using hat
    rw [Generation.emit_at_cap s hstate (UInt32.toNat_inj.1 (hcapped.seq.trans heq))]
    have hsaid : (j.after (.emitting g delta (s :: ss) deltas ended) .advance [g.sentence s]).Capped
        cfg.maxAssistantSentences { g with seq := g.seq + 1, capState := .cancelled } (texts ++ [s]) ss
          (j.pushed cfg).2 :=
      hcapped.say hmax heq.le rfl rfl rfl
    have hfull : (texts ++ [s]).length = cfg.maxAssistantSentences.toNat + 1 := by
      rw [List.length_append, List.length_singleton, heq]
    refine ⟨texts ++ [s], ?_, hfull⟩
    rw [pushed_kept rfl]
    exact hsaid.full hfull (List.prefix_refl _)
  | cancelled =>
    have hfull := hat.full hstate
    have hback : g.atBackstop cfg.maxAssistantSentences := by
      rw [atBackstop_iff hcap hmax, hcapped.seq, hfull]
    have hemit : g.emit cfg.maxAssistantSentences s = ⟨{ g with capState := .cancelled }, [], true⟩ := by
      simp [Generation.emit, hback]
    rw [hemit]
    refine ⟨texts, ?_, hfull⟩
    rw [pushed_kept rfl]
    have hsilent := hcapped.silent (.emitting g delta (s :: ss) deltas ended) .advance
    exact { hsilent.full hfull (List.prefix_refl _) with }

/-- One pass of the loop of `on_finished`. -/
lemma UnderCap.flushed {io' : IoStage} {g : Generation} {s : Text} {ss : List Text} {finish : Option LlmFinished}
    (h : UnderCap cfg (.flushing g (s :: ss) finish) j)
    (hgen : Generates cfg (.flushing g (s :: ss) finish) .advance evs io') :
    UnderCap cfg io' (j.after (.flushing g (s :: ss) finish) .advance evs) := by
  obtain ⟨texts, hcapped⟩ := h
  cases hgen with
  | flushed hb =>
    have hroom : texts.length ≤ cfg.maxAssistantSentences.toNat := by
      have hlt : ¬g.atBackstop cfg.maxAssistantSentences := by simp [hb]
      rw [atBackstop_iff hcap hmax, hcapped.seq] at hlt
      omega
    refine ⟨texts ++ [s], ?_⟩
    rw [split_eq_pushed, pushed_kept rfl]
    exact hcapped.say hmax hroom rfl rfl rfl
  | stopped hb =>
    have hge := (atBackstop_iff hcap hmax g).1 hb
    have hfull : texts.length = cfg.maxAssistantSentences.toNat + 1 := by
      have hseq := hcapped.seq
      have hbound := hcapped.bound
      omega
    refine ⟨texts, ?_⟩
    rw [split_eq_pushed, pushed_kept rfl]
    exact (hcapped.silent _ _).full hfull (List.prefix_refl _)

lemma UnderCap.step {io' : IoStage} (h : UnderCap cfg io j) (hgen : Generates cfg io a evs io')
    (hne : io' ≠ .returning) :
    UnderCap cfg io' (j.after io a evs) := by
  cases hgen with
  | @refused ctx lang =>
    obtain rfl : j = Job.start ctx.id lang := h
    exact ⟨[], Capped.start cfg ctx lang _ _⟩
  | @opened ctx lang =>
    obtain rfl : j = Job.start ctx.id lang := h
    exact ⟨[], Capped.start cfg ctx lang _ _, (cap_bounds hcap hmax).1, rfl⟩
  | received =>
    obtain ⟨texts, hcapped, hat⟩ := h
    refine ⟨texts, ?_, (capAt_kept rfl).2 hat⟩
    rw [pushed_kept rfl]
    exact { hcapped.silent _ _ with }
  | skipped hc => exact h.delivered (.skipped hc)
  | pushed hc => exact h.delivered (.pushed hc)
  | drained =>
    obtain ⟨texts, hcapped, hat⟩ := h
    refine ⟨texts, ?_, (capAt_kept rfl).2 hat⟩
    rw [pushed_kept rfl]
    exact hcapped.silent _ _
  | performed => exact h.performed
  | emitted => exact h.emitted hcap hmax
  | token => exact h.token
  | flushed hb => exact h.flushed hcap hmax (.flushed hb)
  | stopped hb => exact h.flushed hcap hmax (.stopped hb)
  | ended => exact absurd rfl hne

end Step

lemma UnderCap.quiet (h : UnderCap cfg io j) : QuietAfterCap cfg.maxAssistantSentences j.events := by
  cases io with
  | submitting ctx lang =>
    obtain rfl : j = Job.start ctx.id lang := h
    exact List.pairwise_singleton _ _
  | performing | delivering | emitting =>
    obtain ⟨_, hcapped, -⟩ := h
    exact hcapped.quiet
  | flushing =>
    obtain ⟨_, hcapped⟩ := h
    exact hcapped.quiet
  | _ => exact h.elim

/-- When the cap has cancelled, the sentence with its number has been published. -/
lemma UnderCap.said (h : UnderCap cfg io j) {g : Generation} (hg : io.streaming? = some g)
    (hc : g.capState = .cancelled) :
    ∃ s ∈ publishedSentences j.events, s.seq = cfg.maxAssistantSentences := by
  have hcapped : ∃ texts emitted, j.Capped cfg.maxAssistantSentences g texts emitted (j.pushed cfg).2 ∧
      j.CapAt cfg g texts.length := by
    cases io with
    | performing g' | delivering g' | emitting g' =>
      obtain rfl : g' = g := by simpa [IoStage.streaming?] using hg
      obtain ⟨texts, hcapped, hat⟩ := h
      exact ⟨texts, _, hcapped, hat⟩
    | _ => simp [IoStage.streaming?] at hg
  obtain ⟨texts, emitted, hcapped, hat⟩ := hcapped
  have hlt : cfg.maxAssistantSentences.toNat < texts.length := by
    rw [hat.full hc]
    exact Nat.lt_succ_self _
  refine ⟨{ turn := j.turn, seq := UInt32.ofNat cfg.maxAssistantSentences.toNat,
            text := texts.get ⟨_, hlt⟩, lang := j.lang }, ?_, UInt32.ofNat_toNat⟩
  rw [hcapped.said]
  exact List.mem_mapIdx.2 ⟨_, hlt, rfl⟩

end Job

/-- The sentences published for a job are numbered from zero without gaps, and they are the first sentences that the
splitter produces for all its deltas, up to one past the cap; once the cap has cancelled the stream, no token is
published. -/
theorem sentence_cap_exact (cfg : ManagerConfig) (contentOf : Text → Option Text)
    (hcap : 0 < cfg.maxAssistantSentences) (hmax : cfg.maxAssistantSentences < 0xFFFFFFFF)
    (actions : List ManagerAction) :
    let l := Runs.exec (JobLog.step cfg contentOf) {} actions
    l.Accounted ∧
      (∀ j ∈ l.finished, publishedSentences j.events = numbered j.turn j.lang
        ((SentenceSplitter.split cfg.sentenceSplitter j.deltas).take (cfg.maxAssistantSentences.toNat + 1))) ∧
      (∀ j ∈ l.jobs, QuietAfterCap cfg.maxAssistantSentences j.events) ∧
      ∀ g, l.world.manager.io.streaming? = some g → g.capState = .cancelled →
        ∃ j, l.current = some j ∧ ∃ s ∈ publishedSentences j.events, s.seq = cfg.maxAssistantSentences := by
  intro l
  have hrecorded : l.Recorded (Job.UnderCap cfg) (Job.CutOff cfg) := by
    refine JobLog.recorded_exec (fun _ _ => rfl) (fun {io a evs io'} j hgen h => ?_) actions
    split
    · rename_i hret
      subst hret
      cases hgen with
      | ended => exact h.ended
    · rename_i hne
      exact h.step hcap hmax hgen hne
  refine ⟨(JobLog.accounted_exec cfg contentOf actions).1, fun j hj => (hrecorded.finished j hj).sentences, ?_, ?_⟩
  · intro j hj
    rcases List.mem_append.1 hj with hj | hj
    · exact (hrecorded.finished j hj).quiet
    · have hcurrent : l.current = some j := Option.mem_toList.1 hj
      cases hc : l.world.manager.io.answering? with
      | none => simp [hrecorded.idle hc] at hcurrent
      | some c =>
        obtain ⟨j', hj', h⟩ := hrecorded.current c hc
        obtain rfl : j' = j := Option.some.inj (hj'.symm.trans hcurrent)
        exact h.quiet
  · intro g hg hc
    obtain ⟨c, hanswering⟩ := IoStage.answering_of_streaming hg
    obtain ⟨j, hj, h⟩ := hrecorded.current c hanswering
    exact ⟨j, hj, h.said hg hc⟩

/-- With a cap of one, a stream of four sentences is cut off after the second. -/
theorem second_sentence_is_last :
    let l := Runs.exec (JobLog.step { maxAssistantSentences := 1 } some) {}
      [.bus 0 true (.finalTranscript { turn := 5, text := ascii "hello" }), .io .advance, .io (.choose 5 0),
        .io .advance,
       .io .advance, .io (.curlInit true), .io (.read (ascii "data: First line. Second line. Third line. More\n\n")),
       .io .advance, .io .advance, .io .advance, .io .advance, .io .advance, .io .progress, .io .advance, .io .advance,
       .io .advance]
    (∀ j ∈ l.finished, publishedSentences j.events =
        numbered j.turn j.lang ((SentenceSplitter.split {} j.deltas).take 2)) ∧
      l.finished.map (fun j => (publishedSentences j.events).map (·.text)) =
        [[ascii "First line.", ascii "Second line."]] :=
  ⟨(sentence_cap_exact { maxAssistantSentences := 1 } some (by decide) (by decide) _).2.1, by decide +kernel⟩

end Acva
