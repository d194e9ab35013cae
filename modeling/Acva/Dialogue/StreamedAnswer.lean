import Acva.Dialogue.SentenceCap
import Acva.Llm.SseChunks

/-!
# From the stream to the sentences

What is published for an answer, as a function of the bytes that the language model's stream has brought: the parser
of server-sent events, the splitter and the cap one after the other. Neither the chunks in which the bytes come nor
what the bus thread does in between matters, but where the transfer ends.
-/

namespace Acva

/-- Without a cap every sentence is said, and with one those up to one past it. -/
def underCap (cap : UInt32) (texts : List Text) : List Text := if cap = 0 then texts else texts.take (cap.toNat + 1)

/-! ### Without a cap -/

/-- The sentences `texts` are published, numbered in the 32 bits of a sequence number. -/
structure Job.Said (j : Job) (g : Generation) (texts : List Text) : Prop where
  turn : g.ctx.id = j.turn
  lang : g.lang = j.lang
  uncapped : g.capState = .none
  said : publishedSentences j.events = numbered j.turn j.lang texts
  seq : g.seq = UInt32.ofNat texts.length

/-- The invariant of a job without a cap, by stage: the sentences published and those that a loop still has to go
through are all that the splitter has made of the deltas. -/
def Job.Uncapped (cfg : ManagerConfig) : IoStage → Job → Prop
  | .submitting ctx lang, j => j = Job.start ctx.id lang
  | .performing g, j | .delivering g _ _, j =>
    j.Said g (j.pushed cfg).2 ∧ g.splitter = (j.pushed cfg).1
  | .emitting g _ emitted _ _, j =>
    ∃ texts, j.Said g texts ∧ texts ++ emitted = (j.pushed cfg).2 ∧ g.splitter = (j.pushed cfg).1
  | .flushing g emitted _, j =>
    ∃ texts, j.Said g texts ∧ texts ++ emitted = SentenceSplitter.split cfg.sentenceSplitter j.deltas
  | _, _ => False

namespace Job

variable {cfg : ManagerConfig} {j : Job} {g g' : Generation} {texts : List Text} {io : IoStage} {a : IoAction}
  {evs : List Event}

lemma Said.start (cfg : ManagerConfig) (ctx : TurnContext) (lang : Text) :
    (Job.start ctx.id lang).Said (ManagerWorld.newGeneration cfg ctx lang) [] :=
  ⟨rfl, rfl, rfl, rfl, rfl⟩

lemma Said.silent (h : j.Said g texts) (hevs : publishedSentences evs = []) (io : IoStage) (a : IoAction) :
    (j.after io a evs).Said g texts := by
  refine { h with said := ?_ }
  simp only [Job.after, publishedSentences_append, h.said, hevs, List.append_nil]

lemma Said.say (h : j.Said g texts) (s : Text) (io : IoStage) (a : IoAction) (hctx : g'.ctx = g.ctx)
    (hlang : g'.lang = g.lang) (hstate : g'.capState = g.capState) (hseq : g'.seq = g.seq + 1) :
    (j.after io a [g.sentence s]).Said g' (texts ++ [s]) := by
  refine ⟨hctx ▸ h.turn, hlang ▸ h.lang, hstate ▸ h.uncapped, ?_, ?_⟩
  · have hs : g.sentence s = .llmSentence
        { turn := j.turn, seq := UInt32.ofNat texts.length, text := s, lang := j.lang } := by
      rw [Generation.sentence, h.turn, h.lang, h.seq]
    simp only [Job.after, publishedSentences_append, h.said, hs, publishedSentences_sentence, numbered_append]
  · rw [hseq, h.seq, List.length_append, List.length_singleton, UInt32.ofNat_add]
    rfl

lemma Uncapped.step {io' : IoStage} (hcap : cfg.maxAssistantSentences = 0) (h : Uncapped cfg io j)
    (hgen : Generates cfg io a evs io') (hne : io' ≠ .returning) : Uncapped cfg io' (j.after io a evs) := by
  cases hgen with
  | @refused ctx lang =>
    obtain rfl : j = Job.start ctx.id lang := h
    exact ⟨[], (Said.start cfg ctx lang).silent rfl _ _, rfl⟩
  | @opened ctx lang =>
    obtain rfl : j = Job.start ctx.id lang := h
    exact ⟨(Said.start cfg ctx lang).silent rfl _ _, rfl⟩
  | @received g a =>
    obtain ⟨hsaid, hsplitter⟩ := h
    have hsilent : (j.after (.performing g) a []).Said g (j.pushed cfg).2 := hsaid.silent rfl _ _
    rw [Uncapped, pushed_kept rfl]
    exact ⟨{ hsilent with }, hsplitter⟩
  | skipped hc =>
    obtain ⟨hsaid, -⟩ := h
    exact absurd (hsaid.uncapped.symm.trans hc) (by simp)
  | @pushed g d ds ended hc =>
    obtain ⟨hsaid, hsplitter⟩ := h
    have hsilent : (j.after (.delivering g (d :: ds) ended) .advance []).Said g (j.pushed cfg).2 :=
      hsaid.silent rfl _ _
    refine ⟨(j.pushed cfg).2, { hsilent with }, ?_, ?_⟩
    · rw [pushed_delivered rfl, hsplitter]
    · rw [pushed_delivered rfl, hsplitter]
  | drained =>
    obtain ⟨hsaid, hsplitter⟩ := h
    rw [Uncapped, pushed_kept rfl]
    exact ⟨hsaid.silent rfl _ _, hsplitter⟩
  | @performed g =>
    obtain ⟨hsaid, hsplitter⟩ := h
    have hsilent : (j.after (.delivering g [] true) .advance []).Said g (j.pushed cfg).2 := hsaid.silent rfl _ _
    refine ⟨(j.pushed cfg).2, { hsilent with }, ?_⟩
    rw [split_eq_pushed, pushed_kept rfl, hsplitter]
  | @emitted g delta s ss deltas ended =>
    obtain ⟨texts, hsaid, hrest, hsplitter⟩ := h
    have hemit : g.emit 0 s = ⟨{ g with seq := g.seq + 1, capState := .none }, [g.sentence s], false⟩ :=
      Generation.emit_below s hsaid.uncapped (.inl rfl)
    rw [hcap, hemit]
    refine ⟨texts ++ [s], hsaid.say s _ _ rfl rfl hsaid.uncapped.symm rfl, ?_, ?_⟩
    · rw [pushed_kept rfl, ← hrest]
      simp
    · rw [pushed_kept rfl]
      exact hsplitter
  | @token g delta deltas ended =>
    obtain ⟨texts, hsaid, hrest, hsplitter⟩ := h
    rw [if_neg (by simp [hsaid.uncapped])]
    rw [List.append_nil] at hrest
    rw [Uncapped, pushed_kept rfl, ← hrest]
    exact ⟨hsaid.silent rfl _ _, hsplitter⟩
  | flushed =>
    obtain ⟨texts, hsaid, hrest⟩ := h
    refine ⟨texts ++ [_], hsaid.say _ _ _ rfl rfl rfl rfl, ?_⟩
    rw [split_eq_pushed, pushed_kept rfl, ← split_eq_pushed, ← hrest]
    simp
  | @stopped g s ss finish hb =>
    simp [Generation.atBackstop, capBackstop, hcap] at hb
  | ended => exact absurd rfl hne

lemma publishedSentences_finish (finish : Option LlmFinished) :
    publishedSentences (finish.toList.map .llmFinished) = [] := by
  cases finish <;> rfl

lemma Uncapped.ended {finish : Option LlmFinished} (h : Uncapped cfg (.flushing g [] finish) j) :
    publishedSentences (j.after (.flushing g [] finish) .advance (finish.toList.map .llmFinished)).events =
      numbered j.turn j.lang (SentenceSplitter.split cfg.sentenceSplitter j.deltas) := by
  obtain ⟨texts, hsaid, hrest⟩ := h
  rw [List.append_nil] at hrest
  rw [← hrest]
  exact (hsaid.silent (publishedSentences_finish finish) _ _).said

end Job

/-- The sentences of the finished jobs, whatever the cap is below the largest number. -/
lemma JobLog.finished_sentences (cfg : ManagerConfig) (contentOf : Text → Option Text)
    (hmax : cfg.maxAssistantSentences < 0xFFFFFFFF) (actions : List ManagerAction) :
    ∀ j ∈ (Runs.exec (JobLog.step cfg contentOf) {} actions).finished, publishedSentences j.events =
      numbered j.turn j.lang
        (underCap cfg.maxAssistantSentences (SentenceSplitter.split cfg.sentenceSplitter j.deltas)) := by
  by_cases hcap : cfg.maxAssistantSentences = 0
  · have hrecorded : (Runs.exec (JobLog.step cfg contentOf) {} actions).Recorded (Job.Uncapped cfg) fun j =>
        publishedSentences j.events =
          numbered j.turn j.lang (SentenceSplitter.split cfg.sentenceSplitter j.deltas) := by
      refine JobLog.recorded_exec (fun _ _ => rfl) (fun {io a evs io'} j hgen h => ?_) actions
      split
      · rename_i hret
        subst hret
        cases hgen with
        | ended => simpa [Job.after, IoStage.delivers] using h.ended
      · rename_i hne
        exact h.step hcap hgen hne
    intro j hj
    rw [underCap, if_pos hcap]
    exact hrecorded.finished j hj
  · have hpos : 0 < cfg.maxAssistantSentences := UInt32.pos_iff_ne_zero.mpr hcap
    have hrecorded : (Runs.exec (JobLog.step cfg contentOf) {} actions).Recorded
        (Job.UnderCap cfg) (Job.CutOff cfg) := by
      refine JobLog.recorded_exec (fun _ _ => rfl) (fun {io a evs io'} j hgen h => ?_) actions
      split
      · rename_i hret
        subst hret
        cases hgen with
        | ended => exact h.ended
      · rename_i hne
        exact h.step hpos hmax hgen hne
    intro j hj
    rw [underCap, if_neg hcap]
    exact (hrecorded.finished j hj).sentences

/-! ### The bytes of a stream -/

namespace SseParser

lemma feedAll_concat (p : SseParser) (chunks : List Text) (bytes : Text) :
    feedAll p (chunks ++ [bytes]) =
      (((feedAll p chunks).1.feed bytes).1, (feedAll p chunks).2 ++ ((feedAll p chunks).1.feed bytes).2) := by
  induction chunks generalizing p with
  | nil => simp [feedAll]
  | cons chunk chunks ih => simp [feedAll, ih]

end SseParser

lemma deltasOf_append (contentOf : Text → Option Text) (a b : List SseCallback) :
    deltasOf contentOf (a ++ b) = deltasOf contentOf a ++ deltasOf contentOf b := by
  simp [deltasOf, SseParser.payloads]

/-- The record of the jobs with what curl has handed to the parser: the chunks for the job that is going on, and those
of each finished job. -/
structure StreamLog where
  log : JobLog := {}
  fed : List Text := []
  done : List (Job × List Text) := []

namespace StreamLog

variable (cfg : ManagerConfig) (contentOf : Text → Option Text)

/-- A job starts without any chunk. -/
def fedFrom (io : IoStage) (fed : List Text) : List Text :=
  match io with
  | .submitting _ _ => []
  | _ => fed

/-- The chunks after an action. A chunk that comes once the token is cancelled is not parsed. -/
def fedAfter (s : StreamLog) (a : ManagerAction) : List Text :=
  match s.log.world.manager.io, a with
  | .performing g, .io (.read bytes) => if s.log.world.isCancelled g.ctx.token then s.fed else s.fed ++ [bytes]
  | io, _ => fedFrom io s.fed

def step (s : StreamLog) (a : ManagerAction) : StreamLog where
  log := s.log.step cfg contentOf a
  fed := s.fedAfter a
  done := s.done ++ ((s.log.step cfg contentOf a).finished.drop s.log.finished.length).map (·, s.fed)

variable {cfg contentOf}

/-- What the chunks have to do with a job, by stage: the deltas handed on, with those that are still to come of the
last chunk, are those of the chunks. -/
def Follows (contentOf : Text → Option Text) (fed : List Text) : IoStage → Job → Prop
  | .submitting _ _, j => j.deltas = []
  | .performing g, j =>
    g.parser = (SseParser.feedAll {} fed).1 ∧ j.deltas = deltasOf contentOf (SseParser.feedAll {} fed).2 ∧
      g.tokensGenerated = j.deltas.length
  | .delivering g ds ended, j | .emitting g _ _ ds ended, j =>
    (if ended then j.deltas ++ ds = deltasOf contentOf (SseParser.session fed)
      else g.parser = (SseParser.feedAll {} fed).1 ∧
        j.deltas ++ ds = deltasOf contentOf (SseParser.feedAll {} fed).2) ∧
      g.tokensGenerated = j.deltas.length
  | .flushing _ _ finish, j =>
    j.deltas = deltasOf contentOf (SseParser.session fed) ∧ ∀ f, finish = some f → f.tokensGenerated = j.deltas.length
  | _, _ => False

/-- A job has handed on the deltas of its chunks, and reports their number. -/
structure Carried (contentOf : Text → Option Text) (p : Job × List Text) : Prop where
  deltas : p.1.deltas = deltasOf contentOf (SseParser.session p.2)
  tokens : ∀ f, .llmFinished f ∈ p.1.events → f.tokensGenerated = p.1.deltas.length

/-- A job that is going on. -/
structure Streams (contentOf : Text → Option Text) (fed : List Text) (io : IoStage) (j : Job) : Prop where
  follows : Follows contentOf fed io j
  unfinished : ∀ f, .llmFinished f ∉ j.events

section Steps

variable {fed : List Text} {io io' : IoStage} {j : Job} {a : IoAction} {evs : List Event}

lemma Follows.fedFrom (h : Follows contentOf fed io j) : Follows contentOf (fedFrom io fed) io j := by
  cases io <;> exact h

lemma unfinished_after (h : ∀ f, .llmFinished f ∉ j.events) (hevs : ∀ f, .llmFinished f ∉ evs) (io : IoStage)
    (a : IoAction) (f : LlmFinished) : .llmFinished f ∉ (j.after io a evs).events := by
  intro hf
  rcases List.mem_append.mp hf with hf | hf
  · exact h f hf
  · exact hevs f hf

lemma emit_unfinished (cap : UInt32) (g : Generation) (s : Text) (f : LlmFinished) :
    .llmFinished f ∉ (g.emit cap s).said := by
  rcases emit_said cap g s with h | h <;> simp [h, Generation.sentence]

lemma parser_of_emit (cap : UInt32) (g : Generation) (s : Text) :
    (g.emit cap s).next.parser = g.parser ∧ (g.emit cap s).next.tokensGenerated = g.tokensGenerated := by
  unfold Generation.emit
  split
  · exact ⟨rfl, rfl⟩
  · split
    · exact ⟨rfl, rfl⟩
    · split <;> exact ⟨rfl, rfl⟩

lemma Streams.step (h : Streams contentOf fed io j) (hgen : Generates cfg io a evs io')
    (hreads : ∀ g, io ≠ .performing g) (hne : io' ≠ .returning) :
    Streams contentOf (fedFrom io fed) io' (j.after io a evs) := by
  obtain ⟨hfollows, hopen⟩ := h
  cases hgen with
  | refused | opened =>
    refine ⟨?_, unfinished_after hopen (by simp) _ _⟩
    have hdeltas : j.deltas = [] := hfollows
    simp [Follows, fedFrom, Job.after, IoStage.delivers, hdeltas, ManagerWorld.newGeneration, SseParser.feedAll,
      SseParser.session, SseParser.finish, deltasOf, SseParser.payloads]
  | received => exact absurd rfl (hreads _)
  | skipped | pushed =>
    refine ⟨?_, unfinished_after hopen (by simp) _ _⟩
    simpa [Follows, fedFrom, Job.after, IoStage.delivers] using hfollows
  | drained | performed =>
    refine ⟨?_, unfinished_after hopen (by simp) _ _⟩
    simpa [Follows, fedFrom, Job.after, IoStage.delivers, and_assoc] using hfollows
  | emitted =>
    refine ⟨?_, unfinished_after hopen (emit_unfinished _ _ _) _ _⟩
    simpa [Follows, fedFrom, Job.after, IoStage.delivers, parser_of_emit] using hfollows
  | token =>
    refine ⟨?_, unfinished_after hopen (fun f => by split <;> simp) _ _⟩
    simpa [Follows, fedFrom, Job.after, IoStage.delivers] using hfollows
  | flushed =>
    refine ⟨?_, unfinished_after hopen (by simp [Generation.sentence]) _ _⟩
    simpa [Follows, fedFrom, Job.after, IoStage.delivers] using hfollows
  | stopped =>
    refine ⟨?_, unfinished_after hopen (by simp) _ _⟩
    simpa [Follows, fedFrom, Job.after, IoStage.delivers] using hfollows
  | ended => exact absurd rfl hne

lemma Streams.ended (h : Streams contentOf fed io j) (hgen : Generates cfg io a evs .returning) :
    Carried contentOf (j.after io a evs, fed) := by
  obtain ⟨hfollows, hopen⟩ := h
  cases hgen with
  | ended =>
    rename_i g finish
    obtain ⟨hdeltas, htokens⟩ := hfollows
    refine ⟨by simpa [Job.after, IoStage.delivers] using hdeltas, fun f hf => ?_⟩
    rcases List.mem_append.mp hf with hf | hf
    · exact absurd hf (hopen f)
    · cases finish with
      | none => simp at hf
      | some f' =>
        obtain rfl : f = f' := by simpa using hf
        simpa [Job.after, IoStage.delivers] using htokens f rfl

lemma ioStep_performing (cfg : ManagerConfig) (contentOf : Text → Option Text) {w : ManagerWorld} {g : Generation}
    (hio : w.manager.io = .performing g) (a : IoAction) :
    (w.ioStep cfg contentOf a = w ∧ ∀ bytes, a ≠ .read bytes) ∨
      (∃ bytes, a = .read bytes ∧ w.isCancelled g.ctx.token = false ∧ w.ioStep cfg contentOf a =
        w.setIo (.delivering { g with parser := (g.parser.feed bytes).1 }
          (deltasOf contentOf (g.parser.feed bytes).2) false)) ∨
      ((∀ bytes, a = .read bytes → w.isCancelled g.ctx.token = true) ∧
        w.ioStep cfg contentOf a = w.endTransfer contentOf g) := by
  cases a with
  | read bytes =>
    cases hc : w.isCancelled g.ctx.token with
    | false => exact .inr (.inl ⟨bytes, rfl, rfl, by simp [ManagerWorld.ioStep, hio, ManagerWorld.curlWrite, hc]⟩)
    | true =>
      exact .inr (.inr ⟨fun _ _ => rfl, by simp [ManagerWorld.ioStep, hio, ManagerWorld.curlWrite, hc]⟩)
  | progress =>
    cases hc : w.isCancelled g.ctx.token with
    | false => exact .inl ⟨by simp [ManagerWorld.ioStep, hio, hc], fun _ hread => by cases hread⟩
    | true => exact .inr (.inr ⟨fun _ _ => rfl, by simp [ManagerWorld.ioStep, hio, hc]⟩)
  | transferEnd => exact .inr (.inr ⟨fun _ hread => (by cases hread), by simp [ManagerWorld.ioStep, hio]⟩)
  | advance | choose | curlInit => exact .inl ⟨by simp [ManagerWorld.ioStep, hio], fun _ hread => by cases hread⟩

end Steps

/-! ### Runs -/

/-- The job that is going on follows its chunks, and the finished ones have carried theirs. -/
structure Invariant (contentOf : Text → Option Text) (s : StreamLog) : Prop where
  current : ∀ c, s.log.world.manager.io.answering? = some c →
    ∃ j, s.log.current = some j ∧ Streams contentOf s.fed s.log.world.manager.io j
  idle : s.log.world.manager.io.answering? = none → s.log.current = none
  jobs : s.done.map Prod.fst = s.log.finished
  carried : ∀ p ∈ s.done, Carried contentOf p

variable {s : StreamLog}

lemma Invariant.of_unfinished (h : s.Invariant contentOf) {a : ManagerAction}
    (hfinished : (s.log.step cfg contentOf a).finished = s.log.finished)
    (hcurrent : ∀ c, (s.log.step cfg contentOf a).world.manager.io.answering? = some c →
      ∃ j, (s.log.step cfg contentOf a).current = some j ∧
        Streams contentOf (s.fedAfter a) (s.log.step cfg contentOf a).world.manager.io j)
    (hidle : (s.log.step cfg contentOf a).world.manager.io.answering? = none →
      (s.log.step cfg contentOf a).current = none) : (s.step cfg contentOf a).Invariant contentOf := by
  have hdone : (s.step cfg contentOf a).done = s.done := by
    simp [step, hfinished]
  exact ⟨hcurrent, hidle, by rw [hdone, h.jobs]; exact hfinished.symm, hdone.symm ▸ h.carried⟩

lemma Invariant.other (h : s.Invariant contentOf) {a : ManagerAction} (ha : ∀ b, a ≠ .io b)
    (hio : (s.log.step cfg contentOf a).world.manager.io = s.log.world.manager.io)
    (hlog : (s.log.step cfg contentOf a).current = s.log.current ∧
      (s.log.step cfg contentOf a).finished = s.log.finished) : (s.step cfg contentOf a).Invariant contentOf := by
  refine h.of_unfinished hlog.2 (fun c hc => ?_) (fun hnone => ?_)
  · rw [hio] at hc ⊢
    rw [hlog.1]
    obtain ⟨j, hj, hfollows, hopen⟩ := h.current c hc
    have hfed : s.fedAfter a = fedFrom s.log.world.manager.io s.fed := by
      unfold fedAfter
      split
      · rename_i bytes _ _
        exact absurd rfl (ha _)
      · rfl
    exact ⟨j, hj, hfed ▸ hfollows.fedFrom, hopen⟩
  · rw [hlog.1]
    exact h.idle (hio ▸ hnone)

lemma Invariant.performing (h : s.Invariant contentOf) {g : Generation} (hio : s.log.world.manager.io = .performing g)
    (a : IoAction) : (s.step cfg contentOf (.io a)).Invariant contentOf := by
  obtain ⟨j, hj, hstreams⟩ := h.current g.ctx (by simp [hio, IoStage.answering?])
  rw [hio] at hstreams
  obtain ⟨⟨hparser, hdeltas, htokens⟩, hopen⟩ := hstreams
  -- the log of a step to a new stage of the same job
  have hlog : ∀ g' ds ended, s.log.world.ioStep cfg contentOf a = s.log.world.setIo (.delivering g' ds ended) →
      s.log.step cfg contentOf (.io a) =
        { s.log with world := s.log.world.setIo (.delivering g' ds ended),
                     current := some (j.after (.performing g) a []) } := by
    intro g' ds ended hworld
    simp [JobLog.step, JobLog.ioStep, hworld, hio, hj]
  have hkept : (j.after (.performing g) a []).deltas = j.deltas ∧
    ∀ f, .llmFinished f ∉ (j.after (.performing g) a []).events :=
    ⟨by simp [Job.after, IoStage.delivers], unfinished_after hopen (by simp) _ _⟩
  rcases ioStep_performing cfg contentOf hio a with ⟨hsame, hno⟩ | ⟨bytes, rfl, hopenToken, hworld⟩ | ⟨hnone, hworld⟩
  · have hfed : s.fedAfter (.io a) = s.fed := by
      cases a with
      | read bytes => exact absurd rfl (hno bytes)
      | _ => simp [fedAfter, fedFrom, hio]
    have hstep : s.log.step cfg contentOf (.io a) =
        { s.log with current := some (j.after (.performing g) a []) } := by
      simp [JobLog.step, JobLog.ioStep, hsame, hio, hj]
    refine h.of_unfinished (by rw [hstep]) (fun c _ => ?_) (fun hnone => ?_)
    · rw [hstep, hfed]
      refine ⟨_, rfl, ?_, hkept.2⟩
      simp only [hio, Follows, hkept.1]
      exact ⟨hparser, hdeltas, htokens⟩
    · rw [hstep] at hnone
      simp [hio, IoStage.answering?] at hnone
  · have hfed : s.fedAfter (.io (.read bytes)) = s.fed ++ [bytes] := by simp [fedAfter, hio, hopenToken]
    have hstep := hlog _ _ _ hworld
    refine h.of_unfinished (by rw [hstep]) (fun c _ => ?_) (fun hnone => ?_)
    · rw [hstep, hfed]
      refine ⟨_, rfl, ?_, hkept.2⟩
      simp only [ManagerWorld.setIo_manager, Follows, hkept.1, Bool.false_eq_true, if_false,
        SseParser.feedAll_concat, deltasOf_append, ← hparser, ← hdeltas]
      exact ⟨⟨trivial, trivial⟩, htokens⟩
    · rw [hstep] at hnone
      simp [IoStage.answering?] at hnone
  · have hfed : s.fedAfter (.io a) = s.fed := by
      cases a with
      | read bytes => simp [fedAfter, hio, hnone bytes rfl]
      | _ => simp [fedAfter, fedFrom, hio]
    have hstep := hlog _ _ _ hworld
    refine h.of_unfinished (by rw [hstep]) (fun c _ => ?_) (fun hnone => ?_)
    · rw [hstep, hfed]
      refine ⟨_, rfl, ?_, hkept.2⟩
      simp only [ManagerWorld.setIo_manager, Follows, hkept.1, if_true, SseParser.session, deltasOf_append, ← hdeltas,
        ← hparser]
      exact ⟨trivial, htokens⟩
    · rw [hstep] at hnone
      simp [IoStage.answering?] at hnone

lemma Invariant.within (h : s.Invariant contentOf) {c : TurnContext}
    (hc : s.log.world.manager.io.answering? = some c) (hreads : ∀ g, s.log.world.manager.io ≠ .performing g)
    (a : IoAction) : (s.step cfg contentOf (.io a)).Invariant contentOf := by
  obtain ⟨j, hj, hstreams⟩ := h.current c hc
  have hfed : s.fedAfter (.io a) = fedFrom s.log.world.manager.io s.fed := by
    unfold fedAfter
    split
    · rename_i g _ hio _
      exact absurd hio (hreads g)
    · rfl
  rcases JobLog.ioStep_within cfg contentOf a hc hj with hsame | ⟨evs, hgen, -, hstep⟩
  · have hlog : s.log.step cfg contentOf (.io a) = s.log := hsame
    refine h.of_unfinished (by rw [hlog]) (fun c' _ => ?_) (fun hnone => ?_)
    · rw [hlog]
      exact ⟨j, hj, hfed ▸ hstreams.follows.fedFrom, hstreams.unfinished⟩
    · rw [hlog] at hnone
      exact absurd (hnone.symm.trans hc) (by simp)
  · have hlog : s.log.step cfg contentOf (.io a) = s.log.ioStep cfg contentOf a := rfl
    rcases JobLog.generates_target hgen with ⟨c', hc'⟩ | hret
    · have hne : (s.log.world.ioStep cfg contentOf a).manager.io ≠ .returning := by
        intro hio
        simp [hio, IoStage.answering?] at hc'
      rw [if_neg hne] at hstep
      refine h.of_unfinished (by rw [hlog, hstep]) (fun _ _ => ?_) (fun hnone => ?_)
      · rw [hlog, hstep]
        exact ⟨_, rfl, hfed ▸ hstreams.step hgen hreads hne⟩
      · rw [hlog, hstep] at hnone
        exact absurd (hnone.symm.trans hc') (by simp)
    · rw [if_pos hret] at hstep
      have hdone : (s.step cfg contentOf (.io a)).done =
          s.done ++ [(j.after s.log.world.manager.io a evs, s.fed)] := by
        simp [StreamLog.step, hlog, hstep]
      refine ⟨fun c' hc' => ?_, fun _ => ?_, ?_, fun p hp => ?_⟩
      · have hio : (s.log.world.ioStep cfg contentOf a).manager.io.answering? = some c' := by
          simpa [StreamLog.step, hlog] using hc'
        simp [hret, IoStage.answering?] at hio
      · simp [StreamLog.step, hlog, hstep]
      · rw [hdone, List.map_append, h.jobs]
        simp [StreamLog.step, hlog, hstep]
      · rw [hdone] at hp
        rcases List.mem_append.mp hp with hp | hp
        · exact h.carried p hp
        · rw [List.mem_singleton.mp hp]
          rw [hret] at hgen
          exact hstreams.ended hgen

lemma Invariant.between (h : s.Invariant contentOf) (hidle : s.log.world.manager.io.answering? = none) (a : IoAction) :
    (s.step cfg contentOf (.io a)).Invariant contentOf := by
  rcases JobLog.ioStep_between cfg contentOf a hidle (h.idle hidle) with ⟨hl, hio, -⟩ | ⟨ctx, lang, hl, hio, -⟩
  · have hlog : s.log.step cfg contentOf (.io a) = { s.log with world := s.log.world.ioStep cfg contentOf a } := hl
    refine h.of_unfinished (by rw [hlog]) (fun c hc => ?_) (fun _ => ?_)
    · rw [hlog] at hc
      exact absurd (hio.symm.trans hc) (by simp)
    · rw [hlog]
      exact h.idle hidle
  · have hlog : s.log.step cfg contentOf (.io a) = { s.log with
        world := s.log.world.ioStep cfg contentOf a, current := some (Job.start ctx.id lang) } := hl
    refine h.of_unfinished (by rw [hlog]) (fun c _ => ?_) (fun hnone => ?_)
    · rw [hlog]
      refine ⟨_, rfl, ?_, by simp [Job.start]⟩
      simp only [hio, Follows, Job.start]
    · rw [hlog] at hnone
      simp [hio, IoStage.answering?] at hnone

lemma Invariant.step (h : s.Invariant contentOf) (a : ManagerAction) :
    (s.step cfg contentOf a).Invariant contentOf := by
  cases a with
  | bus now gateOpen e =>
    exact h.other nofun (ManagerWorld.onEvent_effect cfg s.log.world now gateOpen e).1 ⟨rfl, rfl⟩
  | mint now => exact h.other nofun rfl ⟨rfl, rfl⟩
  | io a =>
    cases hc : s.log.world.manager.io.answering? with
    | none => exact h.between hc a
    | some c =>
      by_cases hreads : ∃ g, s.log.world.manager.io = .performing g
      · obtain ⟨g, hio⟩ := hreads
        exact h.performing hio a
      · exact h.within hc (fun g hio => hreads ⟨g, hio⟩) a

lemma log_exec (actions : List ManagerAction) :
    (Runs.exec (step cfg contentOf) {} actions).log = Runs.exec (JobLog.step cfg contentOf) {} actions := by
  suffices h : ∀ s : StreamLog, (Runs.exec (step cfg contentOf) s actions).log =
      Runs.exec (JobLog.step cfg contentOf) s.log actions from h {}
  induction actions with
  | nil => exact fun _ => rfl
  | cons a actions ih => exact fun s => ih (s.step cfg contentOf a)

/-- However the transfer is cut into chunks and wherever it is broken off, a finished job has published, in order and
numbered from zero, the first sentences, up to the cap, of the deltas in the bytes that were parsed. It reports the
number of those deltas. -/
theorem answer_of_stream (cfg : ManagerConfig) (contentOf : Text → Option Text)
    (hmax : cfg.maxAssistantSentences < 0xFFFFFFFF) (actions : List ManagerAction) :
    let s := Runs.exec (step cfg contentOf) {} actions
    s.done.map Prod.fst = (Runs.exec (JobLog.step cfg contentOf) {} actions).finished ∧
      ∀ p ∈ s.done, ∀ deltas, deltas = deltasOf contentOf (SseParser.session [p.2.flatten]) →
        publishedSentences p.1.events = numbered p.1.turn p.1.lang
          (underCap cfg.maxAssistantSentences (SentenceSplitter.split cfg.sentenceSplitter deltas)) ∧
        ∀ f, .llmFinished f ∈ p.1.events → f.tokensGenerated = deltas.length := by
  intro s
  have hinv : s.Invariant contentOf := by
    refine Runs.exec_invariant (Invariant contentOf) (fun s a h => h.step a) ?_ actions
    exact ⟨fun c hc => by simp [IoStage.answering?] at hc, fun _ => rfl, rfl, by simp⟩
  have hlog : s.log = Runs.exec (JobLog.step cfg contentOf) {} actions := log_exec actions
  refine ⟨hlog ▸ hinv.jobs, ?_⟩
  rintro p hp deltas rfl
  have hcarried := hinv.carried p hp
  have hsession : SseParser.session [p.2.flatten] = SseParser.session p.2 := by
    rw [SseParser.session_eq, SseParser.session_eq, List.flatten_singleton]
  rw [hsession, ← hcarried.deltas]
  have hfinished : p.1 ∈ (Runs.exec (JobLog.step cfg contentOf) {} actions).finished :=
    hlog ▸ hinv.jobs ▸ List.mem_map_of_mem hp
  exact ⟨JobLog.finished_sentences cfg contentOf hmax actions p.1 hfinished, hcarried.tokens⟩

/-- A stream in two chunks, the first of which ends inside an event. -/
theorem two_chunks_one_answer :
    let s := Runs.exec (step {} some) {}
      [.bus 0 true (.finalTranscript { turn := 5, text := ascii "hello" }), .io .advance, .io (.choose 5 0),
        .io .advance,
       .io .advance, .io (.curlInit true), .io (.read (ascii "data: First. Sec")), .io .advance,
       .io (.read (ascii "ond.\n\n")), .io .advance, .io .advance, .io .advance, .io .advance, .io .transferEnd,
       .io .advance, .io .advance, .io .advance, .io .advance]
    (∀ p ∈ s.done, ∀ deltas, deltas = deltasOf some (SseParser.session [p.2.flatten]) →
      publishedSentences p.1.events =
        numbered p.1.turn p.1.lang (underCap 6 (SentenceSplitter.split {} deltas)) ∧
      ∀ f, .llmFinished f ∈ p.1.events → f.tokensGenerated = deltas.length) ∧
      s.done.map (fun p => (p.2.length, (publishedSentences p.1.events).map (·.text))) =
        [(2, [ascii "First.", ascii "Second."])] :=
  ⟨(answer_of_stream {} some (by decide) _).2, by decide +kernel⟩

end StreamLog

end Acva
