import Acva.Dialogue.TtsBridge

/-!
# Whose tokens the bridge cancels

Every sentence carries the token of its turn, and no two turns share one. An interruption therefore
reaches the named turn through its entry in the map, and any other turn only through the sentence in
flight.
-/

namespace Acva

namespace TtsBridge

/-- The sentence waits to be synthesized or the I/O thread works on it. -/
def Holds (b : TtsBridge) (j : TtsJob) : Prop := j ∈ b.pending ∨ b.io.job? = some j

/-- A token in the map belongs to one turn, and the sentences that carry it are of that turn. -/
structure Owned (b : TtsBridge) : Prop where
  allocated : ∀ j, b.Holds j → j.cancel < b.heap.next
  mapped : ∀ t x, b.tokens t = some x → x < b.heap.next
  owner : ∀ j t, b.Holds j → b.tokens t = some j.cancel → j.sentence.turn = t
  distinct : ∀ t u x, b.tokens t = some x → b.tokens u = some x → t = u

variable {b b' : TtsBridge}

/-- A change that neither adds a sentence nor a token. -/
lemma Owned.mono (h : b.Owned) (hjobs : ∀ j, b'.Holds j → b.Holds j)
    (htokens : ∀ t x, b'.tokens t = some x → b.tokens t = some x) (hnext : b'.heap.next = b.heap.next) :
    b'.Owned :=
  ⟨fun j hj => hnext ▸ h.allocated j (hjobs j hj), fun t x hx => hnext ▸ h.mapped t x (htokens t x hx),
    fun j t hj ht => h.owner j t (hjobs j hj) (htokens t _ ht),
    fun t u x ht hu => h.distinct t u x (htokens t x ht) (htokens u x hu)⟩

lemma Owned.io (h : b.Owned) (he : IoEffect b b') : b'.Owned := by
  refine h.mono (fun j hj => ?_) (fun t x hx => he.tokens ▸ hx) (by rw [he.heap])
  rcases hj with hj | hj
  · exact .inl (he.pending j hj)
  · rcases he.job j hj with ⟨hold, _⟩ | ⟨_, hnew, _⟩
    · exact .inr hold
    · exact .inl (List.mem_of_mem_head? hnew)

lemma newToken_tokens (b : TtsBridge) (turn t : TurnId) :
    (b.newToken turn).tokens t = if t = turn then some b.heap.next else b.tokens t := rfl

lemma Owned.newToken (h : b.Owned) (turn : TurnId) : (b.newToken turn).Owned := by
  have hnext : (b.newToken turn).heap.next = b.heap.next + 1 := rfl
  have hlt : ∀ t x, (b.newToken turn).tokens t = some x → t = turn ∧ x = b.heap.next ∨ b.tokens t = some x := by
    intro t x hx
    rw [newToken_tokens] at hx
    by_cases ht : t = turn
    · rw [if_pos ht] at hx
      exact .inl ⟨ht, (Option.some.inj hx).symm⟩
    · rw [if_neg ht] at hx
      exact .inr hx
  refine ⟨fun j hj => ?_, fun t x hx => ?_, fun j t hj ht => ?_, fun t u x ht hu => ?_⟩
  · exact hnext ▸ Nat.lt_succ_of_lt (h.allocated j hj)
  · rw [hnext]
    rcases hlt t x hx with ⟨_, rfl⟩ | hx
    · exact Nat.lt_succ_self _
    · exact Nat.lt_succ_of_lt (h.mapped t x hx)
  · rcases hlt t _ ht with ⟨_, heq⟩ | ht
    · exact absurd heq (Nat.ne_of_lt (h.allocated j hj))
    · exact h.owner j t hj ht
  · rcases hlt t x ht with ⟨htt, hx⟩ | ht'
    · rcases hlt u x hu with ⟨huu, _⟩ | hu'
      · exact htt.trans huu.symm
      · exact absurd hx (Nat.ne_of_lt (h.mapped u x hu'))
    · rcases hlt u x hu with ⟨_, hx⟩ | hu'
      · exact absurd hx (Nat.ne_of_lt (h.mapped t x ht'))
      · exact h.distinct t u x ht' hu'

lemma Owned.tokenFor (h : b.Owned) (turn : TurnId) :
    (b.tokenFor turn).1.Owned ∧ (b.tokenFor turn).1.tokens turn = some (b.tokenFor turn).2 := by
  unfold TtsBridge.tokenFor
  split
  · rename_i r hr
    exact ⟨h, hr⟩
  · exact ⟨h.newToken turn, by simp [newToken_tokens]⟩

lemma Owned.onLlmSentence (h : b.Owned) (e : LlmSentence) : (b.onLlmSentence e).Owned := by
  obtain ⟨hmint, htoken⟩ := h.tokenFor e.turn
  simp only [TtsBridge.onLlmSentence]
  split
  · exact hmint.mono (fun j hj => hj) (fun t x hx => hx) rfl
  · have hjobs : ∀ j, ({ (b.tokenFor e.turn).1 with
        pending := (b.tokenFor e.turn).1.pending ++ [{ sentence := e, cancel := (b.tokenFor e.turn).2 }] }
          : TtsBridge).Holds j →
        (b.tokenFor e.turn).1.Holds j ∨ j = { sentence := e, cancel := (b.tokenFor e.turn).2 } := by
      rintro j (hj | hj)
      · rcases List.mem_append.mp hj with hj | hj
        · exact .inl (.inl hj)
        · exact .inr (List.mem_singleton.mp hj)
      · exact .inl (.inr hj)
    refine ⟨fun j hj => ?_, hmint.mapped, fun j t hj ht => ?_, hmint.distinct⟩
    · rcases hjobs j hj with hj | rfl
      · exact hmint.allocated j hj
      · exact hmint.mapped e.turn _ htoken
    · rcases hjobs j hj with hj | rfl
      · exact hmint.owner j t hj ht
      · exact hmint.distinct e.turn t _ htoken ht

lemma Owned.onUserInterrupted (h : b.Owned) (e : UserInterrupted) : (b.onUserInterrupted e).Owned := by
  unfold TtsBridge.onUserInterrupted
  split
  · refine h.mono (fun j hj => ?_) (fun t x hx => hx) rfl
    exact hj.imp (fun hj => (List.mem_filter.mp hj).1) id
  · refine (h.newToken e.turn).mono (fun j hj => ?_) (fun t x hx => hx) rfl
    exact hj.imp (fun hj => (List.mem_filter.mp hj).1) id

lemma Owned.onEvent (h : b.Owned) (e : Event) : (b.onEvent e).Owned := by
  unfold TtsBridge.onEvent
  split
  · exact h.newToken _
  · exact h.onLlmSentence _
  · rename_i e _
    refine h.mono (fun j hj => hj) (fun t x hx => ?_) rfl
    simp only [onLlmFinished, setToken] at hx
    split at hx
    · cases hx
    · exact hx
  · exact h.onUserInterrupted _
  · exact h

lemma Owned.busAdvance (h : b.Owned) : b.busAdvance.Owned := by
  unfold TtsBridge.busAdvance
  split
  · exact h
  · exact h.mono (fun j hj => hj) (fun t x hx => hx) rfl
  · exact h.mono (fun j hj => hj) (fun t x hx => hx) rfl

lemma Owned.step (h : b.Owned) (deviceRate : UInt32) (a : TtsAction) : (b.step deviceRate a).Owned := by
  cases a with
  | bus e => exact h.onEvent e
  | busAdvance => exact h.busAdvance
  | io a => exact h.io (ioStep_effect deviceRate b a)
  | dequeue active => exact h.mono (fun j hj => hj) (fun t x hx => hx) rfl

/-! ### An interruption handled to its end -/

/-- The bus thread goes on until `on_user_interrupted` returns. -/
def settle : Nat → TtsBridge → TtsBridge
  | 0, b => b
  | n + 1, b => settle n b.busAdvance

/-- `on_user_interrupted` without a step of the I/O thread in between. -/
def interrupt (b : TtsBridge) (e : UserInterrupted) : TtsBridge :=
  match (b.onEvent (.userInterrupted e)).bus with
  | .idle => b.onEvent (.userInterrupted e)
  | .cancelling _ due => settle (due.length + 1) (b.onEvent (.userInterrupted e))

lemma settle_spec {turn : TurnId} (due : List TokenRef) (hbus : b.bus = .cancelling turn due) :
    (settle (due.length + 1) b).bus = .idle ∧ (settle (due.length + 1) b).pending = b.pending ∧
      (settle (due.length + 1) b).queue.q = [] ∧
      ∀ x, (settle (due.length + 1) b).heap.isCancelled x ↔ b.heap.isCancelled x ∨ x ∈ due := by
  induction due generalizing b with
  | nil => simp [settle, TtsBridge.busAdvance, hbus, PlaybackQueue.clear]
  | cons r rs ih =>
    have hnext : b.busAdvance.bus = .cancelling turn rs := by simp [TtsBridge.busAdvance, hbus]
    obtain ⟨hidle, hpending, hqueue, hheap⟩ := ih hnext
    refine ⟨hidle, ?_, hqueue, fun x => ?_⟩
    · exact hpending.trans (by simp [TtsBridge.busAdvance, hbus])
    · have hcancel : b.busAdvance.heap = b.heap.cancel r := by simp [TtsBridge.busAdvance, hbus]
      refine (hheap x).trans ?_
      simp only [hcancel, TokenHeap.isCancelled_cancel, Bool.or_eq_true, decide_eq_true_eq, List.mem_cons]
      tauto

/-- What an interruption leaves: the other turns' pending sentences, an empty queue, and the cancelled
tokens of the named turn and of the sentence in flight. -/
theorem interrupt_spec (b : TtsBridge) (hidle : b.bus = .idle) (e : UserInterrupted) :
    (b.interrupt e).pending = (b.pending.filter fun j => j.sentence.turn ≠ e.turn) ∧
      (b.interrupt e).queue.q = [] ∧
      ∀ x < b.heap.next, (b.interrupt e).heap.isCancelled x ↔
        b.heap.isCancelled x ∨ b.tokens e.turn = some x ∨ b.inFlight = some x := by
  have hevent : b.onEvent (.userInterrupted e) = b.onUserInterrupted e := by simp [TtsBridge.onEvent, hidle]
  cases htoken : b.tokens e.turn with
  | some r =>
    have hbus : (b.onUserInterrupted e).bus = .cancelling e.turn (r :: b.inFlight.toList) := by
      simp [TtsBridge.onUserInterrupted, htoken]
    obtain ⟨_, hpending, hqueue, hheap⟩ := settle_spec _ hbus
    simp only [interrupt, hevent, hbus]
    refine ⟨hpending.trans (by simp [TtsBridge.onUserInterrupted, htoken]), hqueue, fun x _ => ?_⟩
    have hsame : (b.onUserInterrupted e).heap = b.heap := by simp [TtsBridge.onUserInterrupted, htoken]
    rw [hheap, hsame]
    simp only [List.mem_cons, Option.mem_toList, Option.some.injEq, @eq_comm _ x r]
  | none =>
    have hbus : (b.onUserInterrupted e).bus = .cancelling e.turn b.inFlight.toList := by
      simp [TtsBridge.onUserInterrupted, htoken]
    obtain ⟨_, hpending, hqueue, hheap⟩ := settle_spec _ hbus
    simp only [interrupt, hevent, hbus]
    refine ⟨hpending.trans (by simp [TtsBridge.onUserInterrupted, htoken, TtsBridge.newToken, setToken]), hqueue,
      fun x hx => ?_⟩
    rw [hheap]
    simp [TtsBridge.onUserInterrupted, htoken, TtsBridge.newToken, setToken, Nat.ne_of_lt hx]

end TtsBridge

end Acva
