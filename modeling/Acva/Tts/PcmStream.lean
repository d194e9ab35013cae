import Acva.Lib.Pcm
import Mathlib.Data.List.GetD

/-!
# The audio of a speech request

`curl_write` gets the bytes of the response as the network delivers them, and hands on whole samples.
-/

namespace Acva

namespace OpenAiTts

/-- What a request calls. -/
inductive Call
  | onFormat (sampleRate : Int)
  | onAudio (samples : List Int16)
  deriving DecidableEq, Repr

/-- The callbacks that are set. -/
structure TtsCallbacks where
  onFormat : Bool := true
  onAudio : Bool := true
  deriving DecidableEq, Repr

structure WriteCtx where
  cb : TtsCallbacks := {}
  formatAnnounced : Bool := false
  sampleRate : Int := 22050
  hasCarry : Bool := false
  carryByte : UInt8 := 0
  deriving DecidableEq, Repr

/-- The number of bytes taken, the calls, and the context after them. -/
def curlWrite (ctx : WriteCtx) (isCancelled : Bool) (ptr : List UInt8) : Nat × List Call × WriteCtx :=
  if isCancelled then (0, [], ctx)
  else if ptr.length = 0 then (0, [], ctx)
  else
    let format := if !ctx.formatAnnounced && ctx.cb.onFormat then [.onFormat ctx.sampleRate] else []
    let ctx := { ctx with formatAnnounced := true }
    let one := if ctx.hasCarry && ctx.cb.onAudio then [.onAudio [Pcm.sample ctx.carryByte (ptr.headD 0)]] else []
    let consumed := if ctx.hasCarry then 1 else 0
    let rem := ptr.length - consumed
    let pairs := rem / 2
    let view :=
      if 0 < pairs ∧ ctx.cb.onAudio then [.onAudio (Pcm.decode ((ptr.drop consumed).take (2 * pairs)))] else []
    (ptr.length, format ++ one ++ view,
      if rem % 2 = 1 then { ctx with carryByte := ptr.getD (consumed + pairs * 2) 0, hasCarry := true }
      else { ctx with hasCarry := false })

/-- The calls of a request that is not cancelled. -/
def transfer (ctx : WriteCtx) : List (List UInt8) → List Call
  | [] => []
  | ptr :: rest => (curlWrite ctx false ptr).2.1 ++ transfer (curlWrite ctx false ptr).2.2 rest

def samples (calls : List Call) : List Int16 :=
  calls.flatMap fun
    | .onFormat _ => []
    | .onAudio samples => samples

/-- The byte that waits for its second half. -/
def WriteCtx.carry (ctx : WriteCtx) : List UInt8 := if ctx.hasCarry then [ctx.carryByte] else []

/-- The callbacks are set, and the format has been announced. -/
structure WriteCtx.Announced (ctx : WriteCtx) : Prop where
  onAudio : ctx.cb.onAudio = true
  formatAnnounced : ctx.formatAnnounced = true

lemma samples_append (a b : List Call) : samples (a ++ b) = samples a ++ samples b := List.flatMap_append

lemma samples_view {onAudio : Bool} (h : onAudio = true) (rest : List UInt8) :
    samples (if 0 < rest.length / 2 ∧ onAudio then
      [.onAudio (Pcm.decode (rest.take (2 * (rest.length / 2))))] else []) =
      Pcm.decode rest := by
  split
  · rw [Pcm.decode_take]
    exact List.append_nil _
  · rename_i hnone
    have hzero : rest.length / 2 = 0 := by
      by_contra hpos
      exact hnone ⟨Nat.pos_of_ne_zero hpos, h⟩
    rw [← Pcm.decode_take, hzero]
    rfl

lemma drop_pairs (rest : List UInt8) : rest.drop (2 * (rest.length / 2)) =
    if rest.length % 2 = 1 then [rest.getD (rest.length / 2 * 2) 0] else [] := by
  split
  · rename_i hodd
    have hlt : rest.length / 2 * 2 < rest.length := by omega
    rw [Nat.mul_comm, List.drop_eq_getElem_cons hlt, List.drop_eq_nil_of_le (by omega), List.getD_eq_getElem _ _ hlt]
  · rename_i heven
    exact List.drop_eq_nil_of_le (by omega)

lemma drop_pairs_carry (carry b : UInt8) (tail : List UInt8) :
    ([carry] ++ b :: tail).drop (2 * (([carry] ++ b :: tail).length / 2)) = tail.drop (2 * (tail.length / 2)) := by
  have hlen : 2 * (([carry] ++ b :: tail).length / 2) = 2 * (tail.length / 2) + 1 + 1 := by
    simp only [List.length_append, List.length_cons, List.length_nil]
    omega
  rw [hlen]
  rfl

/-- A call hands on the samples that the bytes so far complete, and keeps a byte that is left. -/
lemma curlWrite_of_ne_nil {ctx : WriteCtx} (haudio : ctx.cb.onAudio = true) {ptr : List UInt8} (hptr : ptr ≠ []) :
    (curlWrite ctx false ptr).1 = ptr.length ∧
      samples (curlWrite ctx false ptr).2.1 = Pcm.decode (ctx.carry ++ ptr) ∧
      (curlWrite ctx false ptr).2.2.carry = (ctx.carry ++ ptr).drop (2 * ((ctx.carry ++ ptr).length / 2)) ∧
      (curlWrite ctx false ptr).2.2.Announced := by
  have hformat : samples (if !ctx.formatAnnounced && ctx.cb.onFormat then [.onFormat ctx.sampleRate] else []) = [] := by
    split <;> rfl
  have hlength : ptr.length ≠ 0 := fun h => hptr (List.length_eq_zero_iff.mp h)
  cases hcarry : ctx.hasCarry with
  | false =>
    have hview := samples_view haudio ptr
    simp only [curlWrite, hlength, Bool.false_eq_true, if_false, hcarry, Bool.false_and, samples_append, hformat,
      List.drop_zero, Nat.sub_zero, List.nil_append, WriteCtx.carry, Nat.zero_add]
    refine ⟨trivial, hview, ?_, ?_⟩
    · rw [drop_pairs]
      split <;> rfl
    · split <;> exact ⟨haudio, rfl⟩
  | true =>
    have hview := samples_view haudio (ptr.drop 1)
    simp only [curlWrite, hlength, Bool.false_eq_true, if_false, hcarry, haudio, Bool.and_self, if_true,
      samples_append, hformat, List.nil_append, WriteCtx.carry, List.length_drop] at hview ⊢
    obtain ⟨b, tail, rfl⟩ := List.exists_cons_of_ne_nil hptr
    refine ⟨trivial, ?_, ?_, ?_⟩
    · rw [hview]
      rfl
    · rw [drop_pairs_carry, drop_pairs, List.length_cons, Nat.add_sub_cancel, Nat.add_comm 1]
      split <;> rfl
    · split <;> exact ⟨haudio, rfl⟩

lemma curlWrite_of_announced {ctx : WriteCtx} (h : ctx.Announced) (ptr : List UInt8) :
    ∀ rate, .onFormat rate ∉ (curlWrite ctx false ptr).2.1 := by
  intro rate
  unfold curlWrite
  split
  · exact List.not_mem_nil
  · split
    · exact List.not_mem_nil
    · simp only [h.formatAnnounced, Bool.not_true, Bool.false_and, Bool.false_eq_true, if_false, List.nil_append,
        List.mem_append, not_or]
      refine ⟨?_, ?_⟩
      · split <;> simp
      · split <;> simp

lemma transfer_of_announced {ctx : WriteCtx} (h : ctx.Announced) {chunks : List (List UInt8)}
    (hchunks : ∀ ptr ∈ chunks, ptr ≠ []) :
    samples (transfer ctx chunks) = Pcm.decode (ctx.carry ++ chunks.flatten) ∧
      ∀ rate, .onFormat rate ∉ transfer ctx chunks := by
  induction chunks generalizing ctx with
  | nil =>
    refine ⟨?_, fun rate => List.not_mem_nil⟩
    unfold WriteCtx.carry
    split <;> rfl
  | cons ptr chunks ih =>
    obtain ⟨-, hsamples, hcarry, hnext⟩ := curlWrite_of_ne_nil h.onAudio (hchunks ptr List.mem_cons_self)
    obtain ⟨hrest, hformat⟩ := ih hnext fun c hc => hchunks c (List.mem_cons_of_mem ptr hc)
    refine ⟨?_, ?_⟩
    · rw [transfer, samples_append, hsamples, hrest, hcarry, List.flatten_cons, ← List.append_assoc,
        Pcm.decode_append_carry (ctx.carry ++ ptr)]
    · intro rate
      rw [transfer, List.mem_append, not_or]
      exact ⟨curlWrite_of_announced h ptr rate, hformat rate⟩

/-- The first call of a request announces the format and then does as a later one would. -/
lemma curlWrite_first {ptr : List UInt8} (hptr : ptr ≠ []) :
    (curlWrite {} false ptr).2.1 = .onFormat 22050 :: (curlWrite { formatAnnounced := true } false ptr).2.1 ∧
      (curlWrite {} false ptr).2.2 = (curlWrite { formatAnnounced := true } false ptr).2.2 := by
  have hlength : ptr.length ≠ 0 := fun h => hptr (List.length_eq_zero_iff.mp h)
  simp [curlWrite, hlength]

/-- However a stream is cut into calls: without a byte nothing is called. With one the format is announced first and
once, and the samples are those of the stream. -/
theorem transfer_eq {stream : List UInt8} {chunks : List (List UInt8)} (hsplit : chunks.flatten = stream)
    (hchunks : ∀ ptr ∈ chunks, ptr ≠ []) :
    (stream = [] → transfer {} chunks = []) ∧
    (stream ≠ [] → ∃ calls, transfer {} chunks = .onFormat 22050 :: calls ∧ (∀ rate, .onFormat rate ∉ calls) ∧
      samples calls = Pcm.decode (stream.take (2 * (stream.length / 2)))) := by
  cases chunks with
  | nil =>
    refine ⟨fun _ => rfl, fun hne => absurd hsplit.symm hne⟩
  | cons ptr chunks =>
    have hptr := hchunks ptr List.mem_cons_self
    have hlater : WriteCtx.Announced { formatAnnounced := true } := ⟨rfl, rfl⟩
    obtain ⟨hsamples, hformat⟩ := transfer_of_announced hlater hchunks
    refine ⟨fun hnil => ?_, fun _ => ?_⟩
    · rw [hnil, List.flatten_cons, List.append_eq_nil_iff] at hsplit
      exact absurd hsplit.1 hptr
    · obtain ⟨hcalls, hnext⟩ := curlWrite_first hptr
      refine ⟨transfer { formatAnnounced := true } (ptr :: chunks), ?_, hformat, ?_⟩
      · rw [transfer, transfer, hcalls, hnext]
        rfl
      · rw [hsamples, Pcm.decode_take, hsplit]
        rfl

theorem transfer_eq_bytes : ∃ calls, transfer {} [[1], [2, 3], [4, 5]] = .onFormat 22050 :: calls ∧
    (∀ rate, .onFormat rate ∉ calls) ∧ samples calls = Pcm.decode [1, 2, 3, 4] := by
  have hsplit : [[1], [2, 3], [4, 5]].flatten = ([1, 2, 3, 4, 5] : List UInt8) := rfl
  exact (transfer_eq hsplit (by decide)).2 (by decide)

/-- No byte, no format. -/
theorem empty_stream_not_announced : ¬∀ (stream : List UInt8) (chunks : List (List UInt8)), chunks.flatten = stream →
    (∀ ptr ∈ chunks, ptr ≠ []) → ∃ calls, transfer {} chunks = .onFormat 22050 :: calls ∧
      (∀ rate, .onFormat rate ∉ calls) ∧ samples calls = Pcm.decode (stream.take (2 * (stream.length / 2))) := by
  intro h
  obtain ⟨calls, hcalls, -⟩ := h [] [] rfl (by simp)
  cases hcalls

end OpenAiTts

end Acva
