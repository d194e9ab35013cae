import Acva.Lib.Runs
import Acva.Playback.Engine

/-!
# Whose audio is heard

`sources` follows the loop of `render_into` and keeps, with every sample it copies, the turn of the chunk
the sample comes from. The turn is compared with the active one when a chunk is taken from the queue, so
what is left of a chunk under the cursor is played whatever turn is active by then.
-/

namespace Acva

namespace PlaybackEngine

/-- The samples that the loop of `render_into` copies, each with the turn of its chunk. -/
def sources (active : TurnId) : Nat → PlaybackEngine → Nat → List (Int16 × TurnId)
  | _, _, 0 => []
  | 0, _, _ + 1 => []
  | fuel + 1, e, rem + 1 =>
    let n := e.next active (rem + 1)
    if n.2 then
      (n.1.block (rem + 1)).map (·, n.1.current.turn) ++
        sources active fuel (n.1.advance (rem + 1)) (rem + 1 - (n.1.block (rem + 1)).length)
    else []

lemma renderLoop_samples (active : TurnId) (fuel : Nat) (e : PlaybackEngine) (rem : Nat) :
    (renderLoop active fuel e rem).2.1 = (sources active fuel e rem).map Prod.fst := by
  induction fuel generalizing e rem with
  | zero => cases rem <;> rfl
  | succ fuel ih =>
    cases rem with
    | zero => rfl
    | succ rem =>
      unfold renderLoop sources
      by_cases hnext : (e.next active (rem + 1)).2 = true
      · simp only [if_pos hnext]
        rw [ih, List.map_append, List.map_map]
        congr 1
        exact (List.map_id _).symm
      · simp only [if_neg hnext, List.map_nil]

/-- The samples of one call of `render_into`. -/
def callSources (e : PlaybackEngine) (active : TurnId) (frames : Nat) : List (Int16 × TurnId) :=
  sources active (frames + e.queue.q.length + 1) e frames

lemma renderInto_output (e : PlaybackEngine) (active : TurnId) (frames : Nat) :
    ∃ silence : Nat, (e.renderInto active frames).2 =
      (e.callSources active frames).map Prod.fst ++ List.replicate silence 0 := by
  unfold renderInto callSources
  simp only
  rw [renderLoop_samples]
  split
  · exact ⟨0, (List.append_nil _).symm⟩
  · exact ⟨_, rfl⟩

/-- What is left under the cursor is of the active turn. -/
def CursorActive (e : PlaybackEngine) (active : TurnId) : Prop :=
  e.exhausted = true ∨ e.current.turn = active

instance (e : PlaybackEngine) (active : TurnId) : Decidable (e.CursorActive active) :=
  inferInstanceAs (Decidable (_ ∨ _))

lemma refill_turn {e : PlaybackEngine} {active : TurnId} {rem : Nat} (h : (e.refill active rem).2 = true) :
    (e.refill active rem).1.current.turn = active := by
  unfold refill at h ⊢
  by_cases hgated : e.gated active = true
  · rw [if_pos hgated] at h
    cases h
  · rw [if_neg hgated] at h ⊢
    cases hdequeue : (e.prime active).queue.dequeueActive active with
    | mk q chunk =>
      rw [hdequeue] at h
      cases chunk with
      | none => cases h
      | some c =>
        have hchunk : ((e.prime active).queue.dequeueActive active).2 = some c := by rw [hdequeue]
        exact PlaybackQueue.turn_of_dequeueActive hchunk

/-- The chunk that the loop copies from is of the active turn, unless it was under the cursor before. -/
lemma CursorActive.next {e : PlaybackEngine} {active : TurnId} {rem : Nat} (hcursor : e.CursorActive active)
    (h : (e.next active rem).2 = true) : (e.next active rem).1.current.turn = active := by
  unfold PlaybackEngine.next at h ⊢
  by_cases hexhausted : e.exhausted = true
  · rw [if_pos hexhausted] at h ⊢
    exact refill_turn h
  · rw [if_neg hexhausted]
    exact hcursor.resolve_left hexhausted

lemma CursorActive.sources {e : PlaybackEngine} {active : TurnId} (hcursor : e.CursorActive active)
    (fuel rem : Nat) : ∀ x ∈ e.sources active fuel rem, x.2 = active := by
  induction fuel generalizing e rem with
  | zero =>
    intro x hx
    cases rem <;> cases hx
  | succ fuel ih =>
    cases rem with
    | zero =>
      intro x hx
      cases hx
    | succ rem =>
      intro x hx
      unfold PlaybackEngine.sources at hx
      by_cases hnext : (e.next active (rem + 1)).2 = true
      · have hturn := hcursor.next hnext
        simp only [if_pos hnext, List.mem_append, List.mem_map] at hx
        rcases hx with ⟨sample, _, rfl⟩ | hx
        · exact hturn
        · have hadvance : ((e.next active (rem + 1)).1.advance (rem + 1)).CursorActive active := .inr hturn
          exact ih hadvance _ x hx
      · simp only [if_neg hnext] at hx
        cases hx

lemma cursor_mem_sources {e : PlaybackEngine} (active : TurnId) (h : e.exhausted = false) (fuel rem : Nat) :
    ∃ sample, (sample, e.current.turn) ∈ sources active (fuel + 1) e (rem + 1) := by
  have hlt : e.pos < e.current.samples.length := by
    unfold exhausted at h
    simpa using h
  have hnext : e.next active (rem + 1) = (e, true) := by
    unfold next
    rw [if_neg (by simp [h])]
  have hblock : e.block (rem + 1) ≠ [] := by
    unfold block
    simp
    omega
  obtain ⟨sample, hsample⟩ := List.exists_mem_of_ne_nil _ hblock
  refine ⟨sample, ?_⟩
  unfold sources
  simp only [hnext, if_true]
  exact List.mem_append_left _ (List.mem_map_of_mem hsample)

/-- A call plays only the active turn exactly when nothing else is left under the cursor. -/
theorem callSources_active_iff (e : PlaybackEngine) (active : TurnId) (frames : Nat) :
    (∀ x ∈ e.callSources active frames, x.2 = active) ↔ frames = 0 ∨ e.CursorActive active := by
  constructor
  · intro hall
    by_cases hframes : frames = 0
    · exact .inl hframes
    · right
      cases hexhausted : e.exhausted with
      | true => exact .inl hexhausted
      | false =>
        right
        obtain ⟨rem, rfl⟩ := Nat.exists_eq_succ_of_ne_zero hframes
        obtain ⟨sample, hmem⟩ := cursor_mem_sources active hexhausted (rem + 1 + e.queue.q.length) rem
        exact hall _ hmem
  · rintro (rfl | hcursor)
    · intro x hx
      cases hx
    · exact hcursor.sources _ _

end PlaybackEngine

/-! ### Runs -/

/-- A call of `render_into`: the active turn, the buffer, and the samples copied with their turns. -/
structure RenderCall where
  active : TurnId
  output : List Int16
  sources : List (Int16 × TurnId)
  deriving DecidableEq, Repr

/-- Every sample the call copies is of the turn active at the call. -/
def RenderCall.OnlyActive (c : RenderCall) : Prop := ∀ x ∈ c.sources, x.2 = c.active

instance (c : RenderCall) : Decidable c.OnlyActive :=
  inferInstanceAs (Decidable (∀ x ∈ c.sources, x.2 = c.active))

/-- The buffer is the samples copied, and silence after them. -/
def RenderCall.Sound (c : RenderCall) : Prop :=
  ∃ silence : Nat, c.output = c.sources.map Prod.fst ++ List.replicate silence 0

/-- The engine, the turn that `active_turn_()` gives, and the calls made so far. -/
structure PlaybackTrace where
  engine : PlaybackEngine := {}
  active : TurnId := kNoTurn
  calls : List RenderCall := []
  deriving DecidableEq, Repr

inductive PlaybackAction
  | enqueue (c : AudioChunk)
  | tryEnqueue (c : AudioChunk)
  | clear
  | invalidateBefore (t : TurnId)
  | setActive (t : TurnId)
  | render (frames : Nat)
  | publish
  deriving DecidableEq, Repr

namespace PlaybackTrace

/-- The queue is replaced. -/
def withQueue (l : PlaybackTrace) (q : PlaybackQueue) : PlaybackTrace :=
  { l with engine := { l.engine with queue := q } }

def step (l : PlaybackTrace) : PlaybackAction → PlaybackTrace
  | .enqueue c => l.withQueue (l.engine.queue.enqueue c).1
  | .tryEnqueue c => l.withQueue (l.engine.queue.tryEnqueue c).1
  | .clear => l.withQueue l.engine.queue.clear.1
  | .invalidateBefore t => l.withQueue (l.engine.queue.invalidateBefore t).1
  | .setActive t => { l with active := t }
  | .render frames =>
    { l with
      engine := (l.engine.renderInto l.active frames).1
      calls := l.calls ++ [⟨l.active, (l.engine.renderInto l.active frames).2,
        l.engine.callSources l.active frames⟩] }
  | .publish => { l with engine := { l.engine with postbox := l.engine.postbox.drain.2 } }

/-- A callback does not find the rest of another turn's chunk under the cursor. -/
def CursorStep (l : PlaybackTrace) : PlaybackAction → Prop
  | .render frames => frames = 0 ∨ l.engine.CursorActive l.active
  | _ => True

instance (l : PlaybackTrace) (a : PlaybackAction) : Decidable (l.CursorStep a) :=
  match a with
  | .render frames => inferInstanceAs (Decidable (frames = 0 ∨ l.engine.CursorActive l.active))
  | .enqueue _ | .tryEnqueue _ | .clear | .invalidateBefore _ | .setActive _ | .publish => isTrue trivial

def OnlyActive (l : PlaybackTrace) : Prop := ∀ c ∈ l.calls, c.OnlyActive

lemma onlyActive_step (l : PlaybackTrace) (a : PlaybackAction) :
    (l.step a).OnlyActive ↔ l.OnlyActive ∧ l.CursorStep a := by
  cases a with
  | render frames =>
    have hcall := l.engine.callSources_active_iff l.active frames
    simp only [OnlyActive, step, List.forall_mem_append, List.forall_mem_singleton]
    exact and_congr_right fun _ => hcall
  | _ => exact (and_iff_left trivial).symm

lemma sound_step (l : PlaybackTrace) (a : PlaybackAction) (h : ∀ c ∈ l.calls, c.Sound) :
    ∀ c ∈ (l.step a).calls, c.Sound := by
  cases a with
  | render frames =>
    simp only [step, List.forall_mem_append, List.forall_mem_singleton]
    exact ⟨h, l.engine.renderInto_output l.active frames⟩
  | _ => exact h

/-- In every run the callbacks copy samples of the active turn only exactly when no callback finds the rest
of another turn's chunk under the cursor. -/
theorem only_active_heard_iff (engine : PlaybackEngine) (active : TurnId) (as : List PlaybackAction) :
    (∀ c ∈ (Runs.exec step { engine := engine, active := active } as).calls, c.Sound) ∧
    ((∀ c ∈ (Runs.exec step { engine := engine, active := active } as).calls, c.OnlyActive) ↔
      Runs.Along step CursorStep { engine := engine, active := active } as) := by
  constructor
  · exact Runs.exec_invariant (fun l : PlaybackTrace => ∀ c ∈ l.calls, c.Sound) sound_step (by simp) as
  · have hiff := Runs.exec_iff_along (I := fun _ => True) (Q := OnlyActive) (fun _ _ _ => trivial)
      (fun l a _ => onlyActive_step l a) (s := { engine := engine, active := active }) trivial as
    exact hiff.trans (and_iff_right (by simp [OnlyActive]))

/-- The second callback plays what is left of a chunk of turn 1 while turn 2 is active. -/
theorem cancelled_turn_heard :
    let l := Runs.exec step {}
      [.enqueue { turn := 1, samples := [5, 6] }, .setActive 1, .render 1, .setActive 2, .render 1]
    ⟨2, [6], [(6, 1)]⟩ ∈ l.calls ∧ ¬∀ c ∈ l.calls, c.OnlyActive := by
  decide

end PlaybackTrace

end Acva
