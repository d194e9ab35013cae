import Acva.Lib.Runs
import Acva.Stt.SttStack
import Mathlib.Data.List.Nodup

/-!
# Transcripts and utterances

The realtime client has one slot for the utterance it follows and binds the next committed item to it. The
server answers the commits in order; an answer that arrives when the slot has passed on to another
utterance is bound to that one. As long as none does, every transcript goes to its own utterance.
-/

namespace Acva

/-- What the client keeps of the utterance it follows. -/
structure Slot where
  utterance : Nat
  item : Text := []
  isOpen : Bool := true
  cancelled : Bool := false
  deriving DecidableEq, Repr

namespace RealtimeSttClient

def slot (c : RealtimeSttClient) : Option Slot :=
  if c.active then c.activeCb.map fun u => ⟨u, c.activeItemId, c.hasResampler, c.activeCancelled⟩ else none

/-- A client that is ready, with callbacks for the utterance it follows. -/
structure Sound (c : RealtimeSttClient) : Prop where
  ready : c.state = .ready
  channel : c.hasChannel = true
  callbacks : c.active = true → c.activeCb ≠ none

/-- The number of commits sent. -/
def commits (c : RealtimeSttClient) : Nat := c.sent.count .commit

variable {c : RealtimeSttClient}

lemma slot_clearActive (c : RealtimeSttClient) : c.clearActive.slot = none := rfl

lemma Sound.clearActive (h : c.Sound) : c.clearActive.Sound := ⟨h.ready, h.channel, fun h => by cases h⟩

lemma Sound.send (h : c.Sound) (ms : List ClientMessage) :
    (c.send ms).Sound ∧ (c.send ms).slot = c.slot ∧ (c.send ms).commits = c.commits + ms.count .commit := by
  have hsend : c.send ms = { c with sent := c.sent ++ ms } := by
    unfold RealtimeSttClient.send
    rw [if_pos h.channel]
  rw [hsend]
  exact ⟨⟨h.ready, h.channel, h.callbacks⟩, rfl, List.count_append⟩

lemma Sound.slot_cases (h : c.Sound) : (c.active = false ∧ c.slot = none) ∨
    ∃ u, c.active = true ∧ c.activeCb = some u ∧
      c.slot = some ⟨u, c.activeItemId, c.hasResampler, c.activeCancelled⟩ := by
  cases hactive : c.active with
  | false => exact .inl ⟨rfl, by simp [slot, hactive]⟩
  | true =>
    obtain ⟨u, hu⟩ := Option.ne_none_iff_exists'.mp (h.callbacks hactive)
    exact .inr ⟨u, rfl, hu, by simp [slot, hactive, hu]⟩

/-- The final transcripts among the callbacks. -/
def finalsOf (calls : List (Nat × SttCallback)) : List (Nat × Text) :=
  calls.filterMap fun call => match call.2 with
    | .onFinal e => some (call.1, e.text)
    | _ => none

/-! ### The operations on the slot -/

lemma Sound.beginUtterance (h : c.Sound) (turn : TurnId) (u : Nat) :
    (c.beginUtterance turn u).1.Sound ∧ (c.beginUtterance turn u).1.slot = some { utterance := u } ∧
      (c.beginUtterance turn u).1.commits = c.commits := by
  have hready : ¬c.state ≠ .ready := by simp [h.ready]
  have hbegun : Sound { c.clearActive with active := true, activeTurn := turn, activeCb := some u,
                                           hasResampler := true } :=
    ⟨h.ready, h.channel, fun _ => Option.some_ne_none u⟩
  unfold RealtimeSttClient.beginUtterance
  rw [if_neg hready]
  exact hbegun.send [.clear]

lemma Sound.pushAudio (h : c.Sound) (pcm : List Int16) :
    (c.pushAudio pcm).Sound ∧ (c.pushAudio pcm).slot = c.slot ∧ (c.pushAudio pcm).commits = c.commits := by
  unfold RealtimeSttClient.pushAudio
  split
  · exact ⟨h, rfl, rfl⟩
  · exact h.send [.append pcm]

lemma Sound.endUtterance (h : c.Sound) (tail : List Int16) :
    (c.endUtterance tail).Sound ∧ (c.endUtterance tail).slot = c.slot.map ({ · with isOpen := false }) ∧
      (c.endUtterance tail).commits = c.commits + (c.slot.filter Slot.isOpen).toList.length := by
  unfold RealtimeSttClient.endUtterance
  rcases h.slot_cases with ⟨hactive, hslot⟩ | ⟨u, hactive, hcb, hslot⟩
  · rw [if_pos (by simp [hactive]), hslot]
    exact ⟨h, rfl, rfl⟩
  · rw [hslot]
    cases hopen : c.hasResampler with
    | false =>
      rw [if_pos (by simp)]
      exact ⟨h, by rw [hslot, hopen]; rfl, by simp⟩
    | true =>
      have hclosed : Sound { c with hasResampler := false } := ⟨h.ready, h.channel, h.callbacks⟩
      have hmessages : (if tail = [] then [ClientMessage.commit] else [.append tail, .commit]).count .commit = 1 := by
        split <;> rfl
      obtain ⟨hsound, hsame, hcommits⟩ := hclosed.send (if tail = [] then [.commit] else [.append tail, .commit])
      rw [if_neg (by simp [hactive])]
      refine ⟨hsound, ?_, ?_⟩
      · rw [hsame]
        simp [slot, hactive, hcb]
      · rw [hcommits, hmessages]
        simp [commits, Option.filter]

/-- Nothing but the item id changes, and only if an utterance is followed. -/
lemma Sound.committed (h : c.Sound) {itemId : Text} (hid : itemId ≠ []) :
    (c.dispatch (.committed itemId)).1.Sound ∧
      (c.dispatch (.committed itemId)).1.slot = c.slot.map ({ · with item := itemId }) ∧
      (c.dispatch (.committed itemId)).1.commits = c.commits := by
  simp only [dispatch, if_neg hid, onCommitted]
  rcases h.slot_cases with ⟨hactive, hslot⟩ | ⟨u, hactive, hcb, hslot⟩
  · rw [if_neg (by simp [hactive]), hslot]
    exact ⟨h, rfl, rfl⟩
  · rw [if_pos hactive, hslot]
    exact ⟨⟨h.ready, h.channel, h.callbacks⟩, by simp [slot, hactive, hcb], rfl⟩

lemma Sound.delta (h : c.Sound) (itemId delta : Text) :
    (c.dispatch (.delta itemId delta)).1.Sound ∧ (c.dispatch (.delta itemId delta)).1.slot = c.slot ∧
      (c.dispatch (.delta itemId delta)).1.commits = c.commits := by
  simp only [dispatch, onPartial]
  split
  · exact ⟨h, rfl, rfl⟩
  · split
    · exact ⟨h, rfl, rfl⟩
    · exact ⟨⟨h.ready, h.channel, h.callbacks⟩, rfl, rfl⟩

lemma Sound.error (h : c.Sound) :
    (c.dispatch .error).1.Sound ∧ (c.dispatch .error).1.slot = none ∧ (c.dispatch .error).1.commits = c.commits := by
  simp only [dispatch, onServerError]
  split
  · exact ⟨h.clearActive, rfl, rfl⟩
  · rename_i hactive
    exact ⟨h, by simp [slot, hactive], rfl⟩

/-- The transcript of the item bound to the slot is delivered and the slot is empty again. -/
lemma Sound.completed (h : c.Sound) {itemId : Text} (hid : itemId ≠ []) (transcript : Text) (language : Option Text) :
    (c.dispatch (.completed itemId transcript language)).1.Sound ∧
      (c.dispatch (.completed itemId transcript language)).1.slot = c.slot.filter (·.item ≠ itemId) ∧
      (c.dispatch (.completed itemId transcript language)).1.commits = c.commits ∧
      finalsOf (c.dispatch (.completed itemId transcript language)).2 =
        ((c.slot.filter fun s =>
          s.item = itemId ∧ s.cancelled = false).map fun s => (s.utterance, transcript)).toList := by
  simp only [dispatch, if_neg hid, onFinal]
  rcases h.slot_cases with ⟨hactive, hslot⟩ | ⟨u, hactive, hcb, hslot⟩
  · rw [if_pos (by simp [hactive]), hslot]
    exact ⟨h, rfl, rfl, rfl⟩
  · rw [hslot]
    by_cases hitem : itemId = c.activeItemId
    · rw [if_neg (by simp [hactive, hitem])]
      cases hcancelled : c.activeCancelled with
      | true =>
        rw [if_pos rfl]
        refine ⟨h.clearActive, ?_, rfl, ?_⟩
        · simp [slot_clearActive, hitem, Option.filter]
        · simp [finalsOf, Option.filter]
      | false =>
        rw [if_neg (by simp)]
        exact ⟨h.clearActive, by simp [slot_clearActive, hitem, Option.filter], rfl,
          by simp [finalsOf, hitem, hcb, Option.filter]⟩
    · rw [if_pos (.inr hitem)]
      refine ⟨h, ?_, rfl, ?_⟩
      · simp [Ne.symm hitem, hslot, Option.filter]
      · simp [finalsOf, Ne.symm hitem, Option.filter]

lemma Sound.cancel (h : c.Sound) : ({ c with activeCancelled := true } : RealtimeSttClient).Sound ∧
    ({ c with activeCancelled := true } : RealtimeSttClient).slot = c.slot.map ({ · with cancelled := true }) := by
  refine ⟨⟨h.ready, h.channel, h.callbacks⟩, ?_⟩
  rcases h.slot_cases with ⟨hactive, hslot⟩ | ⟨u, hactive, hcb, hslot⟩
  · rw [hslot]
    simp [slot, hactive]
  · rw [hslot]
    simp [slot, hactive, hcb]

end RealtimeSttClient

/-! ### The client and the server -/

/-- A final transcript given to the callbacks of an utterance, with the item it is of. -/
structure DeliveredFinal where
  utterance : Nat
  item : Nat
  text : Text
  deriving DecidableEq, Repr

/-- The client with the server's side of the session: `owners` are the utterances of the commits, in order,
`acked` of them have been answered with `committed`, and `completed` has been handled for those in `done`.
`spoiled` are the utterances that were cancelled or met a server error. -/
structure RealtimeWorld where
  client : RealtimeSttClient := { state := .ready }
  begun : Nat := 0
  owners : List Nat := []
  acked : Nat := 0
  done : List Nat := []
  spoiled : List Nat := []
  finals : List DeliveredFinal := []
  deriving DecidableEq, Repr

inductive RealtimeAction
  | beginUtterance (turn : TurnId)
  | pushAudio (pcm : List Int16)
  | endUtterance (tail : List Int16)
  | cancel
  | committed
  | delta (item : Nat) (text : Text)
  | completed (item : Nat) (language : Option Text)
  | error
  deriving DecidableEq, Repr

namespace RealtimeWorld

open RealtimeSttClient (finalsOf)

section Session

variable (itemId transcript : Nat → Text)

/-- The server calls item `i` by `itemId i`; its messages about an item come after the item is committed. -/
def step (w : RealtimeWorld) : RealtimeAction → RealtimeWorld
  | .beginUtterance turn =>
    { w with client := (w.client.beginUtterance turn (w.begun + 1)).1, begun := w.begun + 1 }
  | .pushAudio pcm => { w with client := w.client.pushAudio pcm }
  | .endUtterance tail =>
    { w with
      client := w.client.endUtterance tail
      owners := w.owners ++ ((w.client.slot.filter Slot.isOpen).map Slot.utterance).toList }
  | .cancel => { w with client := { w.client with activeCancelled := true }, spoiled := w.begun :: w.spoiled }
  | .committed =>
    if w.acked < w.owners.length then
      { w with client := (w.client.dispatch (.committed (itemId w.acked))).1, acked := w.acked + 1 }
    else w
  | .delta item text =>
    if item < w.acked then { w with client := (w.client.dispatch (.delta (itemId item) text)).1 } else w
  | .completed item language =>
    if item < w.acked then
      let r := w.client.dispatch (.completed (itemId item) (transcript item) language)
      { w with
        client := r.1
        done := item :: w.done
        finals := w.finals ++ (finalsOf r.2).map fun f => ⟨f.1, item, f.2⟩ }
    else w
  | .error => { w with client := (w.client.dispatch .error).1, spoiled := w.begun :: w.spoiled }

/-- The answer to a commit does not find the client following another utterance. -/
def Timely (w : RealtimeWorld) : RealtimeAction → Prop
  | .committed => ∀ s ∈ w.client.slot, w.owners[w.acked]? = some s.utterance ∨ w.owners.length ≤ w.acked
  | _ => True

instance (w : RealtimeWorld) (a : RealtimeAction) : Decidable (w.Timely a) :=
  match a with
  | .committed => inferInstanceAs (Decidable (∀ s ∈ w.client.slot,
      w.owners[w.acked]? = some s.utterance ∨ w.owners.length ≤ w.acked))
  | .beginUtterance _ | .pushAudio _ | .endUtterance _ | .cancel | .delta _ _ | .completed _ _ | .error =>
    isTrue trivial

/-- Transcripts went to their own utterances, and the one to come will. -/
structure Matched (w : RealtimeWorld) : Prop where
  sound : w.client.Sound
  commits : w.owners.length = w.client.commits
  latest : ∀ s, w.client.slot = some s → s.utterance = w.begun
  fresh : ∀ s, w.client.slot = some s → s.isOpen = true → w.begun ∉ w.owners
  owners_le : ∀ u ∈ w.owners, u ≤ w.begun
  nodup : w.owners.Nodup
  acked_le : w.acked ≤ w.owners.length
  bound : ∀ s, w.client.slot = some s → s.item = [] ∨ ∃ i, s.item = itemId i ∧ w.owners[i]? = some w.begun
  own : ∀ f ∈ w.finals, w.owners[f.item]? = some f.utterance ∧ f.text = transcript f.item
  once : (w.finals.map DeliveredFinal.utterance).Nodup
  finals_le : ∀ f ∈ w.finals, f.utterance ≤ w.begun
  unheard : ∀ s, w.client.slot = some s → w.begun ∉ w.finals.map DeliveredFinal.utterance
  uncancelled : ∀ s, w.client.slot = some s → w.begun ∉ w.spoiled → s.cancelled = false
  awaited : ∀ i, w.owners[i]? = some w.begun → w.begun ∉ w.spoiled → i ∉ w.done →
    ∃ s, w.client.slot = some s ∧ (i < w.acked → s.item = itemId i)

variable {itemId transcript}

lemma matched_start (c : RealtimeSttClient) (h : c.Sound) (hidle : c.slot = none) (hnew : c.commits = 0) :
    Matched itemId transcript { client := c } := by
  constructor <;> simp_all

variable {w : RealtimeWorld}

/-- A step that follows the same utterance: the slot it leaves comes from the slot before. -/
lemma Matched.follow (h : Matched itemId transcript w) {c : RealtimeSttClient} {acked : Nat} {done spoiled : List Nat}
    (hsound : c.Sound) (hcommits : c.commits = w.client.commits) (hacked : acked ≤ w.owners.length)
    (hspoiled : w.begun ∉ spoiled → w.begun ∉ w.spoiled)
    (hslot : ∀ s, c.slot = some s → ∃ s', w.client.slot = some s' ∧ s.utterance = s'.utterance ∧
      s.isOpen = s'.isOpen ∧ (w.begun ∉ spoiled → s.cancelled = s'.cancelled))
    (hbound : ∀ s, c.slot = some s → s.item = [] ∨ ∃ i, s.item = itemId i ∧ w.owners[i]? = some w.begun)
    (hawaited : ∀ i, w.owners[i]? = some w.begun → w.begun ∉ spoiled → i ∉ done →
      ∃ s, c.slot = some s ∧ (i < acked → s.item = itemId i)) :
    Matched itemId transcript { w with client := c, acked := acked, done := done, spoiled := spoiled } := by
  constructor
  case sound => exact hsound
  case commits => exact h.commits.trans hcommits.symm
  case latest =>
    intro s hs
    obtain ⟨s', hs', hutterance, _, _⟩ := hslot s hs
    rw [hutterance]
    exact h.latest s' hs'
  case fresh =>
    intro s hs hopen
    obtain ⟨s', hs', _, hsame, _⟩ := hslot s hs
    exact h.fresh s' hs' (hsame ▸ hopen)
  case owners_le => exact h.owners_le
  case nodup => exact h.nodup
  case acked_le => exact hacked
  case bound => exact hbound
  case own => exact h.own
  case once => exact h.once
  case finals_le => exact h.finals_le
  case unheard =>
    intro s hs
    obtain ⟨s', hs', _, _, _⟩ := hslot s hs
    exact h.unheard s' hs'
  case uncancelled =>
    intro s hs hclean
    obtain ⟨s', hs', _, _, hcancelled⟩ := hslot s hs
    rw [hcancelled hclean]
    exact h.uncancelled s' hs' (hspoiled hclean)
  case awaited => exact hawaited

lemma Matched.withClient (h : Matched itemId transcript w) {c : RealtimeSttClient} (hsound : c.Sound)
    (hslot : c.slot = w.client.slot) (hcommits : c.commits = w.client.commits) :
    Matched itemId transcript { w with client := c } := by
  apply h.follow hsound hcommits h.acked_le id
  · intro s hs
    exact ⟨s, hslot ▸ hs, rfl, rfl, fun _ => rfl⟩
  · intro s hs
    exact h.bound s (hslot ▸ hs)
  · rw [hslot]
    exact h.awaited

lemma Matched.beginUtterance (h : Matched itemId transcript w) (turn : TurnId) :
    Matched itemId transcript (w.step itemId transcript (.beginUtterance turn)) := by
  obtain ⟨hsound, hslot, hcommits⟩ := h.sound.beginUtterance turn (w.begun + 1)
  have hnew : w.begun + 1 ∉ w.owners := by
    intro hmem
    have hle := h.owners_le _ hmem
    omega
  have hunheard : w.begun + 1 ∉ w.finals.map DeliveredFinal.utterance := by
    intro hmem
    obtain ⟨f, hf, heq⟩ := List.mem_map.mp hmem
    have hle := h.finals_le f hf
    omega
  constructor
  case sound => exact hsound
  case commits => exact h.commits.trans hcommits.symm
  case latest =>
    intro s hs
    rw [step, hslot] at hs
    cases hs
    rfl
  case fresh => exact fun _ _ _ => hnew
  case owners_le => exact fun u hu => Nat.le_succ_of_le (h.owners_le u hu)
  case nodup => exact h.nodup
  case acked_le => exact h.acked_le
  case bound =>
    intro s hs
    rw [step, hslot] at hs
    cases hs
    exact .inl rfl
  case own => exact h.own
  case once => exact h.once
  case finals_le => exact fun f hf => Nat.le_succ_of_le (h.finals_le f hf)
  case unheard => exact fun _ _ => hunheard
  case uncancelled =>
    intro s hs _
    rw [step, hslot] at hs
    cases hs
    rfl
  case awaited =>
    intro i hi _ _
    exact absurd (List.mem_of_getElem? hi) hnew

lemma getElem?_append_of_some {l l' : List Nat} {i u : Nat} (h : l[i]? = some u) : (l ++ l')[i]? = some u := by
  have hlt := (List.getElem?_eq_some_iff.mp h).1
  rw [List.getElem?_append_left hlt]
  exact h

lemma Matched.commit (h : Matched itemId transcript w) {s : Slot} (hslot : w.client.slot = some s)
    (hopen : s.isOpen = true) {c : RealtimeSttClient} (hsound : c.Sound)
    (hc : c.slot = some { s with isOpen := false }) (hcommits : c.commits = w.client.commits + 1) :
    Matched itemId transcript { w with client := c, owners := w.owners ++ [w.begun] } := by
  have hnew := h.fresh s hslot hopen
  constructor
  case sound => exact hsound
  case commits =>
    rw [List.length_append, h.commits, hcommits]
    rfl
  case latest =>
    intro s' hs'
    rw [hc] at hs'
    cases hs'
    exact h.latest s hslot
  case fresh =>
    intro s' hs' hopen'
    rw [hc] at hs'
    cases hs'
    cases hopen'
  case owners_le =>
    intro u hu
    rcases List.mem_append.mp hu with hu | hu
    · exact h.owners_le u hu
    · exact Nat.le_of_eq (List.mem_singleton.mp hu)
  case nodup =>
    rw [List.nodup_append]
    refine ⟨h.nodup, List.nodup_singleton _, ?_⟩
    rintro a ha b hb rfl
    rw [List.mem_singleton.mp hb] at ha
    exact hnew ha
  case acked_le =>
    rw [List.length_append]
    exact Nat.le_trans h.acked_le (Nat.le_add_right _ _)
  case bound =>
    intro s' hs'
    rw [hc] at hs'
    cases hs'
    rcases h.bound s hslot with hitem | ⟨i, hitem, hi⟩
    · exact .inl hitem
    · exact .inr ⟨i, hitem, getElem?_append_of_some hi⟩
  case own =>
    intro f hf
    obtain ⟨howner, htext⟩ := h.own f hf
    exact ⟨getElem?_append_of_some howner, htext⟩
  case once => exact h.once
  case finals_le => exact h.finals_le
  case unheard => exact fun _ _ => h.unheard s hslot
  case uncancelled =>
    intro s' hs'
    rw [hc] at hs'
    cases hs'
    exact h.uncancelled s hslot
  case awaited =>
    intro i hi hspoiled hdone
    refine ⟨_, hc, fun hacked => ?_⟩
    have hlt : i < w.owners.length := Nat.lt_of_lt_of_le hacked h.acked_le
    rw [List.getElem?_append_left hlt] at hi
    exact absurd (List.mem_of_getElem? hi) hnew

lemma Matched.endUtterance (h : Matched itemId transcript w) (tail : List Int16) :
    Matched itemId transcript (w.step itemId transcript (.endUtterance tail)) := by
  obtain ⟨hsound, hslot, hcommits⟩ := h.sound.endUtterance tail
  unfold step
  cases hs : w.client.slot with
  | none =>
    rw [hs] at hslot hcommits
    have hsame := h.withClient hsound (hslot.trans hs.symm) hcommits
    simpa using hsame
  | some s =>
    rw [hs] at hslot hcommits
    cases hopen : s.isOpen with
    | false =>
      have hclosed : { s with isOpen := false } = s := by rw [← hopen]
      have hnone : Option.filter Slot.isOpen (some s) = none := by simp [Option.filter, hopen]
      rw [hnone] at hcommits
      rw [Option.map_some, hclosed] at hslot
      have hsame := h.withClient hsound (hslot.trans hs.symm) hcommits
      simpa [hnone] using hsame
    | true =>
      have hsome : Option.filter Slot.isOpen (some s) = some s := by simp [Option.filter, hopen]
      rw [hsome] at hcommits
      have hcommit := h.commit hs hopen hsound hslot hcommits
      simpa [hsome, h.latest s hs] using hcommit

lemma Matched.cancel (h : Matched itemId transcript w) :
    Matched itemId transcript (w.step itemId transcript .cancel) := by
  obtain ⟨hsound, hslot⟩ := h.sound.cancel
  have hclean : w.begun ∉ w.begun :: w.spoiled → False := fun hspoiled => hspoiled List.mem_cons_self
  have hsame : ∀ s, ({ w.client with activeCancelled := true } : RealtimeSttClient).slot = some s →
      ∃ s', w.client.slot = some s' ∧ s = { s' with cancelled := true } := by
    intro s hs
    rw [hslot] at hs
    obtain ⟨s', hs', rfl⟩ := Option.map_eq_some_iff.mp hs
    exact ⟨s', hs', rfl⟩
  apply h.follow hsound rfl h.acked_le (fun hspoiled => (hclean hspoiled).elim)
  · intro s hs
    obtain ⟨s', hs', rfl⟩ := hsame s hs
    exact ⟨s', hs', rfl, rfl, fun hspoiled => (hclean hspoiled).elim⟩
  · intro s hs
    obtain ⟨s', hs', rfl⟩ := hsame s hs
    exact h.bound s' hs'
  · exact fun _ _ hspoiled => (hclean hspoiled).elim

lemma Matched.error (h : Matched itemId transcript w) :
    Matched itemId transcript (w.step itemId transcript .error) := by
  obtain ⟨hsound, hslot, hcommits⟩ := h.sound.error
  have hclean : w.begun ∉ w.begun :: w.spoiled → False := fun hspoiled => hspoiled List.mem_cons_self
  have hnone : ∀ s, (w.client.dispatch .error).1.slot ≠ some s := by simp [hslot]
  apply h.follow hsound hcommits h.acked_le (fun hspoiled => (hclean hspoiled).elim)
  · exact fun s hs => absurd hs (hnone s)
  · exact fun s hs => absurd hs (hnone s)
  · exact fun _ _ hspoiled => (hclean hspoiled).elim

lemma Matched.item_unique (h : Matched itemId transcript w) {i j : Nat} (hi : w.owners[i]? = some w.begun)
    (hj : w.owners[j]? = some w.begun) : i = j :=
  (List.getElem?_inj (List.getElem?_eq_some_iff.mp hi).1 h.nodup).mp (hi.trans hj.symm)

lemma Matched.committed (hid : ∀ i, itemId i ≠ []) (h : Matched itemId transcript w)
    (htimely : w.Timely .committed) : Matched itemId transcript (w.step itemId transcript .committed) := by
  obtain ⟨hsound, hslot, hcommits⟩ := h.sound.committed (hid w.acked)
  unfold step
  by_cases hacked : w.acked < w.owners.length
  · rw [if_pos hacked]
    have howner : ∀ s, w.client.slot = some s → w.owners[w.acked]? = some w.begun := by
      intro s hs
      rcases htimely s hs with hsame | hnone
      · rw [hsame, h.latest s hs]
      · omega
    have hfrom : ∀ s, (w.client.dispatch (.committed (itemId w.acked))).1.slot = some s →
        ∃ s', w.client.slot = some s' ∧ s = { s' with item := itemId w.acked } := by
      intro s hs
      rw [hslot] at hs
      obtain ⟨s', hs', rfl⟩ := Option.map_eq_some_iff.mp hs
      exact ⟨s', hs', rfl⟩
    apply h.follow hsound hcommits hacked id
    · intro s hs
      obtain ⟨s', hs', rfl⟩ := hfrom s hs
      exact ⟨s', hs', rfl, rfl, fun _ => rfl⟩
    · intro s hs
      obtain ⟨s', hs', rfl⟩ := hfrom s hs
      exact .inr ⟨w.acked, rfl, howner s' hs'⟩
    · intro i hi hspoiled hdone
      obtain ⟨s, hs, _⟩ := h.awaited i hi hspoiled hdone
      have hequal := h.item_unique hi (howner s hs)
      refine ⟨_, by rw [hslot, hs]; rfl, fun _ => ?_⟩
      rw [hequal]
  · rw [if_neg hacked]
    exact h

lemma Matched.deliver (h : Matched itemId transcript w) {item : Nat} (hidle : w.client.slot = none)
    (howner : w.owners[item]? = some w.begun) (hnew : w.begun ∉ w.finals.map DeliveredFinal.utterance) :
    Matched itemId transcript { w with finals := w.finals ++ [⟨w.begun, item, transcript item⟩] } := by
  constructor
  case sound => exact h.sound
  case commits => exact h.commits
  case latest => exact h.latest
  case fresh => exact h.fresh
  case owners_le => exact h.owners_le
  case nodup => exact h.nodup
  case acked_le => exact h.acked_le
  case bound => exact h.bound
  case own =>
    intro f hf
    rcases List.mem_append.mp hf with hf | hf
    · exact h.own f hf
    · rw [List.mem_singleton.mp hf]
      exact ⟨howner, rfl⟩
  case once =>
    rw [List.map_append, List.nodup_append]
    refine ⟨h.once, List.nodup_singleton _, ?_⟩
    rintro a ha b hb rfl
    rw [List.map_singleton, List.mem_singleton] at hb
    rw [hb] at ha
    exact hnew ha
  case finals_le =>
    intro f hf
    rcases List.mem_append.mp hf with hf | hf
    · exact h.finals_le f hf
    · rw [List.mem_singleton.mp hf]
  case unheard =>
    intro s hs
    rw [hidle] at hs
    cases hs
  case uncancelled => exact h.uncancelled
  case awaited => exact h.awaited

lemma Matched.owner_of_bound (hinj : Function.Injective itemId) (hid : ∀ i, itemId i ≠ [])
    (h : Matched itemId transcript w) {s : Slot} {item : Nat} (hs : w.client.slot = some s)
    (hitem : s.item = itemId item) : w.owners[item]? = some w.begun := by
  rcases h.bound s hs with hnone | ⟨i, hi, howner⟩
  · exact absurd (hitem.symm.trans hnone) (hid item)
  · rwa [hinj (hitem.symm.trans hi)]

lemma Matched.completed (hinj : Function.Injective itemId) (hid : ∀ i, itemId i ≠ [])
    (h : Matched itemId transcript w) (item : Nat) (language : Option Text) :
    Matched itemId transcript (w.step itemId transcript (.completed item language)) := by
  obtain ⟨hsound, hslot, hcommits, hfinals⟩ := h.sound.completed (hid item) (transcript item) language
  unfold step
  by_cases hacked : item < w.acked
  · simp only [if_pos hacked, hfinals]
    generalize (w.client.dispatch (.completed (itemId item) (transcript item) language)).1 = c
      at hsound hslot hcommits ⊢
    have hfrom : ∀ s, c.slot = some s → w.client.slot = some s := by
      intro s hs
      rw [hslot] at hs
      exact (Option.filter_eq_some_iff.mp hs).1
    have hkeeps : Matched itemId transcript { w with client := c, done := item :: w.done } := by
      apply h.follow hsound hcommits h.acked_le id
      · exact fun s hs => ⟨s, hfrom s hs, rfl, rfl, fun _ => rfl⟩
      · exact fun s hs => h.bound s (hfrom s hs)
      · intro i hi hspoiled hdone
        rw [List.mem_cons, not_or] at hdone
        obtain ⟨s, hs, hitem⟩ := h.awaited i hi hspoiled hdone.2
        refine ⟨s, ?_, hitem⟩
        rw [hslot, hs, Option.filter_eq_some_iff]
        refine ⟨rfl, ?_⟩
        by_contra hsame
        have hbound : s.item = itemId item := by simpa using hsame
        exact hdone.1 (h.item_unique hi (h.owner_of_bound hinj hid hs hbound))
    cases hmatch : w.client.slot.filter fun s => s.item = itemId item ∧ s.cancelled = false with
    | none => simpa using hkeeps
    | some s =>
      obtain ⟨hs, hboth⟩ := Option.filter_eq_some_iff.mp hmatch
      have hbound : s.item = itemId item := by
        simp only [Bool.decide_and, Bool.and_eq_true, decide_eq_true_eq] at hboth
        exact hboth.1
      have hidle : c.slot = none := by
        rw [hslot, hs]
        simp [Option.filter, hbound]
      have hdeliver := hkeeps.deliver hidle (h.owner_of_bound hinj hid hs hbound) (h.unheard s hs)
      rw [Option.map_some, h.latest s hs]
      exact hdeliver
  · simp only [if_neg hacked]
    exact h

theorem Matched.step (hinj : Function.Injective itemId) (hid : ∀ i, itemId i ≠ [])
    (h : Matched itemId transcript w) (a : RealtimeAction) (htimely : w.Timely a) :
    Matched itemId transcript (w.step itemId transcript a) := by
  cases a with
  | beginUtterance turn => exact h.beginUtterance turn
  | pushAudio pcm =>
    obtain ⟨hsound, hslot, hcommits⟩ := h.sound.pushAudio pcm
    exact h.withClient hsound hslot hcommits
  | endUtterance tail => exact h.endUtterance tail
  | cancel => exact h.cancel
  | committed => exact h.committed hid htimely
  | delta item text =>
    simp only [RealtimeWorld.step]
    split
    · obtain ⟨hsound, hslot, hcommits⟩ := h.sound.delta (itemId item) text
      exact h.withClient hsound hslot hcommits
    · exact h
  | completed item language => exact h.completed hinj hid item language
  | error => exact h.error

/-- The transcript of an utterance that is still awaited is delivered when its item is completed. -/
lemma Matched.delivered (hid : ∀ i, itemId i ≠ []) (h : Matched itemId transcript w) {item : Nat}
    (howner : w.owners[item]? = some w.begun) (hclean : w.begun ∉ w.spoiled) (hdone : item ∉ w.done)
    (hacked : item < w.acked) (language : Option Text) :
    ⟨w.begun, item, transcript item⟩ ∈ (w.step itemId transcript (.completed item language)).finals := by
  obtain ⟨_, _, _, hfinals⟩ := h.sound.completed (hid item) (transcript item) language
  obtain ⟨s, hs, hitem⟩ := h.awaited item howner hclean hdone
  have hmatch : (w.client.slot.filter fun s => s.item = itemId item ∧ s.cancelled = false) = some s := by
    rw [hs, Option.filter_eq_some_iff]
    exact ⟨rfl, by simp [hitem hacked, h.uncancelled s hs hclean]⟩
  unfold RealtimeWorld.step
  simp only [if_pos hacked, hfinals, hmatch]
  simp [h.latest s hs]

/-- In every run in which the answers to commits are timely, a final transcript is the one of the utterance's
own item, no utterance gets two, and one that is still waiting gets its own when it is completed. -/
theorem transcripts_matched (hinj : Function.Injective itemId) (hid : ∀ i, itemId i ≠ []) (language : Text)
    (as : List RealtimeAction)
    (htimely : Runs.Along (step itemId transcript) Timely { client := { state := .ready, language := language } } as) :
    let w := Runs.exec (step itemId transcript) { client := { state := .ready, language := language } } as
    w.owners.length = w.client.commits ∧
    (∀ f ∈ w.finals, w.owners[f.item]? = some f.utterance ∧ f.text = transcript f.item) ∧
    (w.finals.map DeliveredFinal.utterance).Nodup ∧
    ∀ item u, w.owners[item]? = some u → u = w.begun → u ∉ w.spoiled → item < w.acked → item ∉ w.done →
      ∀ lang, ⟨u, item, transcript item⟩ ∈ (w.step itemId transcript (.completed item lang)).finals := by
  intro w
  have hstart : Matched itemId transcript { client := { state := .ready, language := language } } :=
    matched_start _ ⟨rfl, rfl, fun h => by cases h⟩ rfl rfl
  have hrun : Matched itemId transcript w :=
    htimely.invariant _ (fun w a h ha => h.step hinj hid a ha) hstart
  refine ⟨hrun.commits, hrun.own, hrun.once, ?_⟩
  rintro item u howner rfl hclean hacked hdone lang
  exact hrun.delivered hid howner hclean hdone hacked lang

/-- After an answer that finds the client following another utterance, the transcript goes to that one. -/
theorem misbound_delivered (hid : ∀ i, itemId i ≠ []) (hsound : w.client.Sound) {s : Slot} {u : Nat}
    (hslot : w.client.slot = some s) (hcancelled : s.cancelled = false) (howner : w.owners[w.acked]? = some u)
    (hother : s.utterance ≠ u) (lang : Option Text) :
    ∃ f ∈ ((w.step itemId transcript .committed).step itemId transcript (.completed w.acked lang)).finals,
      w.owners[f.item]? = some u ∧ f.utterance ≠ u := by
  have hacked : w.acked < w.owners.length := (List.getElem?_eq_some_iff.mp howner).1
  obtain ⟨hbound, hitem, _⟩ := hsound.committed (hid w.acked)
  have hfirst : w.step itemId transcript .committed =
      { w with client := (w.client.dispatch (.committed (itemId w.acked))).1, acked := w.acked + 1 } := by
    simp only [step, if_pos hacked]
  obtain ⟨_, _, _, hfinals⟩ := hbound.completed (hid w.acked) (transcript w.acked) lang
  rw [hitem, hslot] at hfinals
  refine ⟨⟨s.utterance, w.acked, transcript w.acked⟩, ?_, howner, hother⟩
  rw [hfirst]
  simp only [step, if_pos (Nat.lt_succ_self w.acked), hfinals]
  simp [Option.filter, hcancelled]

end Session

/-- Item names of different lengths. -/
def plainItem (i : Nat) : Text := List.replicate (i + 1) 105

def plainTranscript (i : Nat) : Text := List.replicate i 97

/-- The second utterance begins before the commit of the first is answered, and gets its transcript. -/
theorem transcript_of_another_utterance :
    let w := Runs.exec (step plainItem plainTranscript) {}
      [.beginUtterance kNoTurn, .endUtterance [], .beginUtterance kNoTurn, .committed, .completed 0 none]
    w.finals = [⟨2, 0, plainTranscript 0⟩] ∧ w.owners = [1] := by
  decide

lemma plainItem_injective : Function.Injective plainItem := by
  intro i j h
  have hlength := congrArg List.length h
  simpa [plainItem] using hlength

/-- An utterance begins while the one before it is transcribed. -/
def overlapping : List RealtimeAction :=
  [.beginUtterance kNoTurn, .endUtterance [], .committed, .beginUtterance kNoTurn, .endUtterance [],
    .completed 0 none, .committed]

theorem transcript_of_own_utterance :
    ⟨2, 1, plainTranscript 1⟩ ∈ ((Runs.exec (step plainItem plainTranscript) {} overlapping).step plainItem
      plainTranscript (.completed 1 none)).finals := by
  have hid : ∀ i, plainItem i ≠ [] := by simp [plainItem]
  have hmatched := @transcripts_matched plainItem plainTranscript plainItem_injective hid [] overlapping (by decide)
  exact hmatched.2.2.2 1 2 (by decide) (by decide) (by decide) (by decide) (by decide) none

end RealtimeWorld

end Acva
