import Acva.Lib.Runs
import Acva.Stt.Base64
import Mathlib.Data.Finset.Card
import Mathlib.Data.List.Basic

/-!
# Messages in envelopes

`EnvelopeReassembler` unwraps the messages of the realtime service. A message comes whole or in fragments, which are
kept by the id of the message until all of them are there. The parser of the envelopes is a parameter.
-/

namespace Acva

open scoped Finset

namespace Realtime

structure Envelope where
  id : Text := []
  type : Text := []
  data : Text := []
  fragmentIndex : Option Nat := none
  totalFragments : Option Nat := none
  deriving DecidableEq, Repr

structure Pending where
  fragments : List Text
  received : Nat := 0
  deriving DecidableEq, Repr

structure EnvelopeReassembler where
  pending : Text → Option Pending := fun _ => none

/-- An envelope with a fragment that is stored. -/
structure Fragment where
  id : Text
  index : Nat
  total : Nat
  data : Text
  deriving DecidableEq, Repr

def Envelope.fragment (env : Envelope) : Option Fragment :=
  if env.type ≠ ascii "partial_message" then none
  else
    match env.fragmentIndex, env.totalFragments with
    | some index, some total => if total = 0 ∨ total ≤ index then none else some ⟨env.id, index, total, env.data⟩
    | _, _ => none

namespace EnvelopeReassembler

def store (r : EnvelopeReassembler) (id : Text) (p : Option Pending) : EnvelopeReassembler :=
  { r with pending := Function.update r.pending id p }

/-- The rest of `feed`, for a fragment. -/
def feedFragment (r : EnvelopeReassembler) (f : Fragment) : Option Text × EnvelopeReassembler :=
  let p := (r.pending f.id).getD { fragments := List.replicate f.total [] }
  if p.fragments.length ≠ f.total then (none, r.store f.id none)
  else if p.fragments.getD f.index [] ≠ [] then (none, r.store f.id (some p))
  else
    let p := { fragments := p.fragments.set f.index f.data, received := p.received + 1 }
    if p.received = p.fragments.length then (base64Decode p.fragments.flatten, r.store f.id none)
    else (none, r.store f.id (some p))

def feed (readEnvelope : Text → Option Envelope) (r : EnvelopeReassembler) (raw : Text) :
    Option Text × EnvelopeReassembler :=
  match readEnvelope raw with
  | none => (none, r)
  | some env =>
    if env.type = ascii "full_message" then (base64Decode env.data, r)
    else
      match env.fragment with
      | none => (none, r)
      | some f => r.feedFragment f

end EnvelopeReassembler

/-! ### What has been fed -/

def Fed (fed : List Fragment) (id : Text) (index : Nat) : Prop := ∃ g ∈ fed, g.id = id ∧ g.index = index

instance (fed : List Fragment) (id : Text) (index : Nat) : Decidable (Fed fed id index) :=
  inferInstanceAs (Decidable (∃ g ∈ fed, _))

/-- All fragments of the message are there. -/
def Complete (fed : List Fragment) (id : Text) (total : Nat) : Prop := ∀ index < total, Fed fed id index

instance (fed : List Fragment) (id : Text) (total : Nat) : Decidable (Complete fed id total) :=
  inferInstanceAs (Decidable (∀ index < total, _))

/-- The fragment is the last one that its message waits for. -/
def Completes (fed : List Fragment) (f : Fragment) : Prop :=
  Complete (fed ++ [f]) f.id f.total ∧ ¬Complete fed f.id f.total

instance (fed : List Fragment) (f : Fragment) : Decidable (Completes fed f) := instDecidableAnd

def dataAt (fed : List Fragment) (id : Text) (index : Nat) : Text :=
  ((fed.find? fun g => g.id = id ∧ g.index = index).map Fragment.data).getD []

/-- The data of a message in the order of the indices. -/
def encoded (fed : List Fragment) (id : Text) (total : Nat) : Text := (List.range total).flatMap (dataAt fed id)

/-- The fragments of a message agree on its size and on what is at an index. -/
structure Agree (fed : List Fragment) : Prop where
  total : ∀ f ∈ fed, ∀ g ∈ fed, f.id = g.id → f.total = g.total
  data : ∀ f ∈ fed, ∀ g ∈ fed, f.id = g.id → f.index = g.index → f.data = g.data

instance (fed : List Fragment) : Decidable (Agree fed) :=
  decidable_of_iff ((∀ f ∈ fed, ∀ g ∈ fed, f.id = g.id → f.total = g.total) ∧
    ∀ f ∈ fed, ∀ g ∈ fed, f.id = g.id → f.index = g.index → f.data = g.data) ⟨fun h => ⟨h.1, h.2⟩, fun h => ⟨h.1, h.2⟩⟩

/-- The reassembler, the fragments that it was fed and its answers to them. -/
structure Reassembly where
  reassembler : EnvelopeReassembler := {}
  fed : List Fragment := []
  answers : List (Text × Option Text) := []

namespace Reassembly

variable (readEnvelope : Text → Option Envelope)

def fragmentOf (raw : Text) : Option Fragment := (readEnvelope raw).bind Envelope.fragment

def step (s : Reassembly) (raw : Text) : Reassembly :=
  let r := s.reassembler.feed readEnvelope raw
  { reassembler := r.2
    fed := s.fed ++ (fragmentOf readEnvelope raw).toList
    answers := s.answers ++ (fragmentOf readEnvelope raw).toList.map fun f => (f.id, r.1) }

/-- The messages of an id that were yielded. -/
def yields (s : Reassembly) (id : Text) : List Text := (s.answers.filter fun a => a.1 = id).filterMap Prod.snd

/-- The message is yielded at the fragment that completes it, and at no other. -/
def Yields (s : Reassembly) (raw : Text) : Prop :=
  ∀ f, fragmentOf readEnvelope raw = some f → (s.reassembler.feed readEnvelope raw).1 =
    if Completes s.fed f then base64Decode (encoded (s.fed ++ [f]) f.id f.total) else none

/-- The fragment is of a message that is not complete yet, and if it has no data, it is new. -/
def Awaited (s : Reassembly) (raw : Text) : Prop :=
  ∀ f, fragmentOf readEnvelope raw = some f →
    ¬Complete s.fed f.id f.total ∧ (f.data = [] → ¬Fed s.fed f.id f.index)

instance (s : Reassembly) (raw : Text) : Decidable (s.Awaited readEnvelope raw) :=
  match h : fragmentOf readEnvelope raw with
  | none => isTrue fun f hf => by rw [h] at hf; cases hf
  | some f =>
    decidable_of_iff (¬Complete s.fed f.id f.total ∧ (f.data = [] → ¬Fed s.fed f.id f.index))
      ⟨fun hf f' hf' => by rw [h] at hf'; cases hf'; exact hf, fun hall => hall f h⟩

end Reassembly

/-! ### One more fragment -/

variable {fed : List Fragment} {f : Fragment} {id : Text} {index total : Nat}

lemma fed_concat : Fed (fed ++ [f]) id index ↔ Fed fed id index ∨ (f.id = id ∧ f.index = index) := by
  unfold Fed
  simp only [List.mem_append, List.mem_singleton, or_and_right, exists_or, exists_eq_left]

lemma fed_concat_of_ne (hid : f.id ≠ id) : Fed (fed ++ [f]) id index ↔ Fed fed id index := by
  rw [fed_concat]
  exact or_iff_left fun h => hid h.1

lemma complete_concat_of_ne (hid : f.id ≠ id) : Complete (fed ++ [f]) id total ↔ Complete fed id total :=
  forall₂_congr fun _ _ => fed_concat_of_ne hid

lemma dataAt_of_not_fed (h : ¬Fed fed id index) : dataAt fed id index = [] := by
  have hnone : fed.find? (fun g => g.id = id ∧ g.index = index) = none := by
    rw [List.find?_eq_none]
    intro g hg hmatch
    exact h ⟨g, hg, by simpa using hmatch⟩
  rw [dataAt, hnone]
  rfl

lemma dataAt_eq (h : Agree fed) {g : Fragment} (hg : g ∈ fed) : dataAt fed g.id g.index = g.data := by
  cases hfind : fed.find? (fun g' => g'.id = g.id ∧ g'.index = g.index) with
  | none =>
    have hnot := List.find?_eq_none.1 hfind g hg
    simp at hnot
  | some g' =>
    have hmatch : g'.id = g.id ∧ g'.index = g.index := by simpa using List.find?_some hfind
    rw [dataAt, hfind]
    exact h.data g' (List.mem_of_find?_eq_some hfind) g hg hmatch.1 hmatch.2

lemma dataAt_concat_of_fed (h : Fed fed id index) : dataAt (fed ++ [f]) id index = dataAt fed id index := by
  obtain ⟨g, hg, hid, hindex⟩ := h
  have hsome : (fed.find? fun g => g.id = id ∧ g.index = index).isSome := by
    rw [List.find?_isSome]
    exact ⟨g, hg, by simp [hid, hindex]⟩
  obtain ⟨g', hg'⟩ := Option.isSome_iff_exists.1 hsome
  rw [dataAt, dataAt, List.find?_append, hg']
  rfl

lemma dataAt_concat_of_ne (h : ¬(f.id = id ∧ f.index = index)) :
    dataAt (fed ++ [f]) id index = dataAt fed id index := by
  rw [dataAt, dataAt, List.find?_append, List.find?_cons_of_neg (by simpa using h), List.find?_nil, Option.or_none]

/-- How many fragments of a message are there. -/
def fedCount (fed : List Fragment) (id : Text) (total : Nat) : Nat := #{index ∈ Finset.range total | Fed fed id index}

lemma fedCount_eq_iff : fedCount fed id total = total ↔ Complete fed id total := by
  have hrange := Finset.card_range total
  constructor
  · intro h index hindex
    have hall := Finset.filter_card_eq (h.trans hrange.symm)
    exact hall index (Finset.mem_range.2 hindex)
  · intro h
    rw [fedCount, Finset.filter_true_of_mem fun index hindex => h index (Finset.mem_range.1 hindex), hrange]

lemma fedCount_concat_of_not_fed (hindex : f.index < f.total) (h : ¬Fed fed f.id f.index) :
    fedCount (fed ++ [f]) f.id f.total = fedCount fed f.id f.total + 1 := by
  have hinsert : (Finset.range f.total).filter (Fed (fed ++ [f]) f.id) =
      insert f.index ((Finset.range f.total).filter (Fed fed f.id)) := by
    ext index
    simp only [Finset.mem_filter, Finset.mem_insert, Finset.mem_range, fed_concat, true_and]
    constructor
    · rintro ⟨hlt, hfed | heq⟩
      · exact Or.inr ⟨hlt, hfed⟩
      · exact Or.inl heq.symm
    · rintro (rfl | ⟨hlt, hfed⟩)
      · exact ⟨hindex, Or.inr rfl⟩
      · exact ⟨hlt, Or.inl hfed⟩
  rw [fedCount, hinsert, Finset.card_insert_of_notMem (by simp [h])]
  rfl

/-! ### The reassembler keeps what has been fed -/

/-- The slots of a message that is not complete. -/
def slots (fed : List Fragment) (id : Text) (total : Nat) : Pending :=
  { fragments := (List.range total).map (dataAt fed id), received := fedCount fed id total }

lemma slots_of_not_fed (h : ∀ index, ¬Fed fed id index) :
    slots fed id total = { fragments := List.replicate total [] } := by
  have hdata : (List.range total).map (dataAt fed id) = List.replicate total [] := by
    rw [List.eq_replicate_iff, List.length_map, List.length_range]
    refine ⟨rfl, fun x hx => ?_⟩
    obtain ⟨index, _, rfl⟩ := List.mem_map.1 hx
    exact dataAt_of_not_fed (h index)
  have hcount : fedCount fed id total = 0 := by
    rw [fedCount, Finset.card_eq_zero, Finset.filter_eq_empty_iff]
    exact fun index _ => h index
  rw [slots, hdata, hcount]

lemma slots_concat_of_fed (h : Fed fed f.id f.index) : slots (fed ++ [f]) id total = slots fed id total := by
  have hsame (id' : Text) (index : Nat) : Fed (fed ++ [f]) id' index ↔ Fed fed id' index := by
    rw [fed_concat]
    refine or_iff_left_of_imp ?_
    rintro ⟨rfl, rfl⟩
    exact h
  have hdata : dataAt (fed ++ [f]) id = dataAt fed id := by
    funext index
    by_cases hindex : Fed fed id index
    · exact dataAt_concat_of_fed hindex
    · rw [dataAt_of_not_fed hindex, dataAt_of_not_fed fun h' => hindex ((hsame _ _).1 h')]
  simp only [slots, fedCount, hdata, hsame]

lemma slots_concat_of_ne (hid : f.id ≠ id) : slots (fed ++ [f]) id total = slots fed id total := by
  have hdata : dataAt (fed ++ [f]) id = dataAt fed id := by
    funext index
    exact dataAt_concat_of_ne fun h => hid h.1
  simp only [slots, fedCount, hdata, fed_concat_of_ne hid]

lemma slots_concat (hindex : f.index < f.total) (h : ¬Fed fed f.id f.index) :
    slots (fed ++ [f]) f.id f.total =
      { fragments := (slots fed f.id f.total).fragments.set f.index f.data
        received := (slots fed f.id f.total).received + 1 } := by
  have hdata : (List.range f.total).map (dataAt (fed ++ [f]) f.id) =
      ((List.range f.total).map (dataAt fed f.id)).set f.index f.data := by
    refine List.ext_getElem (by simp) fun index hleft hright => ?_
    rw [List.getElem_set, List.getElem_map, List.getElem_map, List.getElem_range]
    split
    · rename_i heq
      subst index
      have hfed : fed.find? (fun g => g.id = f.id ∧ g.index = f.index) = none := by
        rw [List.find?_eq_none]
        intro g hg hmatch
        exact h ⟨g, hg, by simpa using hmatch⟩
      rw [dataAt, List.find?_append, hfed]
      simp
    · rename_i hne
      exact dataAt_concat_of_ne fun heq => hne heq.2
  rw [slots, hdata, fedCount_concat_of_not_fed hindex h]
  rfl

lemma feedFragment_eq {r : EnvelopeReassembler} (hagree : Agree (fed ++ [f])) (hindex : f.index < f.total)
    (hwaits : ¬Complete fed f.id f.total) (hempty : f.data = [] → ¬Fed fed f.id f.index)
    (hpending : (r.pending f.id).getD { fragments := List.replicate f.total [] } = slots fed f.id f.total) :
    r.feedFragment f =
      if Complete (fed ++ [f]) f.id f.total then
        (base64Decode (encoded (fed ++ [f]) f.id f.total), r.store f.id none)
      else (none, r.store f.id (some (slots (fed ++ [f]) f.id f.total))) := by
  have hlength : (slots fed f.id f.total).fragments.length = f.total := by simp [slots]
  have hslot : (slots fed f.id f.total).fragments.getD f.index [] = dataAt fed f.id f.index := by
    simp [slots, hindex]
  simp only [EnvelopeReassembler.feedFragment, hpending, hlength, hslot, ne_eq, not_true_eq_false, if_false]
  by_cases hfed : Fed fed f.id f.index
  · have hdata : dataAt fed f.id f.index = f.data := by
      rw [← dataAt_concat_of_fed (f := f) hfed]
      exact dataAt_eq hagree (List.mem_append_right _ (List.mem_singleton_self f))
    have hwaits' : ¬Complete (fed ++ [f]) f.id f.total := by
      have hcount : fedCount (fed ++ [f]) f.id f.total = fedCount fed f.id f.total :=
        congrArg Pending.received (slots_concat_of_fed hfed)
      rwa [← fedCount_eq_iff, hcount, fedCount_eq_iff]
    rw [if_pos (by rw [hdata]; exact fun h => hempty h hfed), if_neg hwaits', slots_concat_of_fed hfed]
  · have hslots := slots_concat hindex hfed
    have hreceived : (slots fed f.id f.total).received + 1 = fedCount (fed ++ [f]) f.id f.total :=
      (congrArg Pending.received hslots).symm
    have hfragments : (slots fed f.id f.total).fragments.set f.index f.data =
        (List.range f.total).map (dataAt (fed ++ [f]) f.id) := (congrArg Pending.fragments hslots).symm
    rw [if_neg (by rw [dataAt_of_not_fed hfed]; simp), hreceived, hfragments, List.length_map, List.length_range]
    simp only [fedCount_eq_iff]
    rfl

namespace Reassembly

variable {readEnvelope : Text → Option Envelope} {s : Reassembly} {raw : Text}

/-- The messages that wait have their slots, and those that are complete were yielded. -/
structure Assembled (s : Reassembly) : Prop where
  idle : ∀ id, (∀ f ∈ s.fed, f.id = id → Complete s.fed id f.total) → s.reassembler.pending id = none
  waiting : ∀ f ∈ s.fed, ¬Complete s.fed f.id f.total → s.reassembler.pending f.id = some (slots s.fed f.id f.total)
  unfed : ∀ id, (∀ f ∈ s.fed, f.id ≠ id) → s.yields id = []
  yielded : ∀ f ∈ s.fed, s.yields f.id =
    if Complete s.fed f.id f.total then (base64Decode (encoded s.fed f.id f.total)).toList else []

lemma assembled_initial : Assembled {} :=
  ⟨fun _ _ => rfl, fun _ hf => (nomatch hf), fun _ _ => rfl, fun _ hf => (nomatch hf)⟩

/-- The slots that `feed` finds, or makes. -/
lemma Assembled.pending_eq (h : Assembled s) (hagree : Agree (s.fed ++ [f])) (hwaits : ¬Complete s.fed f.id f.total) :
    (s.reassembler.pending f.id).getD { fragments := List.replicate f.total [] } = slots s.fed f.id f.total := by
  by_cases hfirst : ∃ g ∈ s.fed, g.id = f.id
  · obtain ⟨g, hg, hid⟩ := hfirst
    have htotal : g.total = f.total :=
      hagree.total g (List.mem_append_left _ hg) f (List.mem_append_right _ (List.mem_singleton_self f)) hid
    have hpending := h.waiting g hg (by rwa [hid, htotal])
    rw [hid, htotal] at hpending
    rw [hpending]
    rfl
  · have hnone : ∀ g ∈ s.fed, g.id ≠ f.id := fun g hg hid => hfirst ⟨g, hg, hid⟩
    rw [h.idle f.id fun g hg hid => absurd hid (hnone g hg),
      slots_of_not_fed fun index ⟨g, hg, hid, _⟩ => hnone g hg hid]
    rfl

lemma fragmentOf_some (hf : fragmentOf readEnvelope raw = some f) :
    s.reassembler.feed readEnvelope raw = s.reassembler.feedFragment f := by
  obtain ⟨env, hread, hfragment⟩ := Option.bind_eq_some_iff.1 hf
  have hkind : env.type = ascii "partial_message" := by
    by_contra hne
    rw [Envelope.fragment, if_pos hne] at hfragment
    cases hfragment
  have hnot : env.type ≠ ascii "full_message" := by
    rw [hkind]
    decide
  rw [EnvelopeReassembler.feed, hread]
  simp only [if_neg hnot, hfragment]

lemma fragmentOf_none (hf : fragmentOf readEnvelope raw = none) :
    (s.reassembler.feed readEnvelope raw).2 = s.reassembler := by
  unfold EnvelopeReassembler.feed
  cases hread : readEnvelope raw with
  | none => rfl
  | some env =>
    have hfragment : env.fragment = none := by simpa [fragmentOf, hread] using hf
    simp only [hfragment]
    split <;> rfl

lemma index_lt_total (hf : fragmentOf readEnvelope raw = some f) : f.index < f.total := by
  obtain ⟨env, _, hfragment⟩ := Option.bind_eq_some_iff.1 hf
  unfold Envelope.fragment at hfragment
  split at hfragment
  · cases hfragment
  · split at hfragment
    · split at hfragment
      · cases hfragment
      · cases hfragment
        dsimp only
        omega
    · cases hfragment

lemma yields_step (hf : fragmentOf readEnvelope raw = some f) (id : Text) :
    (s.step readEnvelope raw).yields id =
      s.yields id ++ if f.id = id then (s.reassembler.feed readEnvelope raw).1.toList else [] := by
  simp only [yields, step, hf, Option.toList_some, List.map_cons, List.map_nil, List.filter_append,
    List.filterMap_append]
  congr 1
  by_cases hid : f.id = id
  · rw [if_pos hid, List.filter_cons_of_pos (by simpa using hid), List.filter_nil]
    cases (s.reassembler.feed readEnvelope raw).1 <;> rfl
  · rw [if_neg hid, List.filter_cons_of_neg (by simpa using hid), List.filter_nil, List.filterMap_nil]

lemma Assembled.feed_eq (h : Assembled s) (hf : fragmentOf readEnvelope raw = some f)
    (hagree : Agree (s.fed ++ [f])) (hawaited : s.Awaited readEnvelope raw) :
    s.reassembler.feed readEnvelope raw =
      if Complete (s.fed ++ [f]) f.id f.total then
        (base64Decode (encoded (s.fed ++ [f]) f.id f.total), s.reassembler.store f.id none)
      else (none, s.reassembler.store f.id (some (slots (s.fed ++ [f]) f.id f.total))) := by
  obtain ⟨hwaits, hempty⟩ := hawaited f hf
  rw [fragmentOf_some hf]
  exact feedFragment_eq hagree (index_lt_total hf) hwaits hempty (h.pending_eq hagree hwaits)

lemma Assembled.yields_step (h : Assembled s) (hf : fragmentOf readEnvelope raw = some f)
    (hagree : Agree (s.fed ++ [f])) (hawaited : s.Awaited readEnvelope raw) : s.Yields readEnvelope raw := by
  intro f' hf'
  obtain rfl := Option.some.inj (hf.symm.trans hf')
  rw [h.feed_eq hf hagree hawaited]
  by_cases hcomplete : Complete (s.fed ++ [f]) f.id f.total
  · rw [if_pos hcomplete, if_pos ⟨hcomplete, (hawaited f hf).1⟩]
  · rw [if_neg hcomplete, if_neg fun hcompletes => hcomplete hcompletes.1]

lemma Assembled.step_self (h : Assembled s) (hf : fragmentOf readEnvelope raw = some f)
    (hagree : Agree (s.fed ++ [f])) (hawaited : s.Awaited readEnvelope raw) :
    (s.step readEnvelope raw).fed = s.fed ++ [f] ∧
      (Complete (s.fed ++ [f]) f.id f.total → (s.step readEnvelope raw).reassembler.pending f.id = none ∧
        (s.step readEnvelope raw).yields f.id = (base64Decode (encoded (s.fed ++ [f]) f.id f.total)).toList) ∧
      (¬Complete (s.fed ++ [f]) f.id f.total →
        (s.step readEnvelope raw).reassembler.pending f.id = some (slots (s.fed ++ [f]) f.id f.total) ∧
          (s.step readEnvelope raw).yields f.id = []) := by
  have hfeed := h.feed_eq hf hagree hawaited
  have hnone : s.yields f.id = [] := by
    by_cases hfirst : ∃ g ∈ s.fed, g.id = f.id
    · obtain ⟨g, hg, hid⟩ := hfirst
      have htotal : g.total = f.total :=
        hagree.total g (List.mem_append_left _ hg) f (List.mem_append_right _ (List.mem_singleton_self f)) hid
      have hyielded := h.yielded g hg
      rwa [hid, htotal, if_neg (hawaited f hf).1] at hyielded
    · exact h.unfed f.id fun g hg hid => hfirst ⟨g, hg, hid⟩
  refine ⟨by simp [step, hf], fun hcomplete => ?_, fun hwaits => ?_⟩
  · rw [if_pos hcomplete] at hfeed
    rw [Reassembly.yields_step hf, if_pos rfl, hnone, hfeed, List.nil_append]
    exact ⟨by simp [step, hfeed, EnvelopeReassembler.store], rfl⟩
  · rw [if_neg hwaits] at hfeed
    rw [Reassembly.yields_step hf, if_pos rfl, hnone, hfeed, List.nil_append]
    exact ⟨by simp [step, hfeed, EnvelopeReassembler.store], rfl⟩

lemma Assembled.step_other (h : Assembled s) (hf : fragmentOf readEnvelope raw = some f)
    (hagree : Agree (s.fed ++ [f])) (hawaited : s.Awaited readEnvelope raw) (hid : f.id ≠ id) :
    (s.step readEnvelope raw).reassembler.pending id = s.reassembler.pending id ∧
      (s.step readEnvelope raw).yields id = s.yields id := by
  constructor
  · rw [step, h.feed_eq hf hagree hawaited]
    split <;> simp [EnvelopeReassembler.store, Ne.symm hid]
  · rw [Reassembly.yields_step hf, if_neg hid, List.append_nil]

lemma Assembled.step (h : Assembled s) (hf : fragmentOf readEnvelope raw = some f)
    (hagree : Agree (s.fed ++ [f])) (hawaited : s.Awaited readEnvelope raw) :
    Assembled (s.step readEnvelope raw) := by
  obtain ⟨hfed, hcompleted, hwaiting⟩ := h.step_self hf hagree hawaited
  have hmem : f ∈ s.fed ++ [f] := List.mem_append_right _ (List.mem_singleton_self f)
  -- the message of a fragment is that of the new one, or one of the others
  have hcases (g : Fragment) (hg : g ∈ s.fed ++ [f]) : g.id = f.id ∧ g.total = f.total ∨ f.id ≠ g.id ∧ g ∈ s.fed := by
    by_cases hid : g.id = f.id
    · exact Or.inl ⟨hid, hagree.total g hg f hmem hid⟩
    · refine Or.inr ⟨Ne.symm hid, (List.mem_append.1 hg).resolve_right fun heq => hid ?_⟩
      rw [List.mem_singleton.1 heq]
  refine ⟨fun id hall => ?_, fun g hg hwaits => ?_, fun id hall => ?_, fun g hg => ?_⟩
  · rw [hfed] at hall
    by_cases hid : f.id = id
    · subst hid
      exact (hcompleted (hall f hmem rfl)).1
    · rw [(h.step_other hf hagree hawaited hid).1]
      refine h.idle id fun g hg hgid => (complete_concat_of_ne hid).1 (hall g (List.mem_append_left _ hg) hgid)
  · rw [hfed] at hg hwaits ⊢
    rcases hcases g hg with ⟨hid, htotal⟩ | ⟨hid, hold⟩
    · rw [hid, htotal] at hwaits ⊢
      exact (hwaiting hwaits).1
    · rw [complete_concat_of_ne hid] at hwaits
      rw [(h.step_other hf hagree hawaited hid).1, slots_concat_of_ne hid]
      exact h.waiting g hold hwaits
  · rw [hfed] at hall
    rw [(h.step_other hf hagree hawaited (hall f hmem)).2]
    exact h.unfed id fun g hg => hall g (List.mem_append_left _ hg)
  · rw [hfed] at hg ⊢
    rcases hcases g hg with ⟨hid, htotal⟩ | ⟨hid, hold⟩
    · rw [hid, htotal]
      split
      · rename_i hcomplete
        exact (hcompleted hcomplete).2
      · rename_i hwaits
        exact (hwaiting hwaits).2
    · have hencoded : encoded (s.fed ++ [f]) g.id g.total = encoded s.fed g.id g.total := by
        rw [encoded, encoded]
        exact congrArg₂ _ (funext fun _ => dataAt_concat_of_ne fun heq => hid heq.1) rfl
      rw [(h.step_other hf hagree hawaited hid).2, hencoded, h.yielded g hold]
      simp only [complete_concat_of_ne hid]

lemma Assembled.step_none (h : Assembled s) (hf : fragmentOf readEnvelope raw = none) :
    Assembled (s.step readEnvelope raw) := by
  have hsame : s.step readEnvelope raw = s := by
    simp [Reassembly.step, hf, fragmentOf_none hf]
  rwa [hsame]

lemma along_agree {raws : List Text} (hagree : Agree (s.fed ++ raws.filterMap (fragmentOf readEnvelope))) :
    Runs.Along (step readEnvelope)
      (fun s raw => ∀ f, fragmentOf readEnvelope raw = some f → Agree (s.fed ++ [f])) s raws := by
  induction raws generalizing s with
  | nil => trivial
  | cons raw raws ih =>
    have hfed : (s.step readEnvelope raw).fed ++ raws.filterMap (fragmentOf readEnvelope) =
        s.fed ++ (raw :: raws).filterMap (fragmentOf readEnvelope) := by
      cases hf : fragmentOf readEnvelope raw with
      | none => simp [step, hf]
      | some f => simp [step, hf]
    refine ⟨fun f hf => ?_, ih (by rwa [hfed])⟩
    have hsubset : ∀ g ∈ s.fed ++ [f], g ∈ s.fed ++ (raw :: raws).filterMap (fragmentOf readEnvelope) := by
      intro g hg
      rw [List.filterMap_cons_some hf]
      rcases List.mem_append.1 hg with hold | hnew
      · exact List.mem_append_left _ hold
      · rw [List.mem_singleton.1 hnew]
        exact List.mem_append_right _ List.mem_cons_self
    exact ⟨fun g hg g' hg' => hagree.total g (hsubset g hg) g' (hsubset g' hg'),
      fun g hg g' hg' => hagree.data g (hsubset g hg) g' (hsubset g' hg')⟩

/-- If no fragment comes for a message that is complete, and no fragment without data comes twice, then a message
is yielded once, at the fragment that completes it, and it is what the data decode to in the order of their
indices. -/
theorem fragments_reassembled (readEnvelope : Text → Option Envelope) (raws : List Text)
    (hagree : Agree (raws.filterMap (fragmentOf readEnvelope)))
    (hawaited : Runs.Along (step readEnvelope) (Awaited readEnvelope) {} raws) :
    let s := Runs.exec (step readEnvelope) {} raws
    Runs.Along (step readEnvelope) (Yields readEnvelope) {} raws ∧
      ∀ f ∈ s.fed, s.yields f.id =
        if Complete s.fed f.id f.total then (base64Decode (encoded s.fed f.id f.total)).toList else [] := by
  intro s
  have hboth := hawaited.and (along_agree (s := {}) hagree)
  have hstep (s : Reassembly) (raw : Text) (h : Assembled s) (hraw : s.Awaited readEnvelope raw ∧
      ∀ f, fragmentOf readEnvelope raw = some f → Agree (s.fed ++ [f])) : Assembled (s.step readEnvelope raw) := by
    cases hf : fragmentOf readEnvelope raw with
    | none => exact h.step_none hf
    | some f => exact h.step hf (hraw.2 f hf) hraw.1
  refine ⟨hboth.imp Assembled hstep (fun s raw h hraw => ?_) assembled_initial, ?_⟩
  · intro f hf
    exact h.yields_step hf (hraw.2 f hf) hraw.1 f hf
  · exact (hboth.invariant Assembled hstep assembled_initial).yielded

/-- A reader of some envelopes. -/
def readsEnvelopes (known : List (Text × Envelope)) (raw : Text) : Option Envelope :=
  (known.find? fun k => k.1 = raw).map Prod.snd

/-- The text of an envelope with a fragment, and the envelope. -/
def partialMsg (id data : Text) (index total : Nat) : Text × Envelope :=
  (ascii "\x7b\"id\":\"" ++ id ++ ascii "\",\"type\":\"partial_message\",\"data\":\"" ++ data ++
      ascii "\",\"fragment_index\":" ++ ascii (toString index) ++ ascii ",\"total_fragments\":" ++
      ascii (toString total) ++ ascii "\x7d",
    { id := id, type := ascii "partial_message", data := data, fragmentIndex := some index,
      totalFragments := some total })

def twoMessages : List (Text × Envelope) :=
  [partialMsg (ascii "m") (ascii "k=") 1 2, partialMsg (ascii "n") [] 0 1, partialMsg (ascii "m") (ascii "aG") 0 2]

/-- A message out of order, and another one in between. -/
theorem two_messages_reassembled :
    let raws := twoMessages.map Prod.fst
    let s := Runs.exec (step (readsEnvelopes twoMessages)) {} raws
    s.yields (ascii "m") = [ascii "hi"] ∧ Runs.Along (step (readsEnvelopes twoMessages))
        (Yields (readsEnvelopes twoMessages)) {} raws ∧
      ∀ f ∈ s.fed, s.yields f.id =
        if Complete s.fed f.id f.total then (base64Decode (encoded s.fed f.id f.total)).toList else [] :=
  ⟨by decide +kernel, fragments_reassembled (readsEnvelopes twoMessages) (twoMessages.map Prod.fst)
    (by decide +kernel) (by decide +kernel)⟩

def wholeMessage : Text × Envelope := partialMsg (ascii "m") (ascii "aGk=") 0 1

/-- A duplicate that comes after its message: the message is yielded again. -/
theorem duplicate_yielded_again :
    let read := readsEnvelopes [wholeMessage]
    let raws := [wholeMessage.1, wholeMessage.1]
    Agree (raws.filterMap (fragmentOf read)) ∧
      (Runs.exec (step read) {} raws).yields (ascii "m") = [ascii "hi", ascii "hi"] ∧
      ¬Runs.Along (step read) (Yields read) {} raws := by
  refine ⟨by decide +kernel, by decide +kernel, fun h => ?_⟩
  have hyield := h.2.1 ⟨ascii "m", 0, 1, ascii "aGk="⟩ (by decide +kernel)
  revert hyield
  decide +kernel

end Reassembly

end Realtime

end Acva
