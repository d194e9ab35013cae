import Acva.Audio.Capture
import Acva.Lib.Ring
import Acva.Lib.Runs
import Mathlib.Logic.Function.Basic

/-!
# The ring between the PortAudio callback and the audio thread

`SpscRing` keeps two masked indices and no count. A step of the world is one atomic access or one slot access of
`push` or `pop`, so a schedule is any interleaving of the producer and the consumer. The trace of what happened is
read by neither of them.
-/

namespace Acva

/-- `Capacity`, with the two static assertions about it. -/
structure RingCapacity where
  size : Nat
  gt_one : 1 < size
  power : size &&& (size - 1) = 0
  fits : size < 2 ^ 64

/-- `(i) & kMask`. An index is below `Capacity`, so that adding one does not wrap a `size_t`. -/
def RingCapacity.mask (n : RingCapacity) (i : Nat) : Nat := i &&& (n.size - 1)

inductive RingEvent (α : Type*)
  | wrote (slot : Nat)
  | published (slot : Nat) (value : α)
  | rejected
  | consumed (slot : Nat) (value : α)
  | empty

/-- Where `push` is: nowhere, after the load of `tail_`, after the test of `head_`, after the write of the slot. -/
inductive PushPc (α : Type*)
  | idle
  | tailLoaded (value : α) (tail : Nat)
  | headChecked (value : α) (tail : Nat)
  | slotWritten (value : α) (tail : Nat)

/-- Where `pop` is: nowhere, after the load of `head_`, after the test of `tail_`, after the move out of the slot. -/
inductive PopPc (α : Type*)
  | idle
  | headLoaded (head : Nat)
  | tailChecked (head : Nat)
  | slotRead (head : Nat) (out : α)

structure SpscRing (α : Type*) where
  tail : Nat := 0
  head : Nat := 0
  slots : Nat → α
  producer : PushPc α := .idle
  consumer : PopPc α := .idle
  trace : List (RingEvent α) := []

/-- The value is the argument of a `push` that starts; what a move leaves behind in a slot is not specified. -/
inductive RingAction (α : Type*)
  | producer (value : α)
  | consumer (left : α)

namespace SpscRing

variable {α : Type*}

def pushStep (n : RingCapacity) (w : SpscRing α) (value : α) : SpscRing α :=
  match w.producer with
  | .idle => { w with producer := .tailLoaded value w.tail }
  | .tailLoaded value tail =>
    if n.mask (tail + 1) = w.head then { w with producer := .idle, trace := w.trace ++ [.rejected] }
    else { w with producer := .headChecked value tail }
  | .headChecked value tail =>
    { w with slots := Function.update w.slots tail value
             producer := .slotWritten value tail
             trace := w.trace ++ [.wrote tail] }
  | .slotWritten value tail =>
    { w with tail := n.mask (tail + 1)
             producer := .idle
             trace := w.trace ++ [.published tail value] }

def popStep (n : RingCapacity) (w : SpscRing α) (left : α) : SpscRing α :=
  match w.consumer with
  | .idle => { w with consumer := .headLoaded w.head }
  | .headLoaded head =>
    if head = w.tail then { w with consumer := .idle, trace := w.trace ++ [.empty] }
    else { w with consumer := .tailChecked head }
  | .tailChecked head =>
    { w with slots := Function.update w.slots head left, consumer := .slotRead head (w.slots head) }
  | .slotRead head out =>
    { w with head := n.mask (head + 1)
             consumer := .idle
             trace := w.trace ++ [.consumed head out] }

def step (n : RingCapacity) (w : SpscRing α) : RingAction α → SpscRing α
  | .producer value => w.pushStep n value
  | .consumer left => w.popStep n left

/-- The values for which `push` returned true: the store of `tail_` is the last access of such a call. -/
def pushed (trace : List (RingEvent α)) : List α :=
  trace.filterMap fun
    | .published _ value => some value
    | _ => none

/-- The values that `pop` returned. -/
def popped (trace : List (RingEvent α)) : List α :=
  trace.filterMap fun
    | .consumed _ value => some value
    | _ => none

/-- `size()` of one instant, with the wrap of a `size_t`. -/
def size (n : RingCapacity) (w : SpscRing α) : Nat := n.mask ((w.tail + 2 ^ 64 - w.head) % 2 ^ 64)

/-! ### Histories of a bounded FIFO -/

/-- The number of values published, and of values consumed. -/
def puts (trace : List (RingEvent α)) : Nat := (pushed trace).length

def takes (trace : List (RingEvent α)) : Nat := (popped trace).length

/-- What may come next in a FIFO that uses its `n` slots in turn and keeps one of them free. -/
def Allowed (n : Nat) (trace : List (RingEvent α)) : RingEvent α → Prop
  | .wrote slot => slot = puts trace % n ∧ puts trace < takes trace + (n - 1)
  | .published slot _ => slot = puts trace % n ∧ puts trace < takes trace + (n - 1)
  | .rejected => puts trace = takes trace + (n - 1)
  | .consumed slot value => slot = takes trace % n ∧ (pushed trace)[takes trace]? = some value
  | .empty => puts trace = takes trace

inductive History (n : Nat) : List (RingEvent α) → Prop
  | nil : History n []
  | snoc {trace : List (RingEvent α)} {e : RingEvent α} (h : History n trace) (he : Allowed n trace e) :
      History n (trace ++ [e])

lemma concat_eq_append_cons {β : Type*} {l before after : List β} {e x : β} (h : l ++ [e] = before ++ x :: after) :
    (after = [] ∧ l = before ∧ e = x) ∨ ∃ rest, after = rest ++ [e] ∧ l = before ++ x :: rest := by
  cases List.eq_nil_or_concat after with
  | inl hnil =>
    subst hnil
    have hends := List.append_inj' h rfl
    exact .inl ⟨rfl, hends.1, by simpa using hends.2⟩
  | inr hconcat =>
    obtain ⟨rest, last, rfl⟩ := hconcat
    rw [List.concat_eq_append] at h ⊢
    rw [← List.cons_append, ← List.append_assoc] at h
    have hends := List.append_inj' h rfl
    have hlast : e = last := by simpa using hends.2
    exact .inr ⟨rest, by rw [hlast], hends.1⟩

variable {n : Nat} {trace before between after : List (RingEvent α)}

namespace History

/-- The popped values come first among the pushed ones, and one slot at least is free. -/
lemma prefix_and_bound (h : History n trace) :
    popped trace <+: pushed trace ∧ puts trace ≤ takes trace + (n - 1) := by
  induction h with
  | nil => exact ⟨List.nil_prefix, Nat.zero_le _⟩
  | snoc h he ih =>
    rename_i trace e
    cases e with
    | wrote slot => simpa [pushed, popped, puts, takes] using ih
    | published slot value =>
      have hroom : (pushed trace).length < (popped trace).length + (n - 1) := he.2
      refine ⟨?_, ?_⟩
      · simpa [pushed, popped] using ih.1.trans (List.prefix_append (pushed trace) [value])
      · simp only [puts, takes, pushed, popped, List.filterMap_append, List.length_append] at hroom ⊢
        simp
        omega
    | rejected => simpa [pushed, popped, puts, takes] using ih
    | consumed slot value =>
      have hnext : (pushed trace)[(popped trace).length]? = some value := he.2
      have hbound := ih.2
      refine ⟨?_, ?_⟩
      · have hlt := (List.getElem?_eq_some_iff.mp hnext)
        obtain ⟨hlt, hvalue⟩ := hlt
        have htake : popped trace ++ [value] = (pushed trace).take ((popped trace).length + 1) := by
          rw [List.take_succ_eq_append_getElem hlt, hvalue, ← List.prefix_iff_eq_take.mp ih.1]
        have hpopped : popped (trace ++ [.consumed slot value]) = popped trace ++ [value] := by simp [popped]
        have hpushed : pushed (trace ++ [.consumed slot value]) = pushed trace := by simp [pushed]
        rw [hpopped, hpushed, htake]
        exact List.take_prefix _ _
      · simp only [puts, takes, pushed, popped, List.filterMap_append, List.length_append] at hbound ⊢
        simp
        omega
    | empty => simpa [pushed, popped, puts, takes] using ih

lemma full_of_rejected (h : History n trace) (hsplit : trace = before ++ .rejected :: after) :
    puts before = takes before + (n - 1) := by
  induction h generalizing after with
  | nil => simp at hsplit
  | snoc h he ih =>
    cases concat_eq_append_cons hsplit with
    | inl hlast =>
      obtain ⟨_, rfl, rfl⟩ := hlast
      exact he
    | inr hearlier =>
      obtain ⟨rest, _, htrace⟩ := hearlier
      exact ih htrace

/-- A published slot has been consumed since, or it is one of those that hold a value. -/
lemma consumed_or_held (h : History n trace) {slot : Nat} {value : α}
    (hsplit : trace = before ++ .published slot value :: between) :
    (∃ v, .consumed slot v ∈ between) ∨ ∃ i, takes trace ≤ i ∧ i < puts trace ∧ slot = i % n := by
  induction h generalizing between with
  | nil => simp at hsplit
  | snoc h he ih =>
    rename_i trace e
    cases concat_eq_append_cons hsplit with
    | inl hlast =>
      obtain ⟨_, rfl, rfl⟩ := hlast
      have hle := h.prefix_and_bound.1.length_le
      right
      refine ⟨puts trace, ?_, ?_, he.1⟩
      · simpa [puts, takes, popped] using hle
      · simp [puts, pushed]
    | inr hearlier =>
      obtain ⟨rest, rfl, htrace⟩ := hearlier
      cases ih htrace with
      | inl hconsumed =>
        obtain ⟨v, hv⟩ := hconsumed
        exact .inl ⟨v, List.mem_append_left _ hv⟩
      | inr hheld =>
        obtain ⟨i, hlow, hhigh, rfl⟩ := hheld
        cases e with
        | consumed slot v =>
          by_cases hi : i = takes trace
          · left
            refine ⟨v, ?_⟩
            rw [hi, ← he.1]
            simp
          · right
            refine ⟨i, ?_, ?_, rfl⟩
            · simp only [takes, popped, List.filterMap_append, List.length_append] at hlow hi ⊢
              simp
              omega
            · simpa [puts, pushed] using hhigh
        | published slot v =>
          right
          refine ⟨i, ?_, ?_, rfl⟩
          · simpa [takes, popped] using hlow
          · simp only [puts, pushed, List.filterMap_append, List.length_append] at hhigh ⊢
            omega
        | wrote slot => exact .inr ⟨i, by simpa [takes, popped] using hlow, by simpa [puts, pushed] using hhigh, rfl⟩
        | rejected => exact .inr ⟨i, by simpa [takes, popped] using hlow, by simpa [puts, pushed] using hhigh, rfl⟩
        | empty => exact .inr ⟨i, by simpa [takes, popped] using hlow, by simpa [puts, pushed] using hhigh, rfl⟩

/-- The producer comes back to a slot only after the consumer has moved past it. -/
lemma consumed_between (hn : 1 < n) (h : History n trace) {slot : Nat} {value : α}
    (hsplit : trace = before ++ .published slot value :: between ++ .wrote slot :: after) :
    ∃ v, .consumed slot v ∈ between := by
  induction h generalizing after with
  | nil => simp at hsplit
  | snoc h he ih =>
    cases concat_eq_append_cons hsplit with
    | inl hlast =>
      obtain ⟨_, htrace, rfl⟩ := hlast
      obtain ⟨hslot, hroom⟩ := he
      cases h.consumed_or_held htrace with
      | inl hconsumed => exact hconsumed
      | inr hheld =>
        obtain ⟨i, hlow, hhigh, hi⟩ := hheld
        have hsame : i = puts _ := (Ring.mod_eq_iff_of_window (by omega) (by omega)).mp (hi.symm.trans hslot)
        omega
    | inr hearlier =>
      obtain ⟨rest, _, htrace⟩ := hearlier
      exact ih htrace

end History

/-! ### The code keeps to such a history -/

lemma size_eq_two_pow (n : RingCapacity) : ∃ k, n.size = 2 ^ k := by
  have hone := n.gt_one
  have hpos : n.size ≠ 0 := by omega
  exact (Nat.and_sub_one_eq_zero_iff_isPowerOfTwo hpos).mp n.power

lemma mask_eq (n : RingCapacity) (i : Nat) : n.mask i = i % n.size := by
  obtain ⟨k, hk⟩ := size_eq_two_pow n
  rw [RingCapacity.mask, hk, Nat.and_two_pow_sub_one_eq_mod]

/-- The capacity divides the range of a `size_t`. -/
lemma size_dvd (n : RingCapacity) : n.size ∣ 2 ^ 64 := by
  obtain ⟨k, hk⟩ := size_eq_two_pow n
  have hfits := n.fits
  rw [hk] at hfits ⊢
  exact Nat.pow_dvd_pow 2 ((Nat.pow_lt_pow_iff_right (by decide)).mp hfits).le

lemma mask_succ (n : RingCapacity) (i : Nat) : n.mask (i % n.size + 1) = (i + 1) % n.size := by
  rw [mask_eq, Nat.mod_add_mod]

/-- What a `push` under way still knows, whatever `pop` has done since. -/
def ProducerKnows (n : Nat) (w : SpscRing α) : Prop :=
  match w.producer with
  | .idle => True
  | .tailLoaded _ tail => tail = w.tail
  | .headChecked _ tail => tail = w.tail ∧ puts w.trace < takes w.trace + (n - 1)
  | .slotWritten value tail => tail = w.tail ∧ puts w.trace < takes w.trace + (n - 1) ∧ w.slots tail = value

/-- What a `pop` under way still knows, whatever `push` has done since. -/
def ConsumerKnows (w : SpscRing α) : Prop :=
  match w.consumer with
  | .idle => True
  | .headLoaded head => head = w.head
  | .tailChecked head => head = w.head ∧ takes w.trace < puts w.trace
  | .slotRead head out => head = w.head ∧ (pushed w.trace)[takes w.trace]? = some out

/-- The number of values moved out of their slots. -/
def reads (w : SpscRing α) : Nat :=
  match w.consumer with
  | .slotRead _ _ => takes w.trace + 1
  | _ => takes w.trace

/-- The slots that are published and not yet moved out of hold what was pushed. -/
def SlotsHold (n : Nat) (w : SpscRing α) : Prop :=
  ∀ i, w.reads ≤ i → i < puts w.trace → (pushed w.trace)[i]? = some (w.slots (i % n))

structure Inv (n : Nat) (w : SpscRing α) : Prop where
  history : History n w.trace
  tail : w.tail = puts w.trace % n
  head : w.head = takes w.trace % n
  slots : w.SlotsHold n
  producer : w.ProducerKnows n
  consumer : w.ConsumerKnows

variable {n : RingCapacity} {w : SpscRing α}

/-- The producer changes no index of the consumer's and only adds to what is published. -/
lemma ConsumerKnows.mono {w' : SpscRing α} (h : w.ConsumerKnows) (hpc : w'.consumer = w.consumer)
    (hhead : w'.head = w.head) (htakes : takes w'.trace = takes w.trace)
    (hpushed : pushed w.trace <+: pushed w'.trace) : w'.ConsumerKnows := by
  unfold ConsumerKnows at h ⊢
  rw [hpc, hhead, htakes]
  have hputs : puts w.trace ≤ puts w'.trace := hpushed.length_le
  cases hc : w.consumer with
  | idle => trivial
  | headLoaded head =>
    rw [hc] at h
    exact h
  | tailChecked head =>
    rw [hc] at h
    exact ⟨h.1, by omega⟩
  | slotRead head out =>
    rw [hc] at h
    obtain ⟨hlt, hout⟩ := List.getElem?_eq_some_iff.mp h.2
    refine ⟨h.1, ?_⟩
    obtain ⟨rest, hrest⟩ := hpushed
    rw [← hrest, List.getElem?_append_left hlt]
    exact h.2

/-- The consumer changes no index of the producer's, frees slots only and leaves alone the one at the tail. -/
lemma ProducerKnows.mono {n : Nat} {w' : SpscRing α} (h : w.ProducerKnows n) (hpc : w'.producer = w.producer)
    (htail : w'.tail = w.tail) (hputs : puts w'.trace = puts w.trace) (htakes : takes w.trace ≤ takes w'.trace)
    (hslot : puts w.trace < takes w.trace + (n - 1) → w'.slots w.tail = w.slots w.tail) : w'.ProducerKnows n := by
  unfold ProducerKnows at h ⊢
  rw [hpc, htail, hputs]
  cases hp : w.producer with
  | idle => trivial
  | tailLoaded value tail =>
    rw [hp] at h
    exact h
  | headChecked value tail =>
    rw [hp] at h
    exact ⟨h.1, by omega⟩
  | slotWritten value tail =>
    rw [hp] at h
    obtain ⟨rfl, hroom, hvalue⟩ := h
    exact ⟨rfl, by omega, by rw [hslot hroom, hvalue]⟩

/-- The test of `push` tells a full ring from any other. -/
lemma full_iff {puts takes : Nat} (n : RingCapacity) (hle : takes ≤ puts) (hbound : puts ≤ takes + (n.size - 1)) :
    n.mask (puts % n.size + 1) = takes % n.size ↔ puts = takes + (n.size - 1) := by
  have hone := n.gt_one
  rw [mask_succ]
  constructor
  · intro hmod
    by_contra hne
    have heq := (Ring.mod_eq_iff_of_window (by omega) (by omega)).mp hmod.symm
    omega
  · intro hfull
    have hwrap : puts + 1 = takes + n.size := by omega
    rw [hwrap, Nat.add_mod_right]

/-- An event of neither kind leaves the account of the slots as it was. -/
lemma SlotsHold.log {n : Nat} {w' : SpscRing α} (h : w.SlotsHold n) (hslots : w'.slots = w.slots)
    (hreads : w'.reads = w.reads) (hpushed : pushed w'.trace = pushed w.trace) : w'.SlotsHold n := by
  intro i hlow hhigh
  rw [hreads] at hlow
  unfold puts at hhigh
  rw [hpushed] at hhigh ⊢
  rw [hslots]
  exact h i hlow hhigh

lemma takes_le_reads (w : SpscRing α) : takes w.trace ≤ w.reads := by
  unfold reads
  split <;> omega

lemma reads_congr {w' : SpscRing α} (hpc : w'.consumer = w.consumer) (htakes : takes w'.trace = takes w.trace) :
    w'.reads = w.reads := by
  unfold reads
  rw [hpc, htakes]

/-- `push` keeps the invariant at each of its accesses. -/
lemma Inv.pushStep (h : w.Inv n.size) (value : α) : (w.pushStep n value).Inv n.size := by
  obtain ⟨hpre, hbound⟩ := h.history.prefix_and_bound
  have hle : takes w.trace ≤ puts w.trace := hpre.length_le
  have hproducer := h.producer
  have hone := n.gt_one
  unfold ProducerKnows at hproducer
  unfold SpscRing.pushStep
  cases hp : w.producer with
  | idle => exact ⟨h.history, h.tail, h.head, h.slots, rfl, h.consumer⟩
  | tailLoaded value tail =>
    rw [hp] at hproducer
    have hfull : n.mask (tail + 1) = w.head ↔ puts w.trace = takes w.trace + (n.size - 1) := by
      rw [hproducer, h.tail, h.head]
      exact full_iff n hle hbound
    simp only
    split
    · rename_i hmask
      refine ⟨h.history.snoc (hfull.mp hmask), ?_, ?_, ?_, trivial, ?_⟩
      · simpa [puts, pushed] using h.tail
      · simpa [takes, popped] using h.head
      · exact h.slots.log rfl (reads_congr rfl (by simp [takes, popped])) (by simp [pushed])
      · exact h.consumer.mono rfl rfl (by simp [takes, popped]) (by simp [pushed])
    · rename_i hmask
      have hroom := mt hfull.mpr hmask
      refine ⟨h.history, h.tail, h.head, h.slots, ⟨hproducer, ?_⟩, h.consumer⟩
      show puts w.trace < takes w.trace + (n.size - 1)
      omega
  | headChecked value tail =>
    rw [hp] at hproducer
    obtain ⟨htail, hroom⟩ := hproducer
    have hslot : tail = puts w.trace % n.size := htail.trans h.tail
    refine ⟨h.history.snoc ⟨hslot, hroom⟩, ?_, ?_, ?_, ?_, ?_⟩
    · simpa [puts, pushed] using h.tail
    · simpa [takes, popped] using h.head
    · intro i hlow hhigh
      have hreads : w.reads ≤ i := by simpa [reads, takes, popped] using hlow
      have hi : i < puts w.trace := by simpa [puts, pushed] using hhigh
      have hother : i % n.size ≠ tail := by
        rw [hslot]
        intro hsame
        have hlower := w.takes_le_reads
        have heq := (Ring.mod_eq_iff_of_window (by omega) (by omega)).mp hsame
        omega
      simpa [pushed, Function.update_of_ne hother] using h.slots i hreads hi
    · refine ⟨htail, ?_, by simp⟩
      simpa [puts, takes, pushed, popped] using hroom
    · exact h.consumer.mono rfl rfl (by simp [takes, popped]) (by simp [pushed])
  | slotWritten value tail =>
    rw [hp] at hproducer
    obtain ⟨htail, hroom, hvalue⟩ := hproducer
    have hslot : tail = puts w.trace % n.size := htail.trans h.tail
    refine ⟨h.history.snoc ⟨hslot, hroom⟩, ?_, ?_, ?_, trivial, ?_⟩
    · simp only [hslot, mask_succ]
      simp [puts, pushed]
    · simpa [takes, popped] using h.head
    · intro i hlow hhigh
      have hreads : w.reads ≤ i := by simpa [reads, takes, popped] using hlow
      have hpushed : pushed (w.trace ++ [.published tail value]) = pushed w.trace ++ [value] := by simp [pushed]
      simp only
      rw [hpushed]
      by_cases hi : i < puts w.trace
      · rw [List.getElem?_append_left hi]
        exact h.slots i hreads hi
      · have hlast : i = puts w.trace := by
          simp only [puts, hpushed, List.length_append, List.length_singleton] at hhigh hi ⊢
          omega
        rw [hlast, ← hslot, hvalue, puts, List.getElem?_concat_length]
    · exact h.consumer.mono rfl rfl (by simp [takes, popped]) (by simp [pushed])

/-- `pop` keeps the invariant at each of its accesses. -/
lemma Inv.popStep (h : w.Inv n.size) (left : α) : (w.popStep n left).Inv n.size := by
  obtain ⟨hpre, hbound⟩ := h.history.prefix_and_bound
  have hle : takes w.trace ≤ puts w.trace := hpre.length_le
  have hconsumer := h.consumer
  have hone := n.gt_one
  unfold ConsumerKnows at hconsumer
  unfold SpscRing.popStep
  cases hc : w.consumer with
  | idle =>
    have hreads : w.reads = takes w.trace := by rw [reads, hc]
    refine ⟨h.history, h.tail, h.head, h.slots.log rfl ?_ rfl, h.producer, rfl⟩
    rw [hreads, reads]
  | headLoaded head =>
    rw [hc] at hconsumer
    have hreads : w.reads = takes w.trace := by rw [reads, hc]
    have hempty : head = w.tail ↔ puts w.trace = takes w.trace := by
      rw [hconsumer, h.tail, h.head, Ring.mod_eq_iff_of_window hle (by omega), eq_comm]
    simp only
    split
    · rename_i hsame
      refine ⟨h.history.snoc (hempty.mp hsame), ?_, ?_, ?_, ?_, trivial⟩
      · simpa [puts, pushed] using h.tail
      · simpa [takes, popped] using h.head
      · refine h.slots.log rfl ?_ (by simp [pushed])
        rw [hreads]
        simp [reads, takes, popped]
      · exact h.producer.mono rfl rfl (by simp [puts, pushed]) (by simp [takes, popped]) fun _ => rfl
    · rename_i hdiffer
      have hsome := mt hempty.mpr hdiffer
      refine ⟨h.history, h.tail, h.head, h.slots.log rfl ?_ rfl, h.producer, hconsumer, ?_⟩
      · rw [hreads, reads]
      · show takes w.trace < puts w.trace
        omega
  | tailChecked head =>
    rw [hc] at hconsumer
    obtain ⟨hhead, hsome⟩ := hconsumer
    have hslot : head = takes w.trace % n.size := hhead.trans h.head
    have hreads : w.reads = takes w.trace := by rw [reads, hc]
    refine ⟨h.history, h.tail, h.head, ?_, ?_, hhead, ?_⟩
    · intro i hlow hhigh
      have hafter : takes w.trace + 1 ≤ i := hlow
      have hi : i < puts w.trace := hhigh
      have hother : i % n.size ≠ head := by
        rw [hslot]
        intro hsame
        have heq := (Ring.mod_eq_iff_of_window (by omega) (by omega)).mp hsame.symm
        omega
      simp only [Function.update_of_ne hother]
      exact h.slots i (by omega) hi
    · refine h.producer.mono rfl rfl rfl le_rfl fun hroom => ?_
      have hother : w.tail ≠ head := by
        rw [hslot, h.tail]
        intro hsame
        have heq := (Ring.mod_eq_iff_of_window hle (by omega)).mp hsame.symm
        omega
      exact Function.update_of_ne hother _ _
    · rw [hslot]
      exact h.slots (takes w.trace) (by omega) hsome
  | slotRead head out =>
    rw [hc] at hconsumer
    obtain ⟨hhead, hout⟩ := hconsumer
    have hslot : head = takes w.trace % n.size := hhead.trans h.head
    have hreads : w.reads = takes w.trace + 1 := by rw [reads, hc]
    refine ⟨h.history.snoc ⟨hslot, hout⟩, ?_, ?_, ?_, ?_, trivial⟩
    · simpa [puts, pushed] using h.tail
    · simp only [hslot, mask_succ]
      simp [takes, popped]
    · refine h.slots.log rfl ?_ (by simp [pushed])
      rw [hreads]
      simp [reads, takes, popped]
    · exact h.producer.mono rfl rfl (by simp [puts, pushed]) (by simp [takes, popped]) fun _ => rfl

lemma Inv.step (h : w.Inv n.size) (a : RingAction α) : (w.step n a).Inv n.size := by
  cases a with
  | producer value => exact h.pushStep value
  | consumer left => exact h.popStep left

lemma inv_init (n : RingCapacity) (slots : Nat → α) : ({ slots := slots } : SpscRing α).Inv n.size := by
  refine ⟨.nil, rfl, rfl, ?_, trivial, trivial⟩
  intro i _ hhigh
  exact absurd hhigh (Nat.not_lt_zero i)

theorem inv_exec (n : RingCapacity) (slots : Nat → α) (as : List (RingAction α)) :
    (Runs.exec (step n) { slots := slots } as).Inv n.size :=
  Runs.exec_invariant (fun w : SpscRing α => w.Inv n.size) (fun _ a h => h.step a) (inv_init n slots) as

/-- `size()` of one instant counts the values that are published and not yet consumed. -/
theorem size_exec (n : RingCapacity) (slots : Nat → α) (as : List (RingAction α)) :
    let w := Runs.exec (step n) { slots := slots } as
    w.size n = puts w.trace - takes w.trace := by
  intro w
  have h : w.Inv n.size := inv_exec n slots as
  obtain ⟨hpre, hbound⟩ := h.history.prefix_and_bound
  have hle : takes w.trace ≤ puts w.trace := hpre.length_le
  have hone := n.gt_one
  have hfits := n.fits
  obtain ⟨d, hd⟩ := Nat.exists_eq_add_of_le hle
  have hhead : takes w.trace % n.size < n.size := Nat.mod_lt _ (by omega)
  have hback : w.tail + 2 ^ 64 - w.head + takes w.trace ≡ d + takes w.trace [MOD n.size] := by
    have hsum : w.tail + 2 ^ 64 - w.head + takes w.trace ≡ w.tail + 2 ^ 64 - w.head + w.head [MOD n.size] := by
      apply Nat.ModEq.add_left
      rw [h.head]
      exact (Nat.mod_modEq _ _).symm
    have hcancel : w.tail + 2 ^ 64 - w.head + w.head = w.tail + 2 ^ 64 := by
      rw [h.head]
      omega
    have htail : w.tail + 2 ^ 64 ≡ puts w.trace [MOD n.size] := by
      have hwrap : 2 ^ 64 ≡ 0 [MOD n.size] := Nat.modEq_zero_iff_dvd.mpr (size_dvd n)
      have hadd := (Nat.mod_modEq (puts w.trace) n.size).add hwrap
      rwa [← h.tail, Nat.add_zero] at hadd
    rw [hcancel] at hsum
    exact hsum.trans (htail.trans (by rw [hd, Nat.add_comm]))
  have hmod := Nat.ModEq.add_right_cancel' (takes w.trace) hback
  rw [size, mask_eq, Nat.mod_mod_of_dvd _ (size_dvd n), hmod, Nat.mod_eq_of_lt (by omega)]
  omega

/-- The values that wait in the ring, the oldest first. -/
def stored (w : SpscRing α) : List α := (pushed w.trace).drop (takes w.trace)

lemma trace_step (n : RingCapacity) (w : SpscRing α) (a : RingAction α) :
    (w.step n a).trace = w.trace ∨ ∃ e, (w.step n a).trace = w.trace ++ [e] := by
  cases a with
  | producer value =>
    simp only [step, SpscRing.pushStep]
    split
    · exact .inl rfl
    · split
      · exact .inr ⟨_, rfl⟩
      · exact .inl rfl
    · exact .inr ⟨_, rfl⟩
    · exact .inr ⟨_, rfl⟩
  | consumer left =>
    simp only [step, SpscRing.popStep]
    split
    · exact .inl rfl
    · split
      · exact .inr ⟨_, rfl⟩
      · exact .inl rfl
    · exact .inl rfl
    · exact .inr ⟨_, rfl⟩

lemma History.allowed {n : Nat} {trace : List (RingEvent α)} {e : RingEvent α} (h : History n (trace ++ [e])) :
    Allowed n trace e := by
  generalize hlong : trace ++ [e] = long at h
  cases h with
  | nil => simp at hlong
  | snoc h he =>
    have hends := List.append_inj' hlong rfl
    rw [hends.1, List.singleton_inj.mp hends.2]
    exact he

end SpscRing

/-- The ring of the capture path. -/
def captureRingCapacity : RingCapacity := ⟨kCaptureRingCapacity, by decide, by decide, by decide⟩

/-- To the outside a step of the capture ring is nothing, a whole `push` or a whole `pop` of `CaptureRing`. -/
theorem SpscRing.refines_captureRing (slots : Nat → AudioFrame) (as : List (RingAction AudioFrame))
    (a : RingAction AudioFrame) (r : CaptureRing) :
    let w := Runs.exec (SpscRing.step captureRingCapacity) { slots := slots } as
    r.frames = w.stored →
    (w.step captureRingCapacity a).stored = r.frames ∨
      (∃ f r', r.push f = some r' ∧ (w.step captureRingCapacity a).stored = r'.frames) ∨
      (w.step captureRingCapacity a).stored = r.pop.frames := by
  intro w hr
  have h : w.Inv captureRingCapacity.size := SpscRing.inv_exec captureRingCapacity slots as
  have hafter := h.step a
  obtain ⟨hpre, hbound⟩ := h.history.prefix_and_bound
  have hle : takes w.trace ≤ puts w.trace := hpre.length_le
  unfold stored at hr ⊢
  cases trace_step captureRingCapacity w a with
  | inl hsame =>
    left
    rw [hsame, hr]
  | inr hlog =>
    obtain ⟨e, he⟩ := hlog
    have hallowed := hafter.history
    rw [he] at hallowed ⊢
    have hevent := hallowed.allowed
    cases e with
    | wrote slot => exact .inl (by simp [pushed, popped, takes, hr])
    | published slot value =>
      have hpush : pushed (w.trace ++ [.published slot value]) = pushed w.trace ++ [value] := by simp [pushed]
      have htake : takes (w.trace ++ [.published slot value]) = takes w.trace := by simp [takes, popped]
      have hroom : r.frames.length ≠ kCaptureRingCapacity - 1 := by
        have hlt : puts w.trace < takes w.trace + (kCaptureRingCapacity - 1) := hevent.2
        rw [hr, List.length_drop]
        unfold puts at hlt hle
        omega
      right
      left
      refine ⟨value, _, by rw [CaptureRing.push, dif_neg hroom], ?_⟩
      rw [hpush, htake, List.drop_append_of_le_length hle, ← hr]
    | rejected => exact .inl (by simp [pushed, popped, takes, hr])
    | consumed slot value =>
      have hpush : pushed (w.trace ++ [.consumed slot value]) = pushed w.trace := by simp [pushed]
      have htake : takes (w.trace ++ [.consumed slot value]) = takes w.trace + 1 := by simp [takes, popped]
      right
      right
      show (pushed (w.trace ++ [.consumed slot value])).drop (takes (w.trace ++ [.consumed slot value])) = r.frames.tail
      rw [hpush, htake, hr, List.tail_drop]
    | empty => exact .inl (by simp [pushed, popped, takes, hr])

/-- Every interleaving of a producer and a consumer, at the grain of single accesses: the popped values come first
among those for which `push` returned true, no more than `Capacity - 1` of them are stored, a `push` is refused only
when that many are, and a slot is written again only after the consumer has moved past it. -/
theorem spscRing_isFifo {α : Type*} (n : RingCapacity) (slots : Nat → α) (as : List (RingAction α)) :
    let trace := (Runs.exec (SpscRing.step n) { slots := slots } as).trace
    SpscRing.popped trace <+: SpscRing.pushed trace ∧
      (SpscRing.pushed trace).length - (SpscRing.popped trace).length ≤ n.size - 1 ∧
      (∀ before after, trace = before ++ .rejected :: after →
        (SpscRing.pushed before).length = (SpscRing.popped before).length + (n.size - 1)) ∧
      ∀ before slot value between after,
        trace = before ++ .published slot value :: between ++ .wrote slot :: after →
        ∃ v, .consumed slot v ∈ between := by
  intro trace
  have h : SpscRing.History n.size trace := (SpscRing.inv_exec n slots as).history
  have hbounds := h.prefix_and_bound
  refine ⟨hbounds.1, ?_, fun before after hsplit => h.full_of_rejected hsplit, ?_⟩
  · have hbound : (SpscRing.pushed trace).length ≤ (SpscRing.popped trace).length + (n.size - 1) := hbounds.2
    omega
  · exact fun before slot value between after hsplit => h.consumed_between n.gt_one hsplit

end Acva
