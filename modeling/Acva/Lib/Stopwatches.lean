import Mathlib.Data.List.DropRight
import Mathlib.Data.List.Induction

/-!
# Stopwatches by key

A store of stopwatches, one for each key. A press starts the watch of its key anew, laps it, or stops it; a lap is read
only once after a start, and a stop whenever the watch runs. What a press reads depends only on the presses of its key
before it.
-/

namespace Stopwatches

inductive Button
  | start
  | lap
  | stop
  deriving DecidableEq, Repr

structure Press (κ τ : Type*) where
  key : κ
  button : Button
  now : τ
  deriving DecidableEq, Repr

structure Watch (τ : Type*) where
  startedAt : τ
  lapped : Bool := false
  deriving DecidableEq, Repr

variable {κ τ : Type*}

/-- When the watch that the press reads was started. -/
def reads (m : κ → Option (Watch τ)) (p : Press κ τ) : Option τ :=
  match p.button with
  | .start => none
  | .lap => (m p.key).bind fun w => if w.lapped then none else some w.startedAt
  | .stop => (m p.key).map Watch.startedAt

lemma reads_lap {m : κ → Option (Watch τ)} {p : Press κ τ} (h : p.button = .lap) (t : τ) :
    reads m p = some t ↔ m p.key = some { startedAt := t } := by
  unfold reads
  rw [h]
  dsimp only
  cases hw : m p.key with
  | none => simp
  | some w =>
    obtain ⟨startedAt, lapped⟩ := w
    cases lapped <;> simp

lemma reads_stop {m : κ → Option (Watch τ)} {p : Press κ τ} (h : p.button = .stop) (t : τ) :
    reads m p = some t ↔ ∃ w, m p.key = some w ∧ w.startedAt = t := by
  unfold reads
  rw [h]
  exact Option.map_eq_some_iff

/-! ### The presses of one key -/

def Press.isLap (p : Press κ τ) : Bool := p.button = .lap

/-- The presses of one key before the laps at their end. -/
def beforeLaps (l : List (Press κ τ)) : List (Press κ τ) := l.rdropWhile Press.isLap

/-- When the last press was, if it is a start. -/
def startOf (l : List (Press κ τ)) : Option τ := l.getLast?.bind fun p => if p.button = .start then some p.now else none

/-- Before the laps at the end there is a start. -/
structure Running (l : List (Press κ τ)) (w : Watch τ) : Prop where
  started : startOf (beforeLaps l) = some w.startedAt
  lapped : w.lapped = l.getLast?.any Press.isLap

lemma startOf_start {l : List (Press κ τ)} {p : Press κ τ} (h : p.button = .start) :
    startOf (l ++ [p]) = some p.now := by
  simp [startOf, h]

lemma startOf_of_ne {l : List (Press κ τ)} {p : Press κ τ} (h : p.button ≠ .start) : startOf (l ++ [p]) = none := by
  simp [startOf, h]

lemma beforeLaps_lap {l : List (Press κ τ)} {p : Press κ τ} (h : p.button = .lap) :
    beforeLaps (l ++ [p]) = beforeLaps l := List.rdropWhile_concat_pos _ _ _ (by simp [Press.isLap, h])

lemma beforeLaps_of_ne {l : List (Press κ τ)} {p : Press κ τ} (h : p.button ≠ .lap) :
    beforeLaps (l ++ [p]) = l ++ [p] := List.rdropWhile_concat_neg _ _ _ (by simp [Press.isLap, h])

lemma not_running_nil (w : Watch τ) : ¬Running ([] : List (Press κ τ)) w := by
  rintro ⟨hstarted, -⟩
  cases hstarted

lemma not_running_of_stop {l : List (Press κ τ)} {p : Press κ τ} (h : p.button = .stop) (w : Watch τ) :
    ¬Running (l ++ [p]) w := by
  rintro ⟨hstarted, -⟩
  rw [beforeLaps_of_ne (by simp [h]), startOf_of_ne (by simp [h])] at hstarted
  cases hstarted

lemma running_start_iff {l : List (Press κ τ)} {p : Press κ τ} (h : p.button = .start) (w : Watch τ) :
    Running (l ++ [p]) w ↔ w = { startedAt := p.now } := by
  have hbefore : beforeLaps (l ++ [p]) = l ++ [p] := beforeLaps_of_ne (by simp [h])
  have hlast : (l ++ [p]).getLast?.any Press.isLap = false := by simp [Press.isLap, h]
  constructor
  · rintro ⟨hstarted, hlapped⟩
    rw [hbefore, startOf_start h] at hstarted
    obtain ⟨startedAt, lapped⟩ := w
    simp_all
  · rintro rfl
    exact ⟨by rw [hbefore, startOf_start h], hlast.symm⟩

lemma running_lap_iff {l : List (Press κ τ)} {p : Press κ τ} (h : p.button = .lap) (w : Watch τ) :
    Running (l ++ [p]) w ↔ ∃ w', Running l w' ∧ { w' with lapped := true } = w := by
  have hlast : (l ++ [p]).getLast?.any Press.isLap = true := by simp [Press.isLap, h]
  constructor
  · rintro ⟨hstarted, hlapped⟩
    rw [beforeLaps_lap h] at hstarted
    refine ⟨⟨w.startedAt, l.getLast?.any Press.isLap⟩, ⟨hstarted, rfl⟩, ?_⟩
    obtain ⟨startedAt, lapped⟩ := w
    simp_all
  · rintro ⟨w', ⟨hstarted, -⟩, rfl⟩
    exact ⟨by rwa [beforeLaps_lap h], hlast.symm⟩

/-! ### The store -/

section Store

variable [DecidableEq κ]

/-- The running watches after a press. -/
def press (m : κ → Option (Watch τ)) (p : Press κ τ) : κ → Option (Watch τ) :=
  match p.button with
  | .start => Function.update m p.key (some { startedAt := p.now })
  | .lap => Function.update m p.key ((m p.key).map fun w => { w with lapped := true })
  | .stop => Function.update m p.key none

def run (ps : List (Press κ τ)) : κ → Option (Watch τ) := ps.foldl press fun _ => none

/-- The presses of a key. -/
def presses (k : κ) (ps : List (Press κ τ)) : List (Press κ τ) := ps.filter fun p => p.key = k

lemma run_append_singleton (ps : List (Press κ τ)) (p : Press κ τ) : run (ps ++ [p]) = press (run ps) p := by
  simp [run, List.foldl_append]

lemma presses_append_of_eq {k : κ} {p : Press κ τ} (h : p.key = k) (ps : List (Press κ τ)) :
    presses k (ps ++ [p]) = presses k ps ++ [p] := by simp [presses, h]

lemma presses_append_of_ne {k : κ} {p : Press κ τ} (h : p.key ≠ k) (ps : List (Press κ τ)) :
    presses k (ps ++ [p]) = presses k ps := by simp [presses, h]

lemma press_of_ne {k : κ} {p : Press κ τ} (h : k ≠ p.key) (m : κ → Option (Watch τ)) : press m p k = m k := by
  cases hbutton : p.button <;> simp [press, hbutton, h]

/-- A watch runs as the presses of its key tell. -/
theorem run_eq_some_iff (ps : List (Press κ τ)) (k : κ) (w : Watch τ) :
    run ps k = some w ↔ Running (presses k ps) w := by
  induction ps using List.reverseRecOn generalizing w with
  | nil => simpa [run, presses] using not_running_nil w
  | append_singleton ps p ih =>
    rw [run_append_singleton]
    by_cases hk : k = p.key
    · subst hk
      rw [presses_append_of_eq rfl, press]
      cases hbutton : p.button with
      | start => simp [running_start_iff hbutton, eq_comm]
      | lap => simp [running_lap_iff hbutton, ih]
      | stop => simpa using not_running_of_stop hbutton w
    · rw [press_of_ne hk, presses_append_of_ne (Ne.symm hk), ih]

/-- A lap is read if the last press of its key was a start. -/
theorem reads_lap_eq (ps : List (Press κ τ)) {p : Press κ τ} (h : p.button = .lap) :
    reads (run ps) p = startOf (presses p.key ps) := by
  ext t
  rw [reads_lap h, run_eq_some_iff]
  induction presses p.key ps using List.reverseRecOn with
  | nil => simpa [startOf] using not_running_nil { startedAt := t }
  | append_singleton l q =>
    cases hbutton : q.button with
    | start => simp [running_start_iff hbutton, startOf_start hbutton, eq_comm]
    | lap => simp [running_lap_iff hbutton, startOf_of_ne, hbutton]
    | stop => simpa [startOf_of_ne, hbutton] using not_running_of_stop hbutton { startedAt := t }

/-- A stop is read if there is a start before the laps at the end of the presses of its key. -/
theorem reads_stop_eq (ps : List (Press κ τ)) {p : Press κ τ} (h : p.button = .stop) :
    reads (run ps) p = startOf (beforeLaps (presses p.key ps)) := by
  ext t
  simp only [reads_stop h, run_eq_some_iff]
  constructor
  · rintro ⟨w, ⟨hstarted, -⟩, rfl⟩
    exact hstarted
  · intro hstarted
    exact ⟨⟨t, _⟩, ⟨hstarted, rfl⟩, rfl⟩

end Store

end Stopwatches
