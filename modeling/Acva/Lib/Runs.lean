import Mathlib.Order.Nat

/-!
# Runs of a transition function

A system is a state type `σ`, an action type `α` and a total `step`. An action that is not
enabled leaves the state alone, so every list of actions is a schedule and a statement about
all lists covers every interleaving of the processes whose actions `α` collects.
-/

namespace Runs

variable {σ τ α : Type*} {step : σ → α → σ}

/-- The state reached by a schedule. -/
def exec (step : σ → α → σ) (s : σ) (as : List α) : σ := as.foldl step s

/-- Every action of the schedule meets `P` in the state it is taken from. -/
def Along (step : σ → α → σ) (P : σ → α → Prop) : σ → List α → Prop
  | _, [] => True
  | s, a :: as => P s a ∧ Along step P (step s a) as

@[simp] lemma exec_nil (s : σ) : exec step s [] = s := rfl

@[simp] lemma exec_cons (s : σ) (a : α) (as : List α) :
    exec step s (a :: as) = exec step (step s a) as := rfl

@[simp] lemma exec_append (s : σ) (as bs : List α) :
    exec step s (as ++ bs) = exec step (exec step s as) bs := by
  simp [exec, List.foldl_append]

instance Along.decidable {P : σ → α → Prop} [∀ s a, Decidable (P s a)] (s : σ) (as : List α) :
    Decidable (Along step P s as) :=
  match as with
  | [] => isTrue trivial
  | a :: as => @instDecidableAnd _ _ _ (Along.decidable (step s a) as)

/-- An invariant that every step keeps holds after every schedule. -/
theorem exec_invariant (I : σ → Prop) (hstep : ∀ s a, I s → I (step s a)) {s : σ} (h : I s)
    (as : List α) : I (exec step s as) := by
  induction as generalizing s with
  | nil => exact h
  | cons a as ih => exact ih (hstep s a h)

/-- An invariant kept by the steps that meet `P` holds after every schedule along which `P` holds. -/
theorem Along.invariant {P : σ → α → Prop} (I : σ → Prop)
    (hstep : ∀ s a, I s → P s a → I (step s a)) {s : σ} {as : List α}
    (hP : Along step P s as) (h : I s) : I (exec step s as) := by
  induction as generalizing s with
  | nil => exact h
  | cons a as ih => exact ih hP.2 (hstep s a h hP.1)

/-- What follows from `P` and an invariant that the steps that meet `P` keep, holds along the schedule too. -/
theorem Along.imp {P R : σ → α → Prop} (I : σ → Prop) (hstep : ∀ s a, I s → P s a → I (step s a))
    (himp : ∀ s a, I s → P s a → R s a) {s : σ} {as : List α} (hP : Along step P s as) (h : I s) :
    Along step R s as := by
  induction as generalizing s with
  | nil => trivial
  | cons a as ih => exact ⟨himp s a h hP.1, ih hP.2 (hstep s a h hP.1)⟩

/-- Conditions that agree in the states of an invariant hold along the same schedules. -/
theorem along_congr {P R : σ → α → Prop} {I : σ → Prop} (hinv : ∀ s a, I s → I (step s a))
    (hiff : ∀ s a, I s → (P s a ↔ R s a)) {s : σ} (h : I s) (as : List α) :
    Along step P s as ↔ Along step R s as := by
  induction as generalizing s with
  | nil => exact Iff.rfl
  | cons a as ih => exact and_congr (hiff s a h) (ih (hinv s a h))

lemma Along.of_forall {p : α → Prop} {as : List α} (h : ∀ a ∈ as, p a) (s : σ) :
    Along step (fun _ a => p a) s as := by
  induction as generalizing s with
  | nil => trivial
  | cons a as ih => exact ⟨h a (by simp), ih (fun b hb => h b (by simp [hb])) _⟩

lemma Along.and {P R : σ → α → Prop} {s : σ} {as : List α} (hP : Along step P s as) (hR : Along step R s as) :
    Along step (fun s a => P s a ∧ R s a) s as := by
  induction as generalizing s with
  | nil => trivial
  | cons a as ih => exact ⟨⟨hP.1, hR.1⟩, ih hP.2 hR.2⟩

/-- A property that a step keeps exactly when it meets `P` holds after the schedules along which `P` holds,
and after no others; all this among the schedules along which `N` holds. `I` is an invariant of those. -/
theorem Along.exec_iff {N P : σ → α → Prop} {I Q : σ → Prop} (hinv : ∀ s a, I s → N s a → I (step s a))
    (hstep : ∀ s a, I s → N s a → (Q (step s a) ↔ Q s ∧ P s a)) {s : σ} {as : List α} (hN : Along step N s as)
    (h : I s) : Q (exec step s as) ↔ Q s ∧ Along step P s as := by
  induction as generalizing s with
  | nil => simp [Along]
  | cons a as ih => rw [exec_cons, ih hN.2 (hinv s a h hN.1), hstep s a h hN.1, and_assoc, Along]

/-- The same for all schedules. -/
theorem exec_iff_along {P : σ → α → Prop} {I Q : σ → Prop} (hinv : ∀ s a, I s → I (step s a))
    (hstep : ∀ s a, I s → (Q (step s a) ↔ Q s ∧ P s a)) {s : σ} (h : I s) (as : List α) :
    Q (exec step s as) ↔ Q s ∧ Along step P s as :=
  Along.exec_iff (fun s a hI _ => hinv s a hI) (fun s a hI _ => hstep s a hI)
    (Along.of_forall (fun _ _ => trivial) s) h

/-- Steps that meet `P` keep `I`, any other step breaks `Q`: so `Q` holds all along a schedule exactly when
every step of it meets `P`. -/
theorem prefixes_iff_along {P : σ → α → Prop} {I Q : σ → Prop} (hweak : ∀ s, I s → Q s)
    (hkeep : ∀ s a, I s → P s a → I (step s a)) (hbreak : ∀ s a, I s → Q (step s a) → P s a) {s : σ} (h : I s)
    (as : List α) : (∀ before, before <+: as → Q (exec step s before)) ↔ Along step P s as := by
  constructor
  · intro hall
    induction as generalizing s with
    | nil => trivial
    | cons a as ih =>
      have hstep : P s a := hbreak s a h (hall [a] ⟨as, rfl⟩)
      refine ⟨hstep, ih (hkeep s a h hstep) fun before hbefore => ?_⟩
      exact hall (a :: before) (List.cons_prefix_cons.mpr ⟨rfl, hbefore⟩)
  · rintro halong before ⟨after, rfl⟩
    apply hweak
    induction before generalizing s with
    | nil => exact h
    | cons a before ih => exact ih (hkeep s a h halong.1) halong.2

/-- A quantity that no step lowers is no lower after a schedule. -/
theorem exec_monotone [Preorder τ] (f : σ → τ) (hstep : ∀ s a, f s ≤ f (step s a)) (s : σ)
    (as : List α) : f s ≤ f (exec step s as) :=
  exec_invariant (fun s' => f s ≤ f s') (fun s' a h => h.trans (hstep s' a)) le_rfl as

end Runs
