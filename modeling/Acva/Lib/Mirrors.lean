import Mathlib.Data.List.Basic

/-!
# Mirrors of a part of a state

A mirror keeps a copy of `view` of a state that others change. Of some changes it is told, and then it copies the view
anew; the changes it is not told of leave the view alone. The mirror may have come into being late, with a copy that
was no longer the view.
-/

namespace Mirrors

variable {σ β : Type*} (view : σ → β)

/-- A change: the state after it, and whether the mirror is told. -/
structure Change (σ : Type*) where
  next : σ
  told : Bool

/-- The state and the mirror after a change. -/
def follow (p : σ × β) (c : Change σ) : σ × β := (c.next, if c.told then view c.next else p.2)

/-- The changes from `s` on that the mirror is not told of leave the view alone. -/
def Quiet : σ → List (Change σ) → Prop
  | _, [] => True
  | s, c :: cs => (c.told = false → view c.next = view s) ∧ Quiet c.next cs

variable {view}

/-- The mirror shows the state exactly when it did so from the start or was told of a change. -/
theorem follows_iff {s : σ} {m : β} {cs : List (Change σ)} (h : Quiet view s cs) :
    (cs.foldl (follow view) (s, m)).2 = view (cs.foldl (follow view) (s, m)).1 ↔
      m = view s ∨ ∃ c ∈ cs, c.told = true := by
  induction cs generalizing s m with
  | nil => simp
  | cons c cs ih =>
    rw [List.foldl_cons, show follow view (s, m) c = (c.next, if c.told then view c.next else m) from rfl, ih h.2]
    cases htold : c.told with
    | true => simp [htold]
    | false => simp [htold, h.1 htold]

end Mirrors
