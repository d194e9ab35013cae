import Mathlib.Tactic.Common

/-!
# Transactions of a database engine

A connection holds what is stored and, while a transaction is open, the working copy. Each call succeeds or fails on
its own. An error leaves the effect of the failed call out, and it may end the open transaction as well. Without an
open transaction a write goes to the store at once.
-/

namespace Transactions

variable {σ ε α β : Type}

inductive Outcome (ε : Type)
  | ok
  | fails (e : ε)
  | rollsBack (e : ε)
  deriving DecidableEq, Repr

def Outcome.succeeds : Outcome ε → Bool
  | .ok => true
  | _ => false

/-- An error after which a transaction that was open still is. -/
def Outcome.leavesOpen : Outcome ε → Bool
  | .fails _ => true
  | _ => false

structure Connection (σ : Type) where
  stored : σ
  working : Option σ := none
  deriving DecidableEq, Repr

namespace Connection

/-- What the connection reads. -/
def content (c : Connection σ) : σ := c.working.getD c.stored

def update (c : Connection σ) (f : σ → σ) : Connection σ :=
  match c.working with
  | none => { c with stored := f c.stored }
  | some w => { c with working := some (f w) }

def abandon (c : Connection σ) : Connection σ := { c with working := none }

@[simp] lemma content_update (c : Connection σ) (f : σ → σ) : (c.update f).content = f c.content := by
  obtain ⟨stored, _ | w⟩ := c <;> rfl

@[simp] lemma update_update (c : Connection σ) (f g : σ → σ) :
    (c.update f).update g = c.update fun x => g (f x) := by
  obtain ⟨stored, _ | w⟩ := c <;> rfl

@[simp] lemma update_id (c : Connection σ) : (c.update fun x => x) = c := by
  obtain ⟨stored, _ | w⟩ := c <;> rfl

end Connection

/-- Code that runs on a connection and may return an error. -/
def Program (σ ε α : Type) := Connection σ → Except ε α × Connection σ

namespace Program

instance : Monad (Program σ ε) where
  pure a := fun c => (.ok a, c)
  bind p f := fun c =>
    match p c with
    | (.ok a, c) => f a c
    | (.error e, c) => (.error e, c)

lemma bind_of_ok {p : Program σ ε α} {f : α → Program σ ε β} {c c' : Connection σ} {a : α}
    (h : p c = (.ok a, c')) : (p >>= f) c = f a c' := by
  simp only [bind, h]

lemma bind_of_error {p : Program σ ε α} {f : α → Program σ ε β} {c c' : Connection σ} {e : ε}
    (h : p c = (.error e, c')) : (p >>= f) c = (.error e, c') := by
  simp only [bind, h]

end Program

def call (o : Outcome ε) : Program σ ε Unit := fun c =>
  match o with
  | .ok => (.ok (), c)
  | .fails e => (.error e, c)
  | .rollsBack e => (.error e, c.abandon)

def read (o : Outcome ε) (f : σ → α) : Program σ ε α := do
  call o
  fun c => (.ok (f c.content), c)

def write (o : Outcome ε) (f : σ → σ) : Program σ ε Unit := do
  call o
  fun c => (.ok (), c.update f)

/-- The error is dropped and `a` stands in for the result. -/
def Program.orElse (p : Program σ ε α) (a : α) : Program σ ε α := fun c =>
  match p c with
  | (.ok b, c) => (.ok b, c)
  | (.error _, c) => (.ok a, c)

/-- The calls that a guard makes; `inactive` is the error of a COMMIT without a transaction. -/
structure Guard (ε : Type) where
  start : Outcome ε
  commit : Outcome ε
  rollback : Outcome ε
  inactive : ε

namespace Guard

/-- BEGIN, whose error is dropped. A transaction does not begin inside another. -/
def enter (g : Guard ε) (c : Connection σ) : Connection σ :=
  match g.start, c.working with
  | .ok, none => { c with working := some c.stored }
  | .rollsBack _, _ => c.abandon
  | _, _ => c

/-- ROLLBACK, whose error is dropped. -/
def leave (g : Guard ε) (c : Connection σ) : Connection σ := if g.rollback.leavesOpen then c else c.abandon

/-- COMMIT. The guard is done with the transaction then, also when it is still open. -/
def close (g : Guard ε) : Program σ ε Unit := do
  call g.commit
  fun c =>
    match c.working with
    | some w => (.ok (), { stored := w })
    | none => (.error g.inactive, c)

end Guard

/-- A body under a guard: COMMIT at its end, ROLLBACK on each error inside. -/
def transaction (g : Guard ε) (body : Program σ ε α) : Program σ ε α := fun c =>
  match body (g.enter c) with
  | (.error e, c) => (.error e, g.leave c)
  | (.ok a, c) => (g.close >>= fun _ => pure a) c

/-- A call with its effect on the content; a read has none. -/
structure Statement (σ ε : Type) where
  outcome : Outcome ε
  effect : σ → σ := fun x => x

def script : List (Statement σ ε) → Program σ ε Unit
  | [] => pure ()
  | s :: rest => do
    write s.outcome s.effect
    script rest

/-- The effects of the statements before the first that fails. -/
def done : List (Statement σ ε) → σ → σ
  | [], x => x
  | s :: rest, x => if s.outcome.succeeds then done rest (s.effect x) else x

/-- How the first call goes that does not succeed. -/
def firstFailure : List (Statement σ ε) → Outcome ε
  | [] => .ok
  | s :: rest => if s.outcome.succeeds then firstFailure rest else s.outcome

variable {l m : List (Statement σ ε)} {c : Connection σ} {x : σ}

lemma firstFailure_append (l m : List (Statement σ ε)) :
    firstFailure (l ++ m) = if (firstFailure l).succeeds then firstFailure m else firstFailure l := by
  induction l with
  | nil => rfl
  | cons s l ih =>
    rw [List.cons_append, firstFailure, firstFailure, ih]
    cases hs : s.outcome.succeeds <;> simp [hs]

lemma done_append (l m : List (Statement σ ε)) (x : σ) :
    done (l ++ m) x = if (firstFailure l).succeeds then done m (done l x) else done l x := by
  induction l generalizing x with
  | nil => rfl
  | cons s l ih =>
    rw [List.cons_append, done, done, firstFailure, ih]
    cases hs : s.outcome.succeeds <;> simp [hs]

lemma script_apply (l : List (Statement σ ε)) (c : Connection σ) :
    script l c = match firstFailure l with
      | .ok => (.ok (), c.update (done l))
      | .fails e => (.error e, c.update (done l))
      | .rollsBack e => (.error e, (c.update (done l)).abandon) := by
  induction l generalizing c with
  | nil =>
    have hc : c.update (done ([] : List (Statement σ ε))) = c := c.update_id
    simp only [firstFailure, hc]
    rfl
  | cons s l ih =>
    obtain ⟨o, f⟩ := s
    cases o with
    | ok =>
      have hc : c.update (done ({ outcome := .ok, effect := f } :: l)) = (c.update f).update (done l) :=
        (c.update_update f (done l)).symm
      have hs : script ({ outcome := .ok, effect := f } :: l) c = script l (c.update f) := rfl
      rw [hs, ih, hc]
      rfl
    | fails e =>
      have hc : c.update (done ({ outcome := .fails e, effect := f } :: l)) = c := c.update_id
      simp only [firstFailure, Outcome.succeeds, Bool.false_eq_true, if_false, hc]
      rfl
    | rollsBack e =>
      have hc : c.update (done ({ outcome := .rollsBack e, effect := f } :: l)) = c := c.update_id
      simp only [firstFailure, Outcome.succeeds, Bool.false_eq_true, if_false, hc]
      rfl

lemma script_append (l m : List (Statement σ ε)) (q : Program σ ε α) (c : Connection σ) :
    (script (l ++ m) >>= fun _ => q) c = (script l >>= fun _ => script m >>= fun _ => q) c := by
  induction l generalizing c with
  | nil => rfl
  | cons s l ih =>
    obtain ⟨o, f⟩ := s
    cases o with
    | ok => exact ih (c.update f)
    | fails e | rollsBack e => rfl

/-- The program makes the calls of the list in order up to the first that fails, and goes on as `q` if none does. -/
def Follows (p : Program σ ε α) (l : List (Statement σ ε)) (q : Program σ ε α) (c : Connection σ) : Prop :=
  p c = (script l >>= fun _ => q) c

lemma script_follows (l m : List (Statement σ ε)) (c : Connection σ) :
    Follows (script l >>= fun _ => script m) (l ++ m) (pure ()) c := by
  have hunit : ∀ d : Connection σ, (script m >>= fun _ => pure ()) d = script m d := fun d => by
    have hs := script_apply m d
    cases hm : firstFailure m with
    | ok =>
      simp only [hm] at hs
      rw [Program.bind_of_ok hs, hs]
      rfl
    | fails e | rollsBack e =>
      simp only [hm] at hs
      rw [Program.bind_of_error hs, hs]
  rw [Follows, script_append]
  have hs := script_apply l c
  cases hl : firstFailure l with
  | ok =>
    simp only [hl] at hs
    rw [Program.bind_of_ok hs, Program.bind_of_ok hs, hunit]
  | fails e | rollsBack e =>
    simp only [hl] at hs
    rw [Program.bind_of_error hs, Program.bind_of_error hs]

lemma Follows.refl (p : Program σ ε α) (c : Connection σ) : Follows p [] p c := rfl

lemma Follows.read_bind {o : Outcome ε} {f : σ → α} {k : α → Program σ ε β} {q : Program σ ε β}
    (hk : Follows (k (f c.content)) m q c) : Follows (read o f >>= k) ({ outcome := o } :: m) q c := by
  cases o with
  | ok =>
    have hc : (script m >>= fun _ => q) (c.update fun x => x) = (script m >>= fun _ => q) c := by
      rw [Connection.update_id]
    exact hk.trans hc.symm
  | fails e | rollsBack e => rfl

lemma Follows.write_bind {o : Outcome ε} {f : σ → σ} {p q : Program σ ε α} (hp : Follows p m q (c.update f)) :
    Follows (write o f >>= fun _ => p) ({ outcome := o, effect := f } :: m) q c := by
  cases o with
  | ok => exact hp
  | fails e | rollsBack e => rfl

lemma Follows.bind {p : Program σ ε α} {f : α → Program σ ε β} {a : α} {q : Program σ ε β}
    (hp : Follows p l (pure a) c) (hf : Follows (f a) m q (c.update (done l))) :
    Follows (p >>= f) (l ++ m) q c := by
  have hs := script_apply l c
  rw [Follows, script_append]
  cases hl : firstFailure l with
  | ok =>
    simp only [hl] at hs
    rw [Program.bind_of_ok (hp.trans (Program.bind_of_ok hs)), Program.bind_of_ok hs]
    exact hf
  | fails e | rollsBack e =>
    simp only [hl] at hs
    rw [Program.bind_of_error (hp.trans (Program.bind_of_error hs)), Program.bind_of_error hs]

/-- The calls of the list, and then reads whose errors are dropped; one of them may have ended the transaction. -/
def FollowsThen (p : Program σ ε α) (l : List (Statement σ ε)) (undone : Bool) (c : Connection σ) : Prop :=
  match firstFailure l with
  | .ok => ∃ a, p c = (.ok a, if undone then (c.update (done l)).abandon else c.update (done l))
  | .fails e => p c = (.error e, c.update (done l))
  | .rollsBack e => p c = (.error e, (c.update (done l)).abandon)

lemma Follows.then {p q : Program σ ε α} {undone : Bool} (hp : Follows p l q c)
    (hq : ∀ c, ∃ a, q c = (.ok a, if undone then c.abandon else c)) : FollowsThen p l undone c := by
  have hs := script_apply l c
  unfold FollowsThen
  cases hl : firstFailure l with
  | ok =>
    obtain ⟨a, ha⟩ := hq (c.update (done l))
    simp only [hl] at hs
    exact ⟨a, (hp.trans (Program.bind_of_ok hs)).trans ha⟩
  | fails e | rollsBack e =>
    simp only [hl] at hs
    exact hp.trans (Program.bind_of_error hs)

lemma done_induction {P : σ → Prop} (hl : ∀ s ∈ l, ∀ y, P y → P (s.effect y)) (hx : P x) : P (done l x) := by
  induction l generalizing x with
  | nil => exact hx
  | cons s l ih =>
    rw [done]
    split
    · exact ih (fun t ht => hl t (List.mem_cons_of_mem _ ht)) (hl s List.mem_cons_self x hx)
    · exact hx

lemma done_of_ok (hl : firstFailure l = .ok) (x : σ) : done l x = l.foldl (fun y s => s.effect y) x := by
  induction l generalizing x with
  | nil => rfl
  | cons s l ih =>
    rw [firstFailure] at hl
    rw [done, List.foldl_cons]
    split at hl
    · rename_i hs
      rw [if_pos hs, ih hl]
    · rename_i hs
      rw [hl] at hs
      exact absurd rfl hs

/-- The calls do not leave the transaction open when they end in an error. -/
def Ends (g : Guard ε) (undone : Bool) (l : List (Statement σ ε)) : Prop :=
  match firstFailure l with
  | .ok => undone = true ∨ g.commit.leavesOpen = false
  | .fails _ => g.rollback.leavesOpen = false
  | .rollsBack _ => True

instance (g : Guard ε) (undone : Bool) (l : List (Statement σ ε)) : Decidable (Ends g undone l) := by
  unfold Ends
  split <;> infer_instance

/-- Every call of the transaction succeeds, and it is there until COMMIT. -/
def Commits (g : Guard ε) (undone : Bool) (l : List (Statement σ ε)) : Prop :=
  firstFailure l = .ok ∧ undone = false ∧ g.commit = .ok

instance [DecidableEq ε] (g : Guard ε) (undone : Bool) (l : List (Statement σ ε)) : Decidable (Commits g undone l) :=
  inferInstanceAs (Decidable (_ ∧ _ ∧ _))

lemma Commits.ends {g : Guard ε} {undone : Bool} (h : Commits g undone l) : Ends g undone l := by
  obtain ⟨hl, -, hc⟩ := h
  simp [Ends, hl, hc, Outcome.leavesOpen]

/-- A call that returns an error leaves the content as it was. -/
def AllOrNothing (p : Program σ ε α) (x : σ) : Prop :=
  ∀ e c, p { stored := x } = (.error e, c) → c.content = x

lemma enter_fresh (g : Guard ε) (x : σ) :
    g.enter { stored := x } = if g.start.succeeds then { stored := x, working := some x } else { stored := x } := by
  cases hs : g.start <;> simp [Guard.enter, hs, Outcome.succeeds, Connection.abandon]

lemma leave_closed (g : Guard ε) (x : σ) : g.leave { stored := x } = { stored := x } := ite_id _

lemma leave_open (g : Guard ε) (x w : σ) :
    g.leave { stored := x, working := some w } =
      if g.rollback.leavesOpen then { stored := x, working := some w } else { stored := x } := rfl

section Guarded

variable {g : Guard ε} {body : Program σ ε α} {undone : Bool}

lemma transaction_of_error {c₁ c₂ : Connection σ} {e : ε} (henter : g.enter c = c₁)
    (h : body c₁ = (.error e, c₂)) : transaction g body c = (.error e, g.leave c₂) := by
  simp only [transaction, henter, h]

lemma transaction_of_ok {c₁ c₂ : Connection σ} {a : α} (henter : g.enter c = c₁) (h : body c₁ = (.ok a, c₂)) :
    transaction g body c = (g.close >>= fun _ => pure a) c₂ := by
  simp only [transaction, henter, h]

lemma close_inactive (g : Guard ε) (x : σ) : ∃ e, g.close { stored := x } = (.error e, { stored := x }) := by
  cases hg : g.commit <;> simp [Guard.close, call, bind, hg, Connection.abandon]

lemma close_active (g : Guard ε) (x w : σ) :
    g.close { stored := x, working := some w } = match g.commit with
      | .ok => (.ok (), { stored := w })
      | .fails e => (.error e, { stored := x, working := some w })
      | .rollsBack e => (.error e, { stored := x }) := by
  cases hg : g.commit <;> simp [Guard.close, call, bind, hg, Connection.abandon]

lemma transaction_without (hbody : ∀ c, c.content = x → FollowsThen body l undone c)
    (hstart : g.start.succeeds = false) :
    ∃ e, transaction g body { stored := x } = (.error e, { stored := done l x }) := by
  have henter : g.enter { stored := x } = { stored := x } := by simp [enter_fresh, hstart]
  have hb := hbody { stored := x } rfl
  unfold FollowsThen at hb
  cases hl : firstFailure l with
  | ok =>
    simp only [hl] at hb
    obtain ⟨a, ha⟩ := hb
    have hc : (if undone then (({ stored := x } : Connection σ).update (done l)).abandon
        else ({ stored := x } : Connection σ).update (done l)) = { stored := done l x } := by
      cases undone <;> rfl
    obtain ⟨e, he⟩ := close_inactive g (done l x)
    rw [hc] at ha
    exact ⟨e, (transaction_of_ok henter ha).trans (Program.bind_of_error he)⟩
  | fails e | rollsBack e =>
    simp only [hl] at hb
    have hleave := leave_closed g (done l x)
    exact ⟨e, (transaction_of_error henter hb).trans (congrArg (Prod.mk _) hleave)⟩

/-- After BEGIN what was written is dropped if the transaction ends, and is there on the connection if it does not. -/
lemma transaction_within (hbody : ∀ c, c.content = x → FollowsThen body l undone c)
    (hstart : g.start.succeeds = true) :
    (Commits g undone l ∧ ∃ a, transaction g body { stored := x } = (.ok a, { stored := done l x })) ∨
      ¬Commits g undone l ∧ ∃ e c, transaction g body { stored := x } = (.error e, c) ∧
        (Ends g undone l → c = { stored := x }) ∧
        (¬ Ends g undone l → c = { stored := x, working := some (done l x) }) := by
  have henter : g.enter { stored := x } = { stored := x, working := some x } := by simp [enter_fresh, hstart]
  have hb := hbody { stored := x, working := some x } rfl
  unfold FollowsThen at hb
  cases hl : firstFailure l with
  | ok =>
    simp only [hl] at hb
    obtain ⟨a, ha⟩ := hb
    have hrun := transaction_of_ok henter ha
    cases undone with
    | true =>
      obtain ⟨e, he⟩ := close_inactive g x
      refine .inr ⟨fun h => absurd h.2.1 (by simp), e, _, hrun.trans (Program.bind_of_error he),
        fun _ => rfl, fun h => ?_⟩
      simp [Ends, hl] at h
    | false =>
      have hclose := close_active g x (done l x)
      cases hc : g.commit with
      | ok =>
        rw [hc] at hclose
        exact .inl ⟨⟨hl, rfl, hc⟩, a, hrun.trans (Program.bind_of_ok hclose)⟩
      | fails e =>
        rw [hc] at hclose
        have hcommits : ¬Commits g false l := fun h => by simp [Commits, hc] at h
        refine .inr ⟨hcommits, e, _, hrun.trans (Program.bind_of_error hclose), fun h => ?_, fun _ => rfl⟩
        simp [Ends, hl, hc, Outcome.leavesOpen] at h
      | rollsBack e =>
        rw [hc] at hclose
        have hcommits : ¬Commits g false l := fun h => by simp [Commits, hc] at h
        refine .inr ⟨hcommits, e, _, hrun.trans (Program.bind_of_error hclose), fun _ => rfl, fun h => ?_⟩
        simp [Ends, hl, hc, Outcome.leavesOpen] at h
  | fails e =>
    simp only [hl] at hb
    refine .inr ⟨fun h => by simp [Commits, hl] at h, e, _, transaction_of_error henter hb, ?_⟩
    have hleave := leave_open g x (done l x)
    cases hr : g.rollback.leavesOpen <;> simpa [Ends, hl, hr, Connection.update] using hleave
  | rollsBack e =>
    simp only [hl] at hb
    refine .inr ⟨fun h => by simp [Commits, hl] at h, e, _, transaction_of_error henter hb,
      fun _ => leave_closed g x, fun h => ?_⟩
    simp [Ends, hl] at h

lemma transaction_succeeds {a : α} (hbody : ∀ c, c.content = x → FollowsThen body l undone c)
    (h : transaction g body { stored := x } = (.ok a, c)) :
    firstFailure l = .ok ∧ undone = false ∧ c = { stored := done l x } ∧
      body { stored := x, working := some x } = (.ok a, { stored := x, working := some (done l x) }) := by
  have hstart : g.start.succeeds = true := by
    by_contra hstart
    obtain ⟨e, hrun⟩ := transaction_without hbody (Bool.eq_false_iff.mpr hstart)
    simp [hrun] at h
  have henter : g.enter { stored := x } = { stored := x, working := some x } := by simp [enter_fresh, hstart]
  have hb := hbody { stored := x, working := some x } rfl
  unfold FollowsThen at hb
  cases hl : firstFailure l with
  | ok =>
    simp only [hl] at hb
    obtain ⟨b, hb⟩ := hb
    rw [transaction_of_ok henter hb] at h
    cases undone with
    | true =>
      obtain ⟨e, he⟩ := close_inactive g x
      have herror := (Program.bind_of_error (f := fun _ => (pure b : Program σ ε α)) he).symm.trans h
      simp at herror
    | false =>
      have hclose := close_active g x (done l x)
      cases hc : g.commit with
      | ok =>
        rw [hc] at hclose
        obtain ⟨hab, rfl⟩ := Prod.mk.inj ((Program.bind_of_ok hclose).symm.trans h)
        injection hab with hab
        exact ⟨rfl, rfl, rfl, hab ▸ hb⟩
      | fails e | rollsBack e =>
        rw [hc] at hclose
        have herror := (Program.bind_of_error (f := fun _ => (pure b : Program σ ε α)) hclose).symm.trans h
        simp at herror
  | fails e | rollsBack e =>
    simp only [hl] at hb
    rw [transaction_of_error henter hb] at h
    simp at h

/-- Nothing of a call that fails is left exactly when BEGIN succeeds and the transaction does not stay open, or
nothing was changed. -/
theorem allOrNothing_transaction_iff (hbody : ∀ c, c.content = x → FollowsThen body l undone c) :
    AllOrNothing (transaction g body) x ↔ (g.start.succeeds = true ∧ Ends g undone l) ∨ done l x = x := by
  cases hstart : g.start.succeeds with
  | false =>
    obtain ⟨e, hrun⟩ := transaction_without hbody hstart
    constructor
    · exact fun h => .inr (h e _ hrun)
    · rintro (⟨h, -⟩ | h) e' c' hrun'
      · simp at h
      · obtain ⟨-, rfl⟩ := Prod.mk.inj (hrun.symm.trans hrun')
        exact h
  | true =>
    rcases transaction_within hbody hstart with ⟨hcommits, a, hrun⟩ | ⟨-, e, c, hrun, hends, hopen⟩
    · refine ⟨fun _ => .inl ⟨rfl, hcommits.ends⟩, fun _ e' c' hrun' => ?_⟩
      simp [hrun] at hrun'
    · constructor
      · intro h
        by_cases he : Ends g undone l
        · exact .inl ⟨rfl, he⟩
        · have hcontent := h e c hrun
          rw [hopen he] at hcontent
          exact .inr hcontent
      · rintro hdone e' c' hrun'
        obtain ⟨-, rfl⟩ := Prod.mk.inj (hrun.symm.trans hrun')
        by_cases he : Ends g undone l
        · rw [hends he]
          rfl
        · rw [hopen he]
          exact hdone.resolve_left fun h => he h.2

end Guarded

/-! ### What a program keeps -/

/-- `P` holds of what is stored and of the working copy. -/
def Connection.Holds (P : σ → Prop) (c : Connection σ) : Prop := P c.stored ∧ ∀ w, c.working = some w → P w

/-- The program leaves `P` true of what is stored and of the working copy, however its calls go. -/
def Keeps (P : σ → Prop) (p : Program σ ε α) : Prop := ∀ c, c.Holds P → (p c).2.Holds P

namespace Keeps

variable {P : σ → Prop}

lemma abandon (h : c.Holds P) : c.abandon.Holds P := ⟨h.1, fun w hw => by cases hw⟩

lemma update (h : c.Holds P) {f : σ → σ} (hf : ∀ x, P x → P (f x)) : (c.update f).Holds P := by
  obtain ⟨stored, _ | w⟩ := c
  · exact ⟨hf stored h.1, fun w hw => by cases hw⟩
  · refine ⟨h.1, fun w' hw' => ?_⟩
    obtain rfl := Option.some.inj hw'
    exact hf w (h.2 w rfl)

lemma pure (a : α) : Keeps P (Pure.pure a : Program σ ε α) := fun _ h => h

lemma bind {p : Program σ ε α} {f : α → Program σ ε β} (hp : Keeps P p) (hf : ∀ a, Keeps P (f a)) :
    Keeps P (p >>= f) := by
  intro c hc
  have hkept := hp c hc
  cases hr : p c with
  | mk r d =>
    rw [hr] at hkept
    cases r with
    | ok a =>
      rw [Program.bind_of_ok hr]
      exact hf a d hkept
    | error e =>
      rw [Program.bind_of_error hr]
      exact hkept

lemma call (o : Outcome ε) : Keeps P (Transactions.call o : Program σ ε Unit) := by
  intro c hc
  cases o with
  | rollsBack e => exact abandon hc
  | _ => exact hc

lemma read (o : Outcome ε) (f : σ → α) : Keeps P (Transactions.read o f) := (call o).bind fun _ _ hc => hc

lemma write (o : Outcome ε) {f : σ → σ} (hf : ∀ x, P x → P (f x)) : Keeps P (Transactions.write o f) :=
  (call o).bind fun _ _ hc => update hc hf

lemma script (hl : ∀ s ∈ l, ∀ x, P x → P (s.effect x)) : Keeps P (Transactions.script l) := by
  induction l with
  | nil => exact pure ()
  | cons s l ih =>
    exact (write s.outcome (hl s List.mem_cons_self)).bind fun _ => ih fun t ht => hl t (List.mem_cons_of_mem s ht)

lemma orElse {p : Program σ ε α} (hp : Keeps P p) (a : α) : Keeps P (p.orElse a) := by
  intro c hc
  have hkept := hp c hc
  unfold Program.orElse
  cases hr : p c with
  | mk r d =>
    rw [hr] at hkept
    cases r <;> exact hkept

lemma enter (g : Guard ε) (h : c.Holds P) : (g.enter c).Holds P := by
  obtain ⟨stored, working⟩ := c
  cases hg : g.start with
  | ok =>
    cases working with
    | none =>
      simp only [Guard.enter, hg]
      exact ⟨h.1, fun w hw => Option.some.inj hw ▸ h.1⟩
    | some w =>
      simp only [Guard.enter, hg]
      exact h
  | fails e =>
    simp only [Guard.enter, hg]
    exact h
  | rollsBack e =>
    simp only [Guard.enter, hg]
    exact abandon h

lemma close (g : Guard ε) : Keeps P (g.close : Program σ ε Unit) := by
  refine (call g.commit).bind fun _ c hc => ?_
  cases hw : c.working with
  | none => exact hc
  | some w => exact ⟨hc.2 w hw, fun w' hw' => by cases hw'⟩

lemma transaction (g : Guard ε) {body : Program σ ε α} (hbody : Keeps P body) :
    Keeps P (Transactions.transaction g body) := by
  intro c hc
  have hkept := hbody _ (enter g hc)
  unfold Transactions.transaction
  cases hr : body (g.enter c) with
  | mk r d =>
    rw [hr] at hkept
    cases r with
    | ok a => exact ((close g).bind fun _ => pure a) d hkept
    | error e =>
      simp only [Guard.leave]
      split
      · exact hkept
      · exact abandon hkept

end Keeps

end Transactions
