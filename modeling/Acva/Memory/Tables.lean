import Acva.Memory.Facts
import Acva.Memory.SourceHash
import Mathlib.Data.List.Nodup

/-!
# The schema

All tables with their columns, where a column that may be NULL is an `Option`. The id of a row is its primary key, by
which the table is kept in order, and an update keeps it. `seq` is what `AUTOINCREMENT` counts on from.
-/

namespace Acva

namespace Schema

structure SessionRow where
  id : SessionId
  startedAt : Int
  endedAt : Option Int := none
  title : Option Text := none
  deriving DecidableEq, Repr

structure TurnRow where
  id : Int
  session : SessionId
  role : TurnRole
  text : Option Text := none
  lang : Option Text := none
  startedAt : Int
  endedAt : Option Int := none
  status : TurnStatus
  interruptedAtSentence : Option Int := none
  audioPath : Option Text := none
  deriving DecidableEq, Repr

structure SummaryRow where
  id : Int
  session : SessionId
  rangeStartTurn : Int
  rangeEndTurn : Int
  summary : Text
  lang : Text
  sourceHash : Text
  createdAt : Int
  deriving DecidableEq, Repr

structure SettingRow where
  key : Text
  value : Text
  updatedAt : Int
  deriving DecidableEq, Repr

structure RuntimeRow where
  session : SessionId
  activeTurnId : Option Int := none
  fsmState : Text
  lastPartial : Option Text := none
  configHash : Option Text := none
  checkpointAt : Int
  deriving DecidableEq, Repr

structure Table (ρ : Type) (id : ρ → Int) where
  rows : List ρ := []
  seq : Int := 0
  ordered : (rows.map id).Pairwise (· < ·) := by exact List.Pairwise.nil
  deriving DecidableEq

namespace Table

variable {ρ : Type} {id : ρ → Int} {t : Table ρ id}

def empty : Table ρ id := {}

lemma map_id_update {k : Int} {f : ρ → ρ} (hf : ∀ r, id (f r) = id r) (rows : List ρ) :
    (rows.map fun r => if id r = k then f r else r).map id = rows.map id := by
  rw [List.map_map]
  refine List.map_congr_left fun r _ => ?_
  simp only [Function.comp_apply]
  split
  · exact hf r
  · rfl

/-- `UPDATE ... WHERE id = k`. -/
def update (t : Table ρ id) (k : Int) (f : ρ → ρ) (hf : ∀ r, id (f r) = id r) : Table ρ id :=
  { t with rows := t.rows.map fun r => if id r = k then f r else r
           ordered := map_id_update hf t.rows ▸ t.ordered }

lemma eq_of_id_eq {r s : ρ} (hr : r ∈ t.rows) (hs : s ∈ t.rows) (h : id r = id s) : r = s :=
  List.inj_on_of_nodup_map (t.ordered.imp Int.ne_of_lt) hr hs h

lemma foldl_update_rows {f : ρ → ρ → ρ} (hf : ∀ s r, id (f s r) = id r) {l : List ρ} (hl : (l.map id).Nodup) (r : ρ) :
    l.foldl (fun q s => if id q = id s then f s q else q) r =
      match l.find? fun s => id r = id s with
      | some s => f s r
      | none => r := by
  induction l generalizing r with
  | nil => rfl
  | cons s l ih =>
    obtain ⟨hs, hl⟩ := List.nodup_cons.mp hl
    rw [List.foldl_cons, ih hl]
    by_cases hr : id r = id s
    · have hnone : l.find? (fun q => id (f s r) = id q) = none := by
        rw [List.find?_eq_none]
        intro q hq h
        rw [decide_eq_true_eq, hf, hr] at h
        exact hs (h ▸ List.mem_map_of_mem hq)
      simp only [if_pos hr, hnone, List.find?_cons, decide_eq_true hr]
    · simp only [if_neg hr, List.find?_cons, decide_eq_false hr]

lemma find?_filter {p : ρ → Bool} {r : ρ} (hr : r ∈ t.rows) :
    (t.rows.filter p).find? (fun s => id r = id s) = if p r then some r else none := by
  have heq : ∀ s ∈ t.rows.filter p, id r = id s → r = s := fun s hs h =>
    eq_of_id_eq hr (List.mem_of_mem_filter hs) h
  cases hfind : (t.rows.filter p).find? fun s => id r = id s with
  | none =>
    rw [List.find?_eq_none] at hfind
    cases hp : p r with
    | true => exact absurd (decide_eq_true rfl) (hfind r (List.mem_filter.mpr ⟨hr, hp⟩))
    | false => rfl
  | some s =>
    have hs := List.mem_of_find?_eq_some hfind
    have hid := List.find?_some hfind
    obtain rfl := heq s hs (of_decide_eq_true hid)
    rw [if_pos (List.mem_filter.mp hs).2]

lemma rows_foldl_update {f : ρ → ρ → ρ} (hf : ∀ s r, id (f s r) = id r) (t : Table ρ id) (p : ρ → Bool) :
    ((t.rows.filter p).foldl (fun u s => u.update (id s) (f s) (hf s)) t).rows =
      t.rows.map fun r => if p r then f r r else r := by
  have hfold : ∀ (l : List ρ) (u : Table ρ id), (l.foldl (fun u s => u.update (id s) (f s) (hf s)) u).rows =
      u.rows.map fun r => l.foldl (fun q s => if id q = id s then f s q else q) r := by
    intro l
    induction l with
    | nil => simp
    | cons s l ih =>
      intro u
      rw [List.foldl_cons, ih, update, List.map_map]
      rfl
  have hnodup : ((t.rows.filter p).map id).Nodup :=
    (t.ordered.sublist (List.filter_sublist.map id)).imp Int.ne_of_lt
  rw [hfold]
  refine List.map_congr_left fun r hr => ?_
  rw [foldl_update_rows hf hnodup, find?_filter hr]
  cases p r <;> rfl

lemma ext_rows {t u : Table ρ id} (hrows : t.rows = u.rows) (hseq : t.seq = u.seq) : t = u := by
  obtain ⟨rows, seq, _⟩ := t
  obtain ⟨rows', seq', _⟩ := u
  obtain rfl : rows = rows' := hrows
  obtain rfl : seq = seq' := hseq
  rfl

lemma seq_foldl_update {f : ρ → ρ → ρ} (hf : ∀ s r, id (f s r) = id r) (l : List ρ) (t : Table ρ id) :
    (l.foldl (fun u s => u.update (id s) (f s) (hf s)) t).seq = t.seq := by
  induction l generalizing t with
  | nil => rfl
  | cons s l ih => exact ih _

end Table

structure Tables where
  sessions : Table SessionRow SessionRow.id := .empty
  turns : Table TurnRow TurnRow.id := .empty
  summaries : Table SummaryRow SummaryRow.id := .empty
  facts : Table StoredFact (fun f => f.id) := .empty
  settings : List SettingRow := []
  runtimeState : Option RuntimeRow := none
  deriving DecidableEq

namespace Tables

variable (x : Tables)

def sessionsOpenNoEndedAt : List SessionRow := x.sessions.rows.filter fun s => s.endedAt.isNone

def closeSession (id : SessionId) (endedAt : Int) : Tables :=
  { x with sessions := x.sessions.update id (fun s => { s with endedAt := some endedAt }) fun _ => rfl }

/-- `COALESCE(?, column)` keeps the column if nothing is given. -/
def setTurnStatus (id : Int) (status : TurnStatus) (endedAt interruptedAtSentence : Option Int) (text : Option Text) :
    Tables :=
  { x with turns := x.turns.update id (fun t =>
      { t with status := status
               endedAt := endedAt <|> t.endedAt
               interruptedAtSentence := interruptedAtSentence
               text := text <|> t.text }) fun _ => rfl }

def turnsInProgress : List TurnRow := x.turns.rows.filter fun t => t.status = .inProgress

/-- `MAX` takes no notice of NULLs, and is NULL over nothing. -/
def maxTurnEndedAt (session : SessionId) : Option Int :=
  ((x.turns.rows.filter fun t => t.session = session).filterMap (·.endedAt)).max?

def allSummaries : List SummaryRow := x.summaries.rows

/-- The newest rows of the session, oldest first. A negative limit is none. -/
def recentTurns (session : SessionId) (limit : Int) : List TurnRow :=
  let rows := (x.turns.rows.filter fun t => t.session = session).reverse
  (if limit < 0 then rows else rows.take limit.toNat).reverse

variable {x} in
lemma maxTurnEndedAt_eq_some_iff {session : SessionId} {e : Int} :
    x.maxTurnEndedAt session = some e ↔
      (∃ t ∈ x.turns.rows, t.session = session ∧ t.endedAt = some e) ∧
        ∀ t ∈ x.turns.rows, t.session = session → ∀ e', t.endedAt = some e' → e' ≤ e := by
  simp only [maxTurnEndedAt, List.max?_eq_some_iff, List.mem_filterMap, List.mem_filter, decide_eq_true_eq]
  constructor
  · rintro ⟨⟨t, ⟨ht, hs⟩, he⟩, hle⟩
    exact ⟨⟨t, ht, hs, he⟩, fun u hu hus e' he' => hle e' ⟨u, ⟨hu, hus⟩, he'⟩⟩
  · rintro ⟨⟨t, ht, hs, he⟩, hle⟩
    exact ⟨⟨t, ⟨ht, hs⟩, he⟩, fun e' ⟨u, ⟨hu, hus⟩, he'⟩ => hle u hu hus e' he'⟩

end Tables

end Schema

end Acva
