import Acva.Config.Config
import Mathlib.Data.List.Induction

/-!
# The table of facts

`Repository::upsert_fact` over `UNIQUE(key, lang)`. The constraint compares columns as SQL does, where a NULL is
equal to nothing, so a fact without a language is in conflict with no row and is written again by each call. A string
view without data is bound as a NULL too.
-/

namespace Acva

/-- `std::string_view`. One without data is empty, as a view of the empty string is. -/
inductive StringView
  | null
  | of (text : Text)
  deriving DecidableEq, Repr

/-- What `sqlite3_bind_text` makes of `data()` and `size()`: a null pointer is a NULL. -/
def StringView.column : StringView → Option Text
  | .null => none
  | .of text => some text

/-- The columns of a row besides its id. -/
structure Fact where
  key : Text
  value : Text
  lang : Option Text := none
  sourceTurnId : Option TurnId := none
  confidence : Config.Number
  updatedAt : Int
  deriving DecidableEq, Repr

/-- The arguments of `upsert_fact`. -/
structure FactCall where
  key : StringView
  value : StringView
  lang : Option StringView := none
  sourceTurnId : Option TurnId := none
  confidence : Config.Number
  updatedAt : Int
  deriving DecidableEq, Repr

/-- The row of a call, as it is bound; `key` and `value` are `NOT NULL`. -/
def FactCall.row (c : FactCall) : Option Fact :=
  match c.key.column, c.value.column with
  | some key, some value =>
    some { key := key, value := value, lang := c.lang.bind StringView.column, sourceTurnId := c.sourceTurnId,
           confidence := c.confidence, updatedAt := c.updatedAt }
  | _, _ => none

structure StoredFact where
  id : Nat
  fact : Fact
  deriving DecidableEq, Repr

/-- `turns` are the ids that a source turn may refer to. -/
structure FactTable where
  turns : List TurnId := []
  facts : List StoredFact := []
  factSeq : Nat := 0
  deriving DecidableEq, Repr

/-- `=` of SQL on two columns, as a `UNIQUE` constraint uses it. -/
def sqlEqual {α : Type*} [DecidableEq α] : Option α → Option α → Bool
  | some a, some b => decide (a = b)
  | _, _ => false

/-- The two facts are about the same thing: a missing language is a language of its own. -/
def Fact.About (key : Text) (lang : Option Text) (f : Fact) : Prop := f.key = key ∧ f.lang = lang

instance (key : Text) (lang : Option Text) (f : Fact) : Decidable (f.About key lang) :=
  inferInstanceAs (Decidable (_ ∧ _))

lemma Fact.about_self (f : Fact) : f.About f.key f.lang := ⟨rfl, rfl⟩

namespace FactTable

/-- Whether `UNIQUE(key, lang)` forbids the two rows beside each other. -/
def conflicts (f g : Fact) : Bool := decide (f.key = g.key) && sqlEqual f.lang g.lang

/-- A NaN is bound as a NULL, and the source turn has to exist. -/
def admits (t : FactTable) (f : Fact) : Bool :=
  decide (f.confidence ≠ .nan) && f.sourceTurnId.all fun id => decide (id ∈ t.turns)

/-- The id of the new row is taken before the conflict is looked for, so a conflict uses one up as well. -/
def upsertRow (t : FactTable) (f : Fact) : Option FactTable :=
  if t.admits f then
    some { t with
      facts :=
        if t.facts.any fun s => conflicts s.fact f then
          t.facts.map fun s => if conflicts s.fact f then { s with fact := f } else s
        else t.facts ++ [{ id := t.factSeq + 1, fact := f }]
      factSeq := t.factSeq + 1 }
  else none

def upsertFact (t : FactTable) (c : FactCall) : Option FactTable := c.row.bind t.upsertRow

/-- What the rows about `key` in the language say, in the order they were first written in. -/
def rowsAbout (t : FactTable) (key : Text) (lang : Option Text) : List Fact :=
  (t.facts.map (·.fact)).filter fun f => f.About key lang

variable {t t' : FactTable} {f g : Fact} {key : Text} {lang : Option Text}

lemma conflicts_of_no_lang (hf : f.lang = none) : conflicts g f = false := by
  cases hg : g.lang <;> simp [conflicts, sqlEqual, hf]

/-- On a fact with a language the constraint decides whether another is about the same thing. -/
lemma conflicts_of_lang {l : Text} (hf : f.lang = some l) (g : Fact) :
    conflicts g f = decide (g.About f.key f.lang) := by
  cases hg : g.lang <;> simp [conflicts, sqlEqual, Fact.About, hf, hg]

lemma upsertRow_some (h : t.upsertRow f = some t') :
    t'.turns = t.turns ∧
      t'.facts.map (·.fact) =
        if (t.facts.map (·.fact)).any fun g => conflicts g f then
          (t.facts.map (·.fact)).map fun g => if conflicts g f then f else g
        else t.facts.map (·.fact) ++ [f] := by
  unfold upsertRow at h
  split at h
  · injection h with h
    subst h
    refine ⟨rfl, ?_⟩
    simp only [List.any_map, Function.comp_def]
    split
    · rw [List.map_map, List.map_map]
      refine List.map_congr_left fun s _ => ?_
      simp only [Function.comp_apply]
      split <;> rfl
    · simp
  · simp at h

lemma rowsAbout_of_no_lang (h : t.upsertRow f = some t') (hf : f.lang = none) :
    t'.rowsAbout key lang = t.rowsAbout key lang ++ [f].filter fun f => f.About key lang := by
  have hany : ((t.facts.map (·.fact)).any fun g => conflicts g f) = false := by
    simp [conflicts_of_no_lang hf]
  rw [rowsAbout, (upsertRow_some h).2, hany, if_neg Bool.false_ne_true, List.filter_append, rowsAbout]

lemma filter_map_replace {p c : Fact → Bool} (hc : p f = true → ∀ g, c g = p g)
    (hp : p f = false → ∀ g, c g = true → p g = false) (facts : List Fact) :
    (facts.map fun g => if c g then f else g).filter p =
      if p f then (facts.filter p).map fun _ => f else facts.filter p := by
  induction facts with
  | nil => simp
  | cons g facts ih =>
    rw [List.map_cons, List.filter_cons, ih]
    cases hf : p f with
    | true => cases hg : p g <;> simp [hc hf, hf, hg]
    | false => cases hg : c g <;> simp [hf, hp hf g, hg, List.filter_cons]

/-- A call with a language writes over the rows that are about the same thing, or adds one. -/
lemma rowsAbout_of_lang {l : Text} (h : t.upsertRow f = some t') (hf : f.lang = some l) :
    t'.rowsAbout key lang =
      if f.About key lang then
        if t.rowsAbout key lang = [] then [f] else (t.rowsAbout key lang).map fun _ => f
      else t.rowsAbout key lang := by
  have hrows := (upsertRow_some h).2
  simp only [conflicts_of_lang hf] at hrows
  rw [rowsAbout, hrows]
  by_cases hany : ((t.facts.map (·.fact)).any fun g => decide (g.About f.key f.lang)) = true
  · rw [if_pos hany, filter_map_replace (fun hf g => ?_) fun hf g hg => ?_]
    · by_cases hfk : f.About key lang
      · obtain ⟨rfl, rfl⟩ := hfk
        have hne : t.rowsAbout f.key f.lang ≠ [] := by
          obtain ⟨g, hg, hgk⟩ := List.any_eq_true.mp hany
          exact List.ne_nil_of_mem (List.mem_filter.mpr ⟨hg, hgk⟩)
        rw [if_pos (decide_eq_true f.about_self), if_pos f.about_self, if_neg hne, rowsAbout]
      · rw [if_neg (by simpa using hfk), if_neg hfk, rowsAbout]
    · obtain ⟨rfl, rfl⟩ := of_decide_eq_true hf
      rfl
    · obtain ⟨hkey, hlang⟩ := of_decide_eq_true hg
      simp only [Fact.About, hkey, hlang]
      exact hf
  · have hnone : ∀ g ∈ t.facts.map (·.fact), ¬ g.About f.key f.lang := by simpa using hany
    rw [if_neg hany, List.filter_append]
    by_cases hfk : f.About key lang
    · obtain ⟨rfl, rfl⟩ := hfk
      have hnil : t.rowsAbout f.key f.lang = [] :=
        List.filter_eq_nil_iff.mpr fun g hg => by simpa using hnone g hg
      rw [if_pos f.about_self, if_pos hnil, ← rowsAbout, hnil]
      simp [f.about_self]
    · simp [hfk, rowsAbout]

end FactTable

/-- The call is about `key` in the language; a language given as a view without data is a missing one. -/
def FactCall.Names (key : Text) (lang : Option Text) (c : FactCall) : Prop :=
  c.key.column = some key ∧ c.lang.bind StringView.column = lang

instance (key : Text) (lang : Option Text) (c : FactCall) : Decidable (c.Names key lang) :=
  inferInstanceAs (Decidable (_ ∧ _))

/-- What the table is for: the last call about each thing. -/
def lastAbout (key : Text) (lang : Option Text) (calls : List FactCall) : Option FactCall :=
  (calls.filter fun c => c.Names key lang).getLast?

/-- One value per fact: the table holds one row for each key and language, and it is the last one written. -/
def OneRowPerFact (calls : List FactCall) (t : FactTable) : Prop :=
  ∀ key lang, t.rowsAbout key lang = ((lastAbout key lang calls).bind FactCall.row).toList

namespace FactTable

variable {turns : List TurnId} {t : FactTable} {calls : List FactCall} {rows : List Fact}

/-- The table after the calls, all of which succeed. -/
def upsertFacts (turns : List TurnId) (calls : List FactCall) : Option FactTable :=
  calls.foldlM upsertFact { turns := turns }

def upsertRows (turns : List TurnId) (rows : List Fact) : Option FactTable :=
  rows.foldlM upsertRow { turns := turns }

lemma upsertRows_concat {f : Fact} :
    upsertRows turns (rows ++ [f]) = some t ↔ ∃ before, upsertRows turns rows = some before ∧
      before.upsertRow f = some t := by
  simp [upsertRows, List.foldlM_append, Option.bind_eq_some_iff]

/-- Induction on the rows, the last of which meets the table that the others have left. -/
lemma upsertRows_induction {motive : List Fact → FactTable → Prop} (nil : motive [] { turns := turns })
    (concat : ∀ rows f before t, before.upsertRow f = some t → motive rows before → motive (rows ++ [f]) t)
    (h : upsertRows turns rows = some t) : motive rows t := by
  induction rows using List.reverseRecOn generalizing t with
  | nil =>
    obtain rfl : { turns := turns } = t := by simpa [upsertRows] using h
    exact nil
  | append_singleton rows f ih =>
    obtain ⟨before, hbefore, hf⟩ := upsertRows_concat.mp h
    exact concat rows f before t hf (ih hbefore)

lemma rowsAbout_no_lang (h : upsertRows turns rows = some t) (key : Text) :
    t.rowsAbout key none = rows.filter fun f => f.About key none := by
  refine upsertRows_induction (motive := fun rows t =>
    t.rowsAbout key none = rows.filter fun f => f.About key none) rfl (fun rows f before t hf ih => ?_) h
  rw [List.filter_append, ← ih]
  cases hlang : f.lang with
  | none => exact rowsAbout_of_no_lang hf hlang
  | some l => simp [rowsAbout_of_lang hf hlang, Fact.About, hlang]

lemma rowsAbout_lang (h : upsertRows turns rows = some t) (key l : Text) :
    t.rowsAbout key (some l) = (rows.filter fun f => f.About key (some l)).getLast?.toList := by
  refine upsertRows_induction (motive := fun rows t =>
    t.rowsAbout key (some l) = (rows.filter fun f => f.About key (some l)).getLast?.toList) rfl
    (fun rows f before t hf ih => ?_) h
  cases hlang : f.lang with
  | none =>
    have hf' : ¬ f.About key (some l) := by simp [Fact.About, hlang]
    simp [rowsAbout_of_no_lang hf hlang, ih, hf']
  | some m =>
    rw [rowsAbout_of_lang hf hlang, ih]
    by_cases hf' : f.About key (some l)
    · rw [if_pos hf', List.filter_append, List.getLast?_append]
      cases (rows.filter fun f => f.About key (some l)).getLast? <;> simp [hf']
    · simp [hf']

lemma eq_getLast?_toList_iff {α : Type*} (l : List α) : l = l.getLast?.toList ↔ l.length ≤ 1 := by
  constructor
  · intro hl
    rw [hl]
    cases l.getLast? <;> simp
  · intro hl
    cases l with
    | nil => rfl
    | cons a rest =>
      obtain rfl : rest = [] := List.length_eq_zero_iff.mp (by simpa using hl)
      rfl

/-! ### The rows of the calls -/

lemma row_names {c : FactCall} {f : Fact} (h : c.row = some f) (key : Text) (lang : Option Text) :
    f.About key lang ↔ c.Names key lang := by
  unfold FactCall.row at h
  split at h
  · rename_i k v hkey hvalue
    obtain rfl := Option.some.inj h
    rw [Fact.About, FactCall.Names, hkey, Option.some.injEq]
  · cases h

/-- Each call that succeeds has a row, and the rows are upserted one after another. -/
lemma upsertFacts_rows (h : upsertFacts turns calls = some t) :
    upsertRows turns (calls.filterMap FactCall.row) = some t ∧ ∀ c ∈ calls, ∃ f, c.row = some f := by
  induction calls using List.reverseRecOn generalizing t with
  | nil => exact ⟨h, fun c hc => by cases hc⟩
  | append_singleton calls c ih =>
    obtain ⟨before, hbefore, hc⟩ : ∃ before, upsertFacts turns calls = some before ∧ before.upsertFact c = some t := by
      simpa [upsertFacts, List.foldlM_append, Option.bind_eq_some_iff] using h
    obtain ⟨f, hrow, hf⟩ := Option.bind_eq_some_iff.mp hc
    obtain ⟨hrows, hall⟩ := ih hbefore
    refine ⟨?_, fun d hd => ?_⟩
    · rw [List.filterMap_append, List.filterMap_cons_some hrow, List.filterMap_nil]
      exact upsertRows_concat.mpr ⟨before, hrows, hf⟩
    · rcases List.mem_append.mp hd with hd | hd
      · exact hall d hd
      · exact ⟨f, List.mem_singleton.mp hd ▸ hrow⟩

lemma filter_rows (hall : ∀ c ∈ calls, ∃ f, c.row = some f) (key : Text) (lang : Option Text) :
    ((calls.filterMap FactCall.row).filter fun f => f.About key lang).length =
        (calls.filter fun c => c.Names key lang).length ∧
      ((calls.filterMap FactCall.row).filter fun f => f.About key lang).getLast? =
        (lastAbout key lang calls).bind FactCall.row := by
  unfold lastAbout
  induction calls using List.reverseRecOn with
  | nil => exact ⟨rfl, rfl⟩
  | append_singleton calls c ih =>
    obtain ⟨f, hrow⟩ := hall c (by simp)
    obtain ⟨hlength, hlast⟩ := ih fun d hd => hall d (List.mem_append_left _ hd)
    rw [List.filterMap_append, List.filterMap_cons_some hrow, List.filterMap_nil, List.filter_append,
      List.filter_append]
    by_cases hnames : c.Names key lang
    · have habout := (row_names hrow key lang).mpr hnames
      simp [hnames, habout, hlength, hrow]
    · have habout : ¬f.About key lang := fun h => hnames ((row_names hrow key lang).mp h)
      simp [hnames, habout, hlength, hlast]

/-- There is one row for each key and language exactly when no key is written twice without a language, or with one
that is a view without data. -/
theorem one_row_per_fact (h : upsertFacts turns calls = some t) :
    OneRowPerFact calls t ↔ ∀ key, (calls.filter fun c => c.Names key none).length ≤ 1 := by
  obtain ⟨hrows, hall⟩ := upsertFacts_rows h
  have hone : OneRowPerFact calls t ↔ ∀ key lang, t.rowsAbout key lang =
      ((calls.filterMap FactCall.row).filter fun f => f.About key lang).getLast?.toList := by
    refine forall₂_congr fun key lang => ?_
    rw [(filter_rows hall key lang).2]
  rw [hone]
  constructor
  · intro hone key
    have heq := hone key none
    rw [rowsAbout_no_lang hrows, eq_getLast?_toList_iff, (filter_rows hall key none).1] at heq
    exact heq
  · rintro hle key (_ | l)
    · rw [rowsAbout_no_lang hrows, eq_getLast?_toList_iff, (filter_rows hall key none).1]
      exact hle key
    · exact rowsAbout_lang hrows key l

/-- The name is learnt and corrected, first without a language and then in one. -/
def namings : List FactCall :=
  [{ key := .of (ascii "name"), value := .of (ascii "Alek"), lang := some .null, confidence := 1, updatedAt := 1 },
   { key := .of (ascii "name"), value := .of (ascii "Alex"), lang := some (.of (ascii "en")), confidence := 1,
     updatedAt := 2 },
   { key := .of (ascii "name"), value := .of (ascii "Alexey"), lang := some (.of (ascii "en")), confidence := 1,
     updatedAt := 3 }]

theorem one_row_per_naming :
    ∃ t, upsertFacts [] namings = some t ∧
      (OneRowPerFact namings t ↔ ∀ key, (namings.filter fun c => c.Names key none).length ≤ 1) :=
  ⟨_, rfl, one_row_per_fact rfl⟩

/-- Two values of one fact without a language: the table keeps both. -/
theorem two_rows_of_one_fact :
    ¬ ∀ (turns : List TurnId) (calls : List FactCall) (t : FactTable), upsertFacts turns calls = some t →
      OneRowPerFact calls t := by
  intro hall
  have hone := hall []
    [{ key := .of (ascii "name"), value := .of (ascii "Alek"), confidence := 1, updatedAt := 1 },
      { key := .of (ascii "name"), value := .of (ascii "Alexey"), confidence := 1, updatedAt := 2 }] _ rfl
  exact absurd (hone (ascii "name") none) (by decide)

end FactTable

end Acva
