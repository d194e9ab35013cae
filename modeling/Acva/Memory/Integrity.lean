import Acva.Memory.Store

/-!
# Integrity of the tables

What the schema promises of a database holds after every sequence of calls: keys are unique, no id is past the one that
was given out last, and nothing refers to a session or a turn that is not there. So a session that is deleted leaves
nothing behind, and as its id is not given out again, nothing can come to refer to it.
-/

namespace Acva

namespace Schema

namespace Table

variable {ρ : Type} {id : ρ → Int} {t : Table ρ id} {k : Int}

def ids (t : Table ρ id) : List Int := t.rows.map id

/-- No id is past the last one given out. -/
structure Counted (t : Table ρ id) : Prop where
  seq : 0 ≤ t.seq
  positive : ∀ k ∈ t.ids, 0 < k
  bound : ∀ k ∈ t.ids, k ≤ t.seq

lemma Counted.empty : (empty : Table ρ id).Counted :=
  ⟨Int.le_refl 0, fun _ hk => absurd hk List.not_mem_nil, fun _ hk => absurd hk List.not_mem_nil⟩

lemma mem_ids {r : ρ} (hr : r ∈ t.rows) : id r ∈ t.ids := List.mem_map_of_mem hr

lemma ids_update {f : ρ → ρ} (hf : ∀ r, id (f r) = id r) : (t.update k f hf).ids = t.ids := map_id_update hf t.rows

lemma ids_updateAll {f : ρ → ρ} (hf : ∀ r, id (f r) = id r) : (t.updateAll f hf).ids = t.ids := by
  simp only [ids, updateAll, List.map_map, show id ∘ f = id from funext hf]

lemma mem_ids_delete {p : ρ → Bool} : k ∈ (t.delete p).ids ↔ ∃ r ∈ t.rows, p r = false ∧ id r = k := by
  simp only [ids, delete, List.mem_map, List.mem_filter, Bool.not_eq_eq_eq_not, Bool.not_true, and_assoc]

lemma Counted.of_insert {u : Table ρ id} (h : t.Counted) (hids : u.ids = t.ids ++ [t.nextId])
    (hseq : u.seq = t.nextId) : u.Counted := by
  have hlt := t.seq_lt_nextId
  refine ⟨hseq ▸ Int.le_of_lt t.nextId_pos, fun k hk => ?_, fun k hk => ?_⟩
  · rw [hids, List.mem_append, List.mem_singleton] at hk
    rcases hk with hk | rfl
    · exact h.positive k hk
    · exact t.nextId_pos
  · rw [hids, List.mem_append, List.mem_singleton] at hk
    rw [hseq]
    rcases hk with hk | rfl
    · exact Int.le_trans (h.bound k hk) (Int.le_of_lt hlt)
    · exact Int.le_refl _

lemma Counted.delete (h : t.Counted) (p : ρ → Bool) : (t.delete p).Counted := by
  refine ⟨h.seq, fun k hk => ?_, fun k hk => ?_⟩
  all_goals
    obtain ⟨r, hr, -, rfl⟩ := mem_ids_delete.mp hk
  · exact h.positive _ (mem_ids hr)
  · exact h.bound _ (mem_ids hr)

lemma Counted.of_ids {u : Table ρ id} (h : t.Counted) (hids : u.ids = t.ids) (hseq : t.seq ≤ u.seq) : u.Counted := by
  refine ⟨Int.le_trans h.seq hseq, fun k hk => ?_, fun k hk => ?_⟩
  · exact h.positive k (hids ▸ hk)
  · exact Int.le_trans (h.bound k (hids ▸ hk)) hseq

/-- What is new in `u` has an id past those that `t` has counted. -/
structure Grows (t u : Table ρ id) : Prop where
  seq : t.seq ≤ u.seq
  fresh : ∀ k ∈ u.ids, k ∈ t.ids ∨ t.seq < k

lemma Grows.refl (t : Table ρ id) : t.Grows t := ⟨Int.le_refl _, fun _ hk => .inl hk⟩

lemma Grows.of_subset {u : Table ρ id} (hids : ∀ k ∈ u.ids, k ∈ t.ids) (hseq : u.seq = t.seq) : t.Grows u :=
  ⟨Int.le_of_eq hseq.symm, fun k hk => .inl (hids k hk)⟩

lemma Grows.of_insert {u : Table ρ id} (hids : u.ids = t.ids ++ [t.nextId]) (hseq : u.seq = t.nextId) : t.Grows u := by
  refine ⟨hseq ▸ Int.le_of_lt t.seq_lt_nextId, fun k hk => ?_⟩
  rw [hids, List.mem_append, List.mem_singleton] at hk
  rcases hk with hk | rfl
  · exact .inl hk
  · exact .inr t.seq_lt_nextId

lemma Grows.delete (t : Table ρ id) (p : ρ → Bool) : t.Grows (t.delete p) := by
  refine .of_subset (fun k hk => ?_) rfl
  obtain ⟨r, hr, -, rfl⟩ := mem_ids_delete.mp hk
  exact mem_ids hr

/-- An id that was given out and is not in the table. -/
structure Retired (t : Table ρ id) (k : Int) : Prop where
  bound : k ≤ t.seq
  absent : k ∉ t.ids

lemma Retired.grows (h : t.Retired k) {u : Table ρ id} (hu : t.Grows u) : u.Retired k := by
  refine ⟨Int.le_trans h.bound hu.seq, fun hk => ?_⟩
  rcases hu.fresh k hk with hk | hlt
  · exact h.absent hk
  · exact absurd h.bound (Int.not_le.mpr hlt)

lemma mem_update {f : ρ → ρ} {r : ρ} (hr : r ∈ t.rows.map fun r => if id r = k then f r else r) :
    ∃ s ∈ t.rows, r = s ∨ r = f s := by
  obtain ⟨s, hs, rfl⟩ := List.mem_map.mp hr
  refine ⟨s, hs, ?_⟩
  split
  · exact .inr rfl
  · exact .inl rfl

end Table

namespace Tables

variable {x : Tables}

/-- What the schema promises of its tables. -/
structure Sound (x : Tables) : Prop where
  sessions : x.sessions.Counted
  turns : x.turns.Counted
  summaries : x.summaries.Counted
  facts : x.facts.Counted
  turnSession : ∀ t ∈ x.turns.rows, t.session ∈ x.sessions.ids
  summarySession : ∀ s ∈ x.summaries.rows, s.session ∈ x.sessions.ids
  checkpointSession : ∀ r, x.runtimeState = some r → r.session ∈ x.sessions.ids
  factSource : ∀ f ∈ x.facts.rows, ∀ k, f.fact.sourceTurnId = some k → (k : Int) ∈ x.turns.ids
  factKeys : (x.facts.rows.map (·.fact)).Pairwise fun f g => FactTable.conflicts f g = false
  settingKeys : (x.settings.map (·.key)).Nodup

lemma Sound.empty : ({} : Tables).Sound where
  sessions := .empty
  turns := .empty
  summaries := .empty
  facts := .empty
  turnSession t ht := by cases ht
  summarySession s hs := by cases hs
  checkpointSession r hr := by cases hr
  factSource f hf := by cases hf
  factKeys := .nil
  settingKeys := .nil

lemma hasSession_iff {id : SessionId} : x.hasSession id = true ↔ id ∈ x.sessions.ids := by
  simp only [hasSession, List.any_eq_true, decide_eq_true_eq, Table.ids, List.mem_map]

lemma hasTurn_iff {id : Int} : x.hasTurn id = true ↔ id ∈ x.turns.ids := by
  simp only [hasTurn, List.any_eq_true, decide_eq_true_eq, Table.ids, List.mem_map]

/-! ### The facts -/

lemma conflicts_congr {f f' g g' : Fact} (hf : f.key = f'.key ∧ f.lang = f'.lang)
    (hg : g.key = g'.key ∧ g.lang = g'.lang) : FactTable.conflicts f g = FactTable.conflicts f' g' := by
  unfold FactTable.conflicts
  rw [hf.1, hf.2, hg.1, hg.2]

lemma about_of_conflicts {f g : Fact} (h : FactTable.conflicts f g = true) : f.key = g.key ∧ f.lang = g.lang := by
  rw [FactTable.conflicts, Bool.and_eq_true, decide_eq_true_eq] at h
  obtain ⟨hkey, hlang⟩ := h
  refine ⟨hkey, ?_⟩
  cases hf : f.lang with
  | none => simp [sqlEqual, hf] at hlang
  | some a =>
    cases hg : g.lang with
    | none => simp [sqlEqual, hf, hg] at hlang
    | some b => simpa [sqlEqual, hf, hg] using hlang

lemma pairwise_conflicts_map {facts : List Fact} (h : facts.Pairwise fun f g => FactTable.conflicts f g = false)
    {u : Fact → Fact} (hu : ∀ f, (u f).key = f.key ∧ (u f).lang = f.lang) :
    (facts.map u).Pairwise fun f g => FactTable.conflicts f g = false :=
  List.pairwise_map.mpr (h.imp fun hfg => (conflicts_congr (hu _) (hu _)).trans hfg)

/-- A fact keeps its key and its language when its source turn goes, and names no turn that has gone. -/
lemma forgetting_fact (x : Tables) (p : TurnRow → Bool) (f : StoredFact) :
    (x.forgetting p f).fact = f.fact ∨
      (x.forgetting p f).fact = { f.fact with sourceTurnId := none } := by
  unfold forgetting
  split
  · exact .inr rfl
  · exact .inl rfl

lemma source_of_forgetting {p : TurnRow → Bool} {f : StoredFact} {k : TurnId}
    (h : (x.forgetting p f).fact.sourceTurnId = some k) :
    f.fact.sourceTurnId = some k ∧ ∀ t ∈ x.turns.rows, t.id = k → p t = false := by
  unfold forgetting at h
  split at h
  · cases h
  · rename_i hany
    refine ⟨h, fun t ht hid => ?_⟩
    cases hp : p t with
    | false => rfl
    | true =>
      refine absurd ?_ hany
      rw [h, Option.any_some, List.any_eq_true]
      exact ⟨t, ht, by simp [hp, hid]⟩

/-! ### The calls -/

lemma Sound.insertSession (h : x.Sound) (startedAt : Int) (title : Option Text) :
    (x.insertSession startedAt title).Sound := by
  have hids : (x.insertSession startedAt title).sessions.ids = x.sessions.ids ++ [x.sessions.nextId] := by
    simp [Tables.insertSession, Table.ids, Table.insert]
  have hstays : ∀ k ∈ x.sessions.ids, k ∈ (x.insertSession startedAt title).sessions.ids := by
    intro k hk
    rw [hids]
    exact List.mem_append_left _ hk
  exact { h with
    sessions := h.sessions.of_insert hids rfl
    turnSession := fun t ht => hstays _ (h.turnSession t ht)
    summarySession := fun s hs => hstays _ (h.summarySession s hs)
    checkpointSession := fun r hr => hstays _ (h.checkpointSession r hr) }

lemma ids_closeSession (x : Tables) (id : SessionId) (endedAt : Int) :
    (x.closeSession id endedAt).sessions.ids = x.sessions.ids := Table.ids_update (by intro s; rfl)

lemma Sound.closeSession (h : x.Sound) (id : SessionId) (endedAt : Int) : (x.closeSession id endedAt).Sound := by
  have hids := x.ids_closeSession id endedAt
  exact { h with
    sessions := h.sessions.of_ids hids (Int.le_refl _)
    turnSession := fun t ht => hids ▸ h.turnSession t ht
    summarySession := fun s hs => hids ▸ h.summarySession s hs
    checkpointSession := fun r hr => hids ▸ h.checkpointSession r hr }

lemma Sound.deleteTurns (h : x.Sound) (p : TurnRow → Bool) : (x.deleteTurns p).Sound := by
  have hfacts : (x.deleteTurns p).facts.ids = x.facts.ids :=
    Table.ids_updateAll (by intro f; rw [forgetting_id])
  refine { h with
    turns := h.turns.delete p
    facts := h.facts.of_ids hfacts (Int.le_refl _)
    turnSession := fun t ht => h.turnSession t (List.mem_of_mem_filter ht)
    factSource := fun f hf k hk => ?_
    factKeys := ?_ }
  · obtain ⟨g, hg, rfl⟩ := List.mem_map.mp hf
    obtain ⟨hsource, hstays⟩ := source_of_forgetting hk
    obtain ⟨t, ht, hid⟩ := List.mem_map.mp (h.factSource g hg k hsource)
    exact Table.mem_ids_delete.mpr ⟨t, ht, hstays t ht hid, hid⟩
  · have hmap : (x.deleteTurns p).facts.rows.map (·.fact) =
        x.facts.rows.map fun f => (x.forgetting p f).fact := by
      simp only [Tables.deleteTurns, Table.updateAll, List.map_map]
      rfl
    rw [hmap, List.pairwise_map]
    refine (List.pairwise_map.mp h.factKeys).imp fun {f g} hfg => (conflicts_congr ?_ ?_).trans hfg
    · rcases forgetting_fact x p f with hf | hf <;> simp [hf]
    · rcases forgetting_fact x p g with hg | hg <;> simp [hg]

lemma mem_ids_deleteSession {id k : SessionId} :
    k ∈ (x.deleteSession id).sessions.ids ↔ k ∈ x.sessions.ids ∧ k ≠ id := by
  simp only [Tables.deleteSession, Table.mem_ids_delete, decide_eq_false_iff_not]
  constructor
  · rintro ⟨s, hs, hne, rfl⟩
    exact ⟨Table.mem_ids hs, hne⟩
  · rintro ⟨hk, hne⟩
    obtain ⟨s, hs, rfl⟩ := List.mem_map.mp hk
    exact ⟨s, hs, hne, rfl⟩

lemma Sound.deleteSession (h : x.Sound) (id : SessionId) : (x.deleteSession id).Sound := by
  have hturns := h.deleteTurns fun t => t.session = id
  refine { hturns with
    sessions := h.sessions.delete _
    summaries := h.summaries.delete _
    turnSession := fun t ht => ?_
    summarySession := fun s hs => ?_
    checkpointSession := fun r hr => ?_ }
  · obtain ⟨ht, hne⟩ := List.mem_filter.mp ht
    exact mem_ids_deleteSession.mpr ⟨h.turnSession t ht, by simpa using hne⟩
  · obtain ⟨hs, hne⟩ := List.mem_filter.mp hs
    exact mem_ids_deleteSession.mpr ⟨h.summarySession s hs, by simpa using hne⟩
  · obtain ⟨hr, hne⟩ := Option.filter_eq_some_iff.mp hr
    exact mem_ids_deleteSession.mpr ⟨h.checkpointSession r hr, by simpa using hne⟩

lemma Sound.insertTurn (h : x.Sound) {y : Tables} {session : SessionId} {role : TurnRole} {text lang : Option Text}
    {startedAt : Int} {status : TurnStatus}
    (hy : x.insertTurn session role text lang startedAt status = some y) : y.Sound := by
  unfold Tables.insertTurn at hy
  split at hy
  · rename_i hsession
    obtain rfl := Option.some.inj hy
    refine { h with
      turns := h.turns.of_insert (by simp [Table.ids, Table.insert]) rfl
      turnSession := fun t ht => ?_
      factSource := fun f hf k hk => ?_ }
    · rcases List.mem_append.mp ht with ht | ht
      · exact h.turnSession t ht
      · rw [List.mem_singleton.mp ht]
        exact hasSession_iff.mp hsession
    · obtain ⟨t, ht, hid⟩ := List.mem_map.mp (h.factSource f hf k hk)
      exact List.mem_map.mpr ⟨t, List.mem_append_left _ ht, hid⟩
  · cases hy

lemma ids_setTurnStatus (x : Tables) (id : Int) (status : TurnStatus) (endedAt interrupted : Option Int)
    (text : Option Text) : (x.setTurnStatus id status endedAt interrupted text).turns.ids = x.turns.ids :=
  Table.ids_update (by intro t; rfl)

lemma Sound.setTurnStatus (h : x.Sound) (id : Int) (status : TurnStatus) (endedAt interrupted : Option Int)
    (text : Option Text) : (x.setTurnStatus id status endedAt interrupted text).Sound := by
  have hids := x.ids_setTurnStatus id status endedAt interrupted text
  refine { h with
    turns := h.turns.of_ids hids (Int.le_refl _)
    turnSession := fun t ht => ?_
    factSource := fun f hf k hk => hids ▸ h.factSource f hf k hk }
  obtain ⟨s, hs, rfl | rfl⟩ := Table.mem_update ht
  · exact h.turnSession _ hs
  · exact h.turnSession s hs

lemma Sound.insertSummary (h : x.Sound) {y : Tables} {session : SessionId} {first last : Int}
    {summary lang hash : Text} {createdAt : Int}
    (hy : x.insertSummary session first last summary lang hash createdAt = some y) : y.Sound := by
  unfold Tables.insertSummary at hy
  split at hy
  · rename_i hsession
    obtain rfl := Option.some.inj hy
    refine { h with
      summaries := h.summaries.of_insert (by simp [Table.ids, Table.insert]) rfl
      summarySession := fun s hs => ?_ }
    rcases List.mem_append.mp hs with hs | hs
    · exact h.summarySession s hs
    · rw [List.mem_singleton.mp hs]
      exact hasSession_iff.mp hsession
  · cases hy

lemma Sound.upsertFact (h : x.Sound) {y : Tables} {f : Fact} (hy : x.upsertFact f = some y) : y.Sound := by
  unfold Tables.upsertFact at hy
  split at hy
  · rename_i hadmits
    obtain rfl := Option.some.inj hy
    have hsource : ∀ k, f.sourceTurnId = some k → (k : Int) ∈ x.turns.ids := by
      intro k hk
      have hall := hadmits.2
      rw [hk, Option.all_some] at hall
      exact hasTurn_iff.mp hall
    by_cases hany : (x.facts.rows.any fun s => FactTable.conflicts s.fact f) = true
    · -- the rows in conflict take the new values, under the same key
      simp only [if_pos hany]
      refine { h with
        facts := h.facts.of_ids (Table.ids_updateAll (by intro s; split <;> rfl)) (Int.le_of_lt x.facts.seq_lt_nextId)
        factSource := fun s hs k hk => ?_
        factKeys := ?_ }
      · obtain ⟨g, hg, rfl⟩ := List.mem_map.mp hs
        split at hk
        · exact hsource k hk
        · exact h.factSource g hg k hk
      · have hmap : ((x.facts.rows.map fun s => if FactTable.conflicts s.fact f then { s with fact := f } else s).map
            (·.fact)) = (x.facts.rows.map (·.fact)).map fun g => if FactTable.conflicts g f then f else g := by
          simp only [List.map_map]
          refine List.map_congr_left fun s _ => ?_
          simp only [Function.comp_apply]
          split <;> rfl
        exact hmap ▸ pairwise_conflicts_map h.factKeys fun g => by
          split
          · rename_i hg
            exact ⟨(about_of_conflicts hg).1.symm, (about_of_conflicts hg).2.symm⟩
          · exact ⟨rfl, rfl⟩
    · simp only [if_neg hany]
      refine { h with
        facts := h.facts.of_insert (by simp [Table.ids, Table.insert, x.storedFact_id f]) rfl
        factSource := fun s hs k hk => ?_
        factKeys := ?_ }
      · rcases List.mem_append.mp hs with hs | hs
        · exact h.factSource s hs k hk
        · rw [List.mem_singleton.mp hs] at hk
          exact hsource k hk
      · simp only [Table.insert, List.map_append, List.map_singleton, List.pairwise_append]
        refine ⟨h.factKeys, List.pairwise_singleton _ _, fun g hg g' hg' => ?_⟩
        obtain ⟨s, hs, rfl⟩ := List.mem_map.mp hg
        rw [List.mem_singleton.mp hg']
        exact Bool.eq_false_iff.mpr fun hconflict => hany (List.any_eq_true.mpr ⟨s, hs, hconflict⟩)
  · cases hy

lemma Sound.deleteFact (h : x.Sound) (id : Int) : (x.deleteFact id).Sound :=
  { h with
    facts := h.facts.delete _
    factSource := fun f hf => h.factSource f (List.mem_of_mem_filter hf)
    factKeys := h.factKeys.sublist (List.filter_sublist.map _) }

lemma Sound.upsertRuntimeState (h : x.Sound) {y : Tables} {row : RuntimeRow}
    (hy : x.upsertRuntimeState row = some y) : y.Sound := by
  unfold Tables.upsertRuntimeState at hy
  split at hy
  · rename_i hsession
    obtain rfl := Option.some.inj hy
    refine { h with checkpointSession := fun r hr => ?_ }
    obtain rfl := Option.some.inj hr
    exact hasSession_iff.mp hsession
  · cases hy

lemma Sound.setSetting (h : x.Sound) (key value : Text) (updatedAt : Int) :
    (x.setSetting key value updatedAt).Sound := by
  refine { h with settingKeys := ?_ }
  simp only [Tables.setSetting]
  split
  · have hkeys : ((x.settings.map fun s =>
        if s.key = key then { key := key, value := value, updatedAt := updatedAt } else s).map (·.key)) =
          x.settings.map (·.key) := by
      simp only [List.map_map]
      refine List.map_congr_left fun s _ => ?_
      simp only [Function.comp_apply]
      split
      · rename_i hkey
        exact hkey.symm
      · rfl
    rw [hkeys]
    exact h.settingKeys
  · rename_i hany
    rw [List.map_append, List.map_singleton, List.nodup_append]
    refine ⟨h.settingKeys, List.nodup_singleton _, fun k hk k' hk' heq => ?_⟩
    obtain ⟨s, hs, rfl⟩ := List.mem_map.mp hk
    rw [List.mem_singleton.mp hk'] at heq
    exact hany (List.any_eq_true.mpr ⟨s, hs, decide_eq_true heq⟩)

lemma Sound.clearRuntimeState (h : x.Sound) : x.clearRuntimeState.Sound :=
  { h with checkpointSession := fun r hr => by cases hr }

lemma Sound.call (h : x.Sound) {c : Call} {y : Tables} (hy : x.call c = some y) : y.Sound := by
  cases c with
  | insertSession startedAt title => exact Option.some.inj hy ▸ h.insertSession startedAt title
  | closeSession id endedAt => exact Option.some.inj hy ▸ h.closeSession id endedAt
  | deleteSession id => exact Option.some.inj hy ▸ h.deleteSession id
  | wipeAll => exact Option.some.inj hy ▸ Sound.empty
  | insertTurn => exact h.insertTurn hy
  | setTurnStatus id status endedAt interrupted text =>
    exact Option.some.inj hy ▸ h.setTurnStatus id status endedAt interrupted text
  | deleteTurn id => exact Option.some.inj hy ▸ h.deleteTurns _
  | insertSummary => exact h.insertSummary hy
  | upsertFact f => exact h.upsertFact hy
  | deleteFact id => exact Option.some.inj hy ▸ h.deleteFact id
  | upsertRuntimeState row => exact h.upsertRuntimeState hy
  | clearRuntimeState => exact Option.some.inj hy ▸ h.clearRuntimeState
  | setSetting key value updatedAt => exact Option.some.inj hy ▸ h.setSetting key value updatedAt
  | vacuum => exact Option.some.inj hy ▸ h

lemma Sound.no_source (h : (x.deleteTurns fun _ => true).Sound) {f : StoredFact}
    (hf : f ∈ (x.deleteTurns fun _ => true).facts.rows) : f.fact.sourceTurnId = none := by
  cases hsource : f.fact.sourceTurnId with
  | none => rfl
  | some k =>
    obtain ⟨t, -, hp, -⟩ := Table.mem_ids_delete.mp (h.factSource f hf k hsource)
    cases hp

lemma Sound.dropTable (h : x.Sound) (t : TableName) : (x.dropTable t).Sound := by
  have hturns := h.deleteTurns fun _ => true
  cases t with
  | sessions =>
    refine { hturns with
      sessions := .empty
      summaries := h.summaries.delete _
      turnSession := fun t ht => ?_
      summarySession := fun s hs => ?_
      checkpointSession := fun r hr => by cases hr }
    · exact absurd (List.mem_filter.mp ht).2 (by simp)
    · exact absurd (List.mem_filter.mp hs).2 (by simp)
  | turns =>
    refine { hturns with
      turns := .empty
      turnSession := fun t ht => by cases ht
      factSource := fun f hf k hk => ?_ }
    rw [hturns.no_source hf] at hk
    cases hk
  | summaries => exact { h with summaries := .empty, summarySession := fun s hs => by cases hs }
  | facts =>
    exact { h with
      facts := .empty
      factSource := fun f hf => by cases hf
      factKeys := .nil }
  | settings => exact { h with settingKeys := .nil }
  | runtimeState => exact h.clearRuntimeState

lemma Sound.dropped (h : x.Sound) (n : Nat) : (x.dropped n).Sound := by
  unfold Tables.dropped
  induction dropOrder.take n generalizing x with
  | nil => exact h
  | cons t ts ih => exact ih (h.dropTable t)

lemma Sound.step (h : x.Sound) (c : Call × CallEnd) : (x.step c).Sound := by
  unfold Tables.step
  split
  · rename_i call
    cases hy : x.call call with
    | none => exact h
    | some y => exact h.call hy
  · exact h.dropped _
  · exact h

lemma sound_exec (calls : List (Call × CallEnd)) : (Runs.exec Tables.step {} calls).Sound :=
  Runs.exec_invariant Tables.Sound (fun _ c h => h.step c) .empty calls

/-! ### A session that has been deleted -/

/-- A row of some table is of the session. -/
def Mentions (x : Tables) (id : SessionId) : Prop :=
  id ∈ x.sessions.ids ∨ (∃ t ∈ x.turns.rows, t.session = id) ∨ (∃ s ∈ x.summaries.rows, s.session = id) ∨
    ∃ r, x.runtimeState = some r ∧ r.session = id

lemma Sound.not_mentions (h : x.Sound) {id : SessionId} (hid : id ∉ x.sessions.ids) : ¬x.Mentions id := by
  rintro (hs | ⟨t, ht, rfl⟩ | ⟨s, hs, rfl⟩ | ⟨r, hr, rfl⟩)
  · exact hid hs
  · exact hid (h.turnSession t ht)
  · exact hid (h.summarySession s hs)
  · exact hid (h.checkpointSession r hr)

lemma call_grows {c : Call} {y : Tables} (hy : x.call c = some y) (hc : c ≠ .wipeAll) :
    x.sessions.Grows y.sessions ∧ x.turns.Grows y.turns := by
  cases c with
  | wipeAll => exact absurd rfl hc
  | insertSession startedAt title =>
    obtain rfl := Option.some.inj hy
    exact ⟨.of_insert (by simp [Tables.insertSession, Table.ids, Table.insert]) rfl, .refl _⟩
  | closeSession id endedAt =>
    obtain rfl := Option.some.inj hy
    exact ⟨.of_subset (fun k hk => x.ids_closeSession id endedAt ▸ hk) rfl, .refl _⟩
  | deleteSession id =>
    obtain rfl := Option.some.inj hy
    exact ⟨.delete _ _, .delete _ _⟩
  | deleteTurn id =>
    obtain rfl := Option.some.inj hy
    exact ⟨.refl _, .delete _ _⟩
  | setTurnStatus id status endedAt interrupted text =>
    obtain rfl := Option.some.inj hy
    exact ⟨.refl _, .of_subset (fun k hk => x.ids_setTurnStatus id status endedAt interrupted text ▸ hk) rfl⟩
  | insertTurn session role text lang startedAt status =>
    simp only [Tables.call, Tables.insertTurn] at hy
    split at hy
    · obtain rfl := Option.some.inj hy
      exact ⟨.refl _, .of_insert (by simp [Table.ids, Table.insert]) rfl⟩
    · cases hy
  | insertSummary session first last summary lang hash createdAt =>
    simp only [Tables.call, Tables.insertSummary] at hy
    split at hy
    · obtain rfl := Option.some.inj hy
      exact ⟨.refl _, .refl _⟩
    · cases hy
  | upsertFact f =>
    simp only [Tables.call, Tables.upsertFact] at hy
    split at hy
    · obtain rfl := Option.some.inj hy
      exact ⟨.refl _, .refl _⟩
    · cases hy
  | upsertRuntimeState row =>
    simp only [Tables.call, Tables.upsertRuntimeState] at hy
    split at hy
    · obtain rfl := Option.some.inj hy
      exact ⟨.refl _, .refl _⟩
    · cases hy
  | deleteFact id | clearRuntimeState | setSetting key value updatedAt | vacuum =>
    obtain rfl := Option.some.inj hy
    exact ⟨.refl _, .refl _⟩

lemma step_grows (x : Tables) {c : Call × CallEnd} (hc : c.1 ≠ .wipeAll) :
    x.sessions.Grows (x.step c).sessions ∧ x.turns.Grows (x.step c).turns := by
  unfold Tables.step
  split
  · rename_i call
    cases hy : x.call call with
    | none => exact ⟨.refl _, .refl _⟩
    | some y => exact call_grows hy hc
  · exact absurd rfl hc
  · exact ⟨.refl _, .refl _⟩

/-- The session and its turns are gone, and their ids are not given out again. -/
structure Erased (id : SessionId) (turns : List Int) (x : Tables) : Prop where
  sound : x.Sound
  session : x.sessions.Retired id
  turn : ∀ k ∈ turns, x.turns.Retired k

lemma Erased.step {id : SessionId} {turns : List Int} (h : x.Erased id turns) {c : Call × CallEnd}
    (hc : c.1 ≠ .wipeAll) : (x.step c).Erased id turns := by
  obtain ⟨hsessions, hturns⟩ := x.step_grows hc
  exact ⟨h.sound.step c, h.session.grows hsessions, fun k hk => (h.turn k hk).grows hturns⟩

lemma Erased.deleteSession (h : x.Sound) {id : SessionId} (hid : id ∈ x.sessions.ids) :
    (x.deleteSession id).Erased id ((x.turns.rows.filter fun t => t.session = id).map TurnRow.id) where
  sound := h.deleteSession id
  session := ⟨h.sessions.bound id hid, fun hstill => (mem_ids_deleteSession.mp hstill).2 rfl⟩
  turn := by
    intro k hk
    obtain ⟨t, ht, rfl⟩ := List.mem_map.mp hk
    obtain ⟨ht, hsession⟩ := List.mem_filter.mp ht
    refine ⟨h.turns.bound _ (Table.mem_ids ht), fun hstill => ?_⟩
    obtain ⟨u, hu, hp, heq⟩ := Table.mem_ids_delete.mp hstill
    obtain rfl := Table.eq_of_id_eq hu ht heq
    rw [hsession] at hp
    cases hp

/-- Once `delete_session` has succeeded, no call but `wipe_all` can lead to a row that is of the session, to a turn
with the id of one of its turns, or to a fact that names one as its source. -/
theorem deleted_session_gone (before after : List (Call × CallEnd)) (id : SessionId)
    (hid : id ∈ (Runs.exec Tables.step {} before).sessions.ids) (hwipe : ∀ c ∈ after, c.1 ≠ .wipeAll) :
    let x := Runs.exec Tables.step {} before
    let y := Runs.exec Tables.step x ((.deleteSession id, .done) :: after)
    ¬y.Mentions id ∧ ∀ t ∈ x.turns.rows, t.session = id →
      t.id ∉ y.turns.ids ∧ ∀ f ∈ y.facts.rows, f.fact.sourceTurnId.map (fun k : TurnId => (k : Int)) ≠ some t.id := by
  intro x y
  have hsound : x.Sound := sound_exec before
  have herased : y.Erased id ((x.turns.rows.filter fun t => t.session = id).map TurnRow.id) :=
    (Runs.Along.of_forall hwipe _).invariant (Erased id _) (fun _ _ h hc => h.step hc) (.deleteSession hsound hid)
  refine ⟨herased.sound.not_mentions herased.session.absent, fun t ht hsession => ?_⟩
  have hretired := herased.turn t.id (List.mem_map_of_mem (List.mem_filter.mpr ⟨ht, decide_eq_true hsession⟩))
  refine ⟨hretired.absent, fun f hf hsource => ?_⟩
  obtain ⟨k, hk, hkt⟩ := Option.map_eq_some_iff.mp hsource
  exact hretired.absent (hkt ▸ herased.sound.factSource f hf k hk)

/-- The next session and its turn get new ids. -/
theorem second_session_takes_new_ids :
    let x := Runs.exec Tables.step {} [(.insertSession 5 none, .done),
      (.insertTurn 1 .user none none 6 .committed, .done)]
    let y := Runs.exec Tables.step x [(.deleteSession 1, .done), (.insertSession 7 none, .done),
      (.insertTurn 2 .user none none 8 .committed, .done), (.insertTurn 1 .user none none 9 .committed, .done)]
    (¬y.Mentions 1 ∧ ∀ t ∈ x.turns.rows, t.session = 1 →
      t.id ∉ y.turns.ids ∧ ∀ f ∈ y.facts.rows, f.fact.sourceTurnId.map (fun k : TurnId => (k : Int)) ≠ some t.id) ∧
      y.sessions.ids = [2] ∧ y.turns.ids = [2] :=
  ⟨deleted_session_gone [(.insertSession 5 none, .done), (.insertTurn 1 .user none none 6 .committed, .done)]
    [(.insertSession 7 none, .done), (.insertTurn 2 .user none none 8 .committed, .done),
      (.insertTurn 1 .user none none 9 .committed, .done)] 1 (by decide) (by decide), by decide, by decide⟩

end Tables

end Schema

end Acva
