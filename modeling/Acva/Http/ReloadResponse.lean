import Acva.Config.HotReload
import Acva.Lib.Json
import Mathlib.Data.List.Nodup

/-!
# The response to a reload

`POST /reload` writes the outcome of a reload by hand as JSON. A rejected reload reports the hot fields that differ
under the same name under which a successful one reports those it has applied.
-/

namespace Acva

namespace Http

/-- The characters that `escape_json` gives a letter. -/
def shortEscapes : List (UInt8 × UInt8) := [(34, 34), (92, 92), (10, 110), (13, 114), (9, 116)]

def escapeJson (s : Text) : Text := Json.quoted shortEscapes s

/-- The loop, with its flag for the first item. -/
def serializeStringArray (items : List Text) : Text :=
  ascii "[" ++
    (items.foldl (fun (out, first) s => (out ++ (if first then [] else ascii ",") ++ escapeJson s, false))
      (([] : Text), true)).1 ++ ascii "]"

structure Response where
  status : Nat
  body : Text
  deriving DecidableEq, Repr

/-- The handler of `POST /reload`, after the reload. -/
def respond : Option NamedResult → Response
  | none => ⟨503, ascii "\x7b\"error\":\"reload not configured\"\x7d\n"⟩
  | some (.ok diff) =>
    ⟨200, ascii "\x7b\"status\":\"ok\",\"applied\":" ++ serializeStringArray diff.changedHot ++ ascii "\x7d\n"⟩
  | some (.rejected diff) =>
    ⟨409, ascii "\x7b\"status\":\"rejected\",\"restart_required\":" ++ serializeStringArray diff.changedRestart ++
      ascii ",\"applied\":" ++ serializeStringArray diff.changedHot ++ ascii "\x7d\n"⟩
  | some (.parseError message) =>
    ⟨400, ascii "\x7b\"status\":\"parse_error\",\"error\":" ++ escapeJson message ++ ascii "\x7d\n"⟩


lemma sound_shortEscapes : Json.Sound shortEscapes :=
  Json.sound_of_all (by decide) (by decide) (by decide)

lemma serializeStringArray_eq (items : List Text) :
    serializeStringArray items = Json.writeArray (items.map escapeJson) := by
  have hrest : ∀ (items : List Text) (out : Text),
      (items.foldl (fun (out, first) s => (out ++ (if first then [] else ascii ",") ++ escapeJson s, false))
        (out, false)).1 = out ++ items.flatMap fun s => 44 :: escapeJson s := by
    intro items
    induction items with
    | nil => exact fun out => (List.append_nil out).symm
    | cons s items ih =>
      intro out
      rw [List.foldl_cons, ih, List.flatMap_cons]
      simp [ascii]
  cases items with
  | nil => rfl
  | cons s items =>
    rw [serializeStringArray, List.foldl_cons, hrest, Json.writeArray, List.map_cons, Json.intercalate_cons]
    simp [ascii, List.flatMap_map]

lemma reads_serializeStringArray (items : List Text) :
    Json.Reads (serializeStringArray items) (.array (items.map .string)) := by
  rw [serializeStringArray_eq]
  apply Json.reads_array
  induction items with
  | nil => exact .nil
  | cons s items ih => exact .cons (sound_shortEscapes.reads_quoted s) ih

/-- What a client reads in the body under a name. -/
def member (body name : Text) : Option Json :=
  match Json.parse body with
  | some (.object members) => members.lookup name
  | _ => none

/-- The names in the array `applied`, none if there is no such array. -/
def applied (body : Text) : List Text :=
  match member body (ascii "applied") with
  | some (.array items) => items.filterMap fun
    | .string s => some s
    | _ => none
  | _ => []

lemma applied_eq {body : Text} {names : List Text}
    (h : member body (ascii "applied") = some (.array (names.map .string))) : applied body = names := by
  rw [applied, h]
  simp only [List.filterMap_map]
  exact List.filterMap_some

/-- The members of the body of each response after a reload. -/
def members : NamedResult → List (Text × Json)
  | .ok diff => [(ascii "status", .string (ascii "ok")), (ascii "applied", .array (diff.changedHot.map .string))]
  | .rejected diff =>
    [(ascii "status", .string (ascii "rejected")),
     (ascii "restart_required", .array (diff.changedRestart.map .string)),
     (ascii "applied", .array (diff.changedHot.map .string))]
  | .parseError message => [(ascii "status", .string (ascii "parse_error")), (ascii "error", .string message)]

/-- The body of a response after a reload is a JSON object. -/
theorem parse_respond (result : NamedResult) :
    Json.parse (respond (some result)).body = some (.object (members result)) := by
  have hspace : ([10] : Text).all Json.isSpace = true := rfl
  cases result with
  | ok diff =>
    have hstatus := Json.readsMember_plain (k := ascii "status") (by decide)
      (Json.reads_plain (s := ascii "ok") (by decide))
    have happlied := Json.readsMember_plain (k := ascii "applied") (by decide)
      (reads_serializeStringArray diff.changedHot)
    refine Eq.trans (congrArg Json.parse ?_)
      (Json.parse_of_reads (Json.reads_object (.cons hstatus (.cons happlied .nil))) hspace)
    simp [respond, Json.writeObject, Json.writeMember, ascii, List.intercalate_cons_cons]
  | rejected diff =>
    have hstatus := Json.readsMember_plain (k := ascii "status") (by decide)
      (Json.reads_plain (s := ascii "rejected") (by decide))
    have hrestart := Json.readsMember_plain (k := ascii "restart_required") (by decide)
      (reads_serializeStringArray diff.changedRestart)
    have happlied := Json.readsMember_plain (k := ascii "applied") (by decide)
      (reads_serializeStringArray diff.changedHot)
    refine Eq.trans (congrArg Json.parse ?_)
      (Json.parse_of_reads (Json.reads_object (.cons hstatus (.cons hrestart (.cons happlied .nil)))) hspace)
    simp [respond, Json.writeObject, Json.writeMember, ascii, List.intercalate_cons_cons]
  | parseError message =>
    have hstatus := Json.readsMember_plain (k := ascii "status") (by decide)
      (Json.reads_plain (s := ascii "parse_error") (by decide))
    have herror := Json.readsMember_plain (k := ascii "error") (by decide)
      (sound_shortEscapes.reads_quoted message)
    refine Eq.trans (congrArg Json.parse ?_)
      (Json.parse_of_reads (Json.reads_object (.cons hstatus (.cons herror .nil))) hspace)
    simp [respond, escapeJson, Json.writeObject, Json.writeMember, ascii, List.intercalate_cons_cons]

/-- The diff that a result carries. -/
def reported : NamedResult → List Text
  | .ok diff | .rejected diff => diff.changedHot
  | .parseError _ => []

/-- The array `applied` has what the diff has, whether it has been applied or not. -/
lemma applied_respond (result : NamedResult) : applied (respond (some result)).body = reported result := by
  cases result with
  | ok diff => exact applied_eq (by rw [member, parse_respond]; rfl)
  | rejected diff => exact applied_eq (by rw [member, parse_respond]; rfl)
  | parseError message =>
    rw [applied, member, parse_respond]
    rfl

end Http

namespace HotField

/-- Only a NaN differs from itself. -/
def isNan (cfg : Config) (f : HotField) : Bool := changed cfg cfg f

/-- An assignment that does nothing is of an equal value, or of a NaN to a NaN. -/
lemma changed_eq_isNan {live cand : Config} {f : HotField} (h : copy cand live f = live) :
    changed live cand f = isNan live f ∧ isNan cand f = isNan live f := by
  have hlive : changed live cand f = changed live (copy cand live f) f := by cases f <;> rfl
  have hcand : changed cand cand f = changed (copy cand live f) (copy cand live f) f := by cases f <;> rfl
  rw [isNan, isNan, hlive, hcand, h]
  exact ⟨rfl, rfl⟩

lemma changed_of_isNan {live : Config} {f : HotField} (h : isNan live f = true) (cand : Config) :
    changed live cand f = true := by
  cases f with
  | llmTemperature | vadOnsetThreshold | vadOffsetThreshold | audioWakeWordThreshold =>
    simp only [isNan, changed, Config.Number.eq, Bool.not_eq_true', Bool.and_eq_false_iff, decide_eq_false_iff_not,
      not_not, not_true_eq_false, or_false] at h
    simp [changed, Config.Number.eq, h]
  | _ => simp [isNan, changed] at h

lemma copy_of_isNan {live cand : Config} {f : HotField} (hlive : isNan live f = true) (hcand : isNan cand f = true) :
    copy cand live f = live := by
  cases f with
  | llmTemperature | vadOnsetThreshold | vadOffsetThreshold | audioWakeWordThreshold =>
    simp only [isNan, changed, Config.Number.eq, Bool.not_eq_true', Bool.and_eq_false_iff, decide_eq_false_iff_not,
      not_not, not_true_eq_false, or_false] at hlive hcand
    simp [copy, hcand, ← hlive]
  | _ => simp [isNan, changed] at hlive

/-- The diff reports the fields whose value is another, and those that were a NaN and stay one. -/
lemma changed_iff (live cand : Config) (f : HotField) :
    changed live cand f = true ↔ copy cand live f ≠ live ∨ isNan live f = true ∧ isNan cand f = true := by
  constructor
  · intro hchanged
    by_cases hcopy : copy cand live f = live
    · obtain ⟨hlive, hcand⟩ := changed_eq_isNan hcopy
      rw [hlive] at hchanged
      exact .inr ⟨hchanged, hcand.trans hchanged⟩
    · exact .inl hcopy
  · rintro (hcopy | ⟨hlive, -⟩)
    · by_contra hchanged
      exact hcopy (copy_of_not_changed (Bool.not_eq_true _ ▸ hchanged))
    · exact changed_of_isNan hlive cand

lemma path_injective : Function.Injective path := by
  have hnodup : (all.map path).Nodup := by decide +kernel
  intro f g h
  exact List.inj_on_of_nodup_map hnodup (mem_all f) (mem_all g) h

lemma filter_path_eq_iff (p q : HotField → Bool) :
    (all.filter p).map path = (all.filter q).map path ↔ ∀ f, p f = q f := by
  rw [(List.map_injective_iff.mpr path_injective).eq_iff]
  constructor
  · intro h f
    have hmem : f ∈ all.filter p ↔ f ∈ all.filter q := by rw [h]
    simp only [List.mem_filter, mem_all, true_and] at hmem
    exact Bool.eq_iff_iff.mpr hmem
  · intro h
    exact List.filter_congr fun f _ => h f

end HotField

namespace Config

/-- If the candidate requires a restart it has no other hot values, and if not, no NaN that the live one also has. -/
structure Unmixed (live cand : Config) : Prop where
  restart : (∃ f, RestartField.changed live cand f = true) → ∀ f, HotField.copy cand live f = live
  nan : ∀ f, ¬(HotField.isNan live f = true ∧ HotField.isNan cand f = true)

/-- The array `applied` names exactly the fields whose value is another after the reload. -/
def AppliedTrue (body : Text) (before after : Config) : Prop :=
  Http.applied body = (before.hotEdits after).map HotField.path ∧ before.withHot after = after

lemma hotEdits_withHot (live cand : Config) : live.hotEdits (live.withHot cand) = live.hotEdits cand := by
  apply List.filter_congr
  intro f _
  have hcopy : HotField.copy (live.withHot cand) live f = HotField.copy cand live f := by cases f <;> rfl
  rw [hcopy]

lemma withHot_withHot (live cand : Config) : live.withHot (live.withHot cand) = live.withHot cand := by
  rw [withHot_eq, withHot_eq]
  rfl

/-- Of a candidate that is applied the diff reports what has been changed, and a NaN that stays one. -/
lemma reported_eq_hotEdits_iff {live cand : Config}
    (hrestart : RestartField.all.filter (RestartField.changed live cand) = []) :
    (HotField.all.filter (HotField.changed live cand)).map HotField.path = (live.hotEdits cand).map HotField.path ↔
      live.Unmixed cand := by
  have hsame : ∀ f, RestartField.changed live cand f = false := by
    intro f
    have hf := List.filter_eq_nil_iff.mp hrestart f f.mem_all
    rwa [Bool.not_eq_true] at hf
  rw [hotEdits, HotField.filter_path_eq_iff]
  constructor
  · intro h
    refine ⟨?_, ?_⟩
    · rintro ⟨f, hf⟩
      rw [hsame f] at hf
      cases hf
    · intro f ⟨hlive, hcand⟩
      have hchanged := HotField.changed_of_isNan hlive cand
      rw [h f] at hchanged
      exact of_decide_eq_true hchanged (HotField.copy_of_isNan hlive hcand)
  · intro h f
    rw [Bool.eq_iff_iff, HotField.changed_iff, decide_eq_true_eq]
    exact or_iff_left (h.nan f)

lemma reported_eq_nil_iff {live cand : Config}
    (hrestart : RestartField.all.filter (RestartField.changed live cand) ≠ []) :
    (HotField.all.filter (HotField.changed live cand)).map HotField.path = ([] : List HotField).map HotField.path ↔
      live.Unmixed cand := by
  have hone : ∃ f, RestartField.changed live cand f = true := by
    obtain ⟨f, hf⟩ := List.exists_mem_of_ne_nil _ hrestart
    exact ⟨f, (List.mem_filter.mp hf).2⟩
  rw [List.map_nil, List.map_eq_nil_iff, List.filter_eq_nil_iff]
  simp only [HotField.mem_all, forall_const, HotField.changed_iff, not_or, not_not]
  constructor
  · intro h
    exact ⟨fun _ f => (h f).1, fun f => (h f).2⟩
  · intro h f
    exact ⟨h.restart hone f, h.nan f⟩

end Config

namespace ConfigReloader

open Config

/-- The response to a reload names under `applied` exactly the fields that the reload has changed, if and only if the
file that loads does not mix other hot values with a change that requires a restart, and no NaN meets a NaN. -/
theorem reload_response_iff (readYaml : YamlReader) (host : Host) (r : ConfigReloader) :
    let out := r.reloadNamed readYaml host
    AppliedTrue (Http.respond (some out.1)).body r.live out.2.live ↔
      ∀ cand, loadFromFile readYaml host r.path = .ok cand → Unmixed r.live cand := by
  simp only [AppliedTrue, Http.applied_respond, reloadNamed_eq]
  cases hload : loadFromFile readYaml host r.path with
  | error message => simp [reload, hload, ReloadResult.named, Http.reported, hotEdits_self, withHot_self]
  | ok cand =>
    simp only [Except.ok.injEq, forall_eq']
    rw [reload_of_load hload, diffConfigs_eq]
    by_cases hrestart : RestartField.all.filter (RestartField.changed r.live cand) = []
    · simp only [hrestart, ReloadDiff.okToApply, List.isEmpty_nil, if_true, ReloadResult.named, ReloadDiff.named,
        Http.reported, hotEdits_withHot, withHot_withHot, and_true]
      exact reported_eq_hotEdits_iff hrestart
    · simp only [hrestart, ReloadDiff.okToApply, List.isEmpty_iff, if_false, ReloadResult.named, ReloadDiff.named,
        Http.reported, hotEdits_self, withHot_self, and_true]
      exact reported_eq_nil_iff hrestart

/-- Another temperature, which is hot, and another model, which is not. -/
def mixedEdit : Config := { llm := { temperature := 1, model := ascii "other" } }

def mixedEditText : Text := ascii "llm:\n  temperature: 1\n  model: other\n"

/-- Nothing is applied, and the temperature is reported as applied. -/
theorem rejected_reload_reports_applied :
    let out := reloadNamed (readsAs mixedEditText mixedEdit) (homeHost mixedEditText) ⟨{}, ascii "acva.yaml"⟩
    Http.respond (some out.1) =
        ⟨409, ascii "\x7b\"status\":\"rejected\",\"restart_required\":[\"llm.model\"]," ++
          ascii "\"applied\":[\"llm.temperature\"]\x7d\n"⟩ ∧
      out.2.live = {} ∧ ¬AppliedTrue (Http.respond (some out.1)).body {} out.2.live := by
  have hvalid : validate (homeHost mixedEditText) mixedEdit.resolveAliases = none := by decide +kernel
  have halias : mixedEdit.resolveAliases = mixedEdit := by decide +kernel
  have hload := homeHost_loadFromFile hvalid
  rw [halias] at hload
  have hdiff : diffConfigs {} mixedEdit = ⟨[.llmTemperature], [.llmModel]⟩ := by decide +kernel
  have hreload : reloadNamed (readsAs mixedEditText mixedEdit) (homeHost mixedEditText) ⟨{}, ascii "acva.yaml"⟩ =
      (.rejected ⟨[ascii "llm.temperature"], [ascii "llm.model"]⟩, ⟨{}, ascii "acva.yaml"⟩) := by
    rw [reloadNamed_eq, reload_of_load (r := ⟨{}, ascii "acva.yaml"⟩) hload, hdiff]
    rfl
  rw [hreload]
  refine ⟨by decide +kernel, rfl, ?_⟩
  rintro ⟨happlied, -⟩
  rw [Http.applied_respond, hotEdits_self] at happlied
  cases happlied

end ConfigReloader

end Acva
