import Acva.Dialogue.Manager
import Acva.Memory.Repository

/-!
# The prompt

`PromptBuilder`: the system message, the recent turns and the current transcript. A snapshot is given its facts and
its summary.
-/

namespace Acva

structure PromptConfig where
  systemPrompts : Text → Option Text := fun _ => none
  recentTurnsN : UInt32 := 10

structure FactRow where
  key : Text
  value : Text
  deriving DecidableEq, Repr

structure MemorySnapshot where
  facts : List FactRow := []
  summary : Option Text := none
  turns : List StoredTurn := []
  deriving DecidableEq, Repr

inductive ChatRole
  | system
  | user
  | assistant
  deriving DecidableEq, Repr

/-- `source` is the number of the transcript on whose behalf a message stands in the list; the request
does not hold it. -/
structure ChatMessage where
  role : ChatRole
  content : Text
  source : Option Nat := none
  deriving DecidableEq, Repr

/-- `static_cast<int>(recent_turns_n)`. -/
def PromptConfig.limit (cfg : PromptConfig) : Int := cfg.recentTurnsN.toInt32.toInt

def chooseSystemPrompt (cfg : ManagerConfig) (prompts : PromptConfig) (lang : Text) : Text :=
  match prompts.systemPrompts lang with
  | some p => p
  | none => (prompts.systemPrompts cfg.fallbackLanguage).getD []

def assembleSystemContent (cfg : ManagerConfig) (prompts : PromptConfig) (lang : Text) (snap : MemorySnapshot) :
    Text :=
  chooseSystemPrompt cfg prompts lang ++
    (if snap.facts = [] then [] else ascii "\n\nDurable user facts:" ++
      snap.facts.flatMap fun f => ascii "\n- " ++ f.key ++ ascii ": " ++ f.value) ++
    (match snap.summary with
      | some s => ascii "\n\nEarlier conversation summary:\n" ++ s
      | none => []) ++
    (if 0 < cfg.maxAssistantSentences ∧ cfg.maxAssistantSentences < 100 then
      ascii "\n\nReply in at most " ++ ascii (toString cfg.maxAssistantSentences.toNat) ++ ascii " short sentences."
    else [])

/-- The rows that `read_snapshot` keeps. -/
def TurnRow.usable (row : TurnRow) : Bool :=
  (row.status = .committed || row.status = .interrupted) && row.text ≠ []

def StoredTurn.message (t : StoredTurn) : ChatMessage :=
  { role := if t.row.role = .user then .user else .assistant, content := t.row.text, source := t.source }

/-- `assemble_messages` for the transcript with number `u`. -/
def assembleMessages (system : Text) (snap : MemorySnapshot) (u : Nat) (text : Text) : List ChatMessage :=
  { role := .system, content := system } :: snap.turns.map StoredTurn.message ++
    [{ role := .user, content := text, source := some u }]

/-- The messages on behalf of the transcript are those of its own rows, and the last one. -/
lemma filter_assembleMessages (system : Text) (snap : MemorySnapshot) (u : Nat) (text : Text) :
    (assembleMessages system snap u text).filter (fun m => m.source = some u) =
      (snap.turns.filter fun t => t.source = some u).map StoredTurn.message ++
        [{ role := .user, content := text, source := some u }] := by
  unfold assembleMessages
  rw [List.filter_append, List.filter_cons_of_neg (by simp), List.filter_map]
  congr 1
  simp

/-- The prompt that was built for a transcript. -/
structure Prompt where
  utterance : Nat
  messages : List ChatMessage
  deriving DecidableEq, Repr

/-- Exactly one message stands for the transcript: the last one, with its text. -/
def Prompt.Once (p : Prompt) (text : Text) : Prop :=
  p.messages.filter (fun m => m.source = some p.utterance) =
      [{ role := .user, content := text, source := some p.utterance }] ∧
    p.messages.getLast? = some { role := .user, content := text, source := some p.utterance }

instance (p : Prompt) (text : Text) : Decidable (p.Once text) := instDecidableAnd

/-- The prompt says the transcript once exactly when the snapshot has no row of it. -/
theorem once_assembleMessages_iff (system : Text) (snap : MemorySnapshot) (u : Nat) (text : Text) :
    Prompt.Once ⟨u, assembleMessages system snap u text⟩ text ↔ ∀ t ∈ snap.turns, t.source ≠ some u := by
  have hlast : (assembleMessages system snap u text).getLast? =
      some { role := .user, content := text, source := some u } := List.getLast?_concat
  unfold Prompt.Once
  rw [filter_assembleMessages]
  simp [hlast, List.filter_eq_nil_iff]

end Acva
