import Acva.Lib.Json
import Acva.ModelController.Controller

/-!
# The status on its way to the client

The sidecar writes its status with the package `encoding/json`. `ModelControllerClient` does not parse it: it looks for
the first place where a name stands in quotes before a colon, and takes what is between the next two quotes as it is,
with its escapes. It writes the file to load between two quotes without escaping it.
-/

namespace Acva.ModelController

/-- `ControllerStatus`, as the client reads it. -/
structure ControllerStatus where
  loadedFile : Text := []
  aliasName : Text := []
  health : Text := []
  deriving DecidableEq, Repr

def Health.name : Health → Text
  | .unknown => ascii "unknown"
  | .unhealthy => ascii "unhealthy"
  | .healthy => ascii "healthy"

/-! ### What the sidecar writes -/

/-- `htmlSafeSet` of the package `encoding/json`. -/
def htmlSafe (b : UInt8) : Bool := 32 ≤ b && b < 0x80 && b != 34 && b != 38 && b != 60 && b != 62 && b != 92

def shortEscapes : List (UInt8 × UInt8) := [(92, 92), (34, 34), (8, 98), (12, 102), (10, 110), (13, 114), (9, 116)]

/-- What is written for a byte of ASCII. -/
def escapeAscii (b : UInt8) : Text :=
  if htmlSafe b then [b]
  else match shortEscapes.lookup b with
    | some c => [92, c]
    | none => [92, 117, 48, 48, Json.hexChar (b.toNat / 16), Json.hexChar (b.toNat % 16)]

def isContinuation (b : UInt8) : Bool := 0x80 ≤ b && b ≤ 0xBF

/-- `utf8.DecodeRuneInString` on a text that does not start with ASCII: the size of the first character if there is
one. -/
def runeSize : Text → Option Nat
  | a :: b :: s =>
    if 0xC2 ≤ a && a ≤ 0xDF then if isContinuation b then some 2 else none
    else
      match s with
      | [] => none
      | c :: s =>
        if 0xE0 ≤ a && a ≤ 0xEF then
          if (if a = 0xE0 then 0xA0 else 0x80) ≤ b &&
            b ≤ (if a = 0xED then 0x9F else 0xBF) && isContinuation c then some 3
          else none
        else
          match s with
          | [] => none
          | d :: _ =>
            if 0xF0 ≤ a && a ≤ 0xF4 && (if a = 0xF0 then 0x90 else 0x80) ≤ b &&
                b ≤ (if a = 0xF4 then 0x8F else 0xBF) && isContinuation c && isContinuation d then some 4
            else none
  | _ => none

/-- `appendString` of the package `encoding/json`, less the quotes. The first `skip` bytes belong to a character that
has been dealt with; they are copied if that was not by an escape. -/
def appendString : Nat → Bool → Text → Text
  | _, _, [] => []
  | skip + 1, copied, b :: s => (if copied then [b] else []) ++ appendString skip copied s
  | 0, _, b :: s =>
    if b < 0x80 then escapeAscii b ++ appendString 0 true s
    else
      match runeSize (b :: s) with
      | none => ascii "\\ufffd" ++ appendString 0 true s
      | some n =>
        -- the line separator and the paragraph separator, which end a line in JavaScript
        if (b :: s).take 3 = [0xE2, 0x80, 0xA8] then ascii "\\u2028" ++ appendString (n - 1) false s
        else if (b :: s).take 3 = [0xE2, 0x80, 0xA9] then ascii "\\u2029" ++ appendString (n - 1) false s
        else b :: appendString (n - 1) true s

/-- `writeJSON` of a status. -/
def writeStatus (s : Status) : Text :=
  ascii "\x7b\"loaded_file\":" ++ (34 :: appendString 0 true s.loadedFile ++ 34 :: (ascii ",\"alias\":" ++
    (34 :: appendString 0 true s.aliasName ++ 34 :: (ascii ",\"health\":" ++
      (34 :: appendString 0 true s.health.name ++ 34 :: ascii "\x7d\n")))))

/-! ### What the client reads and writes -/

/-- What follows the first occurrence of the needle. -/
def afterFirst (needle : Text) : Text → Option Text
  | [] => if needle = [] then some [] else none
  | b :: s => if needle.isPrefixOf (b :: s) then some ((b :: s).drop needle.length) else afterFirst needle s

def findValue (body key : Text) : Text :=
  match afterFirst (34 :: key ++ [34, 58]) body with
  | none => []
  | some rest =>
    match rest.dropWhile fun b => b == 32 || b == 9 with
    | [] => []
    | b :: rest => if b = 34 ∧ 34 ∈ rest then rest.takeWhile (· != 34) else []

def parseStatus (body : Text) : ControllerStatus where
  loadedFile := findValue body (ascii "loaded_file")
  aliasName := findValue body (ascii "alias")
  health := findValue body (ascii "health")

/-- The body of `POST /llm/load`. -/
def loadBody (file : Text) : Text := ascii "\x7b\"file\":\"" ++ file ++ ascii "\"\x7d"

/-! ### Quotes inside a written string -/

/-- Every quote comes right after a backslash. -/
def Guarded (e : Text) : Prop := ∀ p q, e = p ++ 34 :: q → p.getLast? = some 92

/-- The same but for a quote at the start. -/
def TailGuarded (e : Text) : Prop := ∀ p q, e = p ++ 34 :: q → p ≠ [] → p.getLast? = some 92

lemma guarded_of_not_mem {e : Text} (h : 34 ∉ e) : Guarded e := by
  rintro p q rfl
  simp at h

lemma guarded_escape {c : UInt8} {e : Text} (h : 34 ∉ e) : Guarded (92 :: c :: e) := by
  intro p q hpq
  match p with
  | [] => simp at hpq
  | [a] =>
    obtain ⟨rfl, -⟩ := List.cons.inj hpq
    rfl
  | a :: b :: p =>
    simp only [List.cons_append, List.cons.injEq] at hpq
    simp [hpq.2.2] at h

lemma Guarded.append {e f : Text} (he : Guarded e) (hf : Guarded f) : Guarded (e ++ f) := by
  intro p q hpq
  rcases List.append_eq_append_iff.1 hpq with ⟨a, rfl, ha⟩ | ⟨a, rfl, ha⟩
  · have hlast := hf a q ha
    cases a with
    | nil => simp at hlast
    | cons x a => rw [List.getLast?_append, hlast]; rfl
  · cases a with
    | nil => simpa using hf [] q (by simpa using ha.symm)
    | cons x a =>
      obtain ⟨rfl, -⟩ := List.cons.inj ha
      exact he p a rfl

lemma Guarded.tail {e : Text} (h : Guarded e) : TailGuarded (34 :: e) := by
  intro p q hpq hne
  obtain ⟨a, p, rfl⟩ := List.exists_cons_of_ne_nil hne
  have hlast := h p q (List.cons.inj hpq).2
  cases p with
  | nil => simp at hlast
  | cons b p => simpa using hlast

lemma TailGuarded.of_cons {b : UInt8} {e : Text} (h : TailGuarded (b :: e)) : TailGuarded e := by
  intro p q hpq hne
  obtain ⟨a, p, rfl⟩ := List.exists_cons_of_ne_nil hne
  simpa using h (b :: a :: p) q (by simp [hpq]) (by simp)

lemma TailGuarded.guarded {e : Text} (h : TailGuarded (34 :: e)) : Guarded e := by
  intro p q hpq
  have hlast := h (34 :: p) q (by simp [hpq]) (by simp)
  cases p with
  | nil => simp at hlast
  | cons b p => simpa using hlast

lemma Guarded.not_name {e k t : Text} {c : UInt8} (h : Guarded e) (hc : c ≠ 58) (hquote : 34 ∉ k) (hslash : 92 ∉ k) :
    ¬(k ++ [34, 58]) <+: (e ++ 34 :: c :: t) := by
  rintro ⟨z, hz⟩
  rw [List.append_assoc] at hz
  rcases List.append_eq_append_iff.1 hz with ⟨a, rfl, ha⟩ | ⟨a, rfl, ha⟩
  · cases a with
    | nil => simp [hc.symm] at ha
    | cons x a =>
      obtain ⟨rfl, -⟩ := List.cons.inj ha
      exact hslash (List.mem_of_mem_getLast? (h k a rfl))
  · cases a with
    | nil => simp [hc] at ha
    | cons x a =>
      obtain ⟨rfl, -⟩ := List.cons.inj ha
      simp at hquote

lemma afterFirst_of_mismatch {needle s : Text} {b : UInt8} (h : ¬needle <+: b :: s) :
    afterFirst needle (b :: s) = afterFirst needle s := by
  rw [afterFirst, if_neg (by rwa [List.isPrefixOf_iff_prefix])]

lemma afterFirst_guarded {e k t : Text} {c : UInt8} (h : TailGuarded e) (hc : c ≠ 58) (hquote : 34 ∉ k)
    (hslash : 92 ∉ k)
    (hk : k ≠ []) (hhead : k.head? ≠ some c) :
    afterFirst (34 :: k ++ [34, 58]) (e ++ 34 :: c :: t) = afterFirst (34 :: k ++ [34, 58]) (c :: t) := by
  induction e with
  | nil =>
    apply afterFirst_of_mismatch
    obtain ⟨x, k, rfl⟩ := List.exists_cons_of_ne_nil hk
    intro hprefix
    obtain ⟨hx, -⟩ := List.cons_prefix_cons.1 (List.cons_prefix_cons.1 hprefix).2
    exact hhead (congrArg some hx)
  | cons b e ih =>
    refine Eq.trans (afterFirst_of_mismatch ?_) (ih h.of_cons)
    intro hprefix
    obtain ⟨rfl, hname⟩ := List.cons_prefix_cons.1 hprefix
    exact h.guarded.not_name hc hquote hslash hname

/-! ### What is written for a string -/

lemma htmlSafe_iff {b : UInt8} :
    htmlSafe b = true ↔ 32 ≤ b ∧ b < 0x80 ∧ b ≠ 34 ∧ b ≠ 38 ∧ b ≠ 60 ∧ b ≠ 62 ∧ b ≠ 92 := by
  simp [htmlSafe, and_assoc]

lemma hexChar_ne : ∀ n < 16, Json.hexChar n ≠ 34 := by decide

lemma guarded_escapeAscii (b : UInt8) : Guarded (escapeAscii b) := by
  have hlt := b.toNat_lt
  unfold escapeAscii
  split
  · rename_i hsafe
    apply guarded_of_not_mem
    simpa using (htmlSafe_iff.1 hsafe).2.2.1.symm
  · split
    · exact guarded_escape (by simp)
    · apply guarded_escape
      have hhigh := hexChar_ne (b.toNat / 16) (by omega)
      have hlow := hexChar_ne (b.toNat % 16) (by omega)
      simp [hhigh.symm, hlow.symm]

lemma guarded_high {b : UInt8} (h : ¬b < 0x80) : Guarded [b] := by
  apply guarded_of_not_mem
  rintro hb
  obtain rfl := List.mem_singleton.1 hb
  exact h (by decide)

lemma high_of_runeSize {b : UInt8} {s : Text} {n : Nat} (h : runeSize (b :: s) = some n) :
    ∀ x ∈ s.take (n - 1), 0x80 ≤ x := by
  have hcont : ∀ x, isContinuation x = true → 0x80 ≤ x := by
    intro x hx
    simp only [isContinuation, Bool.and_eq_true, decide_eq_true_eq] at hx
    exact hx.1
  match s, h with
  | x :: s, h =>
    simp only [runeSize] at h
    split at h
    · obtain ⟨hx, hn⟩ := Option.ite_none_right_eq_some.1 h
      obtain rfl := Option.some.inj hn
      simpa using hcont x hx
    · match s, h with
      | y :: s, h =>
        dsimp only at h
        split at h
        · obtain ⟨hrest, hn⟩ := Option.ite_none_right_eq_some.1 h
          obtain rfl := Option.some.inj hn
          simp only [Bool.and_eq_true, decide_eq_true_eq] at hrest
          have hx : 0x80 ≤ x := by
            refine UInt8.le_trans ?_ hrest.1.1
            split <;> decide
          simpa using ⟨hx, hcont y hrest.2⟩
        · match s, h with
          | z :: s, h =>
            obtain ⟨hrest, hn⟩ := Option.ite_none_right_eq_some.1 h
            obtain rfl := Option.some.inj hn
            simp only [Bool.and_eq_true, decide_eq_true_eq] at hrest
            obtain ⟨⟨⟨⟨-, hlow⟩, -⟩, hy⟩, hz⟩ := hrest
            have hx : 0x80 ≤ x := by
              refine UInt8.le_trans ?_ hlow
              split <;> decide
            simpa using ⟨hx, hcont y hy, hcont z hz⟩

lemma guarded_appendString (skip : Nat) (copied : Bool) (s : Text) (hskip : ∀ x ∈ s.take skip, 0x80 ≤ x) :
    Guarded (appendString skip copied s) := by
  induction s generalizing skip copied with
  | nil => simpa [appendString] using guarded_of_not_mem (e := []) (by simp)
  | cons b s ih =>
    cases skip with
    | succ skip =>
      rw [List.take_succ_cons, List.forall_mem_cons] at hskip
      rw [appendString]
      refine Guarded.append ?_ (ih skip copied hskip.2)
      cases copied with
      | true => exact guarded_high (UInt8.not_lt.2 hskip.1)
      | false => exact guarded_of_not_mem (by simp)
    | zero =>
      have hstart : ∀ x ∈ s.take 0, 0x80 ≤ x := by simp
      rw [appendString]
      split
      · exact (guarded_escapeAscii b).append (ih 0 true hstart)
      · rename_i hb
        split
        · exact (guarded_escape (by decide)).append (ih 0 true hstart)
        · rename_i n hn
          have hrest := high_of_runeSize hn
          split
          · exact (guarded_escape (by decide)).append (ih (n - 1) false hrest)
          · split
            · exact (guarded_escape (by decide)).append (ih (n - 1) false hrest)
            · exact (guarded_high hb).append (ih (n - 1) true hrest)

lemma eq_of_no_backslash {skip : Nat} {s : Text} (h : 92 ∉ appendString skip true s) :
    appendString skip true s = s := by
  induction s generalizing skip with
  | nil => cases skip <;> rfl
  | cons b s ih =>
    cases skip with
    | succ skip =>
      rw [appendString] at h ⊢
      rw [ih (fun hmem => h (List.mem_append_right _ hmem))]
      rfl
    | zero =>
      rw [appendString] at h ⊢
      split at h
      · rename_i hb
        rw [if_pos hb, ih (fun hmem => h (List.mem_append_right _ hmem))]
        have hsafe : htmlSafe b = true := by
          by_contra hunsafe
          refine h (List.mem_append_left _ ?_)
          rw [escapeAscii, if_neg hunsafe]
          split <;> simp
        rw [escapeAscii, if_pos hsafe]
        rfl
      · rename_i hb
        rw [if_neg hb]
        split at h
        · exact absurd (by decide) (fun hmem => h (List.mem_append_left _ hmem))
        · rename_i n hn
          split at h
          · exact absurd (by decide) (fun hmem => h (List.mem_append_left _ hmem))
          · rename_i hls
            split at h
            · exact absurd (by decide) (fun hmem => h (List.mem_append_left _ hmem))
            · rename_i hps
              rw [if_neg hls, if_neg hps, ih (fun hmem => h (List.mem_cons_of_mem b hmem))]

lemma quote_of_no_backslash {s : Text} (h : 92 ∉ appendString 0 true s) : 34 ∉ s := by
  intro hquote
  have hguarded := guarded_appendString 0 true s (by simp)
  rw [eq_of_no_backslash h] at hguarded h
  obtain ⟨p, q, hs⟩ := List.append_of_mem hquote
  exact h (hs ▸ List.mem_append_left _ (List.mem_of_mem_getLast? (hguarded p q hs)))

/-- What is between the quotes is a text that needs no escape only if it was written for that text. -/
lemma takeWhile_appendString_iff {s f : Text} (hf : 92 ∉ appendString 0 true f) :
    (appendString 0 true s).takeWhile (· != 34) = f ↔ s = f := by
  have hself := eq_of_no_backslash hf
  have hquote := quote_of_no_backslash hf
  constructor
  · intro hread
    have hslash : 92 ∉ f := hself ▸ hf
    have hsplit := List.takeWhile_append_dropWhile (p := (· != 34)) (l := appendString 0 true s)
    rw [hread] at hsplit
    cases hrest : (appendString 0 true s).dropWhile (· != 34) with
    | nil =>
      rw [hrest, List.append_nil] at hsplit
      rw [hsplit] at hslash
      exact (eq_of_no_backslash hslash).symm.trans hsplit.symm
    | cons b q =>
      rw [hrest] at hsplit
      obtain rfl : b = 34 := by
        have hb := List.dropWhile_get_zero_not (· != 34) (appendString 0 true s) (by simp [hrest])
        simpa [hrest] using hb
      have hlast := guarded_appendString 0 true s (by simp) f q hsplit.symm
      exact absurd (List.mem_of_mem_getLast? hlast) hslash
  · rintro rfl
    rw [hself, List.takeWhile_eq_self_iff]
    intro b hb
    simpa using fun heq : b = 34 => hquote (heq ▸ hb)

/-! ### What the client reads -/

lemma takeWhile_before_quote (e t : Text) :
    (e ++ 34 :: t).takeWhile (· != 34) = e.takeWhile (· != 34) := by
  induction e with
  | nil => rfl
  | cons b e ih => by_cases hb : b = 34 <;> simp [hb, ih]

lemma findValue_of_found {body key e t : Text}
    (h : afterFirst (34 :: key ++ [34, 58]) body = some (34 :: e ++ 34 :: t)) :
    findValue body key = e.takeWhile (· != 34) := by
  have hquote : (34 : UInt8) ∈ e ++ 34 :: t := by simp
  have hspaces : (34 :: e ++ 34 :: t).dropWhile (fun b => b == 32 || b == 9) = 34 :: (e ++ 34 :: t) := rfl
  rw [findValue, h]
  dsimp only
  rw [hspaces]
  dsimp only
  rw [if_pos ⟨rfl, hquote⟩, takeWhile_before_quote]

/-- The names are found where they were written, whatever the values before them are. -/
lemma parseStatus_writeStatus (s : Status) :
    parseStatus (writeStatus s) =
      ⟨(appendString 0 true s.loadedFile).takeWhile (· != 34), (appendString 0 true s.aliasName).takeWhile (· != 34),
        s.health.name⟩ := by
  have hfile := guarded_appendString 0 true s.loadedFile (by simp)
  have halias := guarded_appendString 0 true s.aliasName (by simp)
  have hhealth : (appendString 0 true s.health.name).takeWhile (· != 34) = s.health.name := by
    rw [takeWhile_appendString_iff]
    cases s.health <;> decide
  unfold parseStatus
  rw [ControllerStatus.mk.injEq, ← hhealth]
  let last := ascii "\x7d\n"
  let third := ascii ",\"health\":" ++ (34 :: appendString 0 true s.health.name ++ 34 :: last)
  let second := ascii ",\"alias\":" ++ (34 :: appendString 0 true s.aliasName ++ 34 :: third)
  refine ⟨findValue_of_found (t := second) rfl, findValue_of_found (t := third) ?_, findValue_of_found (t := last) ?_⟩
  · exact (afterFirst_guarded hfile.tail (by decide) (by decide) (by decide) (by decide) (by decide)).trans rfl
  · refine (afterFirst_guarded hfile.tail (by decide) (by decide) (by decide) (by decide) (by decide)).trans ?_
    exact (afterFirst_guarded halias.tail (by decide) (by decide) (by decide) (by decide) (by decide)).trans rfl

/-- A status whose texts are written without an escape is read exactly where it was written. -/
theorem status_read_iff (s : Status) {c : ControllerStatus} (hfile : 92 ∉ appendString 0 true c.loadedFile)
    (halias : 92 ∉ appendString 0 true c.aliasName) :
    parseStatus (writeStatus s) = c ↔ s.loadedFile = c.loadedFile ∧ s.aliasName = c.aliasName ∧
      s.health.name = c.health := by
  rw [parseStatus_writeStatus, ← takeWhile_appendString_iff hfile, ← takeWhile_appendString_iff halias]
  cases c
  simp

/-- A name with a quote in it is not taken for the part before the quote. -/
theorem status_of_quoted_name :
    parseStatus (writeStatus ⟨ascii "a.gguf", ascii "alias", .healthy⟩) =
      ⟨ascii "a.gguf", ascii "alias", ascii "healthy"⟩ ∧
      parseStatus (writeStatus ⟨ascii "a\",\"alias\":\"b", [], .healthy⟩) ≠ ⟨ascii "a", ascii "b", ascii "healthy"⟩ :=
  ⟨(status_read_iff _ (by decide) (by decide)).2 ⟨rfl, rfl, rfl⟩,
    fun h => absurd ((status_read_iff _ (by decide) (by decide)).1 h).1 (by decide)⟩

/-! ### What the sidecar reads -/

/-- `json.Unmarshal` into `loadReq` takes a JSON object that only has the file at its word. -/
def Unmarshals (unmarshal : Text → LoadBody) : Prop :=
  ∀ body name, Json.IsText body (.object [(ascii "file", .string name)]) → unmarshal body = .file name

/-- One such reader. -/
def readLoad (body : Text) : LoadBody :=
  match Json.parse body with
  | some (.object [(k, .string name)]) => if k = ascii "file" then .file name else .file []
  | _ => .malformed []

lemma unmarshals_readLoad : Unmarshals readLoad := by
  intro body name h
  simp [readLoad, h.2]

lemma isText_loadBody {file : Text} (h : file.all Json.isPlain) :
    Json.IsText (loadBody file) (.object [(ascii "file", .string file)]) := by
  have hbody : loadBody file = Json.writeObject [Json.writeMember (ascii "file") (34 :: file ++ [34])] := by
    rw [Json.writeObject, List.intercalate_singleton, Json.writeMember]
    simp [loadBody, ascii]
  have hreads := Json.reads_object
    (.cons (Json.readsMember_plain (k := ascii "file") (by decide) (Json.reads_plain h)) .nil)
  constructor
  · exact ((Utf8.valid_of_all (by decide)).append (Json.valid_plain h)).append (Utf8.valid_of_all (by decide))
  · rw [hbody, ← List.append_nil (Json.writeObject _)]
    exact Json.parse_of_reads hreads rfl

lemma no_backslash_of_safe {s : Text} (h : s.all htmlSafe) : 92 ∉ appendString 0 true s := by
  induction s with
  | nil => exact List.not_mem_nil
  | cons b s ih =>
    rw [List.all_cons, Bool.and_eq_true] at h
    obtain ⟨-, hascii, -, -, -, -, hslash⟩ := htmlSafe_iff.1 h.1
    rw [appendString, if_pos hascii, escapeAscii, if_pos h.1]
    exact List.not_mem_cons_of_ne_of_not_mem (Ne.symm hslash) (ih h.2)

lemma isPlain_of_htmlSafe {s : Text} (h : s.all htmlSafe) : s.all Json.isPlain := by
  rw [List.all_eq_true] at h ⊢
  intro b hb
  obtain ⟨hprint, hascii, hquote, -, -, -, hslash⟩ := htmlSafe_iff.1 (h b hb)
  exact Json.isPlain_iff.2 ⟨hquote, hslash, hprint, hascii⟩

end Acva.ModelController
