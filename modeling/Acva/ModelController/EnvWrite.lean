import Acva.ModelController.EnvKeys

/-!
# Writing one key

When `writeEnvKey` leaves the other keys alone. A file without the key gets a line at its end, where the value of
another key that is blank there runs into it; in a file with the key the value is a template, too.
-/

namespace Acva.EnvFile

/-! ### A line at the end -/

/-- No line goes on from the first text to the second. -/
def Joined (t w : Text) : Prop := t ≠ [] → w.head?.any isNewline ∨ t.getLast?.any isNewline

namespace Joined

variable {t w : Text}

lemma suffix {t' : Text} (h : Joined t w) (ht : t' <:+ t) : Joined t' w := by
  rintro hne
  obtain ⟨x, rfl⟩ := ht
  refine (h (by simp [hne])).imp_right fun hlast => ?_
  rwa [List.getLast?_append_of_ne_nil x hne] at hlast

lemma split {p : UInt8 → Bool} (h : Joined t w) (hp : ∀ c, p c = true → isNewline c = false) (hne : t ≠ []) :
    (t ++ w).takeWhile p = t.takeWhile p ∧ (t ++ w).dropWhile p = t.dropWhile p ++ w := by
  induction t with
  | nil => exact absurd rfl hne
  | cons c cs ih =>
    cases hc : p c with
    | false => simp [hc]
    | true =>
      cases cs with
      | nil =>
        have hjoin := h (by simp)
        simp only [List.getLast?_singleton, Option.any_some, hp c hc, Bool.false_eq_true, or_false] at hjoin
        cases w with
        | nil => simp at hjoin
        | cons d ds =>
          have hd : p d = false := by
            by_contra hd
            have hnewline := hp d (by simpa using hd)
            simp [hnewline] at hjoin
          simp [hc, hd]
      | cons d ds =>
        obtain ⟨htake, hdrop⟩ := ih (h.suffix ⟨[c], rfl⟩) (by simp)
        rw [List.cons_append, List.takeWhile_cons_of_pos hc, List.dropWhile_cons_of_pos hc,
          List.takeWhile_cons_of_pos hc, List.dropWhile_cons_of_pos hc, htake, hdrop]
        exact ⟨rfl, rfl⟩

lemma valueOf_append (h : Joined t w) (hvisible : ¬∀ c ∈ t, isSpace c) : valueOf (t ++ w) = valueOf t := by
  have hne : t.dropWhile isSpace ≠ [] := mt List.dropWhile_eq_nil_iff.1 hvisible
  rw [valueOf, valueOf, dropWhile_append_of_visible hvisible,
    ((h.suffix (List.dropWhile_suffix isSpace)).split (by simp) hne).1]

end Joined

section Append

variable {k key w : Text} (hk : EnvName k) (hkey : EnvName key) (hne : k ≠ key) (hw : entryAt key w ≠ none)
include hk hkey hne hw

lemma entryAt_append_line {t : Text} (h : Joined t w) : entryAt k (t ++ w) = (entryAt k t).map (· ++ w) := by
  cases hentry : entryAt k t with
  | some rest => exact entryAt_append hk.plainKey hentry w
  | none =>
    rw [Option.map_none]
    by_contra hsome
    obtain ⟨r, hr⟩ := Option.ne_none_iff_exists'.1 hsome
    obtain ⟨hname, hsign⟩ := (entryAt_iff hk).1 hr
    obtain ⟨rest, hrest⟩ := Option.ne_none_iff_exists'.1 hw
    obtain ⟨hwname, -⟩ := (entryAt_iff hkey).1 hrest
    by_cases hblank : ∀ c ∈ t, isSpace c
    · rw [nameAt, List.dropWhile_append_of_pos hblank, ← nameAt, hwname] at hname
      exact hne hname.symm
    · have hdrop := dropWhile_append_of_visible hblank w
      have hvisible : t.dropWhile isSpace ≠ [] := mt List.dropWhile_eq_nil_iff.1 hblank
      obtain ⟨htake, hafter⟩ := (h.suffix (List.dropWhile_suffix isSpace)).split (p := isNameChar)
        (fun _ => isNewline_of_isNameChar) hvisible
      rw [nameAt, hdrop, htake, ← nameAt] at hname
      rw [afterName, hdrop, hafter, ← afterName] at hsign
      by_cases hend : ∀ c ∈ afterName t, isSpace c
      · rw [List.dropWhile_append_of_pos hend] at hsign
        exact hw (entryAt_of_nameAt hkey (nameAt_of_dropWhile hsign rfl))
      · have hvisible' : (afterName t).dropWhile isSpace ≠ [] := mt List.dropWhile_eq_nil_iff.1 hend
        rw [dropWhile_append_of_visible hend] at hsign
        exact entryAt_ne_none hk hname (by rw [← List.head?_append_of_ne_nil _ hvisible', hsign]; rfl) hentry

lemma restOf_append_line (hlast : ∀ b, restOf k b w = none) {s : Text} (h : Joined s w) (b : Bool) :
    restOf k b (s ++ w) = (restOf k b s).map (· ++ w) := by
  induction s generalizing b with
  | nil => rw [List.nil_append, hlast, restOf_nil hk, Option.map_none]
  | cons c cs ih =>
    have hentry := entryAt_append_line hk hkey hne hw h
    have htail := ih (h.suffix ⟨[c], rfl⟩) (isNewline c)
    by_cases hhere : b = true → entryAt k (c :: cs) = none
    · rw [restOf_cons hhere, ← htail, List.cons_append]
      exact restOf_cons fun hb => by rw [← List.cons_append, hentry, hhere hb, Option.map_none]
    · obtain ⟨rfl, hsome⟩ : b = true ∧ entryAt k (c :: cs) ≠ none := by simpa using hhere
      obtain ⟨rest, hrest⟩ := Option.ne_none_iff_exists'.1 hsome
      rw [hrest, Option.map_some] at hentry
      rw [restOf_entry hrest, restOf_entry hentry, Option.map_some]

/-- Another key is read as before if and only if its entry is not a blank one at the end of the file. -/
lemma readEnvKey_append_line_iff (hlast : ∀ b, restOf k b w = none) {s : Text} (h : Joined s w) :
    readEnvKey k (s ++ w) = readEnvKey k s ↔ ∀ rest, restOf k true s = some rest → ¬∀ c ∈ rest, isSpace c := by
  rw [readEnvKey_eq, readEnvKey_eq, restOf_append_line hk hkey hne hw hlast h]
  cases hrest : restOf k true s with
  | none => simp
  | some rest =>
    simp only [Option.map_some, Option.some.injEq, forall_eq']
    by_cases hblank : ∀ c ∈ rest, isSpace c
    · have hold : valueOf rest = [] := by rw [valueOf, List.dropWhile_eq_nil_iff.2 hblank]; rfl
      have hnew : valueOf (rest ++ w) = valueOf w := by rw [valueOf, List.dropWhile_append_of_pos hblank]; rfl
      have hhead := head?_valueOf_key hkey hw
      rw [hold, hnew, unquote_of_name hkey hhead]
      refine ⟨fun heq => ?_, fun hvisible => absurd hblank hvisible⟩
      have hnil : key = [] := by simpa [heq, unquote, eq_comm] using hhead
      exact absurd hnil hkey.nonempty
    · rw [(h.suffix (restOf_suffix hk hrest)).valueOf_append hblank]
      exact ⟨fun _ => hblank, fun _ => rfl⟩

end Append

/-! ### When only the key is touched -/

/-- The key is read as the value, and every other one as before. -/
def OnlyKeyChanged (nameLen : Text → Nat) (key value src : Text) : Prop :=
  readEnvKey key (writeEnvKey nameLen key value src) = some value ∧
    ∀ k, EnvName k → k ≠ key → readEnvKey k (writeEnvKey nameLen key value src) = readEnvKey k src

/-- What there is to see of the new line. -/
def shown (nameLen : Text → Nat) (key value : Text) : Text :=
  key ++ 0x3D :: if refers nameLen value then [] else value

/-- The value is one line. Where the key is in the file, the template stands for itself, or nothing is left of it and
the line below its entry happens to be read as the value. And no blank entry of another key has the line of the key
for the first line after it, unless this reads the same already. -/
structure CleanWrite (nameLen : Text → Nat) (key value src : Text) : Prop where
  line : ∀ c ∈ value, isNewline c = false
  template : ∀ rest, restOf key true src = some rest → refers nameLen value = true →
    vanishes nameLen 0 value = true ∧ unquote (valueOf (rest.dropWhile fun c => !isNewline c)) = value
  apart : ∀ k rest, EnvName k → k ≠ key → restOf k true src = some rest →
    if (restOf key true src).isSome then
      RunsInto key rest → valueOf rest = shown nameLen key value
    else ¬∀ c ∈ rest, isSpace c

variable {nameLen : Text → Nat} {key value : Text}

lemma line_of_readEnvKey {k src : Text} (h : readEnvKey k src = some value) : ∀ c ∈ value, isNewline c = false := by
  rw [readEnvKey_eq, Option.map_eq_some_iff] at h
  obtain ⟨rest, -, rfl⟩ := h
  intro c hc
  obtain ⟨q, r, hq, -⟩ := exists_append_unquote (valueOf rest)
  have hmem : c ∈ valueOf rest := by
    rw [hq]
    simp [hc]
  simpa using List.mem_takeWhile_imp ((List.rdropWhile_prefix isSpace _).subset hmem)

/-! ### A file with the key -/

lemma Bare.head_of_vanishes (hvalue : Bare value) (h : vanishes nameLen 0 value = true) : value.head? = some 0x24 := by
  cases value with
  | nil => exact absurd rfl hvalue.nonempty
  | cons c cs =>
    rw [vanishes] at h
    by_cases hc : c = 0x24
    · rw [hc, List.head?_cons]
    · rw [if_pos hc, Bool.and_eq_true, hvalue.head c rfl] at h
      cases h.1

/-- A value that begins with a `$` is not read from a line of the key. -/
lemma Rewrites.unquote_valueOf_iff {e : Text} {R : Bool → Text → Text} (hR : Rewrites key e R) (hkey : EnvName key)
    (hhead : value.head? = some 0x24) (rest : Text) :
    unquote (valueOf (R false rest)) = value ↔ unquote (valueOf rest) = value := by
  by_cases hruns : RunsInto key rest
  · have hdollar : ∀ s, entryAt key s ≠ none → unquote (valueOf s) ≠ value := by
      rintro s hs rfl
      have hkeyhead := head?_valueOf_key hkey hs
      rw [unquote_of_name hkey hkeyhead, hkeyhead] at hhead
      exact hkey.plainKey.dollar (List.mem_of_mem_head? hhead)
    exact iff_of_false (hdollar _ (hR.entryAt_key hkey hruns.2)) (hdollar _ hruns.2)
  · rw [hR.valueOf_apart hkey hruns]

/-- The key is read as the value if and only if the template does not get in the way. -/
lemma readEnvKey_rewritten_iff (hname : SignFree nameLen) (hkey : EnvName key) (hvalue : Bare value) {src rest : Text}
    (hrest : restOf key true src = some rest) :
    readEnvKey key (replaceEntries nameLen key (key ++ 0x3D :: value) 0 true src) = some value ↔
      (∀ c ∈ value, isNewline c = false) ∧ (refers nameLen value = true →
        vanishes nameLen 0 value = true ∧ unquote (valueOf (rest.dropWhile fun c => !isNewline c)) = value) := by
  rw [restOf, Option.map_eq_some_iff] at hrest
  obtain ⟨⟨before, rest⟩, hlocate, rfl⟩ := hrest
  obtain ⟨hleft, -⟩ := leftmost_of_locate hkey.plainKey hlocate
  obtain ⟨m, hm, hout⟩ := replaceEntries_of_locate nameLen hkey.plainKey (key ++ 0x3D :: value) hlocate
  set R := replaceEntries nameLen key (key ++ 0x3D :: value) 0
  set after := rest.dropWhile fun c => !isNewline c
  have hend : LineEnd (R false after) := lineEnd_replaceEntries (lineEnd_dropWhile rest)
  have hread : readEnvKey key (R true src) =
      some (unquote (valueOf (expand nameLen m 0 value ++ R false after))) := by
    rw [hout, expand_entry hkey, List.append_assoc, List.cons_append, hleft.readEnvKey hkey.plainKey]
  have hvanished : vanishes nameLen 0 value = true → (readEnvKey key (R true src) = some value ↔
      unquote (valueOf after) = value) := by
    intro hvanishes
    have hR : Rewrites key (expand nameLen m 0 value) R :=
      rewrites_replaceEntries hkey fun m' _ => (expand_of_vanishes hvanishes m' m).1
    rw [hread, Option.some.injEq, valueOf,
      List.dropWhile_append_of_pos (expand_of_vanishes hvanishes m m).2, ← valueOf,
      hR.unquote_valueOf_iff hkey (hvalue.head_of_vanishes hvanishes)]
  constructor
  · intro h
    refine ⟨line_of_readEnvKey h, fun hrefers => ?_⟩
    have hblank : ∀ c ∈ expand nameLen m 0 value, isSpace c := by
      by_contra hvisible
      rw [hread, Option.some.injEq] at h
      exact unquote_valueOf_expand_ne hname hkey.plainKey hkey.sign hm hrefers hvisible hend h
    have hvanishes := vanishes_of_expand hm hblank
    exact ⟨hvanishes, (hvanished hvanishes).1 h⟩
  · rintro ⟨hline, htemplate⟩
    cases hrefers : refers nameLen value with
    | true => exact (hvanished (htemplate hrefers).1).2 (htemplate hrefers).2
    | false => rw [hread, expand_of_not_refers m hrefers, hvalue.unquote_valueOf hline hend]

/-- A template that stands for itself or vanishes gives the same line everywhere. -/
lemma exists_rewrites (hname : SignFree nameLen) (hkey : EnvName key) (hvalue : Bare value)
    (hline : ∀ c ∈ value, isNewline c = false)
    (htemplate : refers nameLen value = true → vanishes nameLen 0 value = true) :
    ∃ e, Rewrites key e (replaceEntries nameLen key (key ++ 0x3D :: value) 0) ∧ (∀ c ∈ e, isNewline c = false) ∧
      (key ++ 0x3D :: e).rdropWhile isSpace = shown nameLen key value := by
  cases hrefers : refers nameLen value with
  | false =>
    refine ⟨value, rewrites_replaceEntries hkey fun m _ => expand_of_not_refers m hrefers, hline, ?_⟩
    rw [shown, hrefers, if_neg (by simp)]
    apply List.rdropWhile_eq_self_iff.2
    intro hne
    obtain ⟨c, cs, rfl⟩ := List.exists_cons_of_ne_nil hvalue.nonempty
    have hlast := hvalue.last _ (List.getLast?_eq_some_getLast hvalue.nonempty)
    simpa using hlast
  | true =>
    have hvanishes := htemplate hrefers
    refine ⟨expand nameLen [] 0 value,
      rewrites_replaceEntries hkey fun m _ => (expand_of_vanishes hvanishes m []).1, fun c hc => ?_, ?_⟩
    · exact hline c (((parts_expand hname [] value).mem hc).resolve_right (by simp))
    · have hblank : ∀ c ∈ (expand nameLen [] 0 value).reverse, isSpace c := fun c hc =>
        (expand_of_vanishes hvanishes [] []).2 c (List.mem_reverse.1 hc)
      have hsign : isSpace 0x3D = false := rfl
      rw [shown, hrefers, if_pos rfl, List.rdropWhile, List.append_cons, List.reverse_append,
        List.dropWhile_append_of_pos hblank, List.reverse_append]
      simp [hsign]

lemma onlyKeyChanged_of_present_iff (hname : SignFree nameLen) (hkey : EnvName key) (hvalue : Bare value)
    {src rest : Text} (hrest : restOf key true src = some rest) :
    OnlyKeyChanged nameLen key value src ↔ CleanWrite nameLen key value src := by
  have hsome : (locate key true src).isSome := by
    rw [restOf, Option.map_eq_some_iff] at hrest
    obtain ⟨found, hfound, -⟩ := hrest
    simp [hfound]
  have hwrite : writeEnvKey nameLen key value src =
      replaceEntries nameLen key (key ++ 0x3D :: value) 0 true src := if_pos hsome
  have hread := readEnvKey_rewritten_iff hname hkey hvalue hrest
  rw [OnlyKeyChanged, hwrite, hread]
  constructor
  · rintro ⟨⟨hline, htemplate⟩, hother⟩
    obtain ⟨e, hR, hnewline, hshown⟩ := exists_rewrites hname hkey hvalue hline fun h => (htemplate h).1
    refine ⟨hline, fun rest' hrest' => ?_, fun k rest' hk hne hrest' => ?_⟩
    · obtain rfl : rest = rest' := Option.some.inj (hrest.symm.trans hrest')
      exact htemplate
    · rw [hrest, if_pos Option.isSome_some]
      have hapart := (hR.readEnvKey_other_iff hkey hk hne hnewline src).1 (hother k hk hne) rest' hrest'
      rw [hshown] at hapart
      exact hapart
  · intro h
    obtain ⟨e, hR, hnewline, hshown⟩ := exists_rewrites hname hkey hvalue h.line fun hrefers =>
      (h.template rest hrest hrefers).1
    refine ⟨⟨h.line, h.template rest hrest⟩, fun k hk hne => ?_⟩
    refine (hR.readEnvKey_other_iff hkey hk hne hnewline src).2 fun rest' hrest' => ?_
    have hapart := h.apart k rest' hk hne hrest'
    rw [hrest, if_pos Option.isSome_some] at hapart
    rw [hshown]
    exact hapart

/-! ### A file without the key -/

/-- What is put at the end of the file. -/
def newLine (key value src : Text) : Text :=
  (if src ≠ [] ∧ src.getLast?.all (fun c => !isNewline c) then [0x0A] else []) ++ (key ++ 0x3D :: (value ++ [0x0A]))

lemma writeEnvKey_of_absent (nameLen : Text → Nat) {src : Text} (h : restOf key true src = none) :
    writeEnvKey nameLen key value src = src ++ newLine key value src := by
  have hlocate : ¬(locate key true src).isSome := by simpa [restOf] using h
  unfold writeEnvKey
  dsimp only
  rw [if_neg hlocate, newLine]
  split <;> simp

lemma joined_newLine (key value src : Text) : Joined src (newLine key value src) := by
  intro hne
  by_cases hended : src.getLast?.any isNewline
  · exact .inr hended
  · left
    have hopen : src ≠ [] ∧ src.getLast?.all (fun c => !isNewline c) := by
      rw [List.getLast?_eq_some_getLast hne] at hended ⊢
      exact ⟨hne, by simpa using hended⟩
    rw [newLine, if_pos hopen]
    rfl

lemma entryAt_newLine (hkey : EnvName key) (value src : Text) :
    entryAt key (newLine key value src) = some (value ++ [0x0A]) := by
  refine entryAt_blank hkey.plainKey ?_ (value ++ [0x0A])
  split <;> simp [isSpace]

lemma restOf_newLine {k : Text} (hk : EnvName k) (hkey : EnvName key) (hne : k ≠ key)
    (hline : ∀ c ∈ value, isNewline c = false) (src : Text) (b : Bool) : restOf k b (newLine key value src) = none := by
  have hentry := entryAt_newLine hkey value src
  have hnone := entryAt_other hk hkey hne (s := newLine key value src) (by simp [hentry])
  have hstart : restOf k true (newLine key value src) = none := by
    rw [restOf_other hk hkey hne hentry, List.dropWhile_append_of_pos fun c hc => by simp [hline c hc]]
    have hend : ([0x0A] : Text).dropWhile (fun c => !isNewline c) = [0x0A] := rfl
    rw [hend, restOf_cons (by simp), restOf_nil hk]
  rw [← restOf_dropWhile_isSpace hk hnone, restOf_dropWhile_isSpace hk (b := true) hnone, hstart]

lemma onlyKeyChanged_of_absent_iff (hkey : EnvName key) (hvalue : Bare value) {src : Text}
    (habsent : restOf key true src = none) :
    OnlyKeyChanged nameLen key value src ↔ CleanWrite nameLen key value src := by
  have hline : readEnvKey key (writeEnvKey nameLen key value src) = some value ↔ ∀ c ∈ value, isNewline c = false := by
    refine ⟨line_of_readEnvKey, fun hline => ?_⟩
    have hlocate : locate key true src = none := by simpa [restOf] using habsent
    have hread := (leftmost_of_absent hkey.plainKey hlocate).readEnvKey hkey.plainKey (value ++ [0x0A])
    have hend : LineEnd [0x0A] := by simp [LineEnd, isNewline]
    rw [hvalue.unquote_valueOf hline hend] at hread
    rw [← hread, writeEnvKey]
    simp [hlocate]
  have hother : (∀ c ∈ value, isNewline c = false) → ∀ k, EnvName k → k ≠ key →
      (readEnvKey k (writeEnvKey nameLen key value src) = readEnvKey k src ↔
        ∀ rest, restOf k true src = some rest → ¬∀ c ∈ rest, isSpace c) := by
    intro hline k hk hne
    rw [writeEnvKey_of_absent nameLen habsent]
    exact readEnvKey_append_line_iff hk hkey hne (by simp [entryAt_newLine hkey])
      (restOf_newLine hk hkey hne hline src) (joined_newLine key value src)
  rw [OnlyKeyChanged, hline]
  constructor
  · rintro ⟨hline, h⟩
    refine ⟨hline, fun rest hrest => ?_, fun k rest hk hne hrest => ?_⟩
    · rw [habsent] at hrest
      cases hrest
    · rw [habsent, if_neg (by simp)]
      exact (hother hline k hk hne).1 (h k hk hne) rest hrest
  · intro h
    refine ⟨h.line, fun k hk hne => (hother h.line k hk hne).2 fun rest hrest => ?_⟩
    have hapart := h.apart k rest hk hne hrest
    rwa [habsent, if_neg (by simp)] at hapart

/-- A rewrite of the env file touches only the key if and only if the write is clean. -/
theorem onlyKeyChanged_iff_cleanWrite (hname : SignFree nameLen) (hkey : EnvName key) (hvalue : Bare value)
    (src : Text) : OnlyKeyChanged nameLen key value src ↔ CleanWrite nameLen key value src := by
  cases hrest : restOf key true src with
  | none => exact onlyKeyChanged_of_absent_iff hkey hvalue hrest
  | some rest => exact onlyKeyChanged_of_present_iff hname hkey hvalue hrest

/-! ### On the model files -/

open ModelController (aliasEnvKey)

/-- The length of a name that is ASCII. -/
def asciiNameLen (s : Text) : Nat := (s.takeWhile isNameChar).length

lemma signFree_asciiNameLen : SignFree asciiNameLen := by
  intro s hmem
  rw [asciiNameLen, ← List.prefix_iff_eq_take.1 (List.takeWhile_prefix isNameChar)] at hmem
  simpa [isNameChar] using List.mem_takeWhile_imp hmem

lemma envName_aliasEnvKey : EnvName aliasEnvKey := ⟨by decide, by decide⟩

/-- A new file in place of the old one, and one whose name has a reference in it. -/
theorem onlyKeyChanged_model_files :
    OnlyKeyChanged asciiNameLen aliasEnvKey (ascii "b.gguf") (ascii "ACVA_LLM_MODEL=a.gguf\n") ∧
      ¬OnlyKeyChanged asciiNameLen aliasEnvKey (ascii "a$b.gguf") (ascii "ACVA_LLM_MODEL=a.gguf\n") := by
  have hentry : entryAt aliasEnvKey (ascii "ACVA_LLM_MODEL=a.gguf\n") = some (ascii "a.gguf\n") := by decide
  constructor
  · obtain ⟨hbare, hline, -⟩ := bare_of_plainName (f := ascii "b.gguf") (by decide)
    refine (onlyKeyChanged_iff_cleanWrite signFree_asciiNameLen envName_aliasEnvKey hbare _).2
      ⟨hline, fun _ _ => ?_, fun k rest hk hne hrest => ?_⟩
    · have hplain : refers asciiNameLen (ascii "b.gguf") = false := by decide
      simp [hplain]
    · rw [restOf_other hk envName_aliasEnvKey hne hentry] at hrest
      have hnone : restOf k false [0x0A] = none := by rw [restOf_cons (by simp), restOf_nil hk]
      exact absurd (hrest.symm.trans hnone) (by simp)
  · intro h
    have hclean := (onlyKeyChanged_iff_cleanWrite signFree_asciiNameLen envName_aliasEnvKey (by decide) _).1 h
    exact absurd (hclean.template _ (restOf_entry hentry) (by decide)).1 (by decide)

/-- The template takes a part of the name of the file, a line break defines another variable, and a blank entry reads
the new line. -/
theorem onlyKeyChanged_fails :
    readEnvKey aliasEnvKey (writeEnvKey asciiNameLen aliasEnvKey (ascii "a$b.gguf")
      (ascii "ACVA_LLM_MODEL=a.gguf\n")) = some (ascii "a.gguf") ∧
    readEnvKey (ascii "EVIL") (writeEnvKey asciiNameLen aliasEnvKey (ascii "x\nEVIL=1") []) = some (ascii "1") ∧
    readEnvKey (ascii "ACVA_LLM_ALIAS") (writeEnvKey asciiNameLen aliasEnvKey (ascii "a.gguf")
      (ascii "ACVA_LLM_ALIAS=\n")) = some (ascii "ACVA_LLM_MODEL=a.gguf") ∧
    ¬∀ value src, Bare value → OnlyKeyChanged asciiNameLen aliasEnvKey value src := by
  have hdollar : readEnvKey aliasEnvKey (writeEnvKey asciiNameLen aliasEnvKey (ascii "a$b.gguf")
      (ascii "ACVA_LLM_MODEL=a.gguf\n")) = some (ascii "a.gguf") := by decide +kernel
  refine ⟨hdollar, by decide +kernel, by decide +kernel, fun hall => ?_⟩
  have hread := (hall (ascii "a$b.gguf") (ascii "ACVA_LLM_MODEL=a.gguf\n") (by decide)).1
  exact absurd (hdollar.symm.trans hread) (by decide)

end Acva.EnvFile
