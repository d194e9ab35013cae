import Acva.ModelController.Controller
import Acva.ModelController.EnvTemplate

/-!
# The other keys of the env file

`writeEnvKey` is to give one key a new value. What the other keys are read as depends on where their entries begin,
which the new lines leave alone, and on what follows their signs: the reader's `\s*` goes over the ends of lines, so
that the value of a blank entry is the next line that is not, and this may be the line that is written.
-/

namespace Acva.EnvFile

/-! ### Names and signs -/

def isNameChar (c : UInt8) : Bool :=
  (0x30 ≤ c && c ≤ 0x39) || (0x41 ≤ c && c ≤ 0x5A) || c = 0x5F || (0x61 ≤ c && c ≤ 0x7A)

/-- The name of a variable. -/
structure EnvName (k : Text) : Prop where
  nonempty : k ≠ []
  chars : k.all isNameChar

lemma isSpace_of_isNameChar {c : UInt8} (h : isNameChar c = true) : isSpace c = false := by
  by_contra hspace
  simp only [isSpace, Bool.or_eq_true, decide_eq_true_eq, Bool.not_eq_false] at hspace
  rcases hspace with (((rfl | rfl) | rfl) | rfl) | rfl <;> simp [isNameChar] at h

lemma isNameChar_of_isSpace {c : UInt8} (h : isSpace c = true) : isNameChar c = false := by
  by_contra hname
  rw [isSpace_of_isNameChar (by simpa using hname)] at h
  cases h

lemma isNewline_of_not_isSpace {c : UInt8} (h : isSpace c = false) : isNewline c = false := by
  by_contra hnewline
  obtain rfl : c = 0x0A := by simpa [isNewline] using hnewline
  simp [isSpace] at h

lemma isNewline_of_isNameChar {c : UInt8} (h : isNameChar c = true) : isNewline c = false :=
  isNewline_of_not_isSpace (isSpace_of_isNameChar h)

namespace EnvName

variable {k : Text} (hk : EnvName k)
include hk

lemma isNameChar {c : UInt8} (hc : c ∈ k) : isNameChar c = true := List.all_eq_true.1 hk.chars c hc

lemma sign : 0x3D ∉ k := fun hmem => by simpa [EnvFile.isNameChar] using hk.isNameChar hmem

lemma plainKey : PlainKey k where
  head := by
    obtain ⟨c, cs, rfl⟩ := List.exists_cons_of_ne_nil hk.nonempty
    refine ⟨c, cs, rfl, isSpace_of_isNameChar (hk.isNameChar (by simp)), ?_⟩
    rintro rfl
    exact hk.sign (by simp)
  newline c hc := isNewline_of_isNameChar (hk.isNameChar hc)
  dollar hmem := by simpa [EnvFile.isNameChar] using hk.isNameChar hmem

end EnvName

/-- The name that a line begins with, after the blanks. -/
def nameAt (s : Text) : Text := (s.dropWhile isSpace).takeWhile isNameChar

/-- What follows the name. -/
def afterName (s : Text) : Text := (s.dropWhile isSpace).dropWhile isNameChar

lemma nameAt_of_dropWhile {s x : Text} {c : UInt8} (h : s.dropWhile isSpace = c :: x) (hc : isNameChar c = false) :
    nameAt s = [] := by simp [nameAt, h, hc]

lemma entryAt_iff {k s rest : Text} (hk : EnvName k) :
    entryAt k s = some rest ↔ nameAt s = k ∧ (afterName s).dropWhile isSpace = 0x3D :: rest := by
  rw [entryAt_eq_some_iff hk.plainKey]
  constructor
  · rintro ⟨a, b, ha, hb, rfl⟩
    obtain ⟨c, cs, rfl, hc, -⟩ := hk.plainKey.head
    have hname : ∀ x ∈ c :: cs, isNameChar x = true := fun x hx => hk.isNameChar hx
    have hdrop : (a ++ (c :: cs ++ (b ++ 0x3D :: rest))).dropWhile isSpace = c :: cs ++ (b ++ 0x3D :: rest) :=
      dropWhile_blank ha hc _
    have hend : (b ++ 0x3D :: rest).takeWhile isNameChar = [] ∧
        (b ++ 0x3D :: rest).dropWhile isNameChar = b ++ 0x3D :: rest := by
      cases b with
      | nil => exact ⟨rfl, rfl⟩
      | cons d ds =>
        have hd := isNameChar_of_isSpace (hb d (by simp))
        exact ⟨by simp [hd], by simp [hd]⟩
    rw [nameAt, afterName, hdrop, List.takeWhile_append_of_pos hname, List.dropWhile_append_of_pos hname, hend.1,
      hend.2, List.append_nil]
    exact ⟨rfl, dropWhile_blank hb rfl rest⟩
  · rintro ⟨rfl, hsign⟩
    refine ⟨s.takeWhile isSpace, (afterName s).takeWhile isSpace, fun c hc => List.mem_takeWhile_imp hc,
      fun c hc => List.mem_takeWhile_imp hc, ?_⟩
    rw [← hsign, List.takeWhile_append_dropWhile, nameAt, afterName, List.takeWhile_append_dropWhile,
      List.takeWhile_append_dropWhile]

lemma entryAt_ne_none {k s : Text} (hk : EnvName k) (hname : nameAt s = k)
    (hsign : ((afterName s).dropWhile isSpace).head? = some 0x3D) : entryAt k s ≠ none := by
  obtain ⟨rest, hrest⟩ := List.head?_eq_some_iff.1 hsign
  rw [(entryAt_iff hk).2 ⟨hname, hrest⟩]
  simp

lemma entryAt_other {k key s : Text} (hk : EnvName k) (hkey : EnvName key) (hne : k ≠ key)
    (h : entryAt key s ≠ none) : entryAt k s = none := by
  obtain ⟨rest, hrest⟩ := Option.ne_none_iff_exists'.1 h
  cases hother : entryAt k s with
  | none => rfl
  | some rest' =>
    have hsame := ((entryAt_iff hk).1 hother).1.symm.trans ((entryAt_iff hkey).1 hrest).1
    exact absurd hsame hne

lemma entryAt_of_nameAt {k s : Text} (hk : EnvName k) (h : nameAt s = []) : entryAt k s = none := by
  cases hentry : entryAt k s with
  | none => rfl
  | some rest => exact absurd (h.symm.trans ((entryAt_iff hk).1 hentry).1).symm hk.nonempty

lemma nameAt_cons {c : UInt8} (hc : isSpace c = true) (s : Text) : nameAt (c :: s) = nameAt s := by
  rw [nameAt, nameAt, List.dropWhile_cons_of_pos hc]

lemma entryAt_cons {k : Text} (hk : EnvName k) {c : UInt8} (hc : isSpace c = true) (s : Text) :
    entryAt k (c :: s) = entryAt k s := by
  have hsame : ∀ rest, entryAt k (c :: s) = some rest ↔ entryAt k s = some rest := fun rest => by
    rw [entryAt_iff hk, entryAt_iff hk, nameAt_cons hc, afterName, afterName, List.dropWhile_cons_of_pos hc]
  exact Option.ext hsame

/-! ### What follows the first entry -/

/-- What follows the first entry of a key. -/
def restOf (k : Text) (b : Bool) (s : Text) : Option Text := (locate k b s).map Prod.snd

lemma readEnvKey_eq (k s : Text) : readEnvKey k s = (restOf k true s).map fun rest => unquote (valueOf rest) := by
  rw [readEnvKey, restOf, Option.map_map]
  rfl

lemma restOf_nil {k : Text} (hk : EnvName k) (b : Bool) : restOf k b [] = none := by
  rw [restOf, locate.eq_def]
  cases b <;> simp [entryAt_nil hk.plainKey]

lemma restOf_entry {k s rest : Text} (h : entryAt k s = some rest) : restOf k true s = some rest := by
  rw [restOf, locate_of_entry h]
  rfl

lemma restOf_cons {k : Text} {b : Bool} {c : UInt8} {cs : Text} (h : b = true → entryAt k (c :: cs) = none) :
    restOf k b (c :: cs) = restOf k (isNewline c) cs := by
  rw [restOf, locate_cons h, restOf, Option.map_map]
  rfl

lemma restOf_suffix {k : Text} (hk : EnvName k) {b : Bool} {s rest : Text} (h : restOf k b s = some rest) :
    rest <:+ s := by
  rw [restOf, Option.map_eq_some_iff] at h
  obtain ⟨⟨before, rest'⟩, hlocate, rfl⟩ := h
  obtain ⟨-, entry, rfl, hentry⟩ := leftmost_of_locate hk.plainKey hlocate
  obtain ⟨a, b, -, -, rfl⟩ := (entryAt_eq_some_iff hk.plainKey).1 hentry
  exact ⟨before ++ (a ++ (k ++ (b ++ [0x3D]))), by simp⟩

lemma restOf_dropWhile {p : UInt8 → Bool} (hp : ∀ c, p c = true → isNewline c = false) (k s : Text) :
    restOf k false (s.dropWhile p) = restOf k false s := by
  induction s with
  | nil => rfl
  | cons c cs ih =>
    cases hc : p c with
    | true => rw [List.dropWhile_cons_of_pos hc, ih, restOf_cons (b := false) (by simp), hp c hc]
    | false => rw [List.dropWhile_cons_of_neg (by simp [hc])]

lemma restOf_dropWhile_isSpace {k : Text} (hk : EnvName k) {b : Bool} {s : Text} (h : entryAt k s = none) :
    restOf k false (s.dropWhile isSpace) = restOf k b s := by
  induction s generalizing b with
  | nil => rw [List.dropWhile_nil, restOf_nil hk, restOf_nil hk]
  | cons c cs ih =>
    rw [restOf_cons fun _ => h]
    cases hc : isSpace c with
    | true =>
      rw [List.dropWhile_cons_of_pos hc]
      exact ih ((entryAt_cons hk hc cs).symm.trans h)
    | false =>
      rw [List.dropWhile_cons_of_neg (by simp [hc]), restOf_cons (by simp)]

lemma restOf_other {k key s rest : Text} (hk : EnvName k) (hkey : EnvName key) (hne : k ≠ key)
    (h : entryAt key s = some rest) :
    restOf k true s = restOf k false (rest.dropWhile fun c => !isNewline c) := by
  obtain ⟨-, hsign⟩ := (entryAt_iff hkey).1 h
  have hhere := entryAt_other hk hkey hne (s := s) (by simp [h])
  have hafter := entryAt_of_nameAt hk (nameAt_of_dropWhile hsign rfl)
  rw [← restOf_dropWhile_isSpace hk hhere, ← restOf_dropWhile (fun _ => isNewline_of_isNameChar), ← afterName,
    ← restOf_dropWhile_isSpace hk hafter, hsign, restOf_cons (by simp)]
  exact (restOf_dropWhile (by simp) k rest).symm

/-! ### The text with the new lines -/

/-- `R` puts `key=e` in place of every line of the key; it is told whether a line begins where it starts. -/
structure Rewrites (key e : Text) (R : Bool → Text → Text) : Prop where
  nil (b : Bool) : R b [] = []
  cons (b : Bool) (c : UInt8) (cs : Text) (h : b = true → entryAt key (c :: cs) = none) :
    R b (c :: cs) = c :: R (isNewline c) cs
  entry (s rest : Text) (h : entryAt key s = some rest) :
    R true s = key ++ 0x3D :: (e ++ R false (rest.dropWhile fun c => !isNewline c))

lemma length_rest_lt {k s rest : Text} (hk : EnvName k) (h : entryAt k s = some rest) : rest.length < s.length := by
  obtain ⟨a, b, -, -, rfl⟩ := (entryAt_eq_some_iff hk.plainKey).1 h
  simp only [List.length_append, List.length_cons]
  omega

/-- Induction along the text that is rewritten: at its end, at a byte that is kept and at an entry. -/
theorem rewrite_induction {key : Text} (hkey : EnvName key) {motive : Bool → Text → Prop} (nil : ∀ b, motive b [])
    (cons : ∀ b c cs, (b = true → entryAt key (c :: cs) = none) → motive (isNewline c) cs → motive b (c :: cs))
    (entry : ∀ s rest, entryAt key s = some rest → motive false (rest.dropWhile fun c => !isNewline c) →
      motive true s) (b : Bool) (s : Text) : motive b s := by
  induction hlen : s.length using Nat.strong_induction_on generalizing b s with
  | _ len ih =>
    subst hlen
    cases s with
    | nil => exact nil b
    | cons c cs =>
      by_cases hentry : b = true → entryAt key (c :: cs) = none
      · exact cons b c cs hentry (ih cs.length (by simp) _ cs rfl)
      · obtain ⟨rfl, hsome⟩ : b = true ∧ entryAt key (c :: cs) ≠ none := by simpa using hentry
        obtain ⟨rest, hrest⟩ := Option.ne_none_iff_exists'.1 hsome
        have hshort := length_rest_lt hkey hrest
        have hdrop := (List.dropWhile_suffix (l := rest) fun c => !isNewline c).length_le
        exact entry _ rest hrest (ih _ (by omega) _ _ rfl)

lemma expand_entry {nameLen : Text → Nat} {key : Text} (hkey : EnvName key) (m v : Text) :
    expand nameLen m 0 (key ++ 0x3D :: v) = key ++ 0x3D :: expand nameLen m 0 v := by
  have hdollar : (0x24 : UInt8) ∉ key ++ [0x3D] := by simp [hkey.plainKey.dollar]
  have hwhole : expand nameLen m 0 (key ++ [0x3D] ++ v) = key ++ [0x3D] ++ expand nameLen m 0 v :=
    expand_append m hdollar v
  simpa using hwhole

lemma rewrites_replaceEntries {nameLen : Text → Nat} {key v e : Text} (hkey : EnvName key)
    (h : ∀ m, IsMatch key m → expand nameLen m 0 v = e) :
    Rewrites key e (replaceEntries nameLen key (key ++ 0x3D :: v) 0) where
  nil b := rfl
  cons b c cs hentry := replaceEntries_cons hentry
  entry s rest hentry := by
    obtain ⟨m, hm, hreplace⟩ := replaceEntries_entry nameLen hkey.plainKey (key ++ 0x3D :: v) hentry
    rw [hreplace, expand_entry hkey, h m hm]
    simp

namespace Rewrites

variable {key e : Text} {R : Bool → Text → Text} (hR : Rewrites key e R)
include hR

lemma cons_false (c : UInt8) (cs : Text) : R false (c :: cs) = c :: R (isNewline c) cs :=
  hR.cons false c cs (by simp)

lemma head?_false (t : Text) : (R false t).head? = t.head? := by
  cases t with
  | nil => rw [hR.nil]
  | cons c cs => rw [hR.cons_false, List.head?_cons, List.head?_cons]

lemma takeWhile {p : UInt8 → Bool} (hp : ∀ c, p c = true → isNewline c = false) (t : Text) :
    (R false t).takeWhile p = t.takeWhile p := by
  induction t with
  | nil => rw [hR.nil]
  | cons c cs ih =>
    rw [hR.cons_false]
    cases hc : p c with
    | true => rw [List.takeWhile_cons_of_pos hc, List.takeWhile_cons_of_pos hc, hp c hc, ih]
    | false => rw [List.takeWhile_cons_of_neg (by simp [hc]), List.takeWhile_cons_of_neg (by simp [hc])]

lemma dropWhile {p : UInt8 → Bool} (hp : ∀ c, p c = true → isNewline c = false) (t : Text) :
    (R false t).dropWhile p = R false (t.dropWhile p) := by
  induction t with
  | nil => simp [hR.nil]
  | cons c cs ih =>
    rw [hR.cons_false]
    cases hc : p c with
    | true => rw [List.dropWhile_cons_of_pos hc, List.dropWhile_cons_of_pos hc, hp c hc, ih]
    | false =>
      rw [List.dropWhile_cons_of_neg (by simp [hc]), List.dropWhile_cons_of_neg (by simp [hc]), hR.cons_false]

/-- The blanks before something else than an entry of the key stay, and so do those of one line. -/
lemma dropWhile_isSpace (hkey : EnvName key) {b : Bool} {s : Text}
    (h : entryAt key s = none ∨ b = false ∧ 0x0A ∉ s.takeWhile isSpace) :
    (R b s).dropWhile isSpace = R false (s.dropWhile isSpace) := by
  induction s generalizing b with
  | nil => simp [hR.nil]
  | cons c cs ih =>
    have hkeep : b = true → entryAt key (c :: cs) = none := by
      rintro rfl
      simpa using h
    rw [hR.cons b c cs hkeep]
    cases hc : isSpace c with
    | true =>
      rw [List.dropWhile_cons_of_pos hc, List.dropWhile_cons_of_pos hc]
      refine ih (h.imp (fun hnone => (entryAt_cons hkey hc cs).symm.trans hnone) fun hline => ?_)
      rw [List.takeWhile_cons_of_pos hc, List.mem_cons, not_or] at hline
      exact ⟨by simpa [isNewline, eq_comm] using hline.2.1, hline.2.2⟩
    | false =>
      rw [List.dropWhile_cons_of_neg (by simp [hc]), List.dropWhile_cons_of_neg (by simp [hc]), hR.cons_false,
        isNewline_of_not_isSpace hc]

/-! ### Where the entries are -/

lemma nameAt_eq {b : Bool} {s : Text} (h : (R b s).dropWhile isSpace = R false (s.dropWhile isSpace)) :
    nameAt (R b s) = nameAt s := by
  rw [nameAt, nameAt, h, hR.takeWhile fun _ => isNewline_of_isNameChar]

lemma afterName_eq {b : Bool} {s : Text} (h : (R b s).dropWhile isSpace = R false (s.dropWhile isSpace)) :
    afterName (R b s) = R false (afterName s) := by
  rw [afterName, afterName, h, hR.dropWhile fun _ => isNewline_of_isNameChar]

lemma entryAt_some {k : Text} (hkey : EnvName key) (hk : EnvName k) {b : Bool} {s rest : Text}
    (h : (R b s).dropWhile isSpace = R false (s.dropWhile isSpace)) (hentry : entryAt k s = some rest) :
    entryAt k (R b s) = some (R false rest) := by
  obtain ⟨hname, hsign⟩ := (entryAt_iff hk).1 hentry
  have hnone : entryAt key (afterName s) = none := entryAt_of_nameAt hkey (nameAt_of_dropWhile hsign rfl)
  rw [entryAt_iff hk, hR.nameAt_eq h, hR.afterName_eq h, hR.dropWhile_isSpace hkey (.inl hnone), hsign, hR.cons_false]
  exact ⟨hname, rfl⟩

lemma entryAt_key (hkey : EnvName key) {b : Bool} {s : Text} (h : entryAt key s ≠ none) :
    entryAt key (R b s) ≠ none := by
  have hwritten : ∀ s, entryAt key s ≠ none → entryAt key (R true s) ≠ none := by
    intro s hs
    obtain ⟨rest, hrest⟩ := Option.ne_none_iff_exists'.1 hs
    have hentry := entryAt_blank hkey.plainKey (x := []) (by simp)
      (e ++ R false (rest.dropWhile fun c => !isNewline c))
    rw [hR.entry s rest hrest, ← List.nil_append (key ++ _), hentry]
    simp
  induction s generalizing b with
  | nil => simp [entryAt_nil hkey.plainKey] at h
  | cons c cs ih =>
    cases b with
    | true => exact hwritten _ h
    | false =>
      cases hc : isSpace c with
      | true =>
        rw [hR.cons_false, entryAt_cons hkey hc]
        rw [entryAt_cons hkey hc] at h
        exact ih h
      | false =>
        obtain ⟨rest, hrest⟩ := Option.ne_none_iff_exists'.1 h
        have hline : (0x0A : UInt8) ∉ (c :: cs).takeWhile isSpace := by simp [hc]
        rw [hR.entryAt_some hkey hkey (hR.dropWhile_isSpace hkey (.inr ⟨rfl, hline⟩)) hrest]
        simp

lemma entryAt_other {k : Text} (hkey : EnvName key) (hk : EnvName k) (hne : k ≠ key) (b : Bool) (s : Text) :
    entryAt k (R b s) = (entryAt k s).map (R false) := by
  cases hrun : entryAt key s with
  | some rest =>
    have hhere : entryAt key s ≠ none := by simp [hrun]
    rw [EnvFile.entryAt_other hk hkey hne hhere, EnvFile.entryAt_other hk hkey hne (hR.entryAt_key hkey hhere)]
    rfl
  | none =>
    have hdrop := hR.dropWhile_isSpace hkey (b := b) (.inl hrun)
    cases hentry : entryAt k s with
    | some rest => rw [hR.entryAt_some hkey hk hdrop hentry, Option.map_some]
    | none =>
      rw [Option.map_none]
      by_contra hsome
      obtain ⟨r, hr⟩ := Option.ne_none_iff_exists'.1 hsome
      obtain ⟨hname, hsign⟩ := (entryAt_iff hk).1 hr
      rw [hR.nameAt_eq hdrop] at hname
      rw [hR.afterName_eq hdrop] at hsign
      cases hafter : entryAt key (afterName s) with
      | none =>
        rw [hR.dropWhile_isSpace hkey (.inl hafter)] at hsign
        exact entryAt_ne_none hk hname (by rw [← hR.head?_false, hsign]; rfl) hentry
      | some rest =>
        -- a line of the key begins with the key, not with a sign
        have hkeep := hR.entryAt_key hkey (b := false) (s := afterName s) (by simp [hafter])
        exact hkeep (entryAt_of_nameAt hkey (nameAt_of_dropWhile hsign rfl))

lemma restOf_other {k : Text} (hkey : EnvName key) (hk : EnvName k) (hne : k ≠ key)
    (hline : ∀ c ∈ e, isNewline c = false) (b : Bool) (s : Text) :
    restOf k b (R b s) = (restOf k b s).map (R false) := by
  induction b, s using rewrite_induction hkey with
  | nil b => rw [hR.nil, restOf_nil hk]; rfl
  | cons b c cs hkeep ih =>
    have hentry := hR.entryAt_other hkey hk hne b (c :: cs)
    by_cases hhere : b = true → entryAt k (c :: cs) = none
    · rw [hR.cons b c cs hkeep] at hentry ⊢
      rw [restOf_cons hhere, ← ih]
      exact restOf_cons fun hb => by rw [hentry, hhere hb, Option.map_none]
    · obtain ⟨rfl, hsome⟩ : b = true ∧ entryAt k (c :: cs) ≠ none := by simpa using hhere
      obtain ⟨rest, hrest⟩ := Option.ne_none_iff_exists'.1 hsome
      rw [hrest, Option.map_some] at hentry
      rw [restOf_entry hentry, restOf_entry hrest, Option.map_some]
  | entry s rest hrest ih =>
    have hwritten := entryAt_blank hkey.plainKey (x := []) (by simp)
      (e ++ R false (rest.dropWhile fun c => !isNewline c))
    rw [EnvFile.restOf_other hk hkey hne hrest, ← ih, hR.entry s rest hrest, ← List.nil_append (key ++ _),
      EnvFile.restOf_other hk hkey hne hwritten, List.dropWhile_append_of_pos fun c hc => by simp [hline c hc]]
    exact restOf_dropWhile (by simp) k _

end Rewrites

/-! ### What the reader makes of it -/

/-- The entry is blank, and the first line after it that is not is one of the key. -/
def RunsInto (key rest : Text) : Prop := 0x0A ∈ rest.takeWhile isSpace ∧ entryAt key rest ≠ none

lemma valueOf_dropWhile (rest : Text) : valueOf (rest.dropWhile isSpace) = valueOf rest := by
  rw [valueOf, valueOf, List.dropWhile_idempotent]

lemma head?_valueOf {rest x : Text} {c : UInt8} (h : rest.dropWhile isSpace = c :: x) (hc : isSpace c = false) :
    (valueOf rest).head? = some c := by
  have hline : (c :: x).takeWhile (fun c => !isNewline c) = c :: x.takeWhile fun c => !isNewline c := by
    rw [List.takeWhile_cons_of_pos (by simp [isNewline_of_not_isSpace hc])]
  obtain ⟨y, hy⟩ := List.rdropWhile_prefix isSpace (c :: x.takeWhile fun c => !isNewline c)
  rw [valueOf, h, hline]
  cases hvalue : (c :: x.takeWhile fun c => !isNewline c).rdropWhile isSpace with
  | nil =>
    have hblank := List.rdropWhile_eq_nil_iff.1 hvalue c (by simp)
    rw [hc] at hblank
    cases hblank
  | cons d ds =>
    rw [hvalue] at hy
    rw [List.head?_cons, (List.cons.inj hy).1]

lemma head?_valueOf_key {key rest : Text} (hkey : EnvName key) (h : entryAt key rest ≠ none) :
    (valueOf rest).head? = key.head? := by
  obtain ⟨rest', hrest⟩ := Option.ne_none_iff_exists'.1 h
  obtain ⟨hname, -⟩ := (entryAt_iff hkey).1 hrest
  rw [nameAt] at hname
  cases hdrop : rest.dropWhile isSpace with
  | nil => simp [hdrop, hkey.nonempty.symm] at hname
  | cons c cs =>
    rw [hdrop] at hname
    cases hc : isNameChar c with
    | false => simp [hc, hkey.nonempty.symm] at hname
    | true =>
      rw [List.takeWhile_cons_of_pos hc] at hname
      rw [head?_valueOf hdrop (isSpace_of_isNameChar hc), ← hname, List.head?_cons]

lemma unquote_of_name {key y : Text} (hkey : EnvName key) (h : y.head? = key.head?) : unquote y = y := by
  obtain ⟨c, cs, rfl⟩ := List.exists_cons_of_ne_nil hkey.nonempty
  have hc := hkey.isNameChar (c := c) (by simp)
  unfold unquote
  rw [if_neg]
  rintro ⟨-, hquote, -⟩
  rw [h, List.head?_cons, Option.some.injEq, Option.some.injEq] at hquote
  rcases hquote with rfl | rfl <;> simp [isNameChar] at hc

namespace Rewrites

variable {key e : Text} {R : Bool → Text → Text} (hR : Rewrites key e R)
include hR

lemma lineEnd {s : Text} (h : LineEnd s) : LineEnd (R false s) := by rwa [LineEnd, hR.head?_false]

lemma valueOf_apart (hkey : EnvName key) {rest : Text} (h : ¬RunsInto key rest) :
    valueOf (R false rest) = valueOf rest := by
  have hapart : entryAt key rest = none ∨ false = false ∧ 0x0A ∉ rest.takeWhile isSpace := by
    rw [RunsInto, not_and_or, not_ne_iff] at h
    exact h.symm.imp_right fun hline => ⟨rfl, hline⟩
  rw [valueOf, valueOf, hR.dropWhile_isSpace hkey hapart, hR.takeWhile (by simp)]

lemma dropWhile_runsInto (hkey : EnvName key) {rest : Text} (h : RunsInto key rest) :
    ∃ tail, LineEnd tail ∧ (R false rest).dropWhile isSpace = key ++ 0x3D :: (e ++ tail) := by
  induction rest with
  | nil => simp [RunsInto] at h
  | cons c cs ih =>
    obtain ⟨hline, hentry⟩ := h
    cases hc : isSpace c with
    | false => simp [hc] at hline
    | true =>
      rw [List.takeWhile_cons_of_pos hc, List.mem_cons] at hline
      rw [entryAt_cons hkey hc] at hentry
      rw [hR.cons_false, List.dropWhile_cons_of_pos hc]
      cases hnewline : isNewline c with
      | true =>
        obtain ⟨rest, hrest⟩ := Option.ne_none_iff_exists'.1 hentry
        obtain ⟨k, ks, rfl, hspace, -⟩ := hkey.plainKey.head
        refine ⟨_, hR.lineEnd (lineEnd_dropWhile rest), ?_⟩
        rw [hR.entry cs rest hrest, List.cons_append, List.dropWhile_cons_of_neg (by simp [hspace])]
      | false =>
        have hne : (0x0A : UInt8) ≠ c := by
          rintro rfl
          simp [isNewline] at hnewline
        exact ih ⟨hline.resolve_left hne, hentry⟩

lemma valueOf_runsInto (hkey : EnvName key) (hline : ∀ c ∈ e, isNewline c = false) {rest : Text}
    (h : RunsInto key rest) : valueOf (R false rest) = (key ++ 0x3D :: e).rdropWhile isSpace := by
  obtain ⟨tail, htail, hdrop⟩ := hR.dropWhile_runsInto hkey h
  obtain ⟨k, ks, rfl, hspace, -⟩ := hkey.plainKey.head
  have hnewline : ∀ c ∈ k :: (ks ++ 0x3D :: e), isNewline c = false := by
    intro c hc
    rw [← List.cons_append] at hc
    rcases List.mem_append.1 hc with hc | hc
    · exact hkey.plainKey.newline c hc
    · rcases List.mem_cons.1 hc with rfl | hc
      · rfl
      · exact hline c hc
  rw [← valueOf_dropWhile, hdrop]
  simpa using valueOf_line hspace hnewline htail

/-- Another key is read as before if and only if it does not run into the new line, or what it ran into reads the
same. -/
theorem readEnvKey_other_iff {k : Text} (hkey : EnvName key) (hk : EnvName k) (hne : k ≠ key)
    (hline : ∀ c ∈ e, isNewline c = false) (src : Text) :
    readEnvKey k (R true src) = readEnvKey k src ↔ ∀ rest, restOf k true src = some rest → RunsInto key rest →
      valueOf rest = (key ++ 0x3D :: e).rdropWhile isSpace := by
  rw [readEnvKey_eq, readEnvKey_eq, hR.restOf_other hkey hk hne hline]
  cases hrest : restOf k true src with
  | none => simp
  | some rest =>
    simp only [Option.map_some, Option.some.injEq, forall_eq']
    by_cases hruns : RunsInto key rest
    · have hnew : entryAt key (R false rest) ≠ none := hR.entryAt_key hkey hruns.2
      rw [unquote_of_name hkey (head?_valueOf_key hkey hnew), unquote_of_name hkey (head?_valueOf_key hkey hruns.2),
        hR.valueOf_runsInto hkey hline hruns]
      exact ⟨fun heq _ => heq.symm, fun heq => (heq hruns).symm⟩
    · rw [hR.valueOf_apart hkey hruns]
      exact ⟨fun _ h => absurd h hruns, fun _ => rfl⟩

end Rewrites

end Acva.EnvFile
