import Acva.Event.Event
import Mathlib.Data.List.DropRight

/-!
# The env file of the model controller

`readEnvKey` and `writeEnvKey` find the lines of a key with regular expressions of Go. Their `\s` also matches the end
of a line, and the new line is a template for `ReplaceAllString`, which expands a `$` in it.
-/

namespace Acva.EnvFile

def isNewline (c : UInt8) : Bool := c = 0x0A

/-- The class `\s`. -/
def isSpace (c : UInt8) : Bool := c = 0x09 || c = 0x0A || c = 0x0C || c = 0x0D || c = 0x20

/-- What follows `\s*KEY\s*=` at the start of the text. The key and the sign are not blank, so each `\s*` takes all the
blanks there are. -/
def entryAt (key s : Text) : Option Text :=
  let s := s.dropWhile isSpace
  if key.isPrefixOf s then
    match (s.drop key.length).dropWhile isSpace with
    | c :: rest => if c = 0x3D then some rest else none
    | [] => none
  else none

/-- The leftmost place where `(?m)^\s*KEY\s*=` matches: the text before it and what follows it. -/
def locate (key : Text) (lineStart : Bool) (s : Text) : Option (Text × Text) :=
  match if lineStart then entryAt key s else none with
  | some rest => some ([], rest)
  | none =>
    match s with
    | [] => none
    | c :: cs => (locate key (isNewline c) cs).map fun found => (c :: found.1, found.2)

/-- The group in `\s*(.*?)\s*$`: the rest of the line after the blanks, less the blanks at its end. -/
def valueOf (rest : Text) : Text :=
  ((rest.dropWhile isSpace).takeWhile fun c => !isNewline c).rdropWhile isSpace

def unquote (v : Text) : Text :=
  if v.length ≥ 2 ∧ (v.head? = some 0x22 ∨ v.head? = some 0x27) ∧ v.getLast? = v.head? then v.tail.dropLast else v

/-- `readEnvKey` on the text of the file. -/
def readEnvKey (key src : Text) : Option Text := (locate key true src).map fun found => unquote (valueOf found.2)

section Write

-- the length of the longest run of letters, digits and underscores at the start, as the package `unicode` has them
variable (nameLen : Text → Nat)

/-- `extract` of the package `regexp`: the name after a `$` and how many bytes it takes. -/
def extract (str : Text) : Option (Text × Nat) :=
  match str with
  | [] => none
  | c :: cs =>
    if c = 0x7B then
      if nameLen cs = 0 then none
      else if cs[nameLen cs]? = some 0x7D then some (cs.take (nameLen cs), nameLen cs + 2)
      else none
    else if nameLen str = 0 then none
    else some (str.take (nameLen str), nameLen str)

/-- `expand` of the package `regexp` for an expression without groups: only `$0` stands for something. The first `skip`
bytes belong to a name. -/
def expand (matched : Text) : Nat → Text → Text
  | _, [] => []
  | skip + 1, _ :: cs => expand matched skip cs
  | 0, c :: cs =>
    if c ≠ 0x24 then c :: expand matched 0 cs
    else if cs.head? = some 0x24 then 0x24 :: expand matched 1 cs
    else
      match extract nameLen cs with
      | none => 0x24 :: expand matched 0 cs
      | some (name, n) => (if name = [0x30] then matched else []) ++ expand matched n cs

/-- `ReplaceAllString` for `(?m)^\s*KEY\s*=.*$`. The first `skip` bytes belong to a match, which ends before its line
does, so that no line starts right after it. -/
def replaceEntries (key template : Text) : Nat → Bool → Text → Text
  | _, _, [] => []
  | skip + 1, _, _ :: cs => replaceEntries key template skip false cs
  | 0, lineStart, c :: cs =>
    match if lineStart then entryAt key (c :: cs) else none with
    | none => c :: replaceEntries key template 0 (isNewline c) cs
    | some rest =>
      let after := rest.dropWhile fun c => !isNewline c
      let matched := (c :: cs).take ((c :: cs).length - after.length)
      expand nameLen matched 0 template ++ replaceEntries key template (matched.length - 1) false cs

/-- The text that `writeEnvKey` puts in place of `src`. -/
def writeEnvKey (key value src : Text) : Text :=
  let replacement := key ++ 0x3D :: value
  if (locate key true src).isSome then replaceEntries nameLen key replacement 0 true src
  else
    let src := if src ≠ [] ∧ src.getLast?.all (fun c => !isNewline c) then src ++ [0x0A] else src
    src ++ (replacement ++ [0x0A])

end Write

/-! ### Where the entry of a key is found -/

/-- A key that no blank, line or sign can be mistaken for a part of. -/
structure PlainKey (key : Text) : Prop where
  head : ∃ c cs, key = c :: cs ∧ isSpace c = false ∧ c ≠ 0x3D
  newline : ∀ c ∈ key, isNewline c = false
  dollar : 0x24 ∉ key

/-- A name that stands in a line as it is. -/
def plainName (f : Text) : Bool :=
  f ≠ [] && f.all (fun c => !isNewline c && c ≠ 0x24) && f.head?.all (fun c => !isSpace c) &&
    f.getLast?.all (fun c => !isSpace c) && unquote f = f

lemma dropWhile_blank {a : Text} (ha : ∀ c ∈ a, isSpace c) {c : UInt8} (hc : isSpace c = false) (s : Text) :
    (a ++ c :: s).dropWhile isSpace = c :: s := by
  rw [List.dropWhile_append_of_pos ha, List.dropWhile_cons_of_neg (by simp [hc])]

lemma entryAt_eq_some_iff {key : Text} (hkey : PlainKey key) {s rest : Text} : entryAt key s = some rest ↔
    ∃ a b, (∀ c ∈ a, isSpace c) ∧ (∀ c ∈ b, isSpace c) ∧ s = a ++ (key ++ (b ++ 0x3D :: rest)) := by
  constructor
  · intro h
    have hs := List.takeWhile_append_dropWhile (p := isSpace) (l := s)
    refine ⟨s.takeWhile isSpace, ?_⟩
    simp only [entryAt] at h
    split at h
    · rename_i hprefix
      obtain ⟨t, ht⟩ := List.isPrefixOf_iff_prefix.1 hprefix
      rw [← ht, List.drop_left] at h
      refine ⟨t.takeWhile isSpace, fun c hc => (List.mem_takeWhile_imp hc), fun c hc => List.mem_takeWhile_imp hc, ?_⟩
      split at h
      · rename_i c rest' hdrop
        split at h
        · rename_i hc
          subst hc
          obtain rfl := Option.some.inj h
          rw [← hdrop, List.takeWhile_append_dropWhile, ht, hs]
        · simp at h
      · simp at h
    · simp at h
  · rintro ⟨a, b, ha, hb, rfl⟩
    obtain ⟨c, cs, rfl, hc, -⟩ := hkey.head
    have hsign : isSpace 0x3D = false := rfl
    have hfirst := dropWhile_blank ha hc (cs ++ (b ++ 0x3D :: rest))
    have hprefix : (c :: cs).isPrefixOf (c :: (cs ++ (b ++ 0x3D :: rest))) :=
      List.isPrefixOf_iff_prefix.2 ⟨b ++ 0x3D :: rest, rfl⟩
    have hdrop : (c :: (cs ++ (b ++ 0x3D :: rest))).drop (c :: cs).length = b ++ 0x3D :: rest := by
      rw [← List.cons_append, List.drop_left]
    simp only [entryAt, List.cons_append, hfirst, hprefix, if_true, hdrop, dropWhile_blank hb hsign]

lemma entryAt_append {key : Text} (hkey : PlainKey key) {s rest : Text} (h : entryAt key s = some rest) (w : Text) :
    entryAt key (s ++ w) = some (rest ++ w) := by
  obtain ⟨a, b, ha, hb, rfl⟩ := (entryAt_eq_some_iff hkey).1 h
  exact (entryAt_eq_some_iff hkey).2 ⟨a, b, ha, hb, by simp⟩

lemma entryAt_nil {key : Text} (hkey : PlainKey key) : entryAt key [] = none := by
  cases h : entryAt key [] with
  | none => rfl
  | some rest =>
    obtain ⟨a, b, -, -, hs⟩ := (entryAt_eq_some_iff hkey).1 h
    simp at hs

lemma entryAt_blank {key x : Text} (hkey : PlainKey key) (hx : ∀ c ∈ x, isSpace c) (rest : Text) :
    entryAt key (x ++ (key ++ 0x3D :: rest)) = some rest :=
  (entryAt_eq_some_iff hkey).2 ⟨x, [], hx, by simp, rfl⟩

/-- An entry that begins in the lines `x` ends in them, unless they are blank: what follows them begins with the key. -/
lemma entryAt_lines {key x rest : Text} (hkey : PlainKey key) (hx : x.getLast?.any isNewline)
    (h : entryAt key (x ++ (key ++ 0x3D :: rest)) ≠ none) : entryAt key x ≠ none ∨ ∀ c ∈ x, isSpace c := by
  obtain ⟨rest', h⟩ := Option.ne_none_iff_exists'.1 h
  obtain ⟨a, b, ha, hb, hs⟩ := (entryAt_eq_some_iff hkey).1 h
  obtain ⟨k, ks, hk, hspace, hsign⟩ := hkey.head
  rcases List.append_eq_append_iff.1 hs with ⟨a', ha', -⟩ | ⟨y, hy, hw⟩
  · exact .inr fun c hc => ha c (by simp [ha', hc])
  rcases List.append_eq_append_iff.1 hw with ⟨y', hy', hw'⟩ | ⟨key', hkey', -⟩
  · -- the lines go on after the key
    rcases List.append_eq_append_iff.1 hw' with ⟨y'', hy'', hw''⟩ | ⟨b', hb', hw''⟩
    · cases y'' with
      | nil =>
        have hfirst : 0x3D = k := by simpa [hk] using congrArg List.head? hw''
        exact absurd hfirst.symm hsign
      | cons c y'' =>
        left
        obtain rfl : c = 0x3D := by simpa using (congrArg List.head? hw'').symm
        have hentry : entryAt key x = some y'' := by
          refine (entryAt_eq_some_iff hkey).2 ⟨a, b, ha, hb, ?_⟩
          rw [hy, hy', hy'']
        simp [hentry]
    · cases b' with
      | nil =>
        have hfirst : k = 0x3D := by simpa [hk] using congrArg List.head? hw''
        exact absurd hfirst hsign
      | cons c b' =>
        have hfirst : k = c := by simpa [hk] using congrArg List.head? hw''
        have hblank := hb c (by simp [hb'])
        rw [← hfirst, hspace] at hblank
        simp at hblank
  · -- a line ends within the key, or the lines are blank
    cases y with
    | nil => exact .inr (by simpa [hy] using ha)
    | cons c y =>
      exfalso
      obtain ⟨d, hd⟩ : ∃ d, (c :: y).getLast? = some d := ⟨_, List.getLast?_eq_some_getLast (by simp)⟩
      have hnewline : isNewline d := by
        have hlast : x.getLast? = some d := by rw [hy, List.getLast?_append, hd, Option.some_or]
        simpa [hlast] using hx
      have hmem : d ∈ key := by
        rw [hkey']
        exact List.mem_append_left _ (List.mem_of_getLast? hd)
      simp [hkey.newline d hmem] at hnewline

lemma locate_of_entry {key s rest : Text} (h : entryAt key s = some rest) : locate key true s = some ([], rest) := by
  unfold locate
  simp [h]

lemma locate_cons {key : Text} {b : Bool} {c : UInt8} {cs : Text} (h : b → entryAt key (c :: cs) = none) :
    locate key b (c :: cs) = (locate key (isNewline c) cs).map fun found => (c :: found.1, found.2) := by
  rw [locate.eq_def]
  cases b with
  | false => rfl
  | true => simp [h rfl]

/-- Before the leftmost entry there are whole lines without one. -/
structure Leftmost (key : Text) (b : Bool) (before : Text) : Prop where
  absent : locate key b before = none
  start : before = [] → b = true
  lines : before ≠ [] → before.getLast?.any isNewline

lemma Leftmost.tail {key : Text} {b : Bool} {c : UInt8} {cs : Text} (h : Leftmost key b (c :: cs)) :
    (b → entryAt key (c :: cs) = none) ∧ Leftmost key (isNewline c) cs := by
  have hentry : b → entryAt key (c :: cs) = none := by
    rintro rfl
    cases hentry : entryAt key (c :: cs) with
    | none => rfl
    | some rest =>
      have hlocate := h.absent
      rw [locate_of_entry hentry] at hlocate
      simp at hlocate
  have hnone := h.absent
  rw [locate_cons hentry, Option.map_eq_none_iff] at hnone
  have hlines := h.lines (by simp)
  refine ⟨hentry, hnone, fun hnil => ?_, fun hne => ?_⟩
  · simpa [hnil] using hlines
  · obtain ⟨d, ds, rfl⟩ := List.exists_cons_of_ne_nil hne
    simpa [List.getLast?_cons_cons] using hlines

lemma locate_cons_eq_some {key : Text} {b : Bool} {c : UInt8} {cs before rest : Text}
    (h : locate key b (c :: cs) = some (before, rest)) :
    ((b → entryAt key (c :: cs) = none) ∧
      ∃ found, before = c :: found ∧ locate key (isNewline c) cs = some (found, rest)) ∨
    (b = true ∧ before = [] ∧ entryAt key (c :: cs) = some rest) := by
  by_cases hentry : b → entryAt key (c :: cs) = none
  · rw [locate_cons hentry] at h
    obtain ⟨found, hfound, heq⟩ := Option.map_eq_some_iff.1 h
    obtain ⟨rfl, rfl⟩ : c :: found.1 = before ∧ found.2 = rest := by simpa using heq
    exact .inl ⟨hentry, found.1, rfl, hfound⟩
  · obtain ⟨rfl, hsome⟩ : b = true ∧ entryAt key (c :: cs) ≠ none := by simpa using hentry
    obtain ⟨r, hr⟩ := Option.ne_none_iff_exists'.1 hsome
    rw [locate_of_entry hr] at h
    obtain ⟨rfl, rfl⟩ : [] = before ∧ r = rest := by simpa using h
    exact .inr ⟨rfl, rfl, hr⟩

lemma leftmost_of_locate {key : Text} (hkey : PlainKey key) {b : Bool} {src before rest : Text}
    (h : locate key b src = some (before, rest)) :
    Leftmost key b before ∧ ∃ entry, src = before ++ entry ∧ entryAt key entry = some rest := by
  induction src generalizing b before with
  | nil =>
    rw [locate.eq_def] at h
    cases b <;> simp [entryAt_nil hkey] at h
  | cons c cs ih =>
    rcases locate_cons_eq_some h with ⟨hentry, found, rfl, hfound⟩ | ⟨rfl, rfl, hr⟩
    · obtain ⟨hleft, entry, rfl, hrest⟩ := ih hfound
      refine ⟨⟨?_, by simp, fun _ => ?_⟩, entry, rfl, hrest⟩
      · have hbefore : b → entryAt key (c :: found) = none := by
          intro hb
          cases hearly : entryAt key (c :: found) with
          | none => rfl
          | some r =>
            have hlonger := entryAt_append hkey hearly entry
            rw [List.cons_append, hentry hb] at hlonger
            simp at hlonger
        rw [locate_cons hbefore, hleft.absent]
        rfl
      · cases hfound' : found with
        | nil => simpa using hleft.start hfound'
        | cons d ds => simpa [hfound', List.getLast?_cons_cons] using hleft.lines (by simp [hfound'])
    · refine ⟨⟨?_, fun _ => rfl, by simp⟩, c :: cs, rfl, hr⟩
      rw [locate.eq_def]
      simp [entryAt_nil hkey]

lemma locate_newline {key : Text} (hkey : PlainKey key) {b : Bool} {s : Text} (h : locate key b s = none) :
    locate key b (s ++ [0x0A]) = none := by
  have hentry : ∀ s, entryAt key s = none → entryAt key (s ++ [0x0A]) = none := by
    intro s hs
    by_contra hsome
    obtain ⟨rest, hrest⟩ := Option.ne_none_iff_exists'.1 hsome
    obtain ⟨x, y, hx, hy, heq⟩ := (entryAt_eq_some_iff hkey).1 hrest
    rcases List.eq_nil_or_concat rest with rfl | ⟨rest', c, rfl⟩
    · have hlast := congrArg List.getLast? heq
      simp [List.getLast?_append] at hlast
    · have hends : s ++ [0x0A] = (x ++ (key ++ (y ++ 0x3D :: rest'))) ++ [c] := by simpa using heq
      have hearly := (entryAt_eq_some_iff hkey).2 ⟨x, y, hx, hy, (List.append_inj' hends rfl).1⟩
      rw [hs] at hearly
      simp at hearly
  induction s generalizing b with
  | nil =>
    have hnil := hentry [] (entryAt_nil hkey)
    rw [List.nil_append] at hnil ⊢
    rw [locate_cons fun _ => hnil, locate.eq_def]
    simp [entryAt_nil hkey]
  | cons c cs ih =>
    by_cases hc : b → entryAt key (c :: cs) = none
    · rw [locate_cons hc, Option.map_eq_none_iff] at h
      have hlonger : b → entryAt key (c :: (cs ++ [0x0A])) = none := fun hb => hentry _ (hc hb)
      rw [List.cons_append, locate_cons hlonger, ih h]
      rfl
    · obtain ⟨rfl, hsome⟩ : b = true ∧ entryAt key (c :: cs) ≠ none := by simpa using hc
      obtain ⟨r, hr⟩ := Option.ne_none_iff_exists'.1 hsome
      rw [locate_of_entry hr] at h
      simp at h

lemma leftmost_of_absent {key : Text} (hkey : PlainKey key) {src : Text} (h : locate key true src = none) :
    Leftmost key true (if src ≠ [] ∧ src.getLast?.all (fun c => !isNewline c) then src ++ [0x0A] else src) := by
  split
  · exact ⟨locate_newline hkey h, fun _ => rfl, fun _ => by simp [isNewline]⟩
  · rename_i hended
    refine ⟨h, fun _ => rfl, fun hne => ?_⟩
    rw [List.getLast?_eq_some_getLast hne] at hended ⊢
    simpa [hne] using hended

/-- An entry put after whole lines without one is found, whatever blank lines come before it. -/
lemma Leftmost.locate_entry {key : Text} (hkey : PlainKey key) {b : Bool} {before : Text} (h : Leftmost key b before)
    (rest : Text) : ∃ u, locate key b (before ++ (key ++ 0x3D :: rest)) = some (u, rest) := by
  induction before generalizing b with
  | nil =>
    obtain rfl := h.start rfl
    exact ⟨[], locate_of_entry (entryAt_blank hkey (x := []) (by simp) rest)⟩
  | cons c cs ih =>
    obtain ⟨hentry, htail⟩ := h.tail
    by_cases hblank : b = true ∧ ∀ d ∈ c :: cs, isSpace d
    · obtain ⟨rfl, hblank⟩ := hblank
      exact ⟨[], locate_of_entry (entryAt_blank hkey hblank rest)⟩
    · have hnone : b → entryAt key (c :: (cs ++ (key ++ 0x3D :: rest))) = none := by
        intro hb
        by_contra hsome
        rcases entryAt_lines hkey (h.lines (by simp)) hsome with hearly | hall
        · exact hearly (hentry hb)
        · exact hblank ⟨hb, hall⟩
      obtain ⟨u, hu⟩ := ih htail
      refine ⟨c :: u, ?_⟩
      rw [List.cons_append, locate_cons hnone, hu]
      rfl

/-! ### What is written is read back -/

section RoundTrip

variable {nameLen : Text → Nat} {key : Text}

lemma expand_append (matched : Text) {x : Text} (h : 0x24 ∉ x) (v : Text) :
    expand nameLen matched 0 (x ++ v) = x ++ expand nameLen matched 0 v := by
  induction x with
  | nil => rfl
  | cons c cs ih =>
    have hc : c ≠ 0x24 := fun hc => h (by simp [hc])
    rw [List.cons_append, expand, if_pos hc, ih fun hcs => h (by simp [hcs]), List.cons_append]

lemma expand_of_no_dollar (matched : Text) {template : Text} (h : 0x24 ∉ template) :
    expand nameLen matched 0 template = template := by
  have hwhole : expand nameLen matched 0 (template ++ []) = template ++ expand nameLen matched 0 [] :=
    expand_append matched h []
  simpa [expand] using hwhole

lemma replaceEntries_skip (template : Text) (skip : Nat) (cs : Text) :
    replaceEntries nameLen key template skip false cs = replaceEntries nameLen key template 0 false (cs.drop skip) := by
  induction cs generalizing skip with
  | nil => cases skip <;> rfl
  | cons c cs ih =>
    cases skip with
    | zero => rfl
    | succ skip => exact ih skip

/-- The end of a line or of the text. -/
def LineEnd (s : Text) : Prop := ∀ c ∈ s.head?, isNewline c

lemma lineEnd_dropWhile (s : Text) : LineEnd (s.dropWhile fun c => !isNewline c) := by
  intro c hc
  have hne : s.dropWhile (fun c => !isNewline c) ≠ [] := by
    intro hnil
    simp [hnil] at hc
  have hhead := List.head_dropWhile_not (fun c => !isNewline c) hne
  obtain rfl : c = (s.dropWhile fun c => !isNewline c).head hne := by
    rw [List.head?_eq_some_head hne] at hc
    exact (Option.some.inj hc).symm
  simpa using hhead

lemma lineEnd_replaceEntries {template s : Text} (h : LineEnd s) :
    LineEnd (replaceEntries nameLen key template 0 false s) := by
  cases s with
  | nil => exact h
  | cons c cs => simpa [replaceEntries, LineEnd] using h

/-- A text that the pattern for the line of a key matches. -/
def IsMatch (key m : Text) : Prop :=
  ∃ a d line, (∀ c ∈ a, isSpace c) ∧ (∀ c ∈ d, isSpace c) ∧ m = a ++ (key ++ (d ++ 0x3D :: line))

lemma replaceEntries_cons {template : Text} {b : Bool} {c : UInt8} {cs : Text} (h : b → entryAt key (c :: cs) = none) :
    replaceEntries nameLen key template 0 b (c :: cs) =
      c :: replaceEntries nameLen key template 0 (isNewline c) cs := by
  have hnone : (if b then entryAt key (c :: cs) else none) = none := by
    cases b with
    | false => rfl
    | true => simp [h rfl]
  rw [replaceEntries, hnone]

lemma replaceEntries_entry (nameLen : Text → Nat) (hkey : PlainKey key) (template : Text) {s rest : Text}
    (h : entryAt key s = some rest) : ∃ m, IsMatch key m ∧
      replaceEntries nameLen key template 0 true s = expand nameLen m 0 template ++
        replaceEntries nameLen key template 0 false (rest.dropWhile fun c => !isNewline c) := by
  obtain ⟨a, d, ha, hd, hs⟩ := (entryAt_eq_some_iff hkey).1 h
  obtain ⟨line, hline⟩ := List.dropWhile_suffix (l := rest) fun c => !isNewline c
  refine ⟨a ++ (key ++ (d ++ 0x3D :: line)), ⟨a, d, line, ha, hd, rfl⟩, ?_⟩
  have hmatch : s = (a ++ (key ++ (d ++ 0x3D :: line))) ++ rest.dropWhile fun c => !isNewline c := by
    conv_lhs => rw [hs, ← hline]
    simp
  obtain ⟨e, es, hm⟩ : ∃ e es, a ++ (key ++ (d ++ 0x3D :: line)) = e :: es := List.exists_cons_of_ne_nil (by simp)
  rw [hm] at hmatch ⊢
  rw [hmatch, List.cons_append] at h ⊢
  rw [replaceEntries, if_pos rfl, h]
  dsimp only
  generalize (rest.dropWhile fun c => !isNewline c) = after
  -- what is skipped is the rest of the match
  have htake : (e :: (es ++ after)).take ((e :: (es ++ after)).length - after.length) = e :: es := by
    rw [← List.cons_append, List.length_append, Nat.add_sub_cancel, List.take_left]
  rw [htake, replaceEntries_skip, List.length_cons, Nat.add_sub_cancel, List.drop_left]

lemma replaceEntries_of_locate (nameLen : Text → Nat) (hkey : PlainKey key) (template : Text) {b : Bool}
    {src before rest : Text} (h : locate key b src = some (before, rest)) : ∃ m, IsMatch key m ∧
      replaceEntries nameLen key template 0 b src = before ++ (expand nameLen m 0 template ++
        replaceEntries nameLen key template 0 false (rest.dropWhile fun c => !isNewline c)) := by
  induction src generalizing b before with
  | nil =>
    rw [locate.eq_def] at h
    cases b <;> simp [entryAt_nil hkey] at h
  | cons c cs ih =>
    rcases locate_cons_eq_some h with ⟨hentry, found, rfl, hfound⟩ | ⟨rfl, rfl, hr⟩
    · obtain ⟨m, hm, htail⟩ := ih hfound
      refine ⟨m, hm, ?_⟩
      rw [replaceEntries_cons hentry, htail]
      rfl
    · exact replaceEntries_entry nameLen hkey template hr

lemma valueOf_line {c : UInt8} {cs tail : Text} (hc : isSpace c = false) (hline : ∀ x ∈ c :: cs, isNewline x = false)
    (htail : LineEnd tail) : valueOf (c :: cs ++ tail) = (c :: cs).rdropWhile isSpace := by
  have hblank : (c :: cs ++ tail).dropWhile isSpace = c :: cs ++ tail := by
    rw [List.cons_append, List.dropWhile_cons_of_neg (by simp [hc])]
  have htake : (c :: cs ++ tail).takeWhile (fun x => !isNewline x) = c :: cs := by
    rw [List.takeWhile_append_of_pos fun x hx => by simp [hline x hx]]
    cases tail with
    | nil => simp
    | cons t ts =>
      have ht : isNewline t := htail t rfl
      simp [ht]
  rw [valueOf, hblank, htake]

/-- A value with no white space around it and no quotes. -/
structure Bare (v : Text) : Prop where
  nonempty : v ≠ []
  head : ∀ c ∈ v.head?, isSpace c = false
  last : ∀ c ∈ v.getLast?, isSpace c = false
  unquoted : unquote v = v

lemma bare_iff {v : Text} : Bare v ↔ v ≠ [] ∧ v.head?.all (fun c => !isSpace c) ∧
    v.getLast?.all (fun c => !isSpace c) ∧ unquote v = v := by
  simp only [Option.all_eq_true, Bool.not_eq_true']
  exact ⟨fun h => ⟨h.nonempty, h.head, h.last, h.unquoted⟩, fun h => ⟨h.1, h.2.1, h.2.2.1, h.2.2.2⟩⟩

instance (v : Text) : Decidable (Bare v) := decidable_of_iff _ bare_iff.symm

lemma Bare.rdropWhile {v : Text} (h : Bare v) : v.rdropWhile isSpace = v := by
  apply List.rdropWhile_eq_self_iff.2
  intro hne
  simpa using h.last _ (List.getLast?_eq_some_getLast hne)

lemma Bare.unquote_valueOf {v tail : Text} (h : Bare v) (hline : ∀ c ∈ v, isNewline c = false) (htail : LineEnd tail) :
    unquote (valueOf (v ++ tail)) = v := by
  have hvalue : valueOf (v ++ tail) = v.rdropWhile isSpace := by
    obtain ⟨c, cs, rfl⟩ := List.exists_cons_of_ne_nil h.nonempty
    exact valueOf_line (h.head c rfl) hline htail
  rw [hvalue, h.rdropWhile, h.unquoted]

lemma bare_of_plainName {f : Text} (hf : plainName f) :
    Bare f ∧ (∀ c ∈ f, isNewline c = false) ∧ 0x24 ∉ f := by
  simp only [plainName, Bool.and_eq_true, decide_eq_true_eq, List.all_eq_true, Bool.not_eq_true'] at hf
  obtain ⟨⟨⟨⟨hne, hchars⟩, hhead⟩, hlast⟩, hquote⟩ := hf
  exact ⟨bare_iff.2 ⟨hne, hhead, hlast, hquote⟩, fun c hc => (hchars c hc).1, fun hmem => (hchars _ hmem).2 rfl⟩

/-- The entry that is written is the first of its key, so that its value is the one that is read. -/
lemma Leftmost.readEnvKey {before : Text} (h : Leftmost key true before) (hkey : PlainKey key) (rest : Text) :
    readEnvKey key (before ++ (key ++ 0x3D :: rest)) = some (unquote (valueOf rest)) := by
  obtain ⟨u, hu⟩ := h.locate_entry hkey rest
  rw [EnvFile.readEnvKey, hu]
  rfl

/-- A plain name that is written is read back, whatever the file holds. -/
theorem readEnvKey_writeEnvKey (hkey : PlainKey key) {f : Text} (hf : plainName f) (src : Text) :
    readEnvKey key (writeEnvKey nameLen key f src) = some f := by
  obtain ⟨hbare, hline, hdollar⟩ := bare_of_plainName hf
  have hread : ∀ before tail, Leftmost key true before → LineEnd tail →
      readEnvKey key (before ++ ((key ++ 0x3D :: f) ++ tail)) = some f := by
    intro before tail hleft htail
    rw [List.append_assoc, List.cons_append, hleft.readEnvKey hkey, hbare.unquote_valueOf hline htail]
  unfold writeEnvKey
  dsimp only
  cases hlocate : locate key true src with
  | some found =>
    obtain ⟨hleft, -⟩ := leftmost_of_locate hkey hlocate
    obtain ⟨m, -, htail⟩ := replaceEntries_of_locate nameLen hkey (key ++ 0x3D :: f) hlocate
    rw [if_pos Option.isSome_some, htail, expand_of_no_dollar]
    · exact hread _ _ hleft (lineEnd_replaceEntries (lineEnd_dropWhile _))
    · simp [hkey.dollar, hdollar]
  | none =>
    rw [if_neg (by simp)]
    have hend : LineEnd [0x0A] := by simp [LineEnd, isNewline]
    exact hread _ _ (leftmost_of_absent hkey hlocate) hend

end RoundTrip

end Acva.EnvFile
