import Acva.Lib.Decimal
import Acva.Lib.Utf8

/-!
# JSON texts

A reader for JSON as in RFC 8259, which keeps the names of an object in their order and a number as it is written, and
rules for what is written. A text is a sequence of bytes.
-/

inductive Json
  | null
  | bool (b : Bool)
  | number (digits : List UInt8)
  | string (s : List UInt8)
  | array (items : List Json)
  | object (members : List (List UInt8 × Json))

namespace Json

def isSpace (b : UInt8) : Bool := b == 32 || b == 9 || b == 10 || b == 13

/-- After any spaces, the byte. -/
def token (c : UInt8) (s : List UInt8) : Option (List UInt8) :=
  match s.dropWhile isSpace with
  | [] => none
  | b :: rest => if b = c then some rest else none

/-! ### Strings -/

def hexDigit (b : UInt8) : Option Nat :=
  if 48 ≤ b ∧ b ≤ 57 then some (b.toNat - 48)
  else if 97 ≤ b ∧ b ≤ 102 then some (b.toNat - 87)
  else if 65 ≤ b ∧ b ≤ 70 then some (b.toNat - 55)
  else none

/-- Four hexadecimal digits. -/
def codeUnit : List UInt8 → Option (Nat × List UInt8)
  | a :: b :: c :: d :: rest => do
    let a ← hexDigit a
    let b ← hexDigit b
    let c ← hexDigit c
    let d ← hexDigit d
    return (((a * 16 + b) * 16 + c) * 16 + d, rest)
  | _ => none

/-- A code unit, or the two of a surrogate pair. -/
def codePoint (s : List UInt8) : Option (Nat × List UInt8) := do
  let (u, s) ← codeUnit s
  if u < 0xD800 ∨ 0xE000 ≤ u then return (u, s)
  match s with
  | a :: b :: s =>
    let (low, s) ← codeUnit s
    if a = 92 ∧ b = 117 ∧ u < 0xDC00 ∧ 0xDC00 ≤ low ∧ low < 0xE000 then
      return (0x10000 + (u - 0xD800) * 0x400 + (low - 0xDC00), s)
    else none
  | _ => none

/-- The bytes that may follow a backslash alone, and what they stand for. -/
def letters : List (UInt8 × UInt8) :=
  [(34, 34), (92, 92), (47, 47), (98, 8), (102, 12), (110, 10), (114, 13), (116, 9)]

/-- What follows a backslash. -/
def escaped : List UInt8 → Option (List UInt8 × List UInt8)
  | [] => none
  | c :: s =>
    if c = 117 then (codePoint s).map fun (n, rest) => (String.utf8EncodeChar (Char.ofNat n), rest)
    else (letters.lookup c).map fun b => ([b], s)

/-- The inside of a string, and what follows the closing quote. -/
def chars : Nat → List UInt8 → Option (List UInt8 × List UInt8)
  | 0, _ => none
  | _ + 1, [] => none
  | n + 1, b :: s =>
    if b = 34 then some ([], s)
    else if b = 92 then do
      let (x, s) ← escaped s
      let (y, rest) ← chars n s
      return (x ++ y, rest)
    else if b < 32 then none
    else (chars n s).map fun (y, rest) => (b :: y, rest)

/-! ### Numbers -/

def isDigit (b : UInt8) : Bool := 48 ≤ b && b ≤ 57

def digits (s : List UInt8) : Option (List UInt8 × List UInt8) :=
  if s.takeWhile isDigit = [] then none else some (s.takeWhile isDigit, s.dropWhile isDigit)

def minus (s : List UInt8) : List UInt8 × List UInt8 := if s.head? = some 45 then ([45], s.tail) else ([], s)

/-- No digit follows a leading zero. -/
def integer (s : List UInt8) : Option (List UInt8 × List UInt8) :=
  if s.head? = some 48 then some ([48], s.tail) else digits s

def fraction (s : List UInt8) : Option (List UInt8 × List UInt8) :=
  if s.head? = some 46 then (digits s.tail).map fun (x, rest) => (46 :: x, rest) else some ([], s)

def exponent (s : List UInt8) : Option (List UInt8 × List UInt8) :=
  match s with
  | [] => some ([], [])
  | b :: s =>
    if b = 101 ∨ b = 69 then
      let (sign, s) := if s.head? = some 43 then ([43], s.tail) else minus s
      (digits s).map fun (x, rest) => (b :: sign ++ x, rest)
    else some ([], b :: s)

def numeral (s : List UInt8) : Option (List UInt8 × List UInt8) := do
  let (m, s) := minus s
  let (i, s) ← integer s
  let (f, s) ← fraction s
  let (e, rest) ← exponent s
  return (m ++ i ++ f ++ e, rest)

/-! ### Values -/

/-- The bytes of a literal after the first. -/
def literal (word s : List UInt8) (v : Json) : Option (Json × List UInt8) :=
  if word.isPrefixOf s then some (v, s.drop word.length) else none

mutual

/-- A value after any spaces, and what follows it. -/
def value : Nat → List UInt8 → Option (Json × List UInt8)
  | 0, _ => none
  | n + 1, s =>
    match s.dropWhile isSpace with
    | [] => none
    | b :: s =>
      if b = 34 then (chars n s).map fun (x, rest) => (string x, rest)
      else if b = 91 then
        match token 93 s with
        | some rest => some (array [], rest)
        | none => (elements n s).map fun (vs, rest) => (array vs, rest)
      else if b = 123 then
        match token 125 s with
        | some rest => some (object [], rest)
        | none => (members n s).map fun (ms, rest) => (object ms, rest)
      else if b = 110 then literal [117, 108, 108] s null
      else if b = 116 then literal [114, 117, 101] s (bool true)
      else if b = 102 then literal [97, 108, 115, 101] s (bool false)
      else (numeral (b :: s)).map fun (x, rest) => (number x, rest)

def elements : Nat → List UInt8 → Option (List Json × List UInt8)
  | 0, _ => none
  | n + 1, s => do
    let (v, s) ← value n s
    match token 44 s with
    | some s => (elements n s).map fun (vs, rest) => (v :: vs, rest)
    | none => (token 93 s).map fun rest => ([v], rest)

def members : Nat → List UInt8 → Option (List (List UInt8 × Json) × List UInt8)
  | 0, _ => none
  | n + 1, s => do
    let s ← token 34 s
    let (k, s) ← chars n s
    let s ← token 58 s
    let (v, s) ← value n s
    match token 44 s with
    | some s => (members n s).map fun (ms, rest) => ((k, v) :: ms, rest)
    | none => (token 125 s).map fun rest => ([(k, v)], rest)

end

/-- The value of a text. Its bytes are not asked to be UTF-8. -/
def parse (s : List UInt8) : Option Json := do
  let (v, rest) ← value (2 * s.length + 1) s
  if rest.all isSpace then some v else none

/-- The bytes are a JSON text. -/
def IsText (s : List UInt8) (v : Json) : Prop := Utf8.Valid s ∧ parse s = some v

example : parse [123, 34, 97, 34, 58, 91, 49, 44, 32, 34, 92, 117, 48, 48, 101, 57, 34, 93, 125, 10] =
    some (object [([97], array [number [49], string [0xC3, 0xA9]])]) := by rfl

/-! ### Writing strings -/

/-- A table of the bytes that a writer gives a letter. The reader knows the letters, and what would end or escape has
one. -/
structure Sound (short : List (UInt8 × UInt8)) : Prop where
  letter : ∀ p ∈ short, letters.lookup p.2 = some p.1
  quote : (short.lookup 34).isSome
  backslash : (short.lookup 92).isSome

def hexChar (n : Nat) : UInt8 := if n < 10 then 48 + n.toUInt8 else 87 + n.toUInt8

def escapeByte (short : List (UInt8 × UInt8)) (b : UInt8) : List UInt8 :=
  match short.lookup b with
  | some c => [92, c]
  | none => if b < 32 then [92, 117, 48, 48, hexChar (b.toNat / 16), hexChar (b.toNat % 16)] else [b]

def escape (short : List (UInt8 × UInt8)) (s : List UInt8) : List UInt8 := s.flatMap (escapeByte short)

def quoted (short : List (UInt8 × UInt8)) (s : List UInt8) : List UInt8 := 34 :: escape short s ++ [34]

def writeArray (items : List (List UInt8)) : List UInt8 := 91 :: [44].intercalate items ++ [93]

/-- A name, written inside its quotes, and a value. -/
def writeMember (k v : List UInt8) : List UInt8 := 34 :: k ++ 34 :: 58 :: v

def writeObject (items : List (List UInt8)) : List UInt8 := 123 :: [44].intercalate items ++ [125]

/-- With enough fuel the bytes are a string up to its closing quote. -/
def Scans (s x rest : List UInt8) : Prop := ∀ n, s.length < n → chars n s = some (x, rest)

/-- Inside a string the bytes stand for other bytes. -/
def Encodes (e x : List UInt8) : Prop := ∀ s y rest, Scans s y rest → Scans (e ++ s) (x ++ y) rest

lemma scans_quote (rest : List UInt8) : Scans (34 :: rest) [] rest := by
  intro n hn
  obtain ⟨n, rfl⟩ := Nat.exists_eq_add_of_lt hn
  rfl

lemma Encodes.nil : Encodes [] [] := fun _ _ _ h => h

lemma Encodes.append {e x f y : List UInt8} (he : Encodes e x) (hf : Encodes f y) : Encodes (e ++ f) (x ++ y) := by
  intro s z rest h
  rw [List.append_assoc, List.append_assoc]
  exact he _ _ _ (hf _ _ _ h)

lemma encodes_byte {b : UInt8} (hquote : b ≠ 34) (hslash : b ≠ 92) (hb : 32 ≤ b) : Encodes [b] [b] := by
  intro s y rest h n hn
  obtain _ | n := n
  · simp at hn
  · have hs := h n (by simpa using hn)
    simp [chars, hquote, hslash, UInt8.not_lt.2 hb, hs]

/-- The printed characters of ASCII that need no escape. -/
def isPlain (b : UInt8) : Bool := b ≠ 34 ∧ b ≠ 92 ∧ 32 ≤ b ∧ b < 0x80

lemma isPlain_iff {b : UInt8} : isPlain b = true ↔ b ≠ 34 ∧ b ≠ 92 ∧ 32 ≤ b ∧ b < 0x80 := decide_eq_true_iff

lemma encodes_plain {s : List UInt8} (h : s.all isPlain) : Encodes s s := by
  induction s with
  | nil => exact .nil
  | cons b s ih =>
    rw [List.all_cons, Bool.and_eq_true] at h
    obtain ⟨hquote, hslash, hprint, -⟩ := isPlain_iff.mp h.1
    exact (encodes_byte hquote hslash hprint).append (ih h.2)

lemma valid_plain {s : List UInt8} (h : s.all isPlain) : Utf8.Valid s :=
  Utf8.valid_of_lt fun b hb => (isPlain_iff.mp (List.all_eq_true.mp h b hb)).2.2.2

lemma encodes_escaped {e x : List UInt8} (h : ∀ s, escaped (e ++ s) = some (x, s)) : Encodes (92 :: e) x := by
  intro s y rest hs n hn
  obtain _ | n := n
  · simp at hn
  · have hs := hs n (by simp at hn; omega)
    simp [chars, h, hs]

lemma encodes_letter {b c : UInt8} (h : letters.lookup c = some b) : Encodes [92, c] [b] := by
  apply encodes_escaped
  intro s
  have hc : c ≠ 117 := by
    rintro rfl
    cases h
  simp [escaped, hc, h]

lemma hexDigit_hexChar : ∀ n < 16, hexDigit (hexChar n) = some n := by decide

lemma encodes_control {b : UInt8} (hb : b < 32) :
    Encodes [92, 117, 48, 48, hexChar (b.toNat / 16), hexChar (b.toNat % 16)] [b] := by
  apply encodes_escaped
  intro s
  have hlt : b.toNat < 32 := UInt8.lt_iff_toNat_lt.1 hb
  have hzero : hexDigit 48 = some 0 := rfl
  have hhigh := hexDigit_hexChar (b.toNat / 16) (by omega)
  have hlow := hexDigit_hexChar (b.toNat % 16) (by omega)
  have hvalue : b.toNat / 16 * 16 + b.toNat % 16 = b.toNat := Nat.div_add_mod' b.toNat 16
  have hchar := Utf8.encode_ofNat (UInt8.lt_trans hb (by decide : (32 : UInt8) < 0x80))
  simp [escaped, codePoint, codeUnit, hzero, hhigh, hlow, hvalue, hchar, show b.toNat < 55296 by omega]

lemma Sound.mem_of_lookup {short : List (UInt8 × UInt8)} {b c : UInt8} (h : short.lookup b = some c) :
    (b, c) ∈ short := by
  obtain ⟨l₁, l₂, rfl, -⟩ := List.lookup_eq_some_iff.1 h
  simp

lemma Sound.encodes_escapeByte {short : List (UInt8 × UInt8)} (h : Sound short) (b : UInt8) :
    Encodes (escapeByte short b) [b] := by
  unfold escapeByte
  split
  · rename_i c hc
    exact encodes_letter (h.letter _ (mem_of_lookup hc))
  · rename_i hnone
    split
    · rename_i hb
      exact encodes_control hb
    · rename_i hb
      apply encodes_byte
      · rintro rfl
        simpa [hnone] using h.quote
      · rintro rfl
        simpa [hnone] using h.backslash
      · exact UInt8.not_lt.1 hb

/-- What a writer escapes stands for itself. -/
theorem Sound.encodes_escape {short : List (UInt8 × UInt8)} (h : Sound short) (s : List UInt8) :
    Encodes (escape short s) s := by
  induction s with
  | nil => exact .nil
  | cons b s ih => exact (h.encodes_escapeByte b).append ih

lemma sound_of_all {short : List (UInt8 × UInt8)} (hletter : short.all fun p => letters.lookup p.2 == some p.1)
    (hquote : (short.lookup 34).isSome) (hbackslash : (short.lookup 92).isSome) : Sound short := by
  refine ⟨fun p hp => ?_, hquote, hbackslash⟩
  have hlookup := List.all_eq_true.mp hletter p hp
  exact eq_of_beq hlookup

lemma letters_bounds : ∀ p ∈ letters, 32 ≤ p.1 ∧ p.1 < 0x80 ∧ p.2 < 0x80 := by simp [letters]

lemma Sound.lookup_bounds {short : List (UInt8 × UInt8)} (h : Sound short) {b c : UInt8}
    (hc : short.lookup b = some c) : 32 ≤ c ∧ c < 0x80 ∧ b < 0x80 :=
  letters_bounds (c, b) (mem_of_lookup (h.letter (b, c) (mem_of_lookup hc)))

lemma hexChar_bounds : ∀ n < 16, 32 ≤ hexChar n ∧ hexChar n < 0x80 := by decide

lemma Sound.mem_escapeByte {short : List (UInt8 × UInt8)} (h : Sound short) {b x : UInt8}
    (hx : x ∈ escapeByte short b) : 32 ≤ x ∧ (b < 0x80 → x < 0x80) := by
  have hhigh := hexChar_bounds (b.toNat / 16) (by have := b.toNat_lt; omega)
  have hlow := hexChar_bounds (b.toNat % 16) (by omega)
  unfold escapeByte at hx
  split at hx
  · rename_i c hc
    have hbounds := h.lookup_bounds hc
    simp only [List.mem_cons, List.not_mem_nil, or_false] at hx
    rcases hx with rfl | rfl
    · exact ⟨by decide, fun _ => by decide⟩
    · exact ⟨hbounds.1, fun _ => hbounds.2.1⟩
  · split at hx
    · simp only [List.mem_cons, List.not_mem_nil, or_false] at hx
      rcases hx with rfl | rfl | rfl | rfl | rfl | rfl
      · exact ⟨by decide, fun _ => by decide⟩
      · exact ⟨by decide, fun _ => by decide⟩
      · exact ⟨by decide, fun _ => by decide⟩
      · exact ⟨by decide, fun _ => by decide⟩
      · exact ⟨hhigh.1, fun _ => hhigh.2⟩
      · exact ⟨hlow.1, fun _ => hlow.2⟩
    · rename_i hb
      obtain rfl := List.mem_singleton.1 hx
      exact ⟨UInt8.not_lt.1 hb, id⟩

lemma Sound.mem_escape {short : List (UInt8 × UInt8)} (h : Sound short) {s : List UInt8} {x : UInt8}
    (hx : x ∈ escape short s) : 32 ≤ x := by
  obtain ⟨b, -, hb⟩ := List.mem_flatMap.1 hx
  exact (h.mem_escapeByte hb).1

lemma Sound.mem_quoted {short : List (UInt8 × UInt8)} (h : Sound short) {s : List UInt8} {x : UInt8}
    (hx : x ∈ quoted short s) : 32 ≤ x := by
  simp only [quoted, List.mem_append, List.mem_cons, List.not_mem_nil, or_false] at hx
  rcases hx with (rfl | hx) | rfl
  · decide
  · exact h.mem_escape hx
  · decide

/-- Escaping keeps a text UTF-8. -/
theorem Sound.valid_escape {short : List (UInt8 × UInt8)} (h : Sound short) {s : List UInt8} (hs : Utf8.Valid s) :
    Utf8.Valid (escape short s) := by
  refine hs.flatMap _ (fun b hb c hc => (h.mem_escapeByte hc).2 hb) fun b hb => ?_
  have hnone : short.lookup b = none := by
    by_contra hsome
    obtain ⟨c, hc⟩ := Option.ne_none_iff_exists'.1 hsome
    exact UInt8.not_lt.2 hb (h.lookup_bounds hc).2.2
  have hcontrol : ¬b < 32 := fun hlt => UInt8.not_lt.2 hb (UInt8.lt_trans hlt (by decide))
  rw [escapeByte, hnone]
  exact if_neg hcontrol

lemma Sound.valid_quoted {short : List (UInt8 × UInt8)} (h : Sound short) {s : List UInt8} (hs : Utf8.Valid s) :
    Utf8.Valid (quoted short s) := by
  have hquote : Utf8.Valid [34] := Utf8.valid_of_all (by decide)
  exact (hquote.append (h.valid_escape hs)).append hquote

/-! ### Writing values -/

/-- No byte that could belong to a number before it. -/
def Ends (rest : List UInt8) : Prop := ∀ b ∈ rest.head?, isDigit b = false ∧ b ≠ 46 ∧ b ≠ 101 ∧ b ≠ 69

/-- With enough fuel the bytes are a value, whatever ends it. -/
def Reads (e : List UInt8) (v : Json) : Prop :=
  ∀ rest n, Ends rest → 2 * (e ++ rest).length < n → value n (e ++ rest) = some (v, rest)

/-- The same for a name and its value. -/
def ReadsMember (e : List UInt8) (m : List UInt8 × Json) : Prop :=
  ∃ k v, e = writeMember k v ∧ Encodes k m.1 ∧ Reads v m.2

lemma ends_of_space {s : List UInt8} (h : s.all isSpace = true) : Ends s := by
  intro b hb
  have hspace : isSpace b = true := List.all_eq_true.1 h b (List.mem_of_mem_head? hb)
  simp only [isSpace, Bool.or_eq_true, beq_iff_eq] at hspace
  rcases hspace with ((rfl | rfl) | rfl) | rfl <;> decide

lemma token_self {c : UInt8} (hc : isSpace c = false) (s : List UInt8) : token c (c :: s) = some s := by
  simp [token, hc]

lemma token_of_ne {b c : UInt8} (hb : isSpace b = false) (hne : b ≠ c) (s : List UInt8) : token c (b :: s) = none := by
  simp [token, hb, hne]

lemma intercalate_cons (x : List UInt8) (items : List (List UInt8)) :
    [44].intercalate (x :: items) = x ++ items.flatMap (44 :: ·) := by
  induction items generalizing x with
  | nil => simp
  | cons y items ih =>
    rw [List.intercalate_cons_cons, ih]
    simp

/-- The text of a value reads back. -/
theorem parse_of_reads {e t : List UInt8} {v : Json} (h : Reads e v) (ht : t.all isSpace = true) :
    parse (e ++ t) = some v := by
  have hvalue := h t _ (ends_of_space ht) (Nat.lt_succ_self _)
  simp only [parse, hvalue, Option.bind_eq_bind, Option.bind_some, ht, if_true]

lemma reads_string {e x : List UInt8} (h : Encodes e x) : Reads (34 :: e ++ [34]) (string x) := by
  intro rest n _ hn
  obtain _ | n := n
  · simp at hn
  · have hscan := h _ _ _ (scans_quote rest) n (by simp at hn ⊢; omega)
    rw [List.append_nil] at hscan
    simp [value, isSpace, hscan]

/-- What a writer quotes reads back. -/
theorem Sound.reads_quoted {short : List (UInt8 × UInt8)} (h : Sound short) (s : List UInt8) :
    Reads (quoted short s) (string s) := reads_string (h.encodes_escape s)

lemma readsMember_plain {k v : List UInt8} {j : Json} (hname : k.all isPlain)
    (hv : Reads v j) : ReadsMember (writeMember k v) (k, j) :=
  ⟨k, v, rfl, encodes_plain hname, hv⟩

lemma reads_plain {s : List UInt8} (hs : s.all isPlain) : Reads (34 :: s ++ [34]) (string s) :=
  reads_string (encodes_plain hs)

/-- The digits of an integer, without a leading zero. -/
structure IsInteger (x : List UInt8) : Prop where
  nonempty : x ≠ []
  digits : ∀ b ∈ x, isDigit b = true
  zero : x.head? = some 48 → x = [48]

lemma digits_append {x rest : List UInt8} (hne : x ≠ []) (hx : ∀ b ∈ x, isDigit b = true)
    (hrest : ∀ b ∈ rest.head?, isDigit b = false) : Json.digits (x ++ rest) = some (x, rest) := by
  have hstop : rest.takeWhile isDigit = [] ∧ rest.dropWhile isDigit = rest := by
    cases rest with
    | nil => exact ⟨rfl, rfl⟩
    | cons b rest => simp [hrest b rfl]
  rw [Json.digits, List.takeWhile_append_of_pos hx, List.dropWhile_append_of_pos hx, hstop.1, hstop.2, List.append_nil,
    if_neg hne]

lemma IsInteger.integer_append {x rest : List UInt8} (h : IsInteger x) (hrest : ∀ b ∈ rest.head?, isDigit b = false) :
    integer (x ++ rest) = some (x, rest) := by
  obtain ⟨b, x, rfl⟩ := List.exists_cons_of_ne_nil h.nonempty
  unfold integer
  split
  · rename_i hzero
    have hx := h.zero hzero
    rw [hx]
    rfl
  · exact digits_append h.nonempty h.digits hrest

lemma exponent_of_ends {rest : List UInt8} (h : Ends rest) : exponent rest = some ([], rest) := by
  cases rest with
  | nil => rfl
  | cons b rest =>
    have hb := h b rfl
    simp [exponent, hb.2.2.1, hb.2.2.2]

lemma reads_number {x f : List UInt8} (hx : IsInteger x)
    (hf : f = [] ∨ ∃ y, f = 46 :: y ∧ y ≠ [] ∧ ∀ b ∈ y, isDigit b = true) : Reads (x ++ f) (number (x ++ f)) := by
  intro rest n hrest hn
  have hdigit : ∀ b ∈ rest.head?, isDigit b = false := fun b hb => (hrest b hb).1
  have hfrac : fraction (f ++ rest) = some (f, rest) := by
    rcases hf with rfl | ⟨y, rfl, hne, hy⟩
    · rw [List.nil_append, fraction, if_neg]
      intro hdot
      exact (hrest _ hdot).2.1 rfl
    · simp [fraction, digits_append hne hy hdigit]
  have hstart : ∀ b ∈ (f ++ rest).head?, isDigit b = false := by
    rcases hf with rfl | ⟨y, rfl, -⟩
    · exact hdigit
    · intro b hb
      obtain rfl : 46 = b := by simpa using hb
      rfl
  have hint := hx.integer_append hstart
  obtain ⟨b, x, rfl⟩ := List.exists_cons_of_ne_nil hx.nonempty
  have hb := hx.digits b List.mem_cons_self
  have hother : isSpace b = false ∧ b ≠ 45 ∧ b ≠ 34 ∧ b ≠ 91 ∧ b ≠ 123 ∧ b ≠ 110 ∧ b ≠ 116 ∧ b ≠ 102 := by
    simp only [isDigit, Bool.and_eq_true, decide_eq_true_eq] at hb
    refine ⟨?_, ?_⟩
    · simp only [isSpace, Bool.or_eq_false_iff, beq_eq_false_iff_ne]
      grind
    · grind
  obtain ⟨hspace, hminus, h34, h91, h123, h110, h116, h102⟩ := hother
  obtain _ | n := n
  · simp at hn
  · rw [List.append_assoc]
    rw [List.cons_append] at hint ⊢
    have hnumeral : numeral (b :: (x ++ (f ++ rest))) = some (b :: x ++ f, rest) := by
      simp [numeral, minus, hminus, hint, hfrac, exponent_of_ends hrest]
    simp [value, hspace, h34, h91, h123, h110, h116, h102, hnumeral]

lemma isInteger_decimal (n : Nat) : IsInteger (Decimal.decimal n) where
  nonempty := Decimal.decimal_ne_nil n
  digits b hb := by simpa [isDigit] using Decimal.mem_decimal hb
  zero := Decimal.head_decimal

lemma reads_decimal (n : Nat) : Reads (Decimal.decimal n) (number (Decimal.decimal n)) := by
  have h := reads_number (isInteger_decimal n) (.inl rfl)
  rwa [List.append_nil] at h

lemma reads_negative {x : List UInt8} (hx : IsInteger x) : Reads (45 :: x) (number (45 :: x)) := by
  intro rest n hrest hn
  have hint := hx.integer_append fun b hb => (hrest b hb).1
  have hfrac : fraction rest = some ([], rest) := by
    rw [fraction, if_neg]
    intro hdot
    exact (hrest _ hdot).2.1 rfl
  obtain _ | n := n
  · simp at hn
  · have hnumeral : numeral (45 :: (x ++ rest)) = some (45 :: x, rest) := by
      simp [numeral, minus, hint, hfrac, exponent_of_ends hrest]
    simp [value, isSpace, hnumeral]

lemma reads_paddedInt (n : Int) : Reads (Decimal.paddedInt 0 n) (number (Decimal.paddedInt 0 n)) := by
  have hpadded : ∀ m, Decimal.padded 0 m = Decimal.decimal m := fun m => by simp [Decimal.padded]
  simp only [Decimal.paddedInt, Nat.zero_sub, hpadded]
  split
  · exact reads_negative (isInteger_decimal _)
  · exact reads_decimal _

lemma reads_null : Reads [110, 117, 108, 108] null := by
  intro rest n _ hn
  obtain _ | n := n
  · simp at hn
  · simp [value, isSpace, literal]

lemma ends_cons {b : UInt8} (hb : isDigit b = false ∧ b ≠ 46 ∧ b ≠ 101 ∧ b ≠ 69) (s : List UInt8) : Ends (b :: s) := by
  intro c hc
  obtain rfl : b = c := by simpa using hc
  exact hb

lemma value_of_token {s rest : List UInt8} {n : Nat} (h : token 93 s = some rest) : value n s = none := by
  cases n with
  | zero => rfl
  | succ n =>
    unfold token at h
    split at h
    · cases h
    · rename_i b s' hs
      obtain rfl : b = 93 := by
        by_contra hne
        simp [hne] at h
      simp [value, hs, numeral, minus, integer, digits, isDigit]

lemma elements_of_reads {items : List (List UInt8)} {vs : List Json} (h : List.Forall₂ Reads items vs)
    (hne : items ≠ []) (rest : List UInt8) (n : Nat) (hn : 2 * ([44].intercalate items ++ 93 :: rest).length + 1 < n) :
    elements n ([44].intercalate items ++ 93 :: rest) = some (vs, rest) := by
  induction h generalizing n with
  | nil => exact absurd rfl hne
  | @cons e v items vs hv htail ih =>
    obtain _ | n := n
    · simp at hn
    · cases htail with
      | nil =>
        rw [List.intercalate_singleton] at hn ⊢
        have hvalue := hv (93 :: rest) n (ends_cons (by decide) rest) (by omega)
        simp [elements, hvalue, token_of_ne (b := 93) (c := 44), token_self (c := 93), isSpace]
      | @cons e' v' items vs hv' htail =>
        rw [List.intercalate_cons_cons] at hn ⊢
        have hvalue := hv (44 :: ([44].intercalate (e' :: items) ++ 93 :: rest)) n (ends_cons (by decide) _)
          (by simp at hn ⊢; omega)
        have htail := ih (by simp) n (by simp at hn ⊢; omega)
        simp [elements, hvalue, htail, token_self (c := 44), isSpace]

/-- An array of values that read back. -/
theorem reads_array {items : List (List UInt8)} {vs : List Json} (h : List.Forall₂ Reads items vs) :
    Reads (writeArray items) (array vs) := by
  intro rest n _ hn
  obtain _ | n := n
  · simp at hn
  · cases h with
    | nil => simp [writeArray, value, token_self (c := 93), isSpace]
    | @cons e v items vs hv htail =>
      have helements := elements_of_reads (.cons hv htail) (by simp) rest n (by simp [writeArray] at hn ⊢; omega)
      have htoken : token 93 ([44].intercalate (e :: items) ++ 93 :: rest) = none := by
        by_contra hsome
        obtain ⟨rest', hrest'⟩ := Option.ne_none_iff_exists'.1 hsome
        obtain _ | n := n
        · cases helements
        · simp [elements, value_of_token hrest'] at helements
      simp [writeArray, value, htoken, helements, isSpace]

lemma members_of_reads {items : List (List UInt8)} {ms : List (List UInt8 × Json)}
    (h : List.Forall₂ ReadsMember items ms) (hne : items ≠ []) (rest : List UInt8) (n : Nat)
    (hn : 2 * ([44].intercalate items ++ 125 :: rest).length < n) :
    members n ([44].intercalate items ++ 125 :: rest) = some (ms, rest) := by
  induction h generalizing n with
  | nil => exact absurd rfl hne
  | @cons e m items ms hm htail ih =>
    obtain ⟨k, v, rfl, hk, hv⟩ := hm
    obtain _ | n := n
    · simp at hn
    · cases htail with
      | nil =>
        rw [List.intercalate_singleton] at hn ⊢
        have hname := hk _ _ _ (scans_quote (58 :: (v ++ 125 :: rest))) n
          (by simp [writeMember] at hn ⊢; omega)
        have hvalue := hv (125 :: rest) n (ends_cons (by decide) rest) (by simp [writeMember] at hn ⊢; omega)
        simp [writeMember, members, hname, hvalue, token_of_ne (b := 125) (c := 44), token_self (c := 125),
          token_self (c := 34), token_self (c := 58), isSpace]
      | @cons e' m' items ms hm' htail =>
        rw [List.intercalate_cons_cons] at hn ⊢
        have hname := hk _ _ _ (scans_quote (58 :: (v ++ 44 :: ([44].intercalate (e' :: items) ++ 125 :: rest)))) n
          (by simp [writeMember] at hn ⊢; omega)
        have hvalue := hv (44 :: ([44].intercalate (e' :: items) ++ 125 :: rest)) n (ends_cons (by decide) _)
          (by simp [writeMember] at hn ⊢; omega)
        have htail := ih (by simp) n (by simp [writeMember] at hn ⊢; omega)
        simp [writeMember, members, hname, hvalue, htail, token_self (c := 44), token_self (c := 34),
          token_self (c := 58), isSpace]

/-- An object whose members read back. -/
theorem reads_object {items : List (List UInt8)} {ms : List (List UInt8 × Json)}
    (h : List.Forall₂ ReadsMember items ms) : Reads (writeObject items) (object ms) := by
  intro rest n _ hn
  obtain _ | n := n
  · simp at hn
  · cases h with
    | nil => simp [writeObject, value, token_self (c := 125), isSpace]
    | @cons e m items ms hm htail =>
      have hmembers := members_of_reads (.cons hm htail) (by simp) rest n (by simp [writeObject] at hn ⊢; omega)
      have htoken : token 125 ([44].intercalate (e :: items) ++ 125 :: rest) = none := by
        obtain ⟨k, v, rfl, -⟩ := hm
        cases items with
        | nil => simp [writeMember, token_of_ne (b := 34) (c := 125), isSpace]
        | cons e' items => simp [writeMember, token_of_ne (b := 34) (c := 125), isSpace, List.intercalate_cons_cons]
      simp [writeObject, value, htoken, hmembers, isSpace]

/-! ### One value a line -/

/-- The lines of a text. What follows the last newline is none. -/
def lines (s : List UInt8) : List (List UInt8) := (s.splitOn 10).dropLast

lemma lines_of_flatMap {ls : List (List UInt8)} (h : ∀ l ∈ ls, 10 ∉ l) : lines (ls.flatMap (· ++ [10])) = ls := by
  have hlast : ls.flatMap (· ++ [10]) = [10].intercalate (ls ++ [[]]) := by
    clear h
    induction ls with
    | nil => rfl
    | cons l ls ih => cases ls <;> simp [ih, List.intercalate_cons_cons]
  have hnone : ∀ l ∈ ls ++ [[]], 10 ∉ l := by
    intro l hl
    rcases List.mem_append.mp hl with hl | hl
    · exact h l hl
    · rw [List.mem_singleton.mp hl]
      exact List.not_mem_nil
  rw [lines, hlast, List.splitOn_intercalate 10 hnone (by simp), List.dropLast_concat]

/-- The values of a text of one value a line. -/
def readLines (s : List UInt8) : Option (List Json) := (lines s).mapM parse

/-- What is written one value a line reads back. -/
theorem readLines_of_reads {α : Type*} {f : α → List UInt8} {v : α → Json} {items : List α}
    (h : ∀ a ∈ items, Reads (f a) (v a) ∧ 10 ∉ f a) :
    readLines (items.flatMap fun a => f a ++ [10]) = some (items.map v) := by
  have hlines : lines (items.flatMap fun a => f a ++ [10]) = items.map f := by
    rw [← List.flatMap_map f (· ++ [10])]
    refine lines_of_flatMap fun l hl => ?_
    obtain ⟨a, ha, rfl⟩ := List.mem_map.mp hl
    exact (h a ha).2
  have hvalues : (items.map f).mapM parse = some (items.map v) := by
    clear hlines
    induction items with
    | nil => rfl
    | cons a items ih =>
      have hparse := parse_of_reads (t := []) (h a List.mem_cons_self).1 rfl
      rw [List.append_nil] at hparse
      simp [List.mapM_cons, hparse, ih fun b hb => h b (List.mem_cons_of_mem a hb)]
  rw [readLines, hlines, hvalues]

end Json
