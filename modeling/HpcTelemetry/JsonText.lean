/-
JSON texts (RFC 8259).

A recursive descent parser on lists of characters.  Each part of the grammar is
a function that returns what it has read and the text that follows.

* `parse` — the value of a text;
* `stringBody` — a string, up to its closing quote; control characters must be
  escaped;
* `number_append` — a number is read the same whatever follows it, if that starts
  with no character of numbers;
* `value_number`, `value_string` — values that are numbers and strings;
* `members_comma`, `members_close` — reading an object member by member.
-/
import Mathlib.Data.List.TakeWhile
import Mathlib.Tactic

namespace JsonText

/-- Numbers are kept as they are written. -/
inductive Json where
  | null
  | bool (b : Bool)
  | num (literal : List Char)
  | str (s : List Char)
  | arr (items : List Json)
  | obj (members : List (List Char × Json))

/-! ### White space and strings -/

def isWs (c : Char) : Bool := c = ' ' ∨ c = '\t' ∨ c = '\n' ∨ c = '\r'

def skipWs (s : List Char) : List Char := s.dropWhile isWs

/-- The value of a hexadecimal digit. -/
def hexDigit (c : Char) : Option ℕ :=
  if c.isDigit then some (c.toNat - '0'.toNat)
  else if 'a' ≤ c ∧ c ≤ 'f' then some (c.toNat - 'a'.toNat + 10)
  else if 'A' ≤ c ∧ c ≤ 'F' then some (c.toNat - 'A'.toNat + 10)
  else none

/-- The four digits behind `\u`. -/
def codeUnit (a b c d : Char) : Option ℕ := do
  let a ← hexDigit a
  let b ← hexDigit b
  let c ← hexDigit c
  let d ← hexDigit d
  return ((a * 16 + b) * 16 + c) * 16 + d

/-- The character that a letter behind a backslash stands for. -/
def simpleEscape (c : Char) : Option Char :=
  if c = '"' then some '"'
  else if c = '\\' then some '\\'
  else if c = '/' then some '/'
  else if c = 'b' then some (Char.ofNat 8)
  else if c = 'f' then some (Char.ofNat 12)
  else if c = 'n' then some '\n'
  else if c = 'r' then some '\r'
  else if c = 't' then some '\t'
  else none

/-- A string behind its opening quote: its characters, and the text behind the
closing quote.  A surrogate stands for a character only as one of a pair. -/
def stringBody : List Char → Option (List Char × List Char)
  | [] => none
  | '\\' :: 'u' :: a :: b :: c :: d :: rest =>
    match codeUnit a b c d with
    | none => none
    | some high =>
      if high < 0xD800 ∨ 0xDFFF < high then
        (stringBody rest).map fun r => (Char.ofNat high :: r.1, r.2)
      else
        match rest with
        | '\\' :: 'u' :: a' :: b' :: c' :: d' :: rest =>
          match codeUnit a' b' c' d' with
          | none => none
          | some low =>
            if high ≤ 0xDBFF ∧ 0xDC00 ≤ low ∧ low ≤ 0xDFFF then
              (stringBody rest).map fun r =>
                (Char.ofNat (0x10000 + (high - 0xD800) * 0x400 + (low - 0xDC00)) :: r.1, r.2)
            else none
        | _ => none
  | c :: rest =>
    if c = '"' then some ([], rest)
    else if c = '\\' then
      match rest with
      | [] => none
      | e :: rest =>
        match simpleEscape e with
        | none => none
        | some c => (stringBody rest).map fun r => (c :: r.1, r.2)
    else if c.toNat < 0x20 then none
    else (stringBody rest).map fun r => (c :: r.1, r.2)

/-! ### Numbers -/

def minusPart : List Char → Option (List Char × List Char)
  | '-' :: s => some (['-'], s)
  | s => some ([], s)

/-- The digits in front of the point; a leading zero stands alone. -/
def intPart (s : List Char) : Option (List Char × List Char) :=
  let digits := s.takeWhile Char.isDigit
  if digits = [] ∨ (digits.head? = some '0' ∧ digits ≠ ['0']) then none
  else some (digits, s.dropWhile Char.isDigit)

/-- One digit or more. -/
def digitsPart (s : List Char) : Option (List Char × List Char) :=
  if s.takeWhile Char.isDigit = [] then none
  else some (s.takeWhile Char.isDigit, s.dropWhile Char.isDigit)

def fracPart : List Char → Option (List Char × List Char)
  | '.' :: s => (digitsPart s).map fun r => ('.' :: r.1, r.2)
  | s => some ([], s)

def signPart : List Char → List Char × List Char
  | '+' :: s => (['+'], s)
  | '-' :: s => (['-'], s)
  | s => ([], s)

def expPart : List Char → Option (List Char × List Char)
  | [] => some ([], [])
  | c :: s =>
    if c = 'e' ∨ c = 'E' then
      (digitsPart (signPart s).2).map fun r => (c :: (signPart s).1 ++ r.1, r.2)
    else some ([], c :: s)

/-- A number, as it is written. -/
def number (s : List Char) : Option (List Char × List Char) := do
  let (minus, s) ← minusPart s
  let (int, s) ← intPart s
  let (frac, s) ← fracPart s
  let (exp, s) ← expPart s
  return (minus ++ int ++ frac ++ exp, s)

/-! ### Values -/

mutual

/-- A value, with white space in front of it. -/
def value : ℕ → List Char → Option (Json × List Char)
  | 0, _ => none
  | fuel + 1, s =>
    match skipWs s with
    | [] => none
    | c :: rest =>
      if c = '{' then
        match skipWs rest with
        | '}' :: rest => some (.obj [], rest)
        | rest => (members fuel rest).map fun r => (.obj r.1, r.2)
      else if c = '[' then
        match skipWs rest with
        | ']' :: rest => some (.arr [], rest)
        | rest => (elements fuel rest).map fun r => (.arr r.1, r.2)
      else if c = '"' then (stringBody rest).map fun r => (.str r.1, r.2)
      else if c = 't' then
        match rest with
        | 'r' :: 'u' :: 'e' :: rest => some (.bool true, rest)
        | _ => none
      else if c = 'f' then
        match rest with
        | 'a' :: 'l' :: 's' :: 'e' :: rest => some (.bool false, rest)
        | _ => none
      else if c = 'n' then
        match rest with
        | 'u' :: 'l' :: 'l' :: rest => some (.null, rest)
        | _ => none
      else (number (c :: rest)).map fun r => (.num r.1, r.2)

/-- The elements of an array that is not empty, up to its closing bracket. -/
def elements : ℕ → List Char → Option (List Json × List Char)
  | 0, _ => none
  | fuel + 1, s =>
    match value fuel s with
    | none => none
    | some (v, rest) =>
      match skipWs rest with
      | ',' :: rest => (elements fuel rest).map fun r => (v :: r.1, r.2)
      | ']' :: rest => some ([v], rest)
      | _ => none

/-- The members of an object that is not empty, up to its closing bracket. -/
def members : ℕ → List Char → Option (List (List Char × Json) × List Char)
  | 0, _ => none
  | fuel + 1, s =>
    match skipWs s with
    | '"' :: rest =>
      match stringBody rest with
      | none => none
      | some (key, rest) =>
        match skipWs rest with
        | ':' :: rest =>
          match value fuel rest with
          | none => none
          | some (v, rest) =>
            match skipWs rest with
            | ',' :: rest => (members fuel rest).map fun r => ((key, v) :: r.1, r.2)
            | '}' :: rest => some ([(key, v)], rest)
            | _ => none
        | _ => none
    | _ => none

end

/-- The value of a text.  Each pair of brackets takes two units of fuel and each
comma one, so the length of the text is enough. -/
def parse (text : List Char) : Option Json :=
  match value (text.length + 1) text with
  | none => none
  | some (v, rest) => if skipWs rest = [] then some v else none

/-! ### Reading strings -/

/-- What does not start with an escape of six characters is read one item at a
time. -/
theorem stringBody_eq {c : Char} {rest : List Char}
    (h : ¬ (c = '\\' ∧ ∃ rest', rest = 'u' :: rest')) :
    stringBody (c :: rest) =
      if c = '"' then some ([], rest)
      else if c = '\\' then
        match rest with
        | [] => none
        | e :: rest =>
          match simpleEscape e with
          | none => none
          | some c => (stringBody rest).map fun r => (c :: r.1, r.2)
      else if c.toNat < 0x20 then none
      else (stringBody rest).map fun r => (c :: r.1, r.2) := by
  rw [stringBody.eq_def]
  split
  · contradiction
  · next hcons =>
    injection hcons with hc hrest
    exact absurd ⟨hc, _, hrest⟩ h
  · next hcons =>
    injection hcons with hc hrest
    subst hc hrest
    rfl

theorem stringBody_quote (rest : List Char) : stringBody ('"' :: rest) = some ([], rest) := by
  rw [stringBody_eq (by simp), if_pos rfl]

/-- A character that needs no escape stands for itself, and a control character
is refused. -/
theorem stringBody_cons {c : Char} (hquote : c ≠ '"') (hbackslash : c ≠ '\\') (rest : List Char) :
    stringBody (c :: rest) =
      if c.toNat < 0x20 then none else (stringBody rest).map fun r => (c :: r.1, r.2) := by
  rw [stringBody_eq (by simp [hbackslash]), if_neg hquote, if_neg hbackslash]

/-- An escape of two characters. -/
theorem stringBody_escape {e c : Char} (he : simpleEscape e = some c) (rest : List Char) :
    stringBody ('\\' :: e :: rest) = (stringBody rest).map fun r => (c :: r.1, r.2) := by
  have hu : e ≠ 'u' := by
    rintro rfl
    simp [simpleEscape] at he
  rw [stringBody_eq (by simp [hu]), if_neg (by decide), if_pos rfl]
  simp only [he]

/-! ### Reading numbers -/

/-- The characters of which numbers are made. -/
def numberChar (c : Char) : Bool := c.isDigit ∨ c ∈ ['-', '+', '.', 'e', 'E']

section Ends

-- `c` ends a number, whatever follows
variable {c : Char} (hc : numberChar c = false) (t : List Char)

include hc

theorem not_isDigit_of_ends : c.isDigit = false := by
  simp only [numberChar, decide_eq_false_iff_not, not_or] at hc
  exact Bool.eq_false_of_not_eq_true hc.1

theorem digits_append (s : List Char) :
    (s ++ c :: t).takeWhile Char.isDigit = s.takeWhile Char.isDigit ∧
      (s ++ c :: t).dropWhile Char.isDigit = s.dropWhile Char.isDigit ++ c :: t := by
  induction s with
  | nil => simp [not_isDigit_of_ends hc]
  | cons x s ih =>
    rw [List.cons_append, List.takeWhile_cons, List.takeWhile_cons, List.dropWhile_cons,
      List.dropWhile_cons]
    by_cases hx : x.isDigit = true
    · simp [hx, ih]
    · simp [hx]

theorem minusPart_append (s : List Char) :
    minusPart (s ++ c :: t) = (minusPart s).map fun r => (r.1, r.2 ++ c :: t) := by
  have hminus : c ≠ '-' := by
    rintro rfl
    simp [numberChar] at hc
  cases s with
  | nil => simp [minusPart, hminus]
  | cons x s =>
    by_cases hx : x = '-'
    · simp [minusPart, hx]
    · simp [minusPart, hx]

theorem intPart_append (s : List Char) :
    intPart (s ++ c :: t) = (intPart s).map fun r => (r.1, r.2 ++ c :: t) := by
  obtain ⟨htake, hdrop⟩ := digits_append hc t s
  simp only [intPart, htake, hdrop]
  split_ifs
  · rfl
  · rfl

theorem digitsPart_append (s : List Char) :
    digitsPart (s ++ c :: t) = (digitsPart s).map fun r => (r.1, r.2 ++ c :: t) := by
  obtain ⟨htake, hdrop⟩ := digits_append hc t s
  simp only [digitsPart, htake, hdrop]
  split_ifs
  · rfl
  · rfl

theorem fracPart_append (s : List Char) :
    fracPart (s ++ c :: t) = (fracPart s).map fun r => (r.1, r.2 ++ c :: t) := by
  have hpoint : c ≠ '.' := by
    rintro rfl
    simp [numberChar] at hc
  cases s with
  | nil => simp [fracPart, hpoint]
  | cons x s =>
    by_cases hx : x = '.'
    · simp [fracPart, hx, digitsPart_append hc t s, Function.comp_def]
    · simp [fracPart, hx]

theorem expPart_append (s : List Char) :
    expPart (s ++ c :: t) = (expPart s).map fun r => (r.1, r.2 ++ c :: t) := by
  have he : c ≠ 'e' ∧ c ≠ 'E' ∧ c ≠ '+' ∧ c ≠ '-' := by
    refine ⟨?_, ?_, ?_, ?_⟩
    all_goals
      rintro rfl
      simp [numberChar] at hc
  have hsign : ∀ s, signPart (s ++ c :: t) = ((signPart s).1, (signPart s).2 ++ c :: t) := by
    intro s
    cases s with
    | nil => simp [signPart, he]
    | cons x s =>
      by_cases hplus : x = '+'
      · simp [signPart, hplus]
      · by_cases hminus : x = '-'
        · simp [signPart, hminus]
        · simp [signPart, hplus, hminus]
  cases s with
  | nil => simp [expPart, he]
  | cons x s =>
    rw [List.cons_append, expPart, expPart]
    split_ifs
    · simp [hsign, digitsPart_append hc, Function.comp_def]
    · simp

/-- A number is read the same in front of a character that ends it. -/
theorem number_append (s : List Char) :
    number (s ++ c :: t) = (number s).map fun r => (r.1, r.2 ++ c :: t) := by
  rw [number, number, minusPart_append hc]
  cases minusPart s with
  | none => rfl
  | some m =>
    simp only [Option.map_some, Option.bind_eq_bind, Option.bind_some, intPart_append hc]
    cases intPart m.2 with
    | none => rfl
    | some i =>
      simp only [Option.map_some, Option.bind_some, fracPart_append hc]
      cases fracPart i.2 with
      | none => rfl
      | some f =>
        simp only [Option.map_some, Option.bind_some, expPart_append hc]
        cases expPart f.2 with
        | none => rfl
        | some e => rfl

end Ends

theorem numberChar_of_mem_takeWhile {s : List Char} {c : Char}
    (h : c ∈ s.takeWhile Char.isDigit) : numberChar c := by
  have hdigit : c.isDigit = true := List.mem_takeWhile_imp h
  simp [numberChar, hdigit]

theorem numberChar_of_digitsPart {s : List Char} {r : List Char × List Char}
    (h : digitsPart s = some r) : ∀ c ∈ r.1, numberChar c := by
  rw [digitsPart, Option.ite_none_left_eq_some, Option.some_inj] at h
  obtain ⟨_, rfl⟩ := h
  exact fun c hc => numberChar_of_mem_takeWhile hc

theorem numberChar_of_minusPart {s : List Char} {r : List Char × List Char}
    (h : minusPart s = some r) : ∀ c ∈ r.1, numberChar c := by
  cases s with
  | nil => simp [← Option.some_inj.mp h]
  | cons x s =>
    by_cases hx : x = '-'
    · simp [minusPart, hx] at h
      simp [← h, numberChar]
    · simp [minusPart, hx] at h
      simp [← h]

theorem numberChar_of_intPart {s : List Char} {r : List Char × List Char}
    (h : intPart s = some r) : ∀ c ∈ r.1, numberChar c := by
  simp only [intPart, Option.ite_none_left_eq_some, Option.some_inj] at h
  obtain ⟨_, rfl⟩ := h
  exact fun c hc => numberChar_of_mem_takeWhile hc

theorem numberChar_of_fracPart {s : List Char} {r : List Char × List Char}
    (h : fracPart s = some r) : ∀ c ∈ r.1, numberChar c := by
  cases s with
  | nil => simp [← Option.some_inj.mp h]
  | cons x s =>
    by_cases hx : x = '.'
    · rw [hx, fracPart, Option.map_eq_some_iff] at h
      obtain ⟨r', hr', rfl⟩ := h
      intro c hc
      rcases List.mem_cons.mp hc with rfl | hc
      · decide
      · exact numberChar_of_digitsPart hr' c hc
    · simp [fracPart, hx] at h
      simp [← h]

theorem numberChar_of_signPart (s : List Char) : ∀ c ∈ (signPart s).1, numberChar c := by
  cases s with
  | nil => simp [signPart]
  | cons x s =>
    by_cases hplus : x = '+'
    · simp [signPart, hplus, numberChar]
    · by_cases hminus : x = '-'
      · simp [signPart, hminus, numberChar]
      · simp [signPart, hplus, hminus]

theorem numberChar_of_expPart {s : List Char} {r : List Char × List Char}
    (h : expPart s = some r) : ∀ c ∈ r.1, numberChar c := by
  cases s with
  | nil => simp [← Option.some_inj.mp h]
  | cons x s =>
    rw [expPart] at h
    split_ifs at h with hx
    · obtain ⟨r', hr', rfl⟩ := Option.map_eq_some_iff.mp h
      intro c hc
      rcases List.mem_append.mp hc with hc | hc
      · rcases List.mem_cons.mp hc with rfl | hc
        · simp [numberChar, hx]
        · exact numberChar_of_signPart s c hc
      · exact numberChar_of_digitsPart hr' c hc
    · simp [← Option.some_inj.mp h]

theorem numberChar_of_number {s : List Char} {r : List Char × List Char} (h : number s = some r) :
    ∀ c ∈ r.1, numberChar c := by
  simp only [number, Option.bind_eq_bind, Option.bind_eq_some_iff, Option.pure_def,
    Option.some_inj] at h
  obtain ⟨m, hm, i, hi, f, hf, e, he, rfl⟩ := h
  intro c hc
  rw [List.mem_append, List.mem_append, List.mem_append] at hc
  rcases hc with ((hc | hc) | hc) | hc
  · exact numberChar_of_minusPart hm c hc
  · exact numberChar_of_intPart hi c hc
  · exact numberChar_of_fracPart hf c hc
  · exact numberChar_of_expPart he c hc

/-! ### Reading values -/

/-- `n` is a number as a whole. -/
def IsNumber (n : List Char) : Prop := number n = some (n, [])

instance (n : List Char) : Decidable (IsNumber n) :=
  inferInstanceAs (Decidable (number n = some (n, [])))

/-- A number starts with a minus sign or a digit. -/
theorem exists_head_of_number {s : List Char} {r : List Char × List Char} (h : number s = some r) :
    ∃ c s', s = c :: s' ∧ (c = '-' ∨ c.isDigit) := by
  cases s with
  | nil => simp [number, minusPart, intPart] at h
  | cons c s =>
    refine ⟨c, s, rfl, ?_⟩
    by_contra hc
    rw [not_or] at hc
    simp [number, minusPart, intPart, hc] at h

theorem skipWs_cons {c : Char} (h : isWs c = false) (rest : List Char) :
    skipWs (c :: rest) = c :: rest := by
  rw [skipWs, List.dropWhile_cons_of_neg]
  rw [h]
  exact Bool.false_ne_true

theorem value_string (fuel : ℕ) (rest : List Char) :
    value (fuel + 1) ('"' :: rest) = (stringBody rest).map fun r => (.str r.1, r.2) := by
  rw [value, skipWs_cons (by decide)]
  rfl

/-- Neither a minus sign nor a digit starts anything else. -/
theorem not_other_of_number_head {d : Char} (hd : d = '-' ∨ d.isDigit) :
    isWs d = false ∧ ∀ x ∈ ['{', '[', ']', '"', 't', 'f', 'n'], d ≠ x := by
  constructor
  · rcases hd with rfl | hd
    · decide
    · simp only [isWs, decide_eq_false_iff_not]
      rintro (rfl | rfl | rfl | rfl)
      all_goals exact absurd hd (by decide)
  · rcases hd with rfl | hd
    · simp
    · have hnone : ['{', '[', ']', '"', 't', 'f', 'n'].all (fun x => !x.isDigit) = true := by
        decide
      intro x hx heq
      have hx' := List.all_eq_true.mp hnone x hx
      rw [← heq, hd] at hx'
      exact Bool.false_ne_true hx'

/-- What starts with a minus sign or a digit is read as a number. -/
theorem value_of_number_head {d : Char} (hd : d = '-' ∨ d.isDigit) (fuel : ℕ) (s : List Char) :
    value (fuel + 1) (d :: s) = (number (d :: s)).map fun r => (.num r.1, r.2) := by
  obtain ⟨hws, hother⟩ := not_other_of_number_head hd
  rw [value, skipWs_cons hws]
  simp only [if_neg (hother '{' (by decide)), if_neg (hother '[' (by decide)),
    if_neg (hother '"' (by decide)), if_neg (hother 't' (by decide)),
    if_neg (hother 'f' (by decide)), if_neg (hother 'n' (by decide))]

theorem value_number (fuel : ℕ) {n : List Char} (hn : IsNumber n) {c : Char}
    (hc : numberChar c = false) (t : List Char) :
    value (fuel + 1) (n ++ c :: t) = some (.num n, c :: t) := by
  obtain ⟨d, n', hcons, hd⟩ := exists_head_of_number hn
  have hread : number (d :: (n' ++ c :: t)) = some (n, c :: t) := by
    rw [← List.cons_append, ← hcons, number_append hc, hn]
    rfl
  rw [hcons, List.cons_append, value_of_number_head hd, hread, Option.map_some, ← hcons]

/-- A number at the end of the text. -/
theorem value_number_end (fuel : ℕ) {n : List Char} (hn : IsNumber n) :
    value (fuel + 1) n = some (.num n, []) := by
  obtain ⟨d, n', hcons, hd⟩ := exists_head_of_number hn
  have hread : number (d :: n') = some (n, []) := by
    rw [← hcons]
    exact hn
  rw [hcons, value_of_number_head hd, hread, Option.map_some, ← hcons]

/-! ### Reading objects -/

/-- Between quotes this is read as the string `s`. -/
def ReadsAs (body s : List Char) : Prop := ∀ rest, stringBody (body ++ '"' :: rest) = some (s, rest)

/-- Between quotes this is not a string. -/
def Refused (body : List Char) : Prop := ∀ rest, stringBody (body ++ '"' :: rest) = none

variable {fuel : ℕ} {keyBody key vtext : List Char} {v : Json} {rest : List Char}

/-- A member that is followed by another one. -/
theorem members_comma (hkey : ReadsAs keyBody key) (hv : value fuel vtext = some (v, ',' :: rest)) :
    members (fuel + 1) ('"' :: (keyBody ++ '"' :: ':' :: vtext))
      = (members fuel rest).map fun r => ((key, v) :: r.1, r.2) := by
  rw [members, skipWs_cons (by decide)]
  simp only [hkey _, skipWs_cons (show isWs ':' = false by decide), hv,
    skipWs_cons (show isWs ',' = false by decide)]

/-- The last member. -/
theorem members_close (hkey : ReadsAs keyBody key) (hv : value fuel vtext = some (v, '}' :: rest)) :
    members (fuel + 1) ('"' :: (keyBody ++ '"' :: ':' :: vtext)) = some ([(key, v)], rest) := by
  rw [members, skipWs_cons (by decide)]
  simp only [hkey _, skipWs_cons (show isWs ':' = false by decide), hv,
    skipWs_cons (show isWs '}' = false by decide)]

/-- A member without a value. -/
theorem members_none (hkey : ReadsAs keyBody key) (hv : value fuel vtext = none) :
    members (fuel + 1) ('"' :: (keyBody ++ '"' :: ':' :: vtext)) = none := by
  rw [members, skipWs_cons (by decide)]
  simp only [hkey _, skipWs_cons (show isWs ':' = false by decide), hv]

theorem value_of_readsAs {body s : List Char} (h : ReadsAs body s) (rest : List Char) :
    value (fuel + 1) ('"' :: (body ++ '"' :: rest)) = some (.str s, rest) := by
  rw [value_string, h rest]
  rfl

theorem value_of_refused {body : List Char} (h : Refused body) (rest : List Char) :
    value (fuel + 1) ('"' :: (body ++ '"' :: rest)) = none := by
  rw [value_string, h rest]
  rfl

/-- An object that is not empty. -/
theorem value_object (rest : List Char) :
    value (fuel + 1) ('{' :: '"' :: rest)
      = (members fuel ('"' :: rest)).map fun r => (.obj r.1, r.2) := by
  rw [value, skipWs_cons (by decide)]
  simp only [skipWs_cons (show isWs '"' = false by decide), if_pos]
  rfl

end JsonText
