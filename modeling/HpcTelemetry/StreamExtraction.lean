/-
Formatted extraction from character streams (`std::istream` of C++11, in the
classic locale).

A stream is the text left to read and its two state bits.  `>>` skips white
space, gives the front of the text to a conversion, and stores what the
conversion returns, even if that is only a zero and the fail bit.

* `lines`, `lines_append` — the lines that `std::getline` reads;
* `IStream.extract` — `>>`, for any conversion;
* `word`, `unsigned`, `double` — the conversions to a string, to a 64-bit
  unsigned integer and to a number;
* `stoi` — `std::stoi`;
* `extractMany_columns` — the columns of a line are read one after the other.
-/
import Mathlib.Tactic

namespace StreamExtraction

/-! ### Lines -/

/-- The lines of a text.  A newline ends a line, and so does the end of the text
if the line is not empty. -/
def lines : List Char → List (List Char)
  | [] => []
  | c :: text =>
    if c = '\n' then [] :: lines text
    else
      match lines text with
      | [] => [[c]]
      | line :: rest => (c :: line) :: rest

/-- A line that is ended by a newline. -/
theorem lines_append {line : List Char} (h : '\n' ∉ line) (rest : List Char) :
    lines (line ++ '\n' :: rest) = line :: lines rest := by
  induction line with
  | nil => simp [lines]
  | cons c line ih =>
    rw [List.mem_cons, not_or] at h
    rw [List.cons_append, lines, if_neg (Ne.symm h.1), ih h.2]

/-- `isspace`. -/
def isSpace (c : Char) : Bool := c = ' ' ∨ '\t' ≤ c ∧ c ≤ '\r'

/-! ### Streams -/

structure IStream where
  rest : List Char
  eof : Bool := false
  fail : Bool := false
  deriving DecidableEq

/-- What a conversion makes of a text that does not start with white space: the
value it stores, whether it succeeds, and the text behind what it takes. -/
abbrev Conversion (α : Type*) := List Char → α × Bool × List Char

namespace IStream

/-- An `istringstream` on a string. -/
def ofText (text : List Char) : IStream := { rest := text }

/-- The sentry of `>>`: it skips white space, and sets the fail bit if the
stream is not good or comes to its end. -/
def sentry (s : IStream) : IStream :=
  if s.eof ∨ s.fail then { s with fail := true }
  else
    match s.rest.dropWhile isSpace with
    | [] => ⟨[], true, true⟩
    | c :: rest => ⟨c :: rest, false, false⟩

/-- `s >> x`: the value of `x` afterwards, and the stream.  If the sentry fails,
`x` keeps its old value. -/
def extract {α : Type*} (convert : Conversion α) (old : α) (s : IStream) : α × IStream :=
  if s.sentry.fail then (old, s.sentry)
  else
    let r := convert s.sentry.rest
    (r.1, ⟨r.2.2, r.2.2.isEmpty, !r.2.1⟩)

/-- `s >> x₁ >> ... >> xₙ` into variables that all hold `old`. -/
def extractMany {α : Type*} (convert : Conversion α) (old : α) : ℕ → IStream → List α × IStream
  | 0, s => ([], s)
  | n + 1, s =>
    let (x, s) := s.extract convert old
    let (xs, s) := s.extractMany convert old n
    (x :: xs, s)

end IStream

/-! ### Conversions -/

/-- Everything up to the next white space. -/
def word : Conversion (List Char) := fun s =>
  (s.takeWhile fun c => !isSpace c, true, s.dropWhile fun c => !isSpace c)

/-- An optional sign: whether it is a minus, and the text behind it. -/
def optionalSign : List Char → Bool × List Char
  | '+' :: s => (false, s)
  | '-' :: s => (true, s)
  | s => (false, s)

/-- The number a string of decimal digits stands for. -/
def decimal (digits : List Char) : ℕ :=
  digits.foldl (fun n c => 10 * n + (c.toNat - '0'.toNat)) 0

/-- To `unsigned long long`.  Without digits it stores zero and fails, and a
number that is too large is stored as the largest one and fails; a minus sign
negates modulo the width. -/
def unsigned : Conversion UInt64 := fun s =>
  let (negative, s) := optionalSign s
  let digits := s.takeWhile Char.isDigit
  let rest := s.dropWhile Char.isDigit
  if digits = [] then (0, false, rest)
  else if 2 ^ 64 ≤ decimal digits then (UInt64.ofNat (2 ^ 64 - 1), false, rest)
  else
    let n := UInt64.ofNat (decimal digits)
    (if negative then -n else n, true, rest)

/-- The largest `double`. -/
def doubleMax : ℚ := 2 ^ 1024 - 2 ^ 971

/-- What is stored for a number.  One that rounding takes to an infinity is stored
as the largest number of its sign, and the conversion fails. -/
def storeDouble (x : ℚ) : ℚ × Bool :=
  if 2 ^ 1024 - 2 ^ 970 ≤ |x| then (if x < 0 then -doubleMax else doubleMax, false)
  else (x, true)

/-- To `double`, as the number written there, without rounding: digits with an
optional point, and an optional exponent.  Without a digit in either of them it
stores zero and fails. -/
def double : Conversion ℚ := fun s =>
  let (negative, s) := optionalSign s
  let whole := s.takeWhile Char.isDigit
  let (fraction, s) : List Char × List Char :=
    match s.dropWhile Char.isDigit with
    | '.' :: s => (s.takeWhile Char.isDigit, s.dropWhile Char.isDigit)
    | s => ([], s)
  let mantissa : ℚ := decimal (whole ++ fraction) / 10 ^ fraction.length
  let signed (x : ℚ) : ℚ := if negative then -x else x
  if whole ++ fraction = [] then (0, false, s)
  else
    match s with
    | [] =>
      let (x, inRange) := storeDouble (signed mantissa)
      (x, inRange, s)
    | c :: t =>
      if c = 'e' ∨ c = 'E' then
        let (down, t) := optionalSign t
        let exponent := t.takeWhile Char.isDigit
        let rest := t.dropWhile Char.isDigit
        if exponent = [] then (0, false, rest)
        else
          let scale : ℚ := 10 ^ decimal exponent
          let (x, inRange) := storeDouble
            (signed (if down then mantissa / scale else mantissa * scale))
          (x, inRange, rest)
      else
        let (x, inRange) := storeDouble (signed mantissa)
        (x, inRange, s)

/-- `std::stoi`; `none` stands for the exceptions it throws when there are no
digits and when an `int` cannot hold the number.  What follows the digits is
ignored. -/
def stoi (s : List Char) : Option ℤ :=
  let (negative, s) := optionalSign (s.dropWhile isSpace)
  let digits := s.takeWhile Char.isDigit
  let value : ℤ := if negative then -(decimal digits : ℤ) else decimal digits
  if digits = [] ∨ value < -2 ^ 31 ∨ 2 ^ 31 ≤ value then none else some value

/-! ### Columns -/

/-- A column ends where the text does, or at white space. -/
def Ends (rest : List Char) : Prop := ∀ c ∈ rest.head?, isSpace c = true

theorem span_append {p : Char → Bool} {field rest : List Char} (hfield : ∀ c ∈ field, p c = true)
    (hrest : ∀ c ∈ rest.head?, p c = false) :
    (field ++ rest).takeWhile p = field ∧ (field ++ rest).dropWhile p = rest := by
  rw [List.takeWhile_append_of_pos hfield, List.dropWhile_append_of_pos hfield]
  cases rest with
  | nil => simp
  | cons c rest => simp [hrest c rfl]

/-- A conversion takes all of a column and nothing else. -/
structure Reads {α : Type*} (convert : Conversion α) (field : List Char) (x : α) : Prop where
  starts : ∀ c ∈ field.head?, isSpace c = false
  ne_nil : field ≠ []
  takes : ∀ rest, Ends rest → convert (field ++ rest) = (x, true, rest)

def IsWord (field : List Char) : Prop := field ≠ [] ∧ ∀ c ∈ field, isSpace c = false

/-- The decimal digits of a 64-bit number. -/
def IsDecimal (field : List Char) : Prop :=
  field ≠ [] ∧ (∀ c ∈ field, c.isDigit = true) ∧ decimal field < 2 ^ 64

theorem isDigit_eq_false {c : Char} (h : isSpace c = true) : c.isDigit = false := by
  have hlow : ∀ {d : Char}, d.val.toNat < 48 → d.isDigit = false := by
    intro d hd
    rw [Char.isDigit, Bool.and_eq_false_iff, decide_eq_false_iff_not]
    exact Or.inl fun hge => absurd (UInt32.le_iff_toNat_le.mp hge) (not_le.mpr hd)
  simp only [isSpace, decide_eq_true_eq] at h
  rcases h with rfl | ⟨_, hle⟩
  · decide
  · exact hlow (lt_of_le_of_lt (UInt32.le_iff_toNat_le.mp (Char.le_def.mp hle)) (by decide))

theorem optionalSign_digit {c : Char} (h : c.isDigit = true) (text : List Char) :
    optionalSign (c :: text) = (false, c :: text) := by
  have hplus : c ≠ '+' := by
    rintro rfl
    revert h
    decide
  have hminus : c ≠ '-' := by
    rintro rfl
    revert h
    decide
  simp [optionalSign, hplus, hminus]

theorem reads_word {field : List Char} (h : IsWord field) : Reads word field field where
  starts := fun c hc => h.2 c (List.mem_of_mem_head? hc)
  ne_nil := h.1
  takes := by
    intro rest hrest
    have hspan := @span_append (fun c => !isSpace c) field rest
      (fun c hc => by rw [h.2 c hc]; rfl) (fun c hc => by rw [hrest c hc]; rfl)
    rw [word, hspan.1, hspan.2]

theorem reads_unsigned {field : List Char} (h : IsDecimal field) :
    Reads unsigned field (UInt64.ofNat (decimal field)) where
  starts := by
    intro c hc
    rw [← Bool.not_eq_true]
    intro hspace
    have hdigit := h.2.1 c (List.mem_of_mem_head? hc)
    rw [isDigit_eq_false hspace] at hdigit
    cases hdigit
  ne_nil := h.1
  takes := by
    obtain ⟨hne, hdigits, hlt⟩ := h
    intro rest hrest
    have hspan := @span_append Char.isDigit field rest hdigits
      fun c hc => isDigit_eq_false (hrest c hc)
    have hsign : optionalSign (field ++ rest) = (false, field ++ rest) := by
      obtain ⟨c, text, rfl⟩ := List.exists_cons_of_ne_nil hne
      exact optionalSign_digit (hdigits c List.mem_cons_self) _
    simp only [unsigned, hsign, hspan.1, hspan.2, if_neg hne, if_neg (not_le.mpr hlt)]
    rfl

/-- A column, and the white space in front of it. -/
structure Column where
  blank : List Char
  field : List Char

/-- The text of some columns. -/
def columns (cols : List Column) : List Char := cols.flatMap fun c => c.blank ++ c.field

/-- The columns are set off from each other by white space. -/
structure SetOff (cols : List Column) : Prop where
  space : ∀ c ∈ cols, ∀ b ∈ c.blank, isSpace b = true
  apart : ∀ c ∈ cols.tail, c.blank ≠ []

/-- Between the columns, and behind the last of them, a column ends. -/
theorem SetOff.ends {cols : List Column} {rest : List Char} (h : SetOff cols)
    (hfirst : ∀ c ∈ cols.head?, c.blank ≠ []) (hrest : Ends rest) :
    Ends (columns cols ++ rest) := by
  cases cols with
  | nil => exact hrest
  | cons c cols =>
    obtain ⟨b, blank, hblank⟩ := List.exists_cons_of_ne_nil (hfirst c rfl)
    intro b' hb'
    rw [columns, List.flatMap_cons, hblank] at hb'
    obtain rfl := Option.some_inj.mp hb'
    exact h.space c List.mem_cons_self b (hblank ▸ List.mem_cons_self)

/-- What columns are followed by is set off from them, too. -/
theorem SetOff.append {c : Column} {cols cols' : List Column} (h : SetOff (c :: cols ++ cols')) :
    SetOff (c :: cols) ∧ SetOff cols' ∧ ∀ d ∈ cols'.head?, d.blank ≠ [] := by
  refine ⟨⟨fun d hd => ?_, fun d hd => ?_⟩, ⟨fun d hd => ?_, fun d hd => ?_⟩, fun d hd => ?_⟩
  · exact h.space d (List.mem_append_left _ hd)
  · exact h.apart d (List.mem_append_left _ hd)
  · exact h.space d (List.mem_append_right _ hd)
  · exact h.apart d (List.mem_append_right _ (List.mem_of_mem_tail hd))
  · exact h.apart d (List.mem_append_right _ (List.mem_of_mem_head? hd))

theorem isEmpty_columns {c : Column} {cols : List Column} {rest : List Char}
    (h : ∀ d ∈ (c :: cols).head?, d.blank ≠ []) :
    (columns (c :: cols) ++ rest).isEmpty = false := by
  obtain ⟨b, blank, hblank⟩ := List.exists_cons_of_ne_nil (h c rfl)
  rw [columns, List.flatMap_cons, hblank]
  rfl

namespace IStream

variable {α : Type*} {convert : Conversion α}

/-- The first column of a text is read. -/
theorem extract_column {c : Column} {x : α} (hx : Reads convert c.field x)
    (hblank : ∀ b ∈ c.blank, isSpace b = true) (old : α) {rest : List Char} (hrest : Ends rest) :
    (ofText (c.blank ++ c.field ++ rest)).extract convert old
      = (x, ⟨rest, rest.isEmpty, false⟩) := by
  have hsentry : (ofText (c.blank ++ c.field ++ rest)).sentry
      = ⟨c.field ++ rest, false, false⟩ := by
    obtain ⟨b, field, hfield⟩ := List.exists_cons_of_ne_nil hx.ne_nil
    have hspan := @span_append isSpace c.blank (c.field ++ rest) hblank fun b' hb' => by
      rw [hfield] at hb'
      obtain rfl := Option.some_inj.mp hb'
      exact hx.starts b (by rw [hfield]; rfl)
    rw [List.append_assoc, sentry, if_neg (by simp [ofText])]
    simp only [ofText, hspan.2]
    rw [hfield]
    rfl
  rw [extract, hsentry]
  simp only [hx.takes rest hrest]
  rfl

/-- The columns are read one after the other. -/
theorem extractMany_columns {c : Column} {cols : List Column} {xs : List α}
    (hx : List.Forall₂ (fun c x => Reads convert c.field x) (c :: cols) xs)
    (hoff : SetOff (c :: cols)) (old : α) {rest : List Char} (hrest : Ends rest) :
    (ofText (columns (c :: cols) ++ rest)).extractMany convert old (c :: cols).length
      = (xs, ⟨rest, rest.isEmpty, false⟩) := by
  induction cols generalizing c xs with
  | nil =>
    obtain ⟨x, _, hread, hnil, rfl⟩ := List.forall₂_cons_left_iff.mp hx
    obtain rfl := List.forall₂_nil_left_iff.mp hnil
    have hfirst := extract_column hread (hoff.space c List.mem_cons_self) old hrest
    have htext : columns [c] = c.blank ++ c.field := List.append_nil _
    rw [List.length_singleton, extractMany, htext, hfirst]
    rfl
  | cons d cols ih =>
    obtain ⟨x, xs, hread, hxs, rfl⟩ := List.forall₂_cons_left_iff.mp hx
    obtain ⟨_, hoff', hblank⟩ := @SetOff.append c [] (d :: cols) hoff
    have hends := hoff'.ends hblank hrest
    have htext : columns (c :: d :: cols) ++ rest
        = c.blank ++ c.field ++ (columns (d :: cols) ++ rest) := List.append_assoc _ _ _
    rw [List.length_cons, extractMany, htext,
      extract_column hread (hoff.space c List.mem_cons_self) old hends, isEmpty_columns hblank]
    simp only
    rw [show (⟨columns (d :: cols) ++ rest, false, false⟩ : IStream)
      = ofText (columns (d :: cols) ++ rest) from rfl, ih hxs hoff']

end IStream

end StreamExtraction
