/-
Python's `json.dumps`.

The encoder with `ensure_ascii`, as it is by default: every character outside
ASCII, and every control character, is written as an escape, by a pair of
surrogates if it needs one.  `indent` and `sort_keys` are as given.

* `dumps` — the text;
* `readsAs_escape` — a string is read back, whatever its characters are;
* `parse_dumps` — a value is read back, up to the order of its members;
* `parse_beginning`, `parse_written` — a beginning of the text of an object is not
  read;
* `ascii_dumps` — without `indent` the text is one line of printable ASCII;
* `intLiteral` — the number an integer is written as.
-/
import HpcTelemetry.JsonPrefix
import Mathlib.Data.List.Sort
import Mathlib.Data.String.Basic

namespace JsonText

/-! ### Strings -/

/-- A lower case hexadecimal digit. -/
def hexChar (n : ℕ) : Char :=
  if n < 10 then Char.ofNat ('0'.toNat + n) else Char.ofNat ('a'.toNat + (n - 10))

/-- `'\\u{0:04x}'.format(n)`. -/
def unicodeEscape (n : ℕ) : List Char :=
  ['\\', 'u', hexChar (n / 0x1000 % 16), hexChar (n / 0x100 % 16), hexChar (n / 0x10 % 16),
    hexChar (n % 16)]

/-- The replacement of one character in `py_encode_basestring_ascii`. -/
def escapeChar (c : Char) : List Char :=
  if c = '\\' then ['\\', '\\']
  else if c = '"' then ['\\', '"']
  else if c = Char.ofNat 8 then ['\\', 'b']
  else if c = Char.ofNat 12 then ['\\', 'f']
  else if c = '\n' then ['\\', 'n']
  else if c = '\r' then ['\\', 'r']
  else if c = '\t' then ['\\', 't']
  else if 0x20 ≤ c.toNat ∧ c.toNat ≤ 0x7E then [c]
  else if c.toNat < 0x10000 then unicodeEscape c.toNat
  else
    unicodeEscape (0xD800 + (c.toNat - 0x10000) / 0x400 % 0x400)
      ++ unicodeEscape (0xDC00 + (c.toNat - 0x10000) % 0x400)

def escape (s : List Char) : List Char := s.flatMap escapeChar

/-- `encode_basestring_ascii`. -/
def encodeString (s : List Char) : List Char := '"' :: (escape s ++ ['"'])

/-! ### Values -/

/-- The order of the members of an object, which `sort_keys` changes. -/
def sortMembers (members : List (List Char × Json)) : List (List Char × Json) :=
  members.insertionSort fun m m' => m.1 ≤ m'.1

mutual

/-- Every object with its members in the order of their keys. -/
def sorted : Json → Json
  | .null => .null
  | .bool b => .bool b
  | .num literal => .num literal
  | .str s => .str s
  | .arr items => .arr (sortedItems items)
  | .obj members => .obj (sortMembers (sortedValues members))

def sortedItems : List Json → List Json
  | [] => []
  | v :: vs => sorted v :: sortedItems vs

def sortedValues : List (List Char × Json) → List (List Char × Json)
  | [] => []
  | (key, v) :: ms => (key, sorted v) :: sortedValues ms

end

/-- A new line, and `level` times the indentation. -/
def newlineIndent (indent : Option ℕ) (level : ℕ) : List Char :=
  match indent with
  | none => []
  | some n => '\n' :: List.replicate (n * level) ' '

/-- The separator of items; the blank is left out before a new line. -/
def itemSeparator (indent : Option ℕ) (level : ℕ) : List Char :=
  match indent with
  | none => [',', ' ']
  | some _ => ',' :: newlineIndent indent level

mutual

/-- `_iterencode` at a level of indentation. -/
def encode (indent : Option ℕ) (level : ℕ) : Json → List Char
  | .null => "null".toList
  | .bool b => if b then "true".toList else "false".toList
  | .num literal => literal
  | .str s => encodeString s
  | .arr items =>
    if items.isEmpty then ['[', ']']
    else '[' :: (newlineIndent indent (level + 1) ++ (encodeItems indent (level + 1) items ++
      (newlineIndent indent level ++ [']'])))
  | .obj members =>
    if members.isEmpty then ['\x7b', '\x7d']
    else '\x7b' :: (newlineIndent indent (level + 1) ++ (encodeMembers indent (level + 1) members ++
      (newlineIndent indent level ++ ['\x7d'])))

/-- `_iterencode_list` between the brackets. -/
def encodeItems (indent : Option ℕ) (level : ℕ) : List Json → List Char
  | [] => []
  | v :: vs => encode indent level v ++
      if vs.isEmpty then [] else itemSeparator indent level ++ encodeItems indent level vs

/-- `_iterencode_dict` between the brackets. -/
def encodeMembers (indent : Option ℕ) (level : ℕ) : List (List Char × Json) → List Char
  | [] => []
  | (key, v) :: ms => encodeString key ++ ([':', ' '] ++ (encode indent level v ++
      if ms.isEmpty then [] else itemSeparator indent level ++ encodeMembers indent level ms))

end

section Equations

variable (indent : Option ℕ) (level : ℕ)

theorem encode_null : encode indent level .null = "null".toList := rfl

theorem encode_bool (b : Bool) :
    encode indent level (.bool b) = if b then "true".toList else "false".toList := rfl

theorem encode_num (literal : List Char) : encode indent level (.num literal) = literal := rfl

theorem encode_str (s : List Char) : encode indent level (.str s) = encodeString s := rfl

theorem encode_arr (items : List Json) : encode indent level (.arr items) =
    if items.isEmpty then ['[', ']']
    else '[' :: (newlineIndent indent (level + 1) ++ (encodeItems indent (level + 1) items ++
      (newlineIndent indent level ++ [']']))) := rfl

theorem encode_obj (members : List (List Char × Json)) : encode indent level (.obj members) =
    if members.isEmpty then ['\x7b', '\x7d']
    else '\x7b' :: (newlineIndent indent (level + 1) ++ (encodeMembers indent (level + 1) members ++
      (newlineIndent indent level ++ ['\x7d']))) := rfl

end Equations

/-- `json.dumps`. -/
def dumps (indent : Option ℕ) (sortKeys : Bool) (v : Json) : List Char :=
  encode indent 0 (if sortKeys then sorted v else v)

example : dumps none true (.obj [("b".toList, .arr [.num ['1'], .null]), ("a".toList, .str ['é'])])
    = "\x7b\"a\": \"\\u00e9\", \"b\": [1, null]\x7d".toList := by
  repeat rw [String.toList_ofList]
  decide

/-! ### Strings are read back -/

theorem hexDigit_hexChar {n : ℕ} (h : n < 16) : hexDigit (hexChar n) = some n := by
  have hall : ∀ n < 16, hexDigit (hexChar n) = some n := by decide
  exact hall n h

theorem codeUnit_hexChar {n : ℕ} (h : n < 0x10000) :
    codeUnit (hexChar (n / 0x1000 % 16)) (hexChar (n / 0x100 % 16)) (hexChar (n / 0x10 % 16))
      (hexChar (n % 16)) = some n := by
  have hdigit : ∀ m, hexDigit (hexChar (m % 16)) = some (m % 16) :=
    fun m => hexDigit_hexChar (Nat.mod_lt m (by omega))
  simp only [codeUnit, hdigit, Option.bind_eq_bind, Option.bind_some, Option.pure_def,
    Option.some_inj]
  omega

theorem toNat_of_char (c : Char) :
    c.toNat < 0xD800 ∨ 0xDFFF < c.toNat ∧ c.toNat < 0x110000 := c.valid

/-- This character is read from the text. -/
def ReadFrom (c : Char) (w : List Char) : Prop :=
  ∀ rest, stringBody (w ++ rest) = (stringBody rest).map fun r => (c :: r.1, r.2)

theorem readFrom_short {c e : Char} (h : simpleEscape e = some c) : ReadFrom c ['\\', e] :=
  fun rest => stringBody_escape h rest

theorem readFrom_unicodeEscape {c : Char} (h : c.toNat < 0x10000) :
    ReadFrom c (unicodeEscape c.toNat) := by
  intro rest
  have hchar := toNat_of_char c
  rw [unicodeEscape, List.cons_append, List.cons_append, List.cons_append, List.cons_append,
    List.cons_append, List.cons_append, List.nil_append,
    stringBody_unicode (codeUnit_hexChar h) (by omega), Char.ofNat_toNat]

/-- A pair of surrogates. -/
theorem readFrom_surrogates {c : Char} (h : ¬ c.toNat < 0x10000) :
    ReadFrom c (unicodeEscape (0xD800 + (c.toNat - 0x10000) / 0x400 % 0x400)
      ++ unicodeEscape (0xDC00 + (c.toNat - 0x10000) % 0x400)) := by
  intro rest
  have hchar := toNat_of_char c
  set high := 0xD800 + (c.toNat - 0x10000) / 0x400 % 0x400 with hhigh
  set low := 0xDC00 + (c.toNat - 0x10000) % 0x400 with hlow
  have hread : 0x10000 + (high - 0xD800) * 0x400 + (low - 0xDC00) = c.toNat := by omega
  have hunits := stringBody_surrogates (codeUnit_hexChar (n := high) (by omega))
    (codeUnit_hexChar (n := low) (by omega)) (by omega) (by omega) rest
  rw [hread, Char.ofNat_toNat] at hunits
  exact hunits

/-- A character comes back, however it is written. -/
theorem readFrom_escapeChar (c : Char) : ReadFrom c (escapeChar c) := by
  have hshort : ∀ e x : Char, simpleEscape e = some x → c = x → ReadFrom c ['\\', e] :=
    fun _ _ he hc => readFrom_short (hc ▸ he)
  rw [escapeChar]
  refine iteInduction (motive := ReadFrom c) (hshort _ _ rfl) fun hbackslash => ?_
  refine iteInduction (motive := ReadFrom c) (hshort _ _ rfl) fun hquote => ?_
  iterate 5 refine iteInduction (motive := ReadFrom c) (hshort _ _ rfl) fun _ => ?_
  refine iteInduction (motive := ReadFrom c) (fun hprintable rest => ?_) fun _ => ?_
  · have hcontrol : ¬ c.toNat < 0x20 := by omega
    rw [List.singleton_append, stringBody_cons hquote hbackslash, if_neg hcontrol]
  · exact iteInduction readFrom_unicodeEscape readFrom_surrogates

theorem readsAs_escape (s : List Char) : ReadsAs (escape s) s := by
  intro rest
  induction s with
  | nil => exact stringBody_quote rest
  | cons c s ih =>
    rw [escape, List.flatMap_cons, List.append_assoc, readFrom_escapeChar]
    rw [escape] at ih
    rw [ih]
    rfl

/-! ### Values are read back -/

/-- The literals of its numbers are numbers. -/
inductive WellFormed : Json → Prop where
  | null : WellFormed .null
  | bool {b : Bool} : WellFormed (.bool b)
  | num {literal : List Char} : IsNumber literal → WellFormed (.num literal)
  | str {s : List Char} : WellFormed (.str s)
  | arr {items : List Json} : (∀ v ∈ items, WellFormed v) → WellFormed (.arr items)
  | obj {members : List (List Char × Json)} : (∀ m ∈ members, WellFormed m.2) →
      WellFormed (.obj members)

/-- White space. -/
def Blank (s : List Char) : Prop := ∀ c ∈ s, isWs c

theorem blank_newlineIndent (indent : Option ℕ) (level : ℕ) :
    Blank (newlineIndent indent level) := by
  cases indent with
  | none => exact fun c hc => absurd hc List.not_mem_nil
  | some n =>
    intro c hc
    rcases List.mem_cons.mp hc with rfl | hc
    · rfl
    · rw [List.eq_of_mem_replicate hc]
      rfl

theorem skipWs_blank {gap s : List Char} (hgap : Blank gap) : skipWs (gap ++ s) = skipWs s := by
  induction gap with
  | nil => rfl
  | cons c gap ih =>
    have hc : isWs c = true := hgap c List.mem_cons_self
    rw [List.cons_append, skipWs, List.dropWhile_cons, if_pos hc]
    exact ih fun x hx => hgap x (List.mem_cons_of_mem c hx)

theorem value_blank {gap : List Char} (hgap : Blank gap) (fuel : ℕ) (s : List Char) :
    value fuel (gap ++ s) = value fuel s := by
  cases fuel with
  | zero => rfl
  | succ fuel => rw [value, value, skipWs_blank hgap]

theorem elements_blank {gap : List Char} (hgap : Blank gap) (fuel : ℕ) (s : List Char) :
    elements fuel (gap ++ s) = elements fuel s := by
  cases fuel with
  | zero => rfl
  | succ fuel => rw [elements_eq, elements_eq, value_blank hgap]

theorem members_blank {gap : List Char} (hgap : Blank gap) (fuel : ℕ) (s : List Char) :
    members fuel (gap ++ s) = members fuel s := by
  cases fuel with
  | zero => rfl
  | succ fuel => rw [members_eq, members_eq, keyPart, keyPart, expect, expect, skipWs_blank hgap]

/-- What follows ends a number. -/
def EndsNumber (rest : List Char) : Prop := ∀ c ∈ rest.head?, numberChar c = false

theorem endsNumber_cons {c : Char} (hc : numberChar c = false) (rest : List Char) :
    EndsNumber (c :: rest) := by
  intro d hd
  rw [← Option.some_inj.mp hd]
  exact hc

theorem endsNumber_blank {gap rest : List Char} (hgap : Blank gap) (hrest : EndsNumber rest) :
    EndsNumber (gap ++ rest) := by
  cases gap with
  | nil => exact hrest
  | cons c gap =>
    refine endsNumber_cons ?_ _
    have hc : isWs c = true := hgap c List.mem_cons_self
    simp only [isWs, decide_eq_true_eq] at hc
    rcases hc with rfl | rfl | rfl | rfl
    · decide
    · decide
    · decide
    · decide

/-- The text of a value is read as that value, with as much fuel as it is long. -/
def ReadsBack (indent : Option ℕ) (v : Json) : Prop :=
  ∀ level rest, EndsNumber rest → ∀ fuel, (encode indent level v).length < fuel →
    value fuel (encode indent level v ++ rest) = some (v, rest)

section Sequences

variable {indent : Option ℕ} {level : ℕ}

theorem endsNumber_itemSeparator (s : List Char) :
    EndsNumber (itemSeparator indent level ++ s) := by
  cases indent with
  | none => exact endsNumber_cons (by decide) _
  | some n => exact endsNumber_cons (by decide) _

/-- Behind an item comes a comma, and blanks before the next one. -/
theorem skipWs_itemSeparator (s : List Char) : ∃ gap, Blank gap ∧
    skipWs (itemSeparator indent level ++ s) = ',' :: (gap ++ s) ∧
      gap.length + 1 = (itemSeparator indent level).length := by
  cases indent with
  | none =>
    refine ⟨[' '], fun c hc => ?_, rfl, rfl⟩
    rw [List.mem_singleton.mp hc]
    rfl
  | some n =>
    exact ⟨newlineIndent (some n) level, blank_newlineIndent _ _, rfl, rfl⟩

theorem follow_close {α : Type*} {close : Char} (hclose : close ≠ ',') (hws : isWs close = false)
    {next : List Char → Option (List α × List Char)} {x : α} {gap rest : List Char}
    (hgap : Blank gap) : follow close next x (gap ++ close :: rest) = some ([x], rest) := by
  rw [follow, skipWs_blank hgap, skipWs_cons hws]
  simp only [if_neg hclose, if_true]

theorem follow_itemSeparator {α : Type*} {close : Char}
    {next : List Char → Option (List α × List Char)} {x : α} {s : List Char}
    (hnext : ∀ gap, Blank gap → next (gap ++ s) = next s) :
    follow close next x (itemSeparator indent level ++ s)
      = (next s).map fun p => (x :: p.1, p.2) := by
  obtain ⟨gap, hgap, hskip, _⟩ := @skipWs_itemSeparator indent level s
  rw [follow, hskip]
  simp only [if_true, hnext gap hgap]

theorem length_itemSeparator_pos : 0 < (itemSeparator indent level).length := by
  cases indent with
  | none => exact Nat.succ_pos _
  | some n => exact Nat.succ_pos _

theorem elements_encodeItems {items : List Json} (hne : items ≠ [])
    (hitems : ∀ v ∈ items, ReadsBack indent v) {gap : List Char} (hgap : Blank gap)
    (rest : List Char) (fuel : ℕ) (hfuel : (encodeItems indent level items).length + 1 < fuel) :
    elements fuel (encodeItems indent level items ++ (gap ++ ']' :: rest))
      = some (items, rest) := by
  induction items generalizing fuel with
  | nil => exact absurd rfl hne
  | cons v vs ih =>
    obtain ⟨fuel, rfl⟩ := Nat.exists_eq_add_of_lt hfuel
    have hv := hitems v List.mem_cons_self level
    have hpos := @length_itemSeparator_pos indent level
    rw [elements_eq]
    rw [encodeItems, List.length_append] at hfuel ⊢
    cases vs with
    | nil =>
      rw [List.isEmpty_nil, if_pos rfl, List.append_nil,
        hv _ (endsNumber_blank hgap (endsNumber_cons (by decide) _)) _ (by omega),
        Option.bind_some]
      exact follow_close (by decide) (by decide) hgap
    | cons w vs =>
      rw [List.isEmpty_cons, if_neg Bool.false_ne_true, List.append_assoc, List.append_assoc,
        hv _ (endsNumber_itemSeparator _) _ (by omega), Option.bind_some,
        follow_itemSeparator fun gap' hgap' => elements_blank hgap' _ _]
      rw [List.isEmpty_cons, if_neg Bool.false_ne_true, List.length_append] at hfuel
      rw [ih (List.cons_ne_nil _ _) (fun x hx => hitems x (List.mem_cons_of_mem v hx)) _ ?_]
      · rfl
      · rw [List.length_append]
        omega

theorem keyPart_encodeString (key s : List Char) :
    keyPart (encodeString key ++ ([':', ' '] ++ s)) = some (key, ' ' :: s) := by
  have hquote : expect '"' (encodeString key ++ ([':', ' '] ++ s))
      = some (escape key ++ '"' :: ([':', ' '] ++ s)) := by
    rw [expect_eq_some, encodeString, List.cons_append, List.append_assoc,
      skipWs_cons (by decide)]
    rfl
  have hcolon : expect ':' ([':', ' '] ++ s) = some (' ' :: s) :=
    expect_eq_some.mpr (skipWs_cons (by decide) _)
  rw [keyPart, hquote, Option.bind_some, readsAs_escape key, Option.bind_some, hcolon]
  rfl

theorem members_key (fuel : ℕ) (key s : List Char) :
    members (fuel + 1) (encodeString key ++ ([':', ' '] ++ s)) =
      (value fuel s).bind fun q => follow '\x7d' (members fuel) (key, q.1) q.2 := by
  have hspace : Blank [' '] := by
    intro c hc
    rw [List.mem_singleton.mp hc]
    rfl
  have hvalue : value fuel (' ' :: s) = value fuel s := value_blank hspace fuel s
  rw [members_eq, keyPart_encodeString, Option.bind_some]
  simp only [hvalue]

theorem members_encodeMembers {ms : List (List Char × Json)} (hne : ms ≠ [])
    (hms : ∀ m ∈ ms, ReadsBack indent m.2) {gap : List Char} (hgap : Blank gap)
    (rest : List Char) (fuel : ℕ) (hfuel : (encodeMembers indent level ms).length + 1 < fuel) :
    members fuel (encodeMembers indent level ms ++ (gap ++ '\x7d' :: rest)) = some (ms, rest) := by
  induction ms generalizing fuel with
  | nil => exact absurd rfl hne
  | cons m ms ih =>
    obtain ⟨key, v⟩ := m
    obtain ⟨fuel, rfl⟩ := Nat.exists_eq_add_of_lt hfuel
    have hv : ReadsBack indent v := hms (key, v) List.mem_cons_self
    have hpos := @length_itemSeparator_pos indent level
    rw [encodeMembers, List.length_append, List.length_append, List.length_append] at hfuel ⊢
    rw [List.append_assoc, List.append_assoc, members_key]
    cases ms with
    | nil =>
      rw [List.isEmpty_nil, if_pos rfl, List.append_nil,
        hv level _ (endsNumber_blank hgap (endsNumber_cons (by decide) _)) _ (by omega),
        Option.bind_some]
      exact follow_close (by decide) (by decide) hgap
    | cons m ms =>
      rw [List.isEmpty_cons, if_neg Bool.false_ne_true, List.append_assoc, List.append_assoc,
        hv level _ (endsNumber_itemSeparator _) _ (by omega), Option.bind_some,
        follow_itemSeparator fun gap' hgap' => members_blank hgap' _ _]
      rw [List.isEmpty_cons, if_neg Bool.false_ne_true, List.length_append] at hfuel
      rw [ih (List.cons_ne_nil _ _) (fun x hx => hms x (List.mem_cons_of_mem _ hx)) _ ?_]
      · rfl
      · rw [List.length_append]
        omega

end Sequences

/-- A text starts with no blank and no closing bracket. -/
theorem exists_head_encode {v : Json} (h : WellFormed v) (indent : Option ℕ) (level : ℕ) :
    ∃ c s, encode indent level v = c :: s ∧ isWs c = false ∧ c ≠ ']' := by
  cases h with
  | null => exact ⟨'n', _, rfl, by decide, by decide⟩
  | @bool b =>
    cases b with
    | false => exact ⟨'f', _, rfl, by decide, by decide⟩
    | true => exact ⟨'t', _, rfl, by decide, by decide⟩
  | num hn =>
    obtain ⟨c, s, hcons, hc⟩ := exists_head_of_number hn
    obtain ⟨hws, hother⟩ := not_other_of_number_head hc
    exact ⟨c, s, hcons, hws, hother ']' (by decide)⟩
  | str => exact ⟨'"', _, rfl, by decide, by decide⟩
  | @arr items _ =>
    rw [encode_arr]
    split
    · exact ⟨'[', _, rfl, by decide, by decide⟩
    · exact ⟨'[', _, rfl, by decide, by decide⟩
  | @obj members _ =>
    rw [encode_obj]
    split
    · exact ⟨'\x7b', _, rfl, by decide, by decide⟩
    · exact ⟨'\x7b', _, rfl, by decide, by decide⟩

theorem readsBack_num {literal : List Char} (hn : IsNumber literal) (indent : Option ℕ) :
    ReadsBack indent (.num literal) := by
  intro level rest hrest fuel hfuel
  obtain ⟨fuel, rfl⟩ := Nat.exists_eq_add_of_lt hfuel
  rw [encode_num]
  cases rest with
  | nil =>
    rw [List.append_nil]
    exact value_number_end _ hn
  | cons c rest => exact value_number _ hn (hrest c rfl) rest

theorem exists_head_encodeItems {items : List Json} (hne : items ≠ [])
    (h : ∀ v ∈ items, WellFormed v) (indent : Option ℕ) (level : ℕ) :
    ∃ c s, encodeItems indent level items = c :: s ∧ isWs c = false ∧ c ≠ ']' := by
  cases items with
  | nil => exact absurd rfl hne
  | cons v vs =>
    obtain ⟨c, s, hcons, hc⟩ := exists_head_encode (h v List.mem_cons_self) indent level
    rw [encodeItems, hcons]
    exact ⟨c, _, List.cons_append, hc⟩

theorem exists_head_encodeMembers {ms : List (List Char × Json)} (hne : ms ≠ [])
    (indent : Option ℕ) (level : ℕ) :
    ∃ s, encodeMembers indent level ms = '"' :: s := by
  cases ms with
  | nil => exact absurd rfl hne
  | cons m ms =>
    obtain ⟨key, v⟩ := m
    rw [encodeMembers]
    exact ⟨_, List.cons_append⟩

/-- An array that is not empty. -/
theorem value_elements {fuel : ℕ} {gap body rest : List Char} {items : List Json}
    (hgap : Blank gap) (hbody : ∃ c s, body = c :: s ∧ isWs c = false ∧ c ≠ ']')
    (h : elements fuel body = some (items, rest)) :
    value (fuel + 1) ('[' :: (gap ++ body)) = some (.arr items, rest) := by
  obtain ⟨c, s, rfl, hws, hclose⟩ := hbody
  have hhead : ¬ (c :: s).head? = some ']' := fun hc => hclose (Option.some_inj.mp hc)
  rw [value_bracket (skipWs_cons (by decide) _), skipWs_blank hgap, skipWs_cons hws,
    if_neg hhead, h]
  rfl

/-- An object that is not empty. -/
theorem value_members {fuel : ℕ} {gap body rest : List Char} {ms : List (List Char × Json)}
    (hgap : Blank gap) (hbody : ∃ s, body = '"' :: s) (h : members fuel body = some (ms, rest)) :
    value (fuel + 1) ('\x7b' :: (gap ++ body)) = some (.obj ms, rest) := by
  obtain ⟨s, rfl⟩ := hbody
  have hhead : ¬ ('"' :: s).head? = some '\x7d' := by simp
  rw [value_brace (skipWs_cons (by decide) _), skipWs_blank hgap, skipWs_cons (by decide),
    if_neg hhead, h]
  rfl

theorem readsBack_arr {items : List Json} (h : ∀ v ∈ items, WellFormed v) {indent : Option ℕ}
    (hitems : ∀ v ∈ items, ReadsBack indent v) : ReadsBack indent (.arr items) := by
  intro level rest _ fuel hfuel
  rw [encode_arr] at hfuel ⊢
  cases fuel with
  | zero => exact absurd hfuel (Nat.not_lt_zero _)
  | succ fuel =>
    by_cases hnil : items = []
    · subst hnil
      rfl
    · have hempty : ¬ items.isEmpty = true := by rwa [List.isEmpty_iff]
      obtain ⟨c, s, hcons, hhead⟩ := exists_head_encodeItems hnil h indent (level + 1)
      rw [if_neg hempty] at hfuel ⊢
      simp only [List.length_cons, List.length_append, List.length_nil] at hfuel
      simp only [List.cons_append, List.append_assoc, List.nil_append]
      refine value_elements (blank_newlineIndent _ _) ⟨c, _, by rw [hcons, List.cons_append], hhead⟩
        (elements_encodeItems hnil hitems (blank_newlineIndent _ _) rest fuel (by omega))

theorem readsBack_obj {ms : List (List Char × Json)} {indent : Option ℕ}
    (hms : ∀ m ∈ ms, ReadsBack indent m.2) : ReadsBack indent (.obj ms) := by
  intro level rest _ fuel hfuel
  rw [encode_obj] at hfuel ⊢
  cases fuel with
  | zero => exact absurd hfuel (Nat.not_lt_zero _)
  | succ fuel =>
    by_cases hnil : ms = []
    · subst hnil
      rfl
    · have hempty : ¬ ms.isEmpty = true := by rwa [List.isEmpty_iff]
      obtain ⟨s, hcons⟩ := exists_head_encodeMembers hnil indent (level + 1)
      rw [if_neg hempty] at hfuel ⊢
      simp only [List.length_cons, List.length_append, List.length_nil] at hfuel
      simp only [List.cons_append, List.append_assoc, List.nil_append]
      refine value_members (blank_newlineIndent _ _) ⟨_, by rw [hcons, List.cons_append]⟩
        (members_encodeMembers hnil hms (blank_newlineIndent _ _) rest fuel (by omega))

theorem readsBack_of_wellFormed {v : Json} (h : WellFormed v) (indent : Option ℕ) :
    ReadsBack indent v := by
  induction h with
  | null =>
    intro level rest _ fuel hfuel
    obtain ⟨fuel, rfl⟩ := Nat.exists_eq_add_of_lt hfuel
    rfl
  | @bool b =>
    intro level rest _ fuel hfuel
    obtain ⟨fuel, rfl⟩ := Nat.exists_eq_add_of_lt hfuel
    cases b with
    | false => rfl
    | true => rfl
  | num hn => exact readsBack_num hn indent
  | @str s =>
    intro level rest _ fuel hfuel
    obtain ⟨fuel, rfl⟩ := Nat.exists_eq_add_of_lt hfuel
    rw [encode_str, encodeString, List.cons_append, List.append_assoc]
    exact value_of_readsAs (readsAs_escape s) rest
  | arr h ih => exact readsBack_arr h ih
  | obj _ ih => exact readsBack_obj ih

/-! ### Integers -/

/-- `int.__repr__`. -/
def intLiteral : ℤ → List Char
  | .ofNat n => Nat.toDigits 10 n
  | .negSucc n => '-' :: Nat.toDigits 10 (n + 1)

theorem isDigit_toDigits {n : ℕ} {c : Char} (h : c ∈ Nat.toDigits 10 n) : c.isDigit = true :=
  Nat.isDigit_of_mem_toDigits (by omega) (by omega) h

/-- Only zero starts with a zero. -/
theorem head_toDigits {n : ℕ} (h : 0 < n) : (Nat.toDigits 10 n).head? ≠ some '0' := by
  induction n using Nat.base_induction 10 (by omega) with
  | single m hm =>
    rw [Nat.toDigits_of_lt_base hm, List.head?_cons, ne_eq, Option.some_inj,
      Nat.digitChar_eq_zero]
    exact h.ne'
  | digit m k hk hm ih =>
    rw [← Nat.toDigits_append_toDigits (by omega) hm hk,
      List.head?_append_of_ne_nil _ Nat.toDigits_ne_nil]
    exact ih hm

theorem intPart_toDigits (n : ℕ) : intPart (Nat.toDigits 10 n) = some (Nat.toDigits 10 n, []) := by
  have hall : ∀ c ∈ Nat.toDigits 10 n, c.isDigit = true := fun _ => isDigit_toDigits
  have htake : (Nat.toDigits 10 n).takeWhile Char.isDigit = Nat.toDigits 10 n :=
    List.takeWhile_eq_self_iff.mpr hall
  have hdrop : (Nat.toDigits 10 n).dropWhile Char.isDigit = [] :=
    List.dropWhile_eq_nil_iff.mpr hall
  have hzero : ¬ (Nat.toDigits 10 n = [] ∨
      ((Nat.toDigits 10 n).head? = some '0' ∧ Nat.toDigits 10 n ≠ ['0'])) := by
    rintro (hnil | ⟨hhead, hne⟩)
    · exact Nat.toDigits_ne_nil hnil
    · rcases Nat.eq_zero_or_pos n with rfl | hpos
      · exact hne (Nat.toDigits_zero 10)
      · exact head_toDigits hpos hhead
  rw [intPart, htake, hdrop]
  exact if_neg hzero

theorem isNumber_intLiteral (i : ℤ) : IsNumber (intLiteral i) := by
  have hrest : fracPart [] = some ([], []) ∧ expPart [] = some ([], []) := ⟨rfl, rfl⟩
  cases i with
  | ofNat n =>
    have hminus : minusPart (Nat.toDigits 10 n) = some ([], Nat.toDigits 10 n) := by
      cases hdigits : Nat.toDigits 10 n with
      | nil => exact absurd hdigits Nat.toDigits_ne_nil
      | cons c s =>
        refine minusPart_cons ?_ s
        rintro rfl
        have hdigit := isDigit_toDigits (hdigits ▸ List.mem_cons_self)
        exact absurd hdigit (by decide)
    simp [IsNumber, number, intLiteral, hminus, intPart_toDigits, hrest]
  | negSucc n =>
    have hminus : minusPart ('-' :: Nat.toDigits 10 (n + 1))
      = some (['-'], Nat.toDigits 10 (n + 1)) := rfl
    simp [IsNumber, number, intLiteral, hminus, intPart_toDigits, hrest]

/-- The integer a number stands for, if it is written without point and exponent. -/
def readInt : List Char → Option ℤ
  | [] => none
  | c :: s =>
    if c = '-' then some (-(Nat.ofDigitChars 10 s 0 : ℤ))
    else if (c :: s).all Char.isDigit then some (Nat.ofDigitChars 10 (c :: s) 0 : ℤ)
    else none

theorem readInt_intLiteral (i : ℤ) : readInt (intLiteral i) = some i := by
  cases i with
  | ofNat n =>
    have hall : (Nat.toDigits 10 n).all Char.isDigit = true :=
      List.all_eq_true.mpr fun _ => isDigit_toDigits
    have hvalue : Nat.ofDigitChars 10 (Nat.toDigits 10 n) 0 = n := Nat.ofDigitChars_ten_toDigits
    rw [intLiteral]
    cases hdigits : Nat.toDigits 10 n with
    | nil => exact absurd hdigits Nat.toDigits_ne_nil
    | cons c s =>
      have hminus : c ≠ '-' := by
        rintro rfl
        have hdigit := isDigit_toDigits (hdigits ▸ List.mem_cons_self)
        exact absurd hdigit (by decide)
      rw [hdigits] at hall hvalue
      rw [readInt, if_neg hminus, if_pos hall, hvalue]
      rfl
  | negSucc n =>
    rw [intLiteral, readInt, if_pos rfl, Nat.ofDigitChars_ten_toDigits]
    rfl

/-! ### Texts -/

theorem sortedItems_eq (items : List Json) : sortedItems items = items.map sorted := by
  induction items with
  | nil => rfl
  | cons v vs ih => rw [sortedItems, ih, List.map_cons]

theorem sortedValues_eq (ms : List (List Char × Json)) :
    sortedValues ms = ms.map fun m => (m.1, sorted m.2) := by
  induction ms with
  | nil => rfl
  | cons m ms ih =>
    obtain ⟨key, v⟩ := m
    rw [sortedValues, ih, List.map_cons]

theorem wellFormed_sorted {v : Json} (h : WellFormed v) : WellFormed (sorted v) := by
  induction h with
  | null => exact .null
  | bool => exact .bool
  | num hn => exact .num hn
  | str => exact .str
  | arr _ ih =>
    refine .arr fun v hv => ?_
    rw [sortedItems_eq] at hv
    obtain ⟨w, hw, rfl⟩ := List.mem_map.mp hv
    exact ih w hw
  | obj _ ih =>
    refine .obj fun m hm => ?_
    rw [sortMembers, List.mem_insertionSort, sortedValues_eq] at hm
    obtain ⟨m', hm', rfl⟩ := List.mem_map.mp hm
    exact ih m' hm'

/-- What `dumps` writes is read back, also in front of blanks. -/
theorem parse_dumps {v : Json} (h : WellFormed v) (indent : Option ℕ) (sortKeys : Bool)
    {gap : List Char} (hgap : Blank gap) :
    parse (dumps indent sortKeys v ++ gap) = some (if sortKeys then sorted v else v) := by
  have hwell : WellFormed (if sortKeys then sorted v else v) := by
    split
    · exact wellFormed_sorted h
    · exact h
  have hends : EndsNumber gap := by
    have hnil : EndsNumber [] := fun _ hc => by cases hc
    have hblank := endsNumber_blank hgap hnil
    rwa [List.append_nil] at hblank
  have hskip : skipWs gap = [] := by
    have hblank := skipWs_blank (s := []) hgap
    rwa [List.append_nil] at hblank
  refine parse_eq_some.mpr ⟨gap, readsBack_of_wellFormed hwell indent 0 gap hends _ ?_, hskip⟩
  rw [dumps, List.length_append]
  omega

/-- No beginning of the text of an object is read, up to its last bracket. -/
theorem parse_beginning {ms : List (List Char × Json)} (h : WellFormed (.obj ms))
    {indent : Option ℕ} {sortKeys : Bool} {p t : List Char} (ht : t ≠ [])
    (hp : p ++ t = dumps indent sortKeys (.obj ms)) : parse p = none := by
  obtain ⟨ms', hms'⟩ : ∃ ms', (if sortKeys then sorted (.obj ms) else .obj ms) = Json.obj ms' := by
    split
    · exact ⟨_, rfl⟩
    · exact ⟨_, rfl⟩
  have hwell : WellFormed (.obj ms') := by
    rw [← hms']
    split
    · exact wellFormed_sorted h
    · exact h
  have hread := readsBack_of_wellFormed hwell indent 0 [] (fun _ hc => by cases hc)
    ((p ++ t).length + 1)
  rw [List.append_nil] at hread
  rw [dumps, hms'] at hp
  cases p with
  | nil => rfl
  | cons c s =>
    have hbrace : c = '\x7b' := by
      rw [encode_obj] at hp
      split at hp
      · exact (List.cons_eq_cons.mp hp).1
      · exact (List.cons_eq_cons.mp hp).1
    subst hbrace
    refine parse_of_strict_prefix ht (v := .obj ms') ?_
    rw [hp]
    rw [hp] at hread
    exact hread (Nat.lt_succ_self _)

/-- A text is written with a newline behind it.  Of its beginnings only those are
read that lack the newline at most. -/
theorem parse_written {ms : List (List Char × Json)} (h : WellFormed (.obj ms))
    {indent : Option ℕ} {p t : List Char} (hp : p ++ t = dumps indent true (.obj ms) ++ ['\n']) :
    parse p = if t.length ≤ 1 then some (sorted (.obj ms)) else none := by
  rcases List.eq_nil_or_concat t with rfl | ⟨t, c, rfl⟩
  · have hnewline : Blank ['\n'] := by
      intro c hc
      rw [List.mem_singleton.mp hc]
      rfl
    rw [List.append_nil] at hp
    rw [List.length_nil, if_pos (Nat.zero_le 1), hp]
    exact parse_dumps h indent true hnewline
  · rw [List.concat_eq_append, ← List.append_assoc] at hp
    obtain ⟨hp, _⟩ := List.append_inj' hp rfl
    rw [List.length_concat]
    by_cases ht : t = []
    · subst ht
      have hnil : Blank [] := fun c hc => absurd hc List.not_mem_nil
      have hread := parse_dumps h indent true hnil
      rw [List.append_nil] at hp hread
      rw [if_pos (by simp), hp]
      exact hread
    · have hlength := List.length_pos_iff.mpr ht
      rw [if_neg (by omega)]
      exact parse_beginning h ht hp

/-! ### Characters -/

/-- Printable ASCII. -/
def Ascii (s : List Char) : Prop := ∀ c ∈ s, 0x20 ≤ c.toNat ∧ c.toNat ≤ 0x7E

instance (s : List Char) : Decidable (Ascii s) := List.decidableBAll _ s

theorem Ascii.append {s t : List Char} (hs : Ascii s) (ht : Ascii t) :
    Ascii (s ++ t) := List.forall_mem_append.mpr ⟨hs, ht⟩

theorem Ascii.cons {c : Char} {s : List Char} (hc : 0x20 ≤ c.toNat ∧ c.toNat ≤ 0x7E)
    (hs : Ascii s) : Ascii (c :: s) := List.forall_mem_cons.mpr ⟨hc, hs⟩

theorem ascii_nil : Ascii [] := fun _ hc => absurd hc List.not_mem_nil

theorem ascii_unicodeEscape (n : ℕ) : Ascii (unicodeEscape n) := by
  have hall : ∀ m < 16, 0x20 ≤ (hexChar m).toNat ∧ (hexChar m).toNat ≤ 0x7E := by decide
  have hdigit : ∀ m, 0x20 ≤ (hexChar (m % 16)).toNat ∧ (hexChar (m % 16)).toNat ≤ 0x7E :=
    fun m => hall _ (Nat.mod_lt m (by omega))
  exact .cons (by decide) (.cons (by decide) (.cons (hdigit _) (.cons (hdigit _)
    (.cons (hdigit _) (.cons (hdigit _) ascii_nil)))))

theorem ascii_escapeChar (c : Char) : Ascii (escapeChar c) := by
  have hshort : ∀ e : Char, 0x20 ≤ e.toNat ∧ e.toNat ≤ 0x7E → Ascii ['\\', e] :=
    fun e he => .cons (by decide) (.cons he ascii_nil)
  rw [escapeChar]
  iterate 7 refine iteInduction (motive := Ascii) (fun _ => hshort _ (by decide)) fun _ => ?_
  refine iteInduction (motive := Ascii) (fun hprintable => .cons hprintable ascii_nil) fun _ => ?_
  refine iteInduction (motive := Ascii) (fun _ => ascii_unicodeEscape _) fun _ => ?_
  exact (ascii_unicodeEscape _).append (ascii_unicodeEscape _)

theorem ascii_encodeString (s : List Char) : Ascii (encodeString s) := by
  refine .cons (by decide) (Ascii.append (fun c hc => ?_) (.cons (by decide) ascii_nil))
  obtain ⟨c', _, hc'⟩ := List.mem_flatMap.mp hc
  exact ascii_escapeChar c' c hc'

theorem ascii_number {n : List Char} (hn : IsNumber n) : Ascii n := by
  intro c hc
  have hchar := numberChar_of_number hn c hc
  simp only [numberChar, decide_eq_true_eq] at hchar
  rcases hchar with hdigit | hother
  · rw [Char.isDigit, Bool.and_eq_true, decide_eq_true_eq, decide_eq_true_eq] at hdigit
    obtain ⟨hlow, hhigh⟩ := hdigit
    have hlow' : 48 ≤ c.toNat := hlow
    have hhigh' : c.toNat ≤ 57 := hhigh
    omega
  · simp only [List.mem_cons, List.not_mem_nil, or_false] at hother
    rcases hother with rfl | rfl | rfl | rfl | rfl <;> simp

theorem ascii_itemSeparator (level : ℕ) : Ascii (itemSeparator none level) :=
  .cons (by decide) (.cons (by decide) ascii_nil)

theorem ascii_encodeItems {items : List Json} (level : ℕ)
    (h : ∀ v ∈ items, Ascii (encode none level v)) : Ascii (encodeItems none level items) := by
  induction items with
  | nil => exact ascii_nil
  | cons v vs ih =>
    rw [encodeItems]
    refine (h v List.mem_cons_self).append ?_
    split
    · exact ascii_nil
    · exact (ascii_itemSeparator _).append (ih fun x hx => h x (List.mem_cons_of_mem v hx))

theorem ascii_encodeMembers {ms : List (List Char × Json)} (level : ℕ)
    (h : ∀ m ∈ ms, Ascii (encode none level m.2)) : Ascii (encodeMembers none level ms) := by
  induction ms with
  | nil => exact ascii_nil
  | cons m ms ih =>
    obtain ⟨key, v⟩ := m
    rw [encodeMembers]
    refine (ascii_encodeString key).append (.cons (by decide) (.cons (by decide)
      ((h (key, v) List.mem_cons_self).append ?_)))
    split
    · exact ascii_nil
    · exact (ascii_itemSeparator _).append (ih fun x hx => h x (List.mem_cons_of_mem _ hx))

theorem ascii_brackets {opening closing : Char} {s : List Char} (hopening : Ascii [opening])
    (hs : Ascii s) (hclosing : Ascii [closing]) (level : ℕ) :
    Ascii (opening :: (newlineIndent none (level + 1) ++
      (s ++ (newlineIndent none level ++ [closing])))) :=
  hopening.append (ascii_nil.append (hs.append (ascii_nil.append hclosing)))

theorem ascii_encode {v : Json} (h : WellFormed v) (level : ℕ) : Ascii (encode none level v) := by
  induction h generalizing level with
  | null =>
    rw [encode_null]
    decide
  | @bool b =>
    rw [encode_bool]
    cases b with
    | false => decide
    | true => decide
  | num hn => exact ascii_number hn
  | str => exact ascii_encodeString _
  | arr _ ih =>
    rw [encode_arr]
    split
    · decide
    · exact ascii_brackets (by decide) (ascii_encodeItems _ fun v hv => ih v hv _) (by decide) _
  | obj _ ih =>
    rw [encode_obj]
    split
    · decide
    · exact ascii_brackets (by decide) (ascii_encodeMembers _ fun m hm => ih m hm _) (by decide) _

/-- Without `indent` the text is one line of printable ASCII. -/
theorem ascii_dumps {v : Json} (h : WellFormed v) (sortKeys : Bool) :
    Ascii (dumps none sortKeys v) := by
  rw [dumps]
  split
  · exact ascii_encode (wellFormed_sorted h) 0
  · exact ascii_encode h 0

/-! ### Members by key -/

/-- `value[key]`. -/
def Json.get (v : Json) (key : List Char) : Option Json :=
  match v with
  | .obj ms => ms.lookup key
  | _ => none

/-- `value[key]`, if that is a string. -/
def Json.stringAt (v : Json) (key : List Char) : Option (List Char) :=
  match v.get key with
  | some (.str s) => some s
  | _ => none

theorem lookup_eq_some {ms : List (List Char × Json)} (hnodup : (ms.map Prod.fst).Nodup)
    {key : List Char} {v : Json} : ms.lookup key = some v ↔ (key, v) ∈ ms := by
  induction ms with
  | nil => simp
  | cons m ms ih =>
    obtain ⟨key', v'⟩ := m
    rw [List.map_cons, List.nodup_cons] at hnodup
    rw [List.lookup_cons, List.mem_cons, Prod.mk.injEq]
    by_cases hkey : key = key'
    · subst hkey
      have hnot : (key, v) ∉ ms := fun hm => hnodup.1 (List.mem_map.mpr ⟨_, hm, rfl⟩)
      simp [hnot, eq_comm]
    · have hfalse : (key == key') = false := beq_false_of_ne hkey
      simp [hfalse, hkey, ih hnodup.2]

/-- The order of the members plays no part, if the keys are distinct. -/
theorem lookup_of_perm {ms ms' : List (List Char × Json)} (hperm : ms'.Perm ms)
    (hnodup : (ms.map Prod.fst).Nodup) (key : List Char) : ms'.lookup key = ms.lookup key := by
  have hnodup' : (ms'.map Prod.fst).Nodup := (hperm.map Prod.fst).nodup_iff.mpr hnodup
  refine Option.ext fun v => ?_
  rw [lookup_eq_some hnodup', lookup_eq_some hnodup, hperm.mem_iff]

theorem lookup_sortMembers {ms : List (List Char × Json)} (hnodup : (ms.map Prod.fst).Nodup)
    (key : List Char) : (sortMembers ms).lookup key = ms.lookup key :=
  lookup_of_perm (List.perm_insertionSort _ _) hnodup key

theorem keys_sortedValues (ms : List (List Char × Json)) :
    (sortedValues ms).map Prod.fst = ms.map Prod.fst := by
  rw [sortedValues_eq, List.map_map]
  rfl

theorem get_sorted {ms : List (List Char × Json)} (hnodup : (ms.map Prod.fst).Nodup)
    {key : List Char} {v : Json} (h : (key, v) ∈ ms) :
    (sorted (.obj ms)).get key = some (sorted v) := by
  have hnodup' : ((sortedValues ms).map Prod.fst).Nodup := by rwa [keys_sortedValues]
  rw [sorted, Json.get, lookup_sortMembers hnodup', lookup_eq_some hnodup', sortedValues_eq]
  exact List.mem_map.mpr ⟨(key, v), h, rfl⟩

theorem get_sorted_of_notMem {ms : List (List Char × Json)} (hnodup : (ms.map Prod.fst).Nodup)
    {key : List Char} (h : key ∉ ms.map Prod.fst) : (sorted (.obj ms)).get key = none := by
  have hnodup' : ((sortedValues ms).map Prod.fst).Nodup := by rwa [keys_sortedValues]
  rw [sorted, Json.get, lookup_sortMembers hnodup', List.lookup_eq_none_iff]
  intro m hm
  rw [← keys_sortedValues] at h
  have hne : key ≠ m.1 := fun hc => h (hc ▸ List.mem_map_of_mem hm)
  simpa using hne

/-- The members of a dictionary that is filled key by key, where some keys are left
out. -/
def present (fields : List (List Char × Option Json)) : List (List Char × Json) :=
  fields.filterMap fun f => f.2.map fun v => (f.1, v)

theorem keys_present (fields : List (List Char × Option Json)) :
    ((present fields).map Prod.fst).Sublist (fields.map Prod.fst) := by
  induction fields with
  | nil => exact List.Sublist.refl _
  | cons f fields ih =>
    obtain ⟨key, v⟩ := f
    cases v with
    | none => exact ih.cons _
    | some v => exact ih.cons_cons _

theorem lookup_present {fields : List (List Char × Option Json)}
    (hnodup : (fields.map Prod.fst).Nodup) {key : List Char} {v : Option Json}
    (h : (key, v) ∈ fields) : (present fields).lookup key = v := by
  have hnodup' := (keys_present fields).nodup hnodup
  cases v with
  | some v =>
    rw [lookup_eq_some hnodup']
    exact List.mem_filterMap.mpr ⟨_, h, rfl⟩
  | none =>
    rw [List.lookup_eq_none_iff]
    intro m hm
    obtain ⟨⟨key', v'⟩, hf, hv⟩ := List.mem_filterMap.mp hm
    obtain ⟨v'', hv', rfl⟩ := Option.map_eq_some_iff.mp hv
    simp only at hv'
    -- two fields with one key would be one field
    have hne : key ≠ key' := by
      rintro rfl
      obtain heq := List.inj_on_of_nodup_map hnodup h hf rfl
      rw [Prod.mk.injEq, hv'] at heq
      cases heq.2
    simpa using hne

/-- Values without brackets. -/
def Flat (v : Json) : Prop := sorted v = v

theorem sortedValues_of_flat {ms : List (List Char × Json)} (h : ∀ m ∈ ms, Flat m.2) :
    sortedValues ms = ms := by
  induction ms with
  | nil => rfl
  | cons m ms ih =>
    obtain ⟨key, v⟩ := m
    have hv : sorted v = v := h (key, v) List.mem_cons_self
    rw [sortedValues, hv, ih fun x hx => h x (List.mem_cons_of_mem _ hx)]

end JsonText
