/-
What a JSON parser makes of the beginning of a text.

Once the parser has read a value it does not look further, unless the value is a
number: more text behind it changes nothing, and more fuel does not either.  A
file that was cut while it was written can therefore not be mistaken for another
value.

* `stringBody_append`, `number_append_of_left`, `value_stable` — what has been
  read is read the same in front of more text;
* `parse_of_strict_prefix` — an object is read no sooner than it is there as a whole.
-/
import HpcTelemetry.JsonText
import Mathlib.Data.List.DropRight

namespace JsonText

/-! ### White space and strings -/

theorem skipWs_append {s r : List Char} {c : Char} (h : skipWs s = c :: r) (t : List Char) :
    skipWs (s ++ t) = c :: (r ++ t) := by
  rw [skipWs] at h ⊢
  rw [List.dropWhile_append]
  simp [h]

/-- An escape of six characters that is no surrogate. -/
theorem stringBody_unicode {a b c d : Char} {n : ℕ} (hn : codeUnit a b c d = some n)
    (hchar : n < 0xD800 ∨ 0xDFFF < n) (rest : List Char) :
    stringBody ('\\' :: 'u' :: a :: b :: c :: d :: rest)
      = (stringBody rest).map fun r => (Char.ofNat n :: r.1, r.2) := by
  rw [stringBody.eq_def]
  simp only [hn, if_pos hchar]

/-- Two of them that are a pair of surrogates. -/
theorem stringBody_surrogates {a b c d a' b' c' d' : Char} {high low : ℕ}
    (hhigh : codeUnit a b c d = some high) (hlow : codeUnit a' b' c' d' = some low)
    (hsurrogate : ¬ (high < 0xD800 ∨ 0xDFFF < high))
    (hpair : high ≤ 0xDBFF ∧ 0xDC00 ≤ low ∧ low ≤ 0xDFFF) (rest : List Char) :
    stringBody ('\\' :: 'u' :: a :: b :: c :: d :: '\\' :: 'u' :: a' :: b' :: c' :: d' :: rest)
      = (stringBody rest).map fun r =>
          (Char.ofNat (0x10000 + (high - 0xD800) * 0x400 + (low - 0xDC00)) :: r.1, r.2) := by
  rw [stringBody.eq_def]
  simp only [hhigh, hlow, if_neg hsurrogate, if_pos hpair]

/-- What follows is passed on behind one more character. -/
theorem map_cons_append {r r' : Option (List Char × List Char)} {x : Char}
    {body rest t : List Char}
    (h : ∀ body', r = some (body', rest) → r' = some (body', rest ++ t))
    (hmap : r.map (fun r => (x :: r.1, r.2)) = some (body, rest)) :
    r'.map (fun r => (x :: r.1, r.2)) = some (body, rest ++ t) := by
  obtain ⟨⟨body', rest'⟩, hr, heq⟩ := Option.map_eq_some_iff.mp hmap
  obtain ⟨rfl, rfl⟩ := Prod.mk.inj heq
  rw [h body' hr]
  rfl

theorem stringBody_append {s body rest : List Char} (h : stringBody s = some (body, rest))
    (t : List Char) : stringBody (s ++ t) = some (body, rest ++ t) := by
  fun_induction stringBody s generalizing body with
  | case3 a b c d rest n hn hchar ih =>
    rw [List.cons_append, List.cons_append, List.cons_append, List.cons_append, List.cons_append,
      List.cons_append, stringBody_unicode hn hchar]
    exact map_cons_append (fun _ => ih) h
  | case5 a b c d high hhigh hsurrogate a' b' c' d' rest low hlow hpair ih =>
    simp only [List.cons_append, stringBody_surrogates hhigh hlow hsurrogate hpair]
    exact map_cons_append (fun _ => ih) h
  | case8 rest hno =>
    obtain ⟨rfl, rfl⟩ := Prod.mk.inj (Option.some_inj.mp h)
    rw [List.cons_append, stringBody_quote]
  | case11 e rest c he hquote hno ih =>
    rw [List.cons_append, List.cons_append, stringBody_escape he]
    exact map_cons_append (fun _ => ih) h
  | case13 c rest hno hquote hbackslash hprintable ih =>
    rw [List.cons_append, stringBody_cons hquote hbackslash, if_neg hprintable]
    exact map_cons_append (fun _ => ih) h
  | _ => cases h

/-! ### Numbers -/

theorem minusPart_cons {x : Char} (hx : x ≠ '-') (s : List Char) :
    minusPart (x :: s) = some ([], x :: s) := by
  simp [minusPart, hx]

theorem fracPart_cons {x : Char} (hx : x ≠ '.') (s : List Char) :
    fracPart (x :: s) = some ([], x :: s) := by
  simp [fracPart, hx]

section Numbers

variable {s a r : List Char} (hr : r ≠ []) (t : List Char)

include hr

theorem digits_append_of_left (h : s.dropWhile Char.isDigit = r) :
    (s ++ t).takeWhile Char.isDigit = s.takeWhile Char.isDigit ∧
      (s ++ t).dropWhile Char.isDigit = r ++ t := by
  subst h
  induction s with
  | nil => exact absurd rfl hr
  | cons x s ih =>
    rw [List.cons_append, List.takeWhile_cons, List.takeWhile_cons, List.dropWhile_cons,
      List.dropWhile_cons]
    by_cases hx : x.isDigit = true
    · rw [List.dropWhile_cons, if_pos hx] at hr
      obtain ⟨htake, hdrop⟩ := ih hr
      simp [hx, htake, hdrop]
    · simp [hx]

theorem intPart_append_of_left (h : intPart s = some (a, r)) :
    intPart (s ++ t) = some (a, r ++ t) := by
  simp only [intPart, Option.ite_none_left_eq_some, Option.some_inj, Prod.mk.injEq] at h ⊢
  obtain ⟨hne, rfl, hrest⟩ := h
  obtain ⟨htake, hdrop⟩ := digits_append_of_left hr t hrest
  rw [htake, hdrop]
  exact ⟨hne, rfl, rfl⟩

theorem digitsPart_append_of_left (h : digitsPart s = some (a, r)) :
    digitsPart (s ++ t) = some (a, r ++ t) := by
  simp only [digitsPart, Option.ite_none_left_eq_some, Option.some_inj, Prod.mk.injEq] at h ⊢
  obtain ⟨hne, rfl, hrest⟩ := h
  obtain ⟨htake, hdrop⟩ := digits_append_of_left hr t hrest
  rw [htake, hdrop]
  exact ⟨hne, rfl, rfl⟩

theorem fracPart_append_of_left (h : fracPart s = some (a, r)) :
    fracPart (s ++ t) = some (a, r ++ t) := by
  cases s with
  | nil =>
    obtain ⟨_, rfl⟩ := Prod.mk.inj (Option.some_inj.mp h)
    exact absurd rfl hr
  | cons x s =>
    by_cases hx : x = '.'
    · subst hx
      obtain ⟨⟨ds, rest⟩, hds, heq⟩ := Option.map_eq_some_iff.mp h
      obtain ⟨rfl, rfl⟩ := Prod.mk.inj heq
      rw [List.cons_append, fracPart, digitsPart_append_of_left hr t hds]
      rfl
    · rw [fracPart_cons hx] at h
      obtain ⟨rfl, rfl⟩ := Prod.mk.inj (Option.some_inj.mp h)
      rw [List.cons_append, fracPart_cons hx]

theorem expPart_append_of_left (h : expPart s = some (a, r)) :
    expPart (s ++ t) = some (a, r ++ t) := by
  cases s with
  | nil =>
    obtain ⟨_, rfl⟩ := Prod.mk.inj (Option.some_inj.mp h)
    exact absurd rfl hr
  | cons x s =>
    rw [expPart] at h
    rw [List.cons_append, expPart]
    split_ifs at h ⊢ with hx
    · obtain ⟨⟨ds, rest⟩, hds, heq⟩ := Option.map_eq_some_iff.mp h
      obtain ⟨rfl, rfl⟩ := Prod.mk.inj heq
      have hne : s ≠ [] := by
        rintro rfl
        cases hds
      have hsign : signPart (s ++ t) = ((signPart s).1, (signPart s).2 ++ t) := by
        cases s with
        | nil => exact absurd rfl hne
        | cons y s =>
          by_cases hplus : y = '+'
          · simp [signPart, hplus]
          · by_cases hminus : y = '-'
            · simp [signPart, hminus]
            · simp [signPart, hplus, hminus]
      rw [hsign, digitsPart_append_of_left hr t hds]
      rfl
    · obtain ⟨rfl, rfl⟩ := Prod.mk.inj (Option.some_inj.mp h)
      rfl

theorem number_append_of_left (h : number s = some (a, r)) :
    number (s ++ t) = some (a, r ++ t) := by
  simp only [number, Option.bind_eq_bind, Option.bind_eq_some_iff, Option.pure_def,
    Option.some_inj, Prod.mk.injEq] at h ⊢
  obtain ⟨m, hm, i, hi, f, hf, e, he, rfl, rfl⟩ := h
  -- as something is left at the end, something is left on the way
  have hf' : f.2 ≠ [] := by
    intro hc
    rw [hc] at he
    exact hr (Prod.mk.inj (Option.some_inj.mp he)).2.symm
  have hi' : i.2 ≠ [] := by
    intro hc
    rw [hc] at hf
    exact hf' (Prod.mk.inj (Option.some_inj.mp hf)).2.symm
  have hm' : minusPart (s ++ t) = some (m.1, m.2 ++ t) := by
    cases s with
    | nil =>
      obtain rfl := Option.some_inj.mp hm
      cases hi
    | cons x s =>
      by_cases hx : x = '-'
      · subst hx
        obtain rfl := Option.some_inj.mp hm
        rfl
      · rw [minusPart_cons hx] at hm
        obtain rfl := Option.some_inj.mp hm
        rw [List.cons_append, minusPart_cons hx]
  exact ⟨_, hm', _, intPart_append_of_left hi' t hi, _, fracPart_append_of_left hf' t hf, _,
    expPart_append_of_left hr t he, rfl, rfl⟩

end Numbers

/-! ### Values by their first character -/

section Value

variable {fuel : ℕ} {s r : List Char}

theorem members_nil (fuel : ℕ) : members fuel [] = none := by
  cases fuel with
  | zero => rfl
  | succ fuel => rfl

theorem value_nil (fuel : ℕ) : value fuel [] = none := by
  cases fuel with
  | zero => rfl
  | succ fuel => rfl

theorem elements_nil (fuel : ℕ) : elements fuel [] = none := by
  cases fuel with
  | zero => rfl
  | succ fuel => rw [elements, value_nil]

/-- An object is empty, or its members follow. -/
theorem value_brace (h : skipWs s = '{' :: r) :
    value (fuel + 1) s = if (skipWs r).head? = some '}' then some (.obj [], (skipWs r).tail)
      else (members fuel (skipWs r)).map fun r => (.obj r.1, r.2) := by
  rw [value, h]
  simp only [if_true]
  cases hr : skipWs r with
  | nil => rw [if_neg (by simp)]
  | cons d r' =>
    by_cases hd : d = '}'
    · rw [hd]
      rfl
    · rw [if_neg (by simpa using hd)]
      split
      · next hcons =>
        injection hcons with hcons
        exact absurd hcons hd
      · rfl

/-- An array is empty, or its elements follow. -/
theorem value_bracket (h : skipWs s = '[' :: r) :
    value (fuel + 1) s = if (skipWs r).head? = some ']' then some (.arr [], (skipWs r).tail)
      else (elements fuel (skipWs r)).map fun r => (.arr r.1, r.2) := by
  have hother : ('[' : Char) ≠ '{' := by decide
  rw [value, h]
  simp only [if_neg hother, if_true]
  cases hr : skipWs r with
  | nil => rw [if_neg (by simp)]
  | cons d r' =>
    by_cases hd : d = ']'
    · rw [hd]
      rfl
    · rw [if_neg (by simpa using hd)]
      split
      · next hcons =>
        injection hcons with hcons
        exact absurd hcons hd
      · rfl

theorem value_quote (h : skipWs s = '"' :: r) :
    value (fuel + 1) s = (stringBody r).map fun r => (.str r.1, r.2) := by
  rw [value, h]
  rfl

/-- The three words. -/
theorem value_word {c : Char} (h : skipWs s = c :: r) (hc : c ∈ ['t', 'f', 'n']) {v : Json}
    {rest : List Char} : value (fuel + 1) s = some (v, rest) ↔
      c :: r = "true".toList ++ rest ∧ v = .bool true ∨
        c :: r = "false".toList ++ rest ∧ v = .bool false ∨
        c :: r = "null".toList ++ rest ∧ v = .null := by
  rw [value, h]
  simp only [List.mem_cons, List.not_mem_nil, or_false] at hc
  rcases hc with rfl | rfl | rfl
  · simp only [Char.reduceEq, if_false, if_true]
    split
    · simp [eq_comm, and_comm]
    · next hno =>
      refine iff_of_false (fun hc => (by cases hc)) ?_
      rintro (⟨hc, _⟩ | ⟨hc, _⟩ | ⟨hc, _⟩)
      · exact hno rest (List.cons_inj_right _ |>.mp hc)
      · cases hc
      · cases hc
  · simp only [Char.reduceEq, if_false, if_true]
    split
    · simp [eq_comm, and_comm]
    · next hno =>
      refine iff_of_false (fun hc => (by cases hc)) ?_
      rintro (⟨hc, _⟩ | ⟨hc, _⟩ | ⟨hc, _⟩)
      · cases hc
      · exact hno rest (List.cons_inj_right _ |>.mp hc)
      · cases hc
  · simp only [Char.reduceEq, if_false, if_true]
    split
    · simp [eq_comm, and_comm]
    · next hno =>
      refine iff_of_false (fun hc => (by cases hc)) ?_
      rintro (⟨hc, _⟩ | ⟨hc, _⟩ | ⟨hc, _⟩)
      · cases hc
      · cases hc
      · exact hno rest (List.cons_inj_right _ |>.mp hc)

theorem value_other {c : Char} (h : skipWs s = c :: r)
    (hc : c ∉ ['{', '[', '"', 't', 'f', 'n']) :
    value (fuel + 1) s = (number (c :: r)).map fun r => (.num r.1, r.2) := by
  simp only [List.mem_cons, List.not_mem_nil, or_false, not_or] at hc
  obtain ⟨hbrace, hbracket, hquote, ht, hf, hn⟩ := hc
  rw [value, h]
  simp only [if_neg hbrace, if_neg hbracket, if_neg hquote, if_neg ht, if_neg hf, if_neg hn]

end Value

/-! ### Elements and members -/

/-- What follows an element or a member: a comma, and then others, or the closing
bracket. -/
def follow {α : Type*} (close : Char) (next : List Char → Option (List α × List Char)) (x : α)
    (s : List Char) : Option (List α × List Char) :=
  match skipWs s with
  | [] => none
  | c :: r =>
    if c = ',' then (next r).map fun p => (x :: p.1, p.2)
    else if c = close then some ([x], r)
    else none

theorem elements_eq (fuel : ℕ) (s : List Char) : elements (fuel + 1) s =
    (value fuel s).bind fun p => follow ']' (elements fuel) p.1 p.2 := by
  rw [elements]
  cases hv : value fuel s with
  | none => rfl
  | some p =>
    simp only [Option.bind_some, follow]
    split
    · next hr =>
      rw [hr]
      rfl
    · next hr =>
      rw [hr]
      rfl
    · next hcomma hclose =>
      cases hr : skipWs p.2 with
      | nil => rfl
      | cons c r =>
        have hc : c ≠ ',' := fun hc => hcomma r (hc ▸ hr)
        have hc' : c ≠ ']' := fun hc => hclose r (hc ▸ hr)
        simp only [if_neg hc, if_neg hc']

/-- What follows a character, if that is the next one. -/
def expect (c : Char) (s : List Char) : Option (List Char) :=
  match skipWs s with
  | [] => none
  | d :: r => if d = c then some r else none

theorem expect_eq_some {c : Char} {s r : List Char} :
    expect c s = some r ↔ skipWs s = c :: r := by
  rw [expect]
  cases skipWs s with
  | nil => simp
  | cons d r' => simp

/-- A key and what is behind its colon. -/
def keyPart (s : List Char) : Option (List Char × List Char) :=
  (expect '"' s).bind fun r => (stringBody r).bind fun p =>
    (expect ':' p.2).map fun r => (p.1, r)

theorem members_eq (fuel : ℕ) (s : List Char) : members (fuel + 1) s =
    (keyPart s).bind fun p => (value fuel p.2).bind fun q =>
      follow '}' (members fuel) (p.1, q.1) q.2 := by
  have hnone : ∀ {c : Char} {s : List Char}, (∀ r, skipWs s = c :: r → False) →
      expect c s = none := by
    intro c s h
    exact Option.eq_none_iff_forall_ne_some.mpr fun r hr => h r (expect_eq_some.mp hr)
  rw [members, keyPart]
  split
  · next r hs =>
    rw [expect_eq_some.mpr hs, Option.bind_some]
    cases hkey : stringBody r with
    | none => rfl
    | some p =>
      simp only [Option.bind_some]
      split
      · next r' hcolon =>
        rw [expect_eq_some.mpr hcolon]
        simp only [Option.map_some, Option.bind_some]
        cases hv : value fuel r' with
        | none => rfl
        | some q =>
          simp only [Option.bind_some, follow]
          split
          · next hr =>
            rw [hr]
            rfl
          · next hr =>
            rw [hr]
            rfl
          · next hcomma hclose =>
            cases hr : skipWs q.2 with
            | nil => rfl
            | cons c r =>
              have hc : c ≠ ',' := fun hc => hcomma r (hc ▸ hr)
              have hc' : c ≠ '}' := fun hc => hclose r (hc ▸ hr)
              simp only [if_neg hc, if_neg hc']
      · next hno =>
        rw [hnone hno]
        rfl
  · next hno =>
    rw [hnone hno]
    rfl

theorem expect_append {c : Char} {s r : List Char} (h : expect c s = some r) (t : List Char) :
    expect c (s ++ t) = some (r ++ t) :=
  expect_eq_some.mpr (skipWs_append (expect_eq_some.mp h) t)

theorem follow_append {α : Type*} {close : Char}
    {next next' : List Char → Option (List α × List Char)} {x : α} {s t rest : List Char}
    {xs : List α} (hnext : ∀ r xs rest, next r = some (xs, rest) →
      next' (r ++ t) = some (xs, rest ++ t))
    (h : follow close next x s = some (xs, rest)) :
    follow close next' x (s ++ t) = some (xs, rest ++ t) := by
  rw [follow] at h ⊢
  cases hs : skipWs s with
  | nil =>
    rw [hs] at h
    cases h
  | cons c r =>
    rw [hs] at h
    rw [skipWs_append hs t]
    simp only at h ⊢
    split_ifs at h ⊢
    · obtain ⟨⟨xs', rest'⟩, hr, heq⟩ := Option.map_eq_some_iff.mp h
      obtain ⟨rfl, rfl⟩ := Prod.mk.inj heq
      rw [hnext r xs' rest' hr]
      rfl
    · obtain ⟨rfl, rfl⟩ := Prod.mk.inj (Option.some_inj.mp h)
      rfl

theorem keyPart_append {s key rest : List Char} (h : keyPart s = some (key, rest))
    (t : List Char) : keyPart (s ++ t) = some (key, rest ++ t) := by
  obtain ⟨r, hquote, h⟩ := Option.bind_eq_some_iff.mp h
  obtain ⟨⟨body, r'⟩, hbody, h⟩ := Option.bind_eq_some_iff.mp h
  obtain ⟨r'', hcolon, heq⟩ := Option.map_eq_some_iff.mp h
  obtain ⟨rfl, rfl⟩ := Prod.mk.inj heq
  rw [keyPart, expect_append hquote t, Option.bind_some, stringBody_append hbody t,
    Option.bind_some, expect_append hcolon t]
  rfl

/-! ### Values -/

/-- What is read as a value is read as that value in front of more text, and with
more fuel.  Only a number that ends with the text may go on. -/
def ValueStable (fuel : ℕ) : Prop :=
  ∀ s v rest, value fuel s = some (v, rest) → (rest = [] → ∀ n, v ≠ .num n) →
    ∀ fuel', fuel ≤ fuel' → ∀ t, value fuel' (s ++ t) = some (v, rest ++ t)

def SequenceStable {α : Type*} (read : ℕ → List Char → Option (List α × List Char))
    (fuel : ℕ) : Prop :=
  ∀ s xs rest, read fuel s = some (xs, rest) →
    ∀ fuel', fuel ≤ fuel' → ∀ t, read fuel' (s ++ t) = some (xs, rest ++ t)

theorem ne_nil_of_follow {α : Type*} {close : Char}
    {next : List Char → Option (List α × List Char)} {x : α} {s rest : List Char} {xs : List α}
    (h : follow close next x s = some (xs, rest)) : s ≠ [] := by
  rintro rfl
  cases h

theorem elements_stable {fuel : ℕ} (hvalue : ValueStable fuel)
    (helements : SequenceStable elements fuel) : SequenceStable elements (fuel + 1) := by
  intro s vs rest h fuel' hle t
  obtain ⟨fuel', rfl⟩ := Nat.exists_eq_add_of_lt hle
  rw [show fuel + fuel' + 1 = (fuel + fuel') + 1 from rfl, elements_eq]
  rw [elements_eq] at h
  obtain ⟨⟨v, r⟩, hv, hfollow⟩ := Option.bind_eq_some_iff.mp h
  have hr : r ≠ [] := ne_nil_of_follow hfollow
  rw [hvalue s v r hv (fun hc => absurd hc hr) _ (Nat.le_add_right _ _) t, Option.bind_some]
  exact follow_append (fun r xs rest hr => helements r xs rest hr _ (Nat.le_add_right _ _) t)
    hfollow

theorem members_stable {fuel : ℕ} (hvalue : ValueStable fuel)
    (hmembers : SequenceStable members fuel) : SequenceStable members (fuel + 1) := by
  intro s ms rest h fuel' hle t
  obtain ⟨fuel', rfl⟩ := Nat.exists_eq_add_of_lt hle
  rw [show fuel + fuel' + 1 = (fuel + fuel') + 1 from rfl, members_eq]
  rw [members_eq] at h
  obtain ⟨⟨key, r⟩, hkey, h⟩ := Option.bind_eq_some_iff.mp h
  obtain ⟨⟨v, r'⟩, hv, hfollow⟩ := Option.bind_eq_some_iff.mp h
  have hr' : r' ≠ [] := ne_nil_of_follow hfollow
  rw [keyPart_append hkey t, Option.bind_some,
    hvalue r v r' hv (fun hc => absurd hc hr') _ (Nat.le_add_right _ _) t, Option.bind_some]
  exact follow_append (fun r xs rest hr => hmembers r xs rest hr _ (Nat.le_add_right _ _) t) hfollow

/-- What an opening bracket is followed by. -/
theorem bracket_append {α : Type*} {read read' : List Char → Option (List α × List Char)}
    {wrap : List α → Json} {close : Char} {s t rest : List Char} {v : Json}
    (hnil : read [] = none)
    (hread : ∀ r xs rest, read r = some (xs, rest) → read' (r ++ t) = some (xs, rest ++ t))
    (h : (if s.head? = some close then some (wrap [], s.tail)
      else (read s).map fun r => (wrap r.1, r.2)) = some (v, rest)) :
    (if (s ++ t).head? = some close then some (wrap [], (s ++ t).tail)
      else (read' (s ++ t)).map fun r => (wrap r.1, r.2)) = some (v, rest ++ t) := by
  cases s with
  | nil =>
    rw [if_neg (by simp), hnil] at h
    cases h
  | cons c s =>
    rw [List.cons_append, List.head?_cons, List.tail_cons]
    rw [List.head?_cons, List.tail_cons] at h
    split_ifs at h ⊢
    · obtain ⟨rfl, rfl⟩ := Prod.mk.inj (Option.some_inj.mp h)
      rfl
    · obtain ⟨⟨xs, rest'⟩, hxs, heq⟩ := Option.map_eq_some_iff.mp h
      obtain ⟨rfl, rfl⟩ := Prod.mk.inj heq
      rw [← List.cons_append, hread _ xs rest' hxs]
      rfl

theorem value_stable {fuel : ℕ} (helements : SequenceStable elements fuel)
    (hmembers : SequenceStable members fuel) : ValueStable (fuel + 1) := by
  intro s v rest h hnum fuel' hle t
  obtain ⟨fuel', rfl⟩ := Nat.exists_eq_add_of_lt hle
  have hle : fuel ≤ fuel + fuel' := Nat.le_add_right _ _
  cases hs : skipWs s with
  | nil =>
    rw [value, hs] at h
    cases h
  | cons c r =>
    have hst := skipWs_append hs t
    by_cases hbrace : c = '\x7b'
    · subst hbrace
      rw [value_brace hs] at h
      rw [value_brace hst]
      cases hr : skipWs r with
      | nil =>
        rw [hr, if_neg (by simp), members_nil] at h
        cases h
      | cons d r' =>
        rw [hr] at h
        rw [skipWs_append hr t]
        exact bracket_append (members_nil fuel)
          (fun r xs rest hxs => hmembers r xs rest hxs _ hle t) h
    by_cases hbracket : c = '['
    · subst hbracket
      rw [value_bracket hs] at h
      rw [value_bracket hst]
      cases hr : skipWs r with
      | nil =>
        rw [hr, if_neg (by simp), elements_nil] at h
        cases h
      | cons d r' =>
        rw [hr] at h
        rw [skipWs_append hr t]
        exact bracket_append (elements_nil fuel)
          (fun r xs rest hxs => helements r xs rest hxs _ hle t) h
    by_cases hquote : c = '"'
    · subst hquote
      rw [value_quote hs] at h
      obtain ⟨⟨body, rest'⟩, hbody, heq⟩ := Option.map_eq_some_iff.mp h
      obtain ⟨rfl, rfl⟩ := Prod.mk.inj heq
      rw [value_quote hst, stringBody_append hbody t]
      rfl
    by_cases hword : c ∈ ['t', 'f', 'n']
    · rw [value_word hst hword]
      rcases (value_word hs hword).mp h with ⟨heq, hv⟩ | ⟨heq, hv⟩ | ⟨heq, hv⟩
      · exact .inl ⟨by rw [← List.cons_append, heq, List.append_assoc], hv⟩
      · exact .inr (.inl ⟨by rw [← List.cons_append, heq, List.append_assoc], hv⟩)
      · exact .inr (.inr ⟨by rw [← List.cons_append, heq, List.append_assoc], hv⟩)
    · have hother : c ∉ ['\x7b', '[', '"', 't', 'f', 'n'] := by
        simp only [List.mem_cons, List.not_mem_nil, or_false, not_or] at hword ⊢
        exact ⟨hbrace, hbracket, hquote, hword⟩
      rw [value_other hs hother] at h
      obtain ⟨⟨n, rest'⟩, hn, heq⟩ := Option.map_eq_some_iff.mp h
      obtain ⟨rfl, rfl⟩ := Prod.mk.inj heq
      have hne : rest' ≠ [] := fun hc => hnum hc n rfl
      rw [value_other hst hother, ← List.cons_append, number_append_of_left hne t hn]
      rfl

theorem stable (fuel : ℕ) :
    ValueStable fuel ∧ SequenceStable elements fuel ∧ SequenceStable members fuel := by
  induction fuel with
  | zero =>
    refine ⟨fun s v rest h => ?_, fun s xs rest h => ?_, fun s xs rest h => ?_⟩
    · cases h
    · cases h
    · cases h
  | succ fuel ih =>
    obtain ⟨hvalue, helements, hmembers⟩ := ih
    exact ⟨value_stable helements hmembers, elements_stable hvalue helements,
      members_stable hvalue hmembers⟩

/-! ### Texts -/

theorem parse_eq_some {s : List Char} {v : Json} : parse s = some v ↔
    ∃ rest, value (s.length + 1) s = some (v, rest) ∧ skipWs rest = [] := by
  rw [parse]
  cases value (s.length + 1) s with
  | none => simp
  | some p =>
    obtain ⟨w, rest⟩ := p
    simp only [Option.ite_none_right_eq_some, Option.some_inj, Prod.mk.injEq]
    constructor
    · rintro ⟨hrest, rfl⟩
      exact ⟨rest, ⟨rfl, rfl⟩, hrest⟩
    · rintro ⟨_, ⟨rfl, rfl⟩, hrest⟩
      exact ⟨hrest, rfl⟩

theorem obj_of_value_brace {fuel : ℕ} {s rest : List Char} {w : Json}
    (h : value fuel ('\x7b' :: s) = some (w, rest)) : ∃ ms, w = .obj ms := by
  cases fuel with
  | zero => cases h
  | succ fuel =>
    rw [value_brace (skipWs_cons (by decide) _)] at h
    split at h
    · injection h with h
      exact ⟨[], (Prod.mk.inj h).1.symm⟩
    · obtain ⟨r, _, hr⟩ := Option.map_eq_some_iff.mp h
      exact ⟨r.1, (Prod.mk.inj hr).1.symm⟩

/-- An object is read no sooner than its last bracket is there. -/
theorem parse_of_strict_prefix {s t : List Char} {v : Json} (ht : t ≠ [])
    (hvalue : value (('\x7b' :: s ++ t).length + 1) ('\x7b' :: s ++ t) = some (v, [])) :
    parse ('\x7b' :: s) = none := by
  cases hparse : parse ('\x7b' :: s) with
  | none => rfl
  | some w =>
    obtain ⟨rest, hvalue', _⟩ := parse_eq_some.mp hparse
    obtain ⟨ms, rfl⟩ := obj_of_value_brace hvalue'
    have hlength : ('\x7b' :: s).length + 1 ≤ ('\x7b' :: s ++ t).length + 1 := by
      rw [List.length_append]
      omega
    have hstable := (stable _).1 _ _ rest hvalue' (fun _ n hc => by cases hc) _ hlength t
    rw [hvalue] at hstable
    have hrest : [] = rest ++ t := (Prod.mk.inj (Option.some_inj.mp hstable)).2
    exact absurd (List.append_eq_nil_iff.mp hrest.symm).2 ht

end JsonText
