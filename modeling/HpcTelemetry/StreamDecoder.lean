/-
Incremental decoding of a stream of self-delimiting items.

A receiver sees a byte stream in arbitrary pieces and must cut it into items.
The library fixes what makes that well defined: a one-item decoder whose
verdict on a buffer never changes when more symbols arrive.

* `StreamDecoder` — a one-item decoder with its stability laws;
* `StreamDecoder.scan` — the items at the front of a buffer and what follows
  them, either an unfinished item or a point where decoding is impossible;
* `scan_append` — scanning a longer stream resumes from the leftover of the
  shorter one, so where the stream was cut does not matter;
* `Encodes.scan_encoded` — the scan of encoded items followed by a strict
  prefix of one more;
* `consume` — handling scanned items one by one until the handler stops, with
  its law for appended item lists.
-/
import Mathlib.Tactic

/-- The verdict of a decoder on the front of a buffer. -/
inductive Verdict (φ : Type*) where
  /-- More symbols are needed before anything can be said. -/
  | incomplete
  /-- No continuation of the buffer starts with an item. -/
  | invalid
  /-- The first item, and how many symbols it occupies. -/
  | item (x : φ) (n : ℕ)
  deriving DecidableEq

/-- A one-item decoder that may be asked again as its buffer grows: an item
occupies a nonempty part of the buffer, and neither an item nor a refusal is
revoked by further symbols. -/
structure StreamDecoder (β φ : Type*) where
  decode : List β → Verdict φ
  decode_nil : decode [] = .incomplete
  item_pos : ∀ {bs x n}, decode bs = .item x n → 0 < n
  item_le : ∀ {bs x n}, decode bs = .item x n → n ≤ bs.length
  item_append : ∀ {bs x n}, decode bs = .item x n → ∀ cs, decode (bs ++ cs) = .item x n
  invalid_append : ∀ {bs}, decode bs = .invalid → ∀ cs, decode (bs ++ cs) = .invalid

/-- What is left of a buffer once its items are taken off. -/
inductive Leftover (β : Type*) where
  /-- An unfinished item, possibly empty. -/
  | pending (bs : List β)
  /-- Symbols no item starts with. -/
  | invalid
  deriving DecidableEq

namespace StreamDecoder

variable {β φ : Type*} (d : StreamDecoder β φ)

/-- Scanning with a bound on the number of items. -/
def scanFuel : ℕ → List β → List φ × Leftover β
  | 0, bs => ([], .pending bs)
  | fuel + 1, bs =>
    match d.decode bs with
    | .incomplete => ([], .pending bs)
    | .invalid => ([], .invalid)
    | .item x n =>
      let r := scanFuel fuel (bs.drop n)
      (x :: r.1, r.2)

/-- The items at the front of `bs`, in order, and what follows them. -/
def scan (bs : List β) : List φ × Leftover β := d.scanFuel bs.length bs

/-- Fuel beyond the length of the buffer changes nothing. -/
theorem scanFuel_eq : ∀ {fuel fuel' : ℕ} {bs : List β},
    bs.length ≤ fuel → bs.length ≤ fuel' → d.scanFuel fuel bs = d.scanFuel fuel' bs := by
  intro fuel
  induction fuel with
  | zero =>
    intro fuel' bs h _
    have hbs : bs = [] := List.length_eq_zero_iff.mp (Nat.le_zero.mp h)
    subst hbs
    rcases fuel' with _ | fuel'
    · rfl
    · simp [scanFuel, d.decode_nil]
  | succ fuel ih =>
    intro fuel' bs h h'
    rcases fuel' with _ | fuel'
    · have hbs : bs = [] := List.length_eq_zero_iff.mp (Nat.le_zero.mp h')
      subst hbs
      simp [scanFuel, d.decode_nil]
    · rw [scanFuel, scanFuel]
      cases hd : d.decode bs with
      | incomplete => rfl
      | invalid => rfl
      | item x n =>
        have hpos := d.item_pos hd
        have hle := d.item_le hd
        have hlen : (bs.drop n).length = bs.length - n := List.length_drop ..
        -- an item is not empty, so both runs have fuel for the rest
        have hrec : d.scanFuel fuel (bs.drop n) = d.scanFuel fuel' (bs.drop n) :=
          ih (by omega) (by omega)
        simp only [hrec]

theorem scan_of_incomplete {bs : List β} (h : d.decode bs = .incomplete) :
    d.scan bs = ([], .pending bs) := by
  rw [scan]
  rcases hl : bs.length with _ | k
  · rfl
  · simp [scanFuel, h]

@[simp] theorem scan_nil : d.scan [] = ([], .pending []) :=
  d.scan_of_incomplete d.decode_nil

theorem ne_nil_of_invalid {bs : List β} (h : d.decode bs = .invalid) : bs ≠ [] := by
  rintro rfl
  rw [d.decode_nil] at h
  cases h

theorem scan_of_invalid {bs : List β} (h : d.decode bs = .invalid) :
    d.scan bs = ([], .invalid) := by
  obtain ⟨b, bs, rfl⟩ := List.exists_cons_of_ne_nil (d.ne_nil_of_invalid h)
  rw [scan, List.length_cons, scanFuel, h]

theorem scan_of_item {bs : List β} {x : φ} {n : ℕ} (h : d.decode bs = .item x n) :
    d.scan bs = (x :: (d.scan (bs.drop n)).1, (d.scan (bs.drop n)).2) := by
  have hpos := d.item_pos h
  have hle := d.item_le h
  obtain ⟨k, hk⟩ : ∃ k, bs.length = k + 1 := ⟨bs.length - 1, by omega⟩
  have hlen : (bs.drop n).length = bs.length - n := List.length_drop ..
  rw [scan, hk, scanFuel, h]
  have hrec : d.scanFuel k (bs.drop n) = d.scan (bs.drop n) :=
    d.scanFuel_eq (by omega) le_rfl
  simp only [hrec]

/-- Scanning by the decoder's own cases: the induction every fact about `scan`
follows, on the length of the buffer. -/
theorem scan_induction {P : List β → Prop}
    (incomplete : ∀ bs, d.decode bs = .incomplete → P bs)
    (invalid : ∀ bs, d.decode bs = .invalid → P bs)
    (item : ∀ bs x n, d.decode bs = .item x n → P (bs.drop n) → P bs) : ∀ bs, P bs := by
  intro bs
  induction hlen : bs.length using Nat.strong_induction_on generalizing bs with
  | _ k ih =>
    cases hd : d.decode bs with
    | incomplete => exact incomplete bs hd
    | invalid => exact invalid bs hd
    | item x n =>
      have hpos := d.item_pos hd
      have hle := d.item_le hd
      have hdrop : (bs.drop n).length = bs.length - n := List.length_drop ..
      exact item bs x n hd (ih _ (by omega) _ rfl)

/-- The leftover of a scan is an unfinished item: nothing more can be taken
off it. -/
theorem decode_of_scan_pending {bs b : List β} :
    (d.scan bs).2 = .pending b → d.decode b = .incomplete := by
  induction bs using d.scan_induction with
  | incomplete bs h =>
    intro hp
    rw [d.scan_of_incomplete h] at hp
    injection hp with hb
    exact hb ▸ h
  | invalid bs h =>
    intro hp
    rw [d.scan_of_invalid h] at hp
    cases hp
  | item bs x n h ih =>
    intro hp
    rw [d.scan_of_item h] at hp
    exact ih hp

/-- Appended symbols are scanned from the leftover on. -/
theorem scan_append_pending {bs b : List β} (cs : List β) :
    (d.scan bs).2 = .pending b →
      d.scan (bs ++ cs) = ((d.scan bs).1 ++ (d.scan (b ++ cs)).1, (d.scan (b ++ cs)).2) := by
  induction bs using d.scan_induction with
  | incomplete bs h =>
    intro hp
    rw [d.scan_of_incomplete h] at hp ⊢
    injection hp with hb
    subst hb
    simp
  | invalid bs h =>
    intro hp
    rw [d.scan_of_invalid h] at hp
    cases hp
  | item bs x n h ih =>
    intro hp
    rw [d.scan_of_item h] at hp
    have hle := d.item_le h
    rw [d.scan_of_item (d.item_append h cs), List.drop_append_of_le_length hle, ih hp,
      d.scan_of_item h]
    simp

/-- Once decoding is impossible no further symbol yields an item. -/
theorem scan_append_invalid {bs : List β} (cs : List β) :
    (d.scan bs).2 = .invalid → d.scan (bs ++ cs) = d.scan bs := by
  induction bs using d.scan_induction with
  | incomplete bs h =>
    intro hp
    rw [d.scan_of_incomplete h] at hp
    cases hp
  | invalid bs h =>
    intro _
    rw [d.scan_of_invalid h, d.scan_of_invalid (d.invalid_append h cs)]
  | item bs x n h ih =>
    intro hp
    rw [d.scan_of_item h] at hp ⊢
    rw [d.scan_of_item (d.item_append h cs),
      List.drop_append_of_le_length (d.item_le h), ih hp]

/-- The items of a stream are a prefix of the items of every extension. -/
theorem scan_prefix (bs cs : List β) : (d.scan bs).1 <+: (d.scan (bs ++ cs)).1 := by
  cases h : (d.scan bs).2 with
  | pending b =>
    rw [d.scan_append_pending cs h]
    exact List.prefix_append _ _
  | invalid =>
    rw [d.scan_append_invalid cs h]

/-- A stream some extension of which still decodes has not become invalid. -/
theorem scan_pending_of_append {bs cs b : List β} (h : (d.scan (bs ++ cs)).2 = .pending b) :
    ∃ b', (d.scan bs).2 = .pending b' := by
  cases hbs : (d.scan bs).2 with
  | pending b' => exact ⟨b', rfl⟩
  | invalid =>
    rw [d.scan_append_invalid cs hbs, hbs] at h
    cases h

/-! ### Encoded streams -/

section Encoded

variable {ι : Type*} {d} {P : ι → Prop} {enc : ι → List β} {val : ι → φ}

/-- `enc` writes what `d` reads: for every source that satisfies `P`, the first
item of its encoding is its value, whatever follows. -/
def Encodes (d : StreamDecoder β φ) (P : ι → Prop) (enc : ι → List β) (val : ι → φ) : Prop :=
  ∀ i, P i → ∀ cs, d.decode (enc i ++ cs) = .item (val i) (enc i).length

/-- A strict prefix of an encoded item is unfinished, never refused. -/
theorem Encodes.decode_strict_prefix (henc : d.Encodes P enc val) {i : ι} (hi : P i)
    {p q : List β} (hpq : enc i = p ++ q) (hq : q ≠ []) : d.decode p = .incomplete := by
  have hfull : d.decode (p ++ q) = .item (val i) (p ++ q).length := by
    have := henc i hi []
    rwa [List.append_nil, hpq] at this
  cases hp : d.decode p with
  | incomplete => rfl
  | invalid =>
    rw [d.invalid_append hp q] at hfull
    cases hfull
  | item y n =>
    -- the item would have to fill the whole encoding, of which `q` is missing
    rw [d.item_append hp q] at hfull
    injection hfull with _ hn
    have hle := d.item_le hp
    have hpos : 0 < q.length := List.length_pos_iff.mpr hq
    rw [List.length_append] at hn
    omega

/-- Encoded items followed by anything scan to the items followed by its scan. -/
theorem Encodes.scan_flatMap (henc : d.Encodes P enc val) {is : List ι}
    (his : ∀ i ∈ is, P i) (cs : List β) :
    d.scan (is.flatMap enc ++ cs) = (is.map val ++ (d.scan cs).1, (d.scan cs).2) := by
  induction is with
  | nil => simp
  | cons i is ih =>
    have hi := henc i (his i List.mem_cons_self) (is.flatMap enc ++ cs)
    rw [List.flatMap_cons, List.append_assoc, d.scan_of_item hi, List.drop_left,
      ih fun j hj => his j (List.mem_cons_of_mem i hj)]
    rfl

/-- The exact scan of whole items followed by a strict prefix of one more. -/
theorem Encodes.scan_encoded (henc : d.Encodes P enc val) {is : List ι} (his : ∀ i ∈ is, P i)
    {i : ι} (hi : P i) {p q : List β} (hpq : enc i = p ++ q) (hq : q ≠ []) :
    d.scan (is.flatMap enc ++ p) = (is.map val, .pending p) := by
  rw [henc.scan_flatMap his, d.scan_of_incomplete (henc.decode_strict_prefix hi hpq hq),
    List.append_nil]

/-- The exact scan of whole items. -/
theorem Encodes.scan_whole (henc : d.Encodes P enc val) {is : List ι} (his : ∀ i ∈ is, P i) :
    d.scan (is.flatMap enc) = (is.map val, .pending []) := by
  simpa using henc.scan_flatMap his []

/-- A stream cut anywhere in whole items followed by a strict prefix of one
more: no refusal, and the items it holds are the first ones that were sent. -/
theorem Encodes.scan_cut (henc : d.Encodes P enc val) {is : List ι} (his : ∀ i ∈ is, P i)
    {i : ι} (hi : P i) {p q s : List β} (hpq : enc i = p ++ q) (hq : q ≠ [])
    (hs : s <+: is.flatMap enc ++ p) :
    ∃ b, (d.scan s).2 = .pending b ∧ (d.scan s).1 <+: is.map val := by
  obtain ⟨t, ht⟩ := hs
  have hall : d.scan (s ++ t) = (is.map val, .pending p) := by
    rw [ht]
    exact henc.scan_encoded his hi hpq hq
  obtain ⟨b, hb⟩ := d.scan_pending_of_append (by rw [hall])
  refine ⟨b, hb, ?_⟩
  have hpre := d.scan_prefix s t
  rwa [hall] at hpre

end Encoded

end StreamDecoder

/-! ### Handling items until the handler stops -/

section Consume

variable {φ σ : Type*}

/-- Feed items to a handler one at a time; from a stopped state nothing is
handled any more. -/
def consume (stopped : σ → Bool) (handle : φ → σ → σ) : List φ → σ → σ
  | [], s => s
  | x :: xs, s => if stopped s then s else consume stopped handle xs (handle x s)

variable {stopped : σ → Bool} {handle : φ → σ → σ}

theorem consume_of_stopped {s : σ} (h : stopped s = true) (xs : List φ) :
    consume stopped handle xs s = s := by
  cases xs with
  | nil => rfl
  | cons x xs => rw [consume, if_pos h]

theorem consume_cons_of_running {s : σ} (h : stopped s = false) (x : φ) (xs : List φ) :
    consume stopped handle (x :: xs) s = consume stopped handle xs (handle x s) := by
  rw [consume, h]
  rfl

theorem consume_append (xs ys : List φ) (s : σ) :
    consume stopped handle (xs ++ ys) s
      = consume stopped handle ys (consume stopped handle xs s) := by
  induction xs generalizing s with
  | nil => rfl
  | cons x xs ih =>
    cases hs : stopped s with
    | true => rw [consume_of_stopped hs, consume_of_stopped hs, consume_of_stopped hs]
    | false =>
      rw [List.cons_append, consume_cons_of_running hs, consume_cons_of_running hs, ih]

/-- What one item preserves, any list of items preserves. -/
theorem consume_invariant (Inv : σ → Prop) {xs : List φ}
    (hstep : ∀ x ∈ xs, ∀ s, Inv s → Inv (handle x s)) {s : σ} (hs : Inv s) :
    Inv (consume stopped handle xs s) := by
  induction xs generalizing s with
  | nil => exact hs
  | cons x xs ih =>
    rw [consume]
    split
    · exact hs
    · exact ih (fun y hy => hstep y (List.mem_cons_of_mem x hy))
        (hstep x List.mem_cons_self s hs)

end Consume
