/-
Codecs of JSON values.

A codec says how a value is written and how it is read back, also after the
members of all objects have been sorted.  Records are read key by key; where a key
is repeated the last member counts, as it does in a Python dictionary.

* `JsonCodec` — a codec, and the law that makes it one;
* `string`, `int`, `bool`, `optional`, `list`, `tagged` — codecs of simple values,
  of lists, and of what is written as something else;
* `field_sorted` — the field of an object that was sorted.
-/
import HpcTelemetry.JsonDumps

namespace JsonText

/-! ### Fields -/

/-- `value[key]`, the last member with this key. -/
def Json.item (v : Json) (key : String) : Option Json :=
  match v with
  | .obj ms => ms.reverse.lookup key.toList
  | _ => none

theorem item_sorted {ms : List (List Char × Json)} (hnodup : (ms.map Prod.fst).Nodup)
    (key : String) : (sorted (.obj ms)).item key = (sorted (.obj ms)).get key.toList := by
  have hnodup' : ((sortMembers (sortedValues ms)).map Prod.fst).Nodup := by
    rw [sortMembers, ((List.perm_insertionSort _ _).map Prod.fst).nodup_iff, keys_sortedValues]
    exact hnodup
  rw [sorted, Json.item, Json.get]
  exact lookup_of_perm (List.reverse_perm _) hnodup' _

/-- A way to write values and to read them back. -/
structure JsonCodec (α : Type*) where
  write : α → Json
  read : Json → Option α
  wellFormed : ∀ a, WellFormed (write a)
  read_sorted : ∀ a, read (sorted (write a)) = some a

namespace JsonCodec

variable {α β : Type*}

/-- The value under a key. -/
def field (c : JsonCodec α) (key : String) (v : Json) : Option α := (v.item key).bind c.read

theorem field_sorted (c : JsonCodec α) {ms : List (List Char × Json)}
    (hnodup : (ms.map Prod.fst).Nodup) {key : String} {a : α}
    (h : (key.toList, c.write a) ∈ ms) : c.field key (sorted (.obj ms)) = some a := by
  rw [field, item_sorted hnodup, get_sorted hnodup h, Option.bind_some, c.read_sorted]

theorem field_of_notMem (c : JsonCodec α) {ms : List (List Char × Json)}
    (hnodup : (ms.map Prod.fst).Nodup) {key : String} (h : key.toList ∉ ms.map Prod.fst) :
    c.field key (sorted (.obj ms)) = none := by
  rw [field, item_sorted hnodup, get_sorted_of_notMem hnodup h, Option.bind_none]

/-! ### Simple values -/

def string : JsonCodec String where
  write s := .str s.toList
  read
    | .str s => some (String.ofList s)
    | _ => none
  wellFormed := fun _ => .str
  read_sorted := fun s => by
    show some (String.ofList s.toList) = some s
    rw [String.ofList_toList]

def int : JsonCodec ℤ where
  write i := .num (intLiteral i)
  read
    | .num literal => readInt literal
    | _ => none
  wellFormed := fun i => .num (isNumber_intLiteral i)
  read_sorted := readInt_intLiteral

def bool : JsonCodec Bool where
  write b := .bool b
  read
    | .bool b => some b
    | _ => none
  wellFormed := fun _ => .bool
  read_sorted := fun _ => rfl

/-- What is written as something else. -/
def tagged (c : JsonCodec α) (name : β → α) (ofName : α → Option β)
    (hname : ∀ b, ofName (name b) = some b) : JsonCodec β where
  write b := c.write (name b)
  read v := (c.read v).bind ofName
  wellFormed := fun b => c.wellFormed (name b)
  read_sorted := fun b => by rw [c.read_sorted, Option.bind_some, hname]

/-! ### Optional values and lists -/

theorem sorted_eq_null {v : Json} : sorted v = .null ↔ v = .null := by
  cases v with
  | null => simp [sorted]
  | bool b => simp [sorted]
  | num literal => simp [sorted]
  | str s => simp [sorted]
  | arr items => simp [sorted]
  | obj ms => simp [sorted]

/-- `None` is written as `null`. -/
def optional (c : JsonCodec α) (hnull : ∀ a, c.write a ≠ .null) : JsonCodec (Option α) where
  write
    | none => .null
    | some a => c.write a
  read
    | .null => some none
    | v => (c.read v).map some
  wellFormed := fun a => by
    cases a with
    | none => exact .null
    | some a => exact c.wellFormed a
  read_sorted := fun a => by
    cases a with
    | none => rfl
    | some a =>
      split
      · next h => exact absurd (sorted_eq_null.mp h) (hnull a)
      · rw [c.read_sorted]
        rfl

def list (c : JsonCodec α) : JsonCodec (List α) where
  write as := .arr (as.map c.write)
  read
    | .arr items => items.mapM c.read
    | _ => none
  wellFormed := fun as => by
    refine .arr fun v hv => ?_
    obtain ⟨a, _, rfl⟩ := List.mem_map.mp hv
    exact c.wellFormed a
  read_sorted := fun as => by
    rw [sorted, sortedItems_eq]
    show ((as.map c.write).map sorted).mapM c.read = some as
    induction as with
    | nil => rfl
    | cons a as ih =>
      rw [List.map_cons, List.map_cons, List.mapM_cons, c.read_sorted, ih]
      rfl

end JsonCodec

end JsonText
