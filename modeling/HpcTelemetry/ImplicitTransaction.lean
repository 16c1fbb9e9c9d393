/-
Connections with an implicit transaction.

The first statement that changes data opens a transaction, which stays open until
it is committed.  A statement that raises undoes itself and nothing else.

* `execute`, `executeAll`, `commit` — statements on a connection;
* `executeAll_failed` — a sequence that raises leaves what its statements before
  have done, in the open transaction;
* `executeAll_invariant` — what every statement keeps a sequence keeps, raised or
  not.
-/
import Mathlib.Tactic

namespace ImplicitTransaction

/-- What is committed, and what an open transaction has made of it. -/
structure Connection (σ : Type*) where
  committed : σ
  transaction : Option σ
  deriving DecidableEq

namespace Connection

variable {σ ι : Type*}

/-- What is read over the connection. -/
def seen (c : Connection σ) : σ := c.transaction.getD c.committed

def commit (c : Connection σ) : Connection σ := ⟨c.seen, none⟩

/-- A statement, and whether it was carried out. -/
def execute (c : Connection σ) (statement : σ → Option σ) : Connection σ × Bool :=
  match statement c.seen with
  | none => (⟨c.committed, some c.seen⟩, false)
  | some s => (⟨c.committed, some s⟩, true)

/-- A statement that is committed when it has been carried out. -/
def executeAndCommit (c : Connection σ) (statement : σ → Option σ) : Connection σ :=
  let r := c.execute statement
  if r.2 then r.1.commit else r.1

/-- Statements in order, up to the first that raises. -/
def executeAll (effect : ι → σ → Option σ) : List ι → Connection σ → Connection σ × Option ι
  | [], c => (c, none)
  | i :: statements, c =>
    let r := c.execute (effect i)
    if r.2 then executeAll effect statements r.1 else (r.1, some i)

@[simp] theorem seen_commit (c : Connection σ) : c.commit.seen = c.seen := rfl

theorem execute_of_some {c : Connection σ} {statement : σ → Option σ} {s : σ}
    (h : statement c.seen = some s) : c.execute statement = (⟨c.committed, some s⟩, true) := by
  rw [execute, h]

theorem execute_of_none {c : Connection σ} {statement : σ → Option σ}
    (h : statement c.seen = none) :
    c.execute statement = (⟨c.committed, some c.seen⟩, false) := by
  rw [execute, h]

theorem seen_executeAndCommit (c : Connection σ) (statement : σ → Option σ) :
    (c.executeAndCommit statement).seen = (statement c.seen).getD c.seen := by
  rw [executeAndCommit]
  cases h : statement c.seen with
  | none =>
    rw [execute_of_none h]
    rfl
  | some s =>
    rw [execute_of_some h]
    rfl

/-- A statement that is carried out is followed by the others, in the transaction. -/
theorem executeAll_cons_of_some {effect : ι → σ → Option σ} {i : ι} (statements : List ι)
    {c : Connection σ} {s : σ} (h : effect i c.seen = some s) :
    executeAll effect (i :: statements) c
      = executeAll effect statements ⟨c.committed, some s⟩ := by
  rw [executeAll, execute_of_some h]
  rfl

theorem executeAll_cons_of_none {effect : ι → σ → Option σ} {i : ι} (statements : List ι)
    {c : Connection σ} (h : effect i c.seen = none) :
    executeAll effect (i :: statements) c = (⟨c.committed, some c.seen⟩, some i) := by
  rw [executeAll, execute_of_none h]
  rfl

/-- The statement that raised is one of the sequence. -/
theorem mem_of_executeAll_failed {effect : ι → σ → Option σ} {statements : List ι}
    {c : Connection σ} {i : ι} (h : (executeAll effect statements c).2 = some i) :
    i ∈ statements := by
  induction statements generalizing c with
  | nil => cases h
  | cons j statements ih =>
    cases heffect : effect j c.seen with
    | none =>
      rw [executeAll_cons_of_none _ heffect] at h
      rw [Option.some_inj.mp h]
      exact List.mem_cons_self
    | some s =>
      rw [executeAll_cons_of_some _ heffect] at h
      exact List.mem_cons_of_mem _ (ih h)

/-- What the statements before the one that raised have done. -/
theorem executeAll_failed [DecidableEq ι] {effect : ι → σ → Option σ} {statements : List ι}
    (hnodup : statements.Nodup) {c : Connection σ} {i : ι}
    (h : (executeAll effect statements c).2 = some i) :
    (statements.takeWhile (· ≠ i)).foldlM (fun s j => effect j s) c.seen
      = some (executeAll effect statements c).1.seen := by
  induction statements generalizing c with
  | nil => cases h
  | cons j statements ih =>
    obtain ⟨hj, hnodup⟩ := List.nodup_cons.mp hnodup
    cases heffect : effect j c.seen with
    | none =>
      rw [executeAll_cons_of_none _ heffect] at h ⊢
      obtain rfl : j = i := Option.some_inj.mp h
      rw [List.takeWhile_cons_of_neg (by simp)]
      rfl
    | some s =>
      rw [executeAll_cons_of_some _ heffect] at h ⊢
      -- the one that raises is one of the statements after this
      have hne : j ≠ i := by
        rintro rfl
        exact hj (mem_of_executeAll_failed h)
      rw [List.takeWhile_cons_of_pos (by simpa using hne), List.foldlM_cons, heffect,
        Option.bind_eq_bind, Option.bind_some]
      exact ih hnodup h

/-- What every statement keeps. -/
theorem executeAll_invariant {effect : ι → σ → Option σ} {R : σ → σ → Prop} (hrefl : ∀ s, R s s)
    (htrans : ∀ s t u, R s t → R t u → R s u)
    (hkeeps : ∀ i s t, effect i s = some t → R s t) (statements : List ι) (c : Connection σ) :
    R c.seen (executeAll effect statements c).1.seen := by
  induction statements generalizing c with
  | nil => exact hrefl _
  | cons i statements ih =>
    cases heffect : effect i c.seen with
    | none =>
      rw [executeAll_cons_of_none _ heffect]
      exact hrefl _
    | some s =>
      rw [executeAll_cons_of_some _ heffect]
      exact htrans _ _ _ (hkeeps i _ s heffect) (ih ⟨c.committed, some s⟩)

end Connection

end ImplicitTransaction
