/-
Labelled transition systems.

Executions of a step relation, kept as the list of the steps they take, so
that a property can be asked of the final state, of every state on the way, or
of every step.

* `Run` — a finite execution together with its trace of (state, action) pairs;
* `Run.invariant` — what holds initially and is preserved by every step holds
  at the end;
* `Run.invariant_of_guard` — the same when the steps of this run meet a guard;
* `Run.invariant_with` — the same with the help of another invariant;
* `Run.variant` — a measure that goes down with some steps bounds their number;
* `Run.split` — runs split at every point;
* `Run.rel` — a relation every step extends holds between the ends;
* `Reachable` — some run leads there;
* `Run.simulates` — a run whose steps are steps of another system, or none, seen
  through an abstraction, is a run of that system.
-/
import Mathlib.Tactic

namespace Transitions

variable {σ α : Type*}

/-- A finite execution from `s₀`.  The trace lists each step's state before and
its action, in order. -/
inductive Run (step : σ → α → σ → Prop) (s₀ : σ) : List (σ × α) → σ → Prop where
  | nil : Run step s₀ [] s₀
  | snoc {tr : List (σ × α)} {s s' : σ} {a : α} :
      Run step s₀ tr s → step s a s' → Run step s₀ (tr ++ [(s, a)]) s'

/-- The states some run leads to. -/
def Reachable (step : σ → α → σ → Prop) (s₀ s : σ) : Prop := ∃ tr, Run step s₀ tr s

variable {step : σ → α → σ → Prop} {s₀ s s' : σ} {tr : List (σ × α)}

namespace Run

/-- The invariant rule, for runs all of whose steps meet a guard. -/
theorem invariant_of_guard {Inv : σ → Prop} {G : σ → α → Prop} (hinit : Inv s₀)
    (hstep : ∀ s a s', Inv s → G s a → step s a s' → Inv s')
    (hrun : Run step s₀ tr s) (hguard : ∀ p ∈ tr, G p.1 p.2) : Inv s := by
  induction hrun with
  | nil => exact hinit
  | snoc hrun hs ih =>
    exact hstep _ _ _ (ih fun p hp => hguard p (List.mem_append_left _ hp))
      (hguard _ (List.mem_append_right _ (List.mem_singleton_self _))) hs

/-- The invariant rule. -/
theorem invariant {Inv : σ → Prop} (hinit : Inv s₀)
    (hstep : ∀ s a s', Inv s → step s a s' → Inv s') (hrun : Run step s₀ tr s) : Inv s :=
  hrun.invariant_of_guard (G := fun _ _ => True) hinit
    (fun s a s' hs _ => hstep s a s' hs) fun _ _ => trivial

/-- The invariant rule, with the help of another invariant. -/
theorem invariant_with (I J : σ → Prop) (hinit : I s₀) (hstep : ∀ s a s', I s → step s a s' → I s')
    (hinit' : J s₀) (hstep' : ∀ s a s', I s → J s → step s a s' → J s')
    (hrun : Run step s₀ tr s) : J s := by
  have hboth : I s ∧ J s := by
    induction hrun with
    | nil => exact ⟨hinit, hinit'⟩
    | snoc _ hs ih => exact ⟨hstep _ _ _ ih.1 hs, hstep' _ _ _ ih.1 ih.2 hs⟩
  exact hboth.2

/-- The variant rule: where a measure goes down with each step of a kind and up
with none, it bounds the number of those steps. -/
theorem variant (I : σ → Prop) (μ : σ → ℕ) (p : α → Bool) (hinit : I s₀)
    (hinv : ∀ s a s', I s → step s a s' → I s')
    (hstep : ∀ s a s', I s → step s a s' → μ s' + (if p a then 1 else 0) ≤ μ s)
    (hrun : Run step s₀ tr s) : μ s + tr.countP (fun q => p q.2) ≤ μ s₀ := by
  have hboth : I s ∧ μ s + tr.countP (fun q => p q.2) ≤ μ s₀ := by
    induction hrun with
    | nil => exact ⟨hinit, le_rfl⟩
    | @snoc tr s s' a _ hs ih =>
      refine ⟨hinv _ _ _ ih.1 hs, ?_⟩
      have hdown := hstep _ _ _ ih.1 hs
      have hle := ih.2
      rw [List.countP_append, List.countP_singleton]
      simp only
      omega
  exact hboth.2

/-- A run goes on with another one. -/
theorem append {tr' : List (σ × α)} (h : Run step s₀ tr s) (h' : Run step s tr' s') :
    Run step s₀ (tr ++ tr') s' := by
  induction h' with
  | nil => rwa [List.append_nil]
  | snoc _ hs ih =>
    rw [← List.append_assoc]
    exact ih.snoc hs

/-- A run can be cut before each of its steps. -/
theorem split {p : σ × α} {tr₁ tr₂ : List (σ × α)}
    (h : Run step s₀ (tr₁ ++ p :: tr₂) s) :
    ∃ s', Run step s₀ tr₁ p.1 ∧ step p.1 p.2 s' ∧ Run step s' tr₂ s := by
  induction tr₂ using List.reverseRecOn generalizing s with
  | nil =>
    generalize htr : tr₁ ++ [p] = tr at h
    cases h with
    | nil => simp at htr
    | snoc hrun hs =>
      obtain ⟨rfl, hp⟩ := List.append_inj' htr rfl
      rw [List.singleton_inj] at hp
      subst hp
      exact ⟨_, hrun, hs, .nil⟩
  | append_singleton tr₂ q ih =>
    generalize htr : tr₁ ++ p :: (tr₂ ++ [q]) = tr at h
    cases h with
    | nil => simp at htr
    | snoc hrun hs =>
      rw [← List.cons_append, ← List.append_assoc] at htr
      obtain ⟨rfl, hq⟩ := List.append_inj' htr rfl
      rw [List.singleton_inj] at hq
      subst hq
      obtain ⟨s', h₁, h₂, h₃⟩ := ih hrun
      exact ⟨s', h₁, h₂, h₃.snoc hs⟩

/-- A relation that every step extends holds between the ends of a run. -/
theorem rel {R : σ → σ → Prop} (hrefl : ∀ s, R s s) (htrans : ∀ {a b c}, R a b → R b c → R a c)
    (hstep : ∀ s a s', step s a s' → R s s') (hrun : Run step s₀ tr s) : R s₀ s := by
  induction hrun with
  | nil => exact hrefl _
  | snoc _ hs ih => exact htrans ih (hstep _ _ _ hs)

end Run

theorem Reachable.refl : Reachable step s₀ s₀ := ⟨[], .nil⟩

theorem Reachable.snoc {a : α} (h : Reachable step s₀ s) (hs : step s a s') :
    Reachable step s₀ s' := by
  obtain ⟨tr, hrun⟩ := h
  exact ⟨_, hrun.snoc hs⟩

/-- The simulation rule, for an abstraction `f` and runs that meet a guard. -/
theorem Run.simulates {σ' α' : Type*} {step' : σ' → α' → σ' → Prop} {f : σ → σ'} {Inv : σ → Prop}
    {G : σ → α → Prop} (hinit : Inv s₀)
    (hstep : ∀ s a s', Inv s → G s a → step s a s' →
      Inv s' ∧ (f s' = f s ∨ ∃ b, step' (f s) b (f s')))
    (hrun : Run step s₀ tr s) (hguard : ∀ p ∈ tr, G p.1 p.2) :
    Inv s ∧ Reachable step' (f s₀) (f s) := by
  induction hrun with
  | nil => exact ⟨hinit, .refl⟩
  | @snoc tr s s' a hrun hs ih =>
    obtain ⟨hinv, hreach⟩ := ih fun p hp => hguard p (List.mem_append_left _ hp)
    have hg := hguard (s, a) (List.mem_append_right _ (List.mem_singleton_self _))
    obtain ⟨hinv', hsame | ⟨b, hb⟩⟩ := hstep s a s' hinv hg hs
    · exact ⟨hinv', hsame ▸ hreach⟩
    · exact ⟨hinv', hreach.snoc hb⟩

/-- The invariant rule for reachable states. -/
theorem Reachable.invariant (Inv : σ → Prop) (hinit : Inv s₀)
    (hstep : ∀ s a s', Inv s → step s a s' → Inv s') (h : Reachable step s₀ s) : Inv s := by
  obtain ⟨_, hrun⟩ := h
  exact hrun.invariant hinit hstep

end Transitions
