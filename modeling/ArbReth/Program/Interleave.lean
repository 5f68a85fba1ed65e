import ArbReth.Program.Realizes
import Mathlib.Logic.Function.Basic

/-!
# `ArbReth.Program.Interleave`: components that share a state

Some components work on one state. The relation `R i` says which states represent an
abstract state of the component `i`, and `Together R` that a state represents one of each.
An operation of a component realizes its abstract operation on the family of all abstract
states, when it keeps what the other components represent (`realizes_together`).

A sequence of operations of all components is a list over `Sigma Op`. `specOps_together`
says that on abstract states an interleaving is what its parts are: each component ends in
the state that its own operations lead to when they run alone, with the same results.
`interleaved` joins the two: in every interleaving of the programs, each component behaves
as if it were alone.

`OnParts` says the same of steps without abstract states: each component has a part of the
state that no other component reads or changes.
-/

set_option autoImplicit false

namespace ArbReth.Program

variable {Cmd : Type} {Resp : Cmd → Type} {ε ρ σ : Type} {ι : Type} {τ Op : ι → Type}

/-- The state represents an abstract state of each component. -/
def Together (R : (i : ι) → σ → τ i → Prop) (s : σ) (t : (i : ι) → τ i) : Prop :=
  ∀ i, R i s (t i)

variable [DecidableEq ι]

/-- A program of the component `i` that keeps what the other components represent. -/
theorem realizes_together {h : Handler Resp σ} {R : (i : ι) → σ → τ i → Prop}
    {p : Prog Resp ε ρ} {t : (i : ι) → τ i} {i : ι} {r : Outcome ε ρ} {x : τ i}
    (hp : Realizes h (R i) p (t i) r x)
    (hkeep : ∀ j, j ≠ i → ∀ s, Together R s t → R j (p.exec h s).2 (t j)) :
    Realizes h (Together R) p t r (Function.update t i x) := by
  intro s hs
  obtain ⟨s', hrun, hs'⟩ := hp s (hs i)
  refine ⟨s', hrun, ?_⟩
  intro j
  by_cases hj : j = i
  · subst hj
    rw [Function.update_self]
    exact hs'
  · have hother := hkeep j hj s hs
    rw [hrun] at hother
    rw [Function.update_of_ne hj]
    exact hother

/-! ### Abstract operations of all components -/

/-- The operation of a component on the family of the abstract states. -/
def together (spec : (i : ι) → Op i → τ i → Outcome ε ρ × τ i) (op : Sigma Op)
    (t : (i : ι) → τ i) : Outcome ε ρ × ((i : ι) → τ i) :=
  let r := spec op.1 op.2 (t op.1)
  (r.1, Function.update t op.1 r.2)

/-- The operations of the component `i`, in their order. -/
def opsOf (i : ι) : List (Sigma Op) → List (Op i)
  | [] => []
  | ⟨j, op⟩ :: ops => if hj : j = i then hj ▸ op :: opsOf i ops else opsOf i ops

/-- The results of the operations of the component `i`. -/
def resultsOf (i : ι) : List (Sigma Op) → List (Outcome ε ρ) → List (Outcome ε ρ)
  | op :: ops, r :: rs => if op.1 = i then r :: resultsOf i ops rs else resultsOf i ops rs
  | _, _ => []

/-- On abstract states, each component of an interleaving is as it is alone. -/
theorem specOps_together (spec : (i : ι) → Op i → τ i → Outcome ε ρ × τ i) (i : ι)
    (ops : List (Sigma Op)) (t : (i : ι) → τ i) :
    resultsOf i ops (specOps (together spec) ops t).1 = (specOps (spec i) (opsOf i ops) (t i)).1
      ∧ (specOps (together spec) ops t).2 i = (specOps (spec i) (opsOf i ops) (t i)).2 := by
  induction ops generalizing t with
  | nil => exact ⟨rfl, rfl⟩
  | cons op ops ih =>
      obtain ⟨j, op⟩ := op
      obtain ⟨hresults, hstate⟩ := ih (together spec ⟨j, op⟩ t).2
      by_cases hj : j = i
      · subst hj
        have hown : (together spec ⟨j, op⟩ t).2 j = (spec j op (t j)).2 :=
          Function.update_self _ _ _
        rw [hown] at hresults hstate
        simp only [specOps, resultsOf, opsOf, dite_true, if_true]
        exact ⟨congrArg _ hresults, hstate⟩
      · have hother : (together spec ⟨j, op⟩ t).2 i = t i :=
          Function.update_of_ne (Ne.symm hj) _ _
        rw [hother] at hresults hstate
        simp only [specOps, resultsOf, opsOf, hj, dite_false, if_false]
        exact ⟨hresults, hstate⟩

/-- The operations of each component are admissible when they run alone. -/
theorem admissibleOps_together {spec : (i : ι) → Op i → τ i → Outcome ε ρ × τ i}
    {Adm : (i : ι) → τ i → Op i → Prop} (ops : List (Sigma Op)) (t : (i : ι) → τ i)
    (hadm : ∀ i, AdmissibleOps (spec i) (Adm i) (opsOf i ops) (t i)) :
    AdmissibleOps (together spec) (fun t op => Adm op.1 (t op.1) op.2) ops t := by
  induction ops generalizing t with
  | nil => exact trivial
  | cons op ops ih =>
      obtain ⟨j, op⟩ := op
      have hj := hadm j
      simp only [opsOf, dite_true] at hj
      refine ⟨hj.1, ih _ ?_⟩
      intro i
      by_cases hi : j = i
      · subst hi
        show AdmissibleOps _ _ _ (Function.update t j (spec j op (t j)).2 j)
        rw [Function.update_self]
        exact hj.2
      · have hrest := hadm i
        simp only [opsOf, hi, dite_false] at hrest
        show AdmissibleOps _ _ _ (Function.update t j (spec j op (t j)).2 i)
        rw [Function.update_of_ne (Ne.symm hi)]
        exact hrest

/-- In every interleaving of the programs of the components, each component has the results
that its own operations have alone, and ends in the state that they lead to. -/
theorem interleaved {h : Handler Resp σ} {R : (i : ι) → σ → τ i → Prop}
    {step : (i : ι) → Op i → Prog Resp ε ρ} {spec : (i : ι) → Op i → τ i → Outcome ε ρ × τ i}
    {Adm : (i : ι) → τ i → Op i → Prop}
    (hstep : ∀ i t op, Adm i t op → Realizes h (R i) (step i op) t (spec i op t).1 (spec i op t).2)
    (hkeep : ∀ i op j, j ≠ i → ∀ s t, Together R s t → R j ((step i op).exec h s).2 (t j))
    (ops : List (Sigma Op)) (s : σ) (t : (i : ι) → τ i) (hR : Together R s t)
    (hadm : ∀ i, AdmissibleOps (spec i) (Adm i) (opsOf i ops) (t i)) :
    ∀ i, resultsOf i ops (runOps h (fun op => step op.1 op.2) ops s).1
        = (specOps (spec i) (opsOf i ops) (t i)).1
      ∧ R i (runOps h (fun op => step op.1 op.2) ops s).2
          (specOps (spec i) (opsOf i ops) (t i)).2 := by
  have hone : ∀ t (op : Sigma Op), Adm op.1 (t op.1) op.2 →
      Realizes h (Together R) (step op.1 op.2) t (together spec op t).1 (together spec op t).2 :=
    fun t op hop => realizes_together (hstep op.1 (t op.1) op.2 hop)
      fun j hj s hs => hkeep op.1 op.2 j hj s t hs
  have hrun := runOps_realizes hone ops s t hR (admissibleOps_together ops t hadm)
  intro i
  obtain ⟨hresults, hstate⟩ := specOps_together spec i ops t
  rw [← hresults, ← hstate, hrun.1]
  exact ⟨rfl, hrun.2 i⟩

/-! ### Parts of a state -/

/-- The steps of each component read and change a part of the state of their own. `Agree i`
says that two states have the same part of the component `i`. -/
structure OnParts (Agree : ι → σ → σ → Prop) (step : (i : ι) → Op i → σ → Outcome ε ρ × σ) :
    Prop where
  own : ∀ i op s s', Agree i s s' →
    (step i op s).1 = (step i op s').1 ∧ Agree i (step i op s).2 (step i op s').2
  other : ∀ i j op s s', j ≠ i → Agree j s s' → Agree j s (step i op s').2

/-- A sequence of steps of all components gives each of them the results that its own steps
give alone, and changes its part as they do. -/
theorem OnParts.specOps_alone {Agree : ι → σ → σ → Prop}
    {step : (i : ι) → Op i → σ → Outcome ε ρ × σ} (h : OnParts Agree step) (i : ι)
    (ops : List (Sigma Op)) {s s' : σ} (hs : Agree i s s') :
    resultsOf i ops (specOps (fun op => step op.1 op.2) ops s').1
        = (specOps (step i) (opsOf i ops) s).1
      ∧ Agree i (specOps (step i) (opsOf i ops) s).2
          (specOps (fun op : Sigma Op => step op.1 op.2) ops s').2 := by
  induction ops generalizing s s' with
  | nil => exact ⟨rfl, hs⟩
  | cons op ops ih =>
      obtain ⟨j, op⟩ := op
      by_cases hj : j = i
      · subst hj
        obtain ⟨hresult, hnext⟩ := h.own j op s s' hs
        obtain ⟨hresults, hlast⟩ := ih hnext
        simp only [specOps, resultsOf, opsOf, dite_true, if_true]
        rw [hresult, hresults]
        exact ⟨rfl, hlast⟩
      · obtain ⟨hresults, hlast⟩ := ih (h.other j i op s s' (Ne.symm hj) hs)
        simp only [specOps, resultsOf, opsOf, hj, dite_false, if_false]
        exact ⟨hresults, hlast⟩

end ArbReth.Program
