import ArbReth.Program.Basic
import Mathlib.Data.List.Induction

/-!
# `ArbReth.Program.Realizes`: runs seen through an abstract state

A relation `R` between the states of a handler and abstract states says which
concrete states represent an abstract one. `Realizes h R p t r t'` says: from each
state that represents `t`, the program `p` ends with `r` in a state that represents
`t'`. The rules follow the structure of the program, so a program is proved step by
step along its abstract states.

`runOps` runs a sequence of operations one after another. An operation that fails
or panics leaves the state it has reached to the next one. `specOps` is the same on
abstract states. `runOps_realizes` carries the results of the abstract sequence to
the concrete one, for sequences whose operations are admissible where they start.
-/

set_option autoImplicit false

namespace ArbReth.Program

variable {Cmd : Type} {Resp : Cmd → Type} {ε ε' α β σ τ Op ρ : Type}

/-- From each state that represents `t`, the program ends with `r` in a state that
represents `t'`. -/
def Realizes (h : Handler Resp σ) (R : σ → τ → Prop) (p : Prog Resp ε α) (t : τ)
    (r : Outcome ε α) (t' : τ) : Prop :=
  ∀ s, R s t → ∃ s', p.exec h s = (r, s') ∧ R s' t'

namespace Realizes
variable {h : Handler Resp σ} {R : σ → τ → Prop} {t t₁ t' : τ}

/-- A program that returns keeps the abstract state. -/
theorem done (a : α) : Realizes h R (.done a : Prog Resp ε α) t (.ok a) t :=
  fun s hs => ⟨s, rfl, hs⟩

/-- The same for `pure`. -/
theorem pure (a : α) : Realizes h R (pure a : Prog Resp ε α) t (.ok a) t := done a

/-- A program that fails keeps the abstract state. -/
theorem fail (e : ε) : Realizes h R (.fail e : Prog Resp ε α) t (.err e) t :=
  fun s hs => ⟨s, rfl, hs⟩

/-- A program that panics keeps the abstract state. -/
theorem panic (m : String) : Realizes h R (.panic m : Prog Resp ε α) t (.panic m) t :=
  fun s hs => ⟨s, rfl, hs⟩

/-- A first program that returns, and then the second. -/
theorem bind {p : Prog Resp ε α} {q : α → Prog Resp ε β} {a : α} {r : Outcome ε β}
    (hp : Realizes h R p t (.ok a) t₁) (hq : Realizes h R (q a) t₁ r t') :
    Realizes h R (p >>= q) t r t' := by
  intro s hs
  obtain ⟨s₁, hrun, hs₁⟩ := hp s hs
  rw [Prog.exec_bind_ok hrun]
  exact hq s₁ hs₁

/-- A program that is one of two, when the condition holds. -/
theorem ite_pos {c : Prop} [Decidable c] {p q : Prog Resp ε α} {r : Outcome ε α} (hc : c)
    (hp : Realizes h R p t r t') : Realizes h R (if c then p else q) t r t' := by
  rwa [if_pos hc]

/-- A program that is one of two, when the condition fails. -/
theorem ite_neg {c : Prop} [Decidable c] {p q : Prog Resp ε α} {r : Outcome ε α} (hc : ¬c)
    (hq : Realizes h R q t r t') : Realizes h R (if c then p else q) t r t' := by
  rwa [if_neg hc]

/-- A first program that is one of two, with the continuation shared by both. -/
theorem bind_ite {c : Prop} [Decidable c] {p₁ p₂ : Prog Resp ε α} {q : α → Prog Resp ε β} {a : α}
    {r : Outcome ε β} (hp : Realizes h R (if c then p₁ else p₂) t (.ok a) t₁)
    (hq : Realizes h R (q a) t₁ r t') :
    Realizes h R (if c then p₁ >>= q else p₂ >>= q) t r t' := by
  split at hp
  · rename_i hc
    exact ite_pos hc (bind hp hq)
  · rename_i hc
    exact ite_neg hc (bind hp hq)

/-- A first program that fails. -/
theorem bind_err {p : Prog Resp ε α} {q : α → Prog Resp ε β} {e : ε}
    (hp : Realizes h R p t (.err e) t') : Realizes h R (p >>= q) t (.err e) t' := by
  intro s hs
  obtain ⟨s₁, hrun, hs₁⟩ := hp s hs
  exact ⟨s₁, Prog.exec_bind_err hrun q, hs₁⟩

/-- A first program that panics. -/
theorem bind_panic {p : Prog Resp ε α} {q : α → Prog Resp ε β} {m : String}
    (hp : Realizes h R p t (.panic m) t') :
    Realizes h R (p >>= q) t (.panic m) t' := by
  intro s hs
  obtain ⟨s₁, hrun, hs₁⟩ := hp s hs
  exact ⟨s₁, Prog.exec_bind_panic hrun q, hs₁⟩

/-- A program that returns is not changed by an error handler. -/
theorem handleErr {p : Prog Resp ε α} {f : ε → Prog Resp ε' α} {a : α}
    (hp : Realizes h R p t (.ok a) t') : Realizes h R (p.handleErr f) t (.ok a) t' :=
  fun s hs => by
    obtain ⟨s₁, hrun, hs₁⟩ := hp s hs
    exact ⟨s₁, by rw [Prog.exec_handleErr, hrun], hs₁⟩

/-- A program that fails, and then the handler of its error. -/
theorem handleErr_err {p : Prog Resp ε α} {f : ε → Prog Resp ε' α} {e : ε} {r : Outcome ε' α}
    (hp : Realizes h R p t (.err e) t₁) (hf : Realizes h R (f e) t₁ r t') :
    Realizes h R (p.handleErr f) t r t' :=
  fun s hs => by
    obtain ⟨s₁, hrun, hs₁⟩ := hp s hs
    obtain ⟨s₂, hrun', hs₂⟩ := hf s₁ hs₁
    exact ⟨s₂, by rw [Prog.exec_handleErr, hrun, ← hrun'], hs₂⟩

/-- A panic passes through an error handler. -/
theorem handleErr_panic {p : Prog Resp ε α} {f : ε → Prog Resp ε' α} {m : String}
    (hp : Realizes h R p t (.panic m) t') : Realizes h R (p.handleErr f) t (.panic m) t' :=
  fun s hs => by
    obtain ⟨s₁, hrun, hs₁⟩ := hp s hs
    exact ⟨s₁, by rw [Prog.exec_handleErr, hrun], hs₁⟩

/-- A program that returns is not changed by a map of its errors. -/
theorem mapErr {p : Prog Resp ε α} {f : ε → ε'} {a : α}
    (hp : Realizes h R p t (.ok a) t') : Realizes h R (p.mapErr f) t (.ok a) t' :=
  handleErr hp

/-- A panic passes through a map of the errors. -/
theorem mapErr_panic {p : Prog Resp ε α} {f : ε → ε'} {m : String}
    (hp : Realizes h R p t (.panic m) t') : Realizes h R (p.mapErr f) t (.panic m) t' :=
  handleErr_panic hp

/-- A program whose result is mapped, however it ends. -/
theorem bind_pure {p : Prog Resp ε α} {r : Outcome ε α} (g : α → β)
    (hp : Realizes h R p t r t') :
    Realizes h R (p >>= fun a => Pure.pure (g a)) t (r.map g) t' := by
  cases r with
  | ok a => exact bind hp (pure _)
  | err e => exact bind_err hp
  | panic m => exact bind_panic hp

/-- A program whose error is mapped, however it ends. -/
theorem mapErr_map {p : Prog Resp ε α} {r : Outcome ε α} (f : ε → ε')
    (hp : Realizes h R p t r t') : Realizes h R (p.mapErr f) t (r.mapErr f) t' := by
  cases r with
  | ok a => exact mapErr hp
  | err e => exact handleErr_err hp (fail _)
  | panic m => exact mapErr_panic hp

/-- The loop rule: `T i` is the abstract state before the round `i`. -/
theorem forRange {body : Nat → Prog Resp ε Unit} (T : Nat → τ) (first count : Nat)
    (hbody : ∀ i, first ≤ i → i < first + count →
      Realizes h R (body i) (T i) (.ok ()) (T (i + 1))) :
    Realizes h R (Prog.forRange body first count) (T first) (.ok ()) (T (first + count)) := by
  induction count generalizing first with
  | zero => exact pure ()
  | succ count ih =>
      refine bind (hbody first (Nat.le_refl _) (by omega)) ?_
      have hrest := ih (first + 1) fun i h1 h2 => hbody i (by omega) (by omega)
      rwa [show first + 1 + count = first + (count + 1) by omega] at hrest

/-- The loop rule for a round that changes nothing when it is made again. -/
theorem forRange_again {body : Prog Resp ε Unit} (first count : Nat)
    (hfirst : Realizes h R body t (.ok ()) t') (hagain : Realizes h R body t' (.ok ()) t') :
    Realizes h R (Prog.forRange (fun _ => body) first (count + 1)) t (.ok ()) t' :=
  bind hfirst (forRange (fun _ => t') (first + 1) count fun _ _ _ => hagain)

/-- The loop rule for a list that is used up from its end: there is a round for each
element, and `T l` is the abstract state when `l` is left. -/
theorem forRange_dropLast {ι : Type} {body : Prog Resp ε Unit} (T : List ι → τ) (l : List ι)
    (first : Nat)
    (hbody : ∀ l' c, l'.length < l.length → Realizes h R body (T (l' ++ [c])) (.ok ()) (T l')) :
    Realizes h R (Prog.forRange (fun _ => body) first l.length) (T l) (.ok ()) (T []) := by
  induction l using List.reverseRecOn generalizing first with
  | nil => exact pure ()
  | append_singleton l c ih =>
      rw [List.length_append, List.length_singleton] at hbody ⊢
      exact bind (hbody l c (Nat.lt_succ_self _))
        (ih (first + 1) fun l' c' h' => hbody l' c' (Nat.lt_succ_of_lt h'))

end Realizes

/-! ### Sequences of operations -/

/-- Run the operations in order. The result lists how each one ended. -/
def runOps (h : Handler Resp σ) (step : Op → Prog Resp ε ρ) : List Op → σ → List (Outcome ε ρ) × σ
  | [], s => ([], s)
  | op :: ops, s =>
      let first := (step op).exec h s
      let rest := runOps h step ops first.2
      (first.1 :: rest.1, rest.2)

/-- The same sequence on abstract states. -/
def specOps (spec : Op → τ → Outcome ε ρ × τ) : List Op → τ → List (Outcome ε ρ) × τ
  | [], t => ([], t)
  | op :: ops, t =>
      let first := spec op t
      let rest := specOps spec ops first.2
      (first.1 :: rest.1, rest.2)

/-- Two sequences one after another. -/
theorem specOps_append (spec : Op → τ → Outcome ε ρ × τ) (ops ops' : List Op) (t : τ) :
    specOps spec (ops ++ ops') t
      = ((specOps spec ops t).1 ++ (specOps spec ops' (specOps spec ops t).2).1,
          (specOps spec ops' (specOps spec ops t).2).2) := by
  induction ops generalizing t with
  | nil => rfl
  | cons op ops ih => simp only [List.cons_append, specOps, ih]

/-- What each step preserves is preserved by a sequence of steps. -/
theorem specOps_preserves {spec : Op → τ → Outcome ε ρ × τ} {I : τ → Prop}
    (hstep : ∀ op t, I t → I (spec op t).2) (ops : List Op) {t : τ} (ht : I t) :
    I (specOps spec ops t).2 := by
  induction ops generalizing t with
  | nil => exact ht
  | cons op ops ih => exact ih (hstep op t ht)

/-- Each operation of the sequence is admissible in the abstract state it starts from. -/
def AdmissibleOps (spec : Op → τ → Outcome ε ρ × τ) (Adm : τ → Op → Prop) : List Op → τ → Prop
  | [], _ => True
  | op :: ops, t => Adm t op ∧ AdmissibleOps spec Adm ops (spec op t).2

/-- The sequence ends as its abstract counterpart, when each admissible operation does. -/
theorem runOps_realizes {h : Handler Resp σ} {R : σ → τ → Prop} {step : Op → Prog Resp ε ρ}
    {spec : Op → τ → Outcome ε ρ × τ} {Adm : τ → Op → Prop}
    (hstep : ∀ t op, Adm t op → Realizes h R (step op) t (spec op t).1 (spec op t).2)
    (ops : List Op) (s : σ) (t : τ) (hR : R s t) (hadm : AdmissibleOps spec Adm ops t) :
    (runOps h step ops s).1 = (specOps spec ops t).1
      ∧ R (runOps h step ops s).2 (specOps spec ops t).2 := by
  induction ops generalizing s t with
  | nil => exact ⟨rfl, hR⟩
  | cons op ops ih =>
      obtain ⟨hop, hrest⟩ := hadm
      obtain ⟨s₁, hrun, hs₁⟩ := hstep t op hop s hR
      simp only [runOps, specOps, hrun]
      obtain ⟨h1, h2⟩ := ih s₁ _ hs₁ hrest
      exact ⟨by rw [h1], h2⟩

/-- Every sequence ends as its abstract counterpart, when each operation does. -/
theorem runOps_realizes_all {h : Handler Resp σ} {R : σ → τ → Prop} {step : Op → Prog Resp ε ρ}
    {spec : Op → τ → Outcome ε ρ × τ}
    (hstep : ∀ t op, Realizes h R (step op) t (spec op t).1 (spec op t).2)
    (ops : List Op) (s : σ) (t : τ) (hR : R s t) :
    (runOps h step ops s).1 = (specOps spec ops t).1
      ∧ R (runOps h step ops s).2 (specOps spec ops t).2 := by
  have hadm : ∀ ops t, AdmissibleOps spec (fun _ _ => True) ops t := by
    intro ops
    induction ops with
    | nil => exact fun _ => trivial
    | cons op ops ih => exact fun t => ⟨trivial, ih _⟩
  exact runOps_realizes (fun t op _ => hstep t op) ops s t hR (hadm ops t)

/-- Operations that are admissible in every state. -/
theorem admissibleOps_of_forall {spec : Op → τ → Outcome ε ρ × τ} {P : Op → Prop} {ops : List Op}
    (h : ∀ op ∈ ops, P op) (t : τ) : AdmissibleOps spec (fun _ => P) ops t := by
  induction ops generalizing t with
  | nil => trivial
  | cons op ops ih =>
      rw [List.forall_mem_cons] at h
      exact ⟨h.1, ih h.2 _⟩

/-- A condition on the operations alone joins the one on the states. -/
theorem AdmissibleOps.and {spec : Op → τ → Outcome ε ρ × τ} {Adm : τ → Op → Prop} {P : Op → Prop}
    {ops : List Op} {t : τ} (hadm : AdmissibleOps spec Adm ops t) (h : ∀ op ∈ ops, P op) :
    AdmissibleOps spec (fun t op => Adm t op ∧ P op) ops t := by
  induction ops generalizing t with
  | nil => trivial
  | cons op ops ih =>
      rw [List.forall_mem_cons] at h
      exact ⟨⟨hadm.1, h.1⟩, ih hadm.2 h.2⟩

/-- A sequence of steps ends as its abstract counterpart, when each admissible step does. -/
theorem specOps_simulates {R : σ → τ → Prop} {step : Op → σ → Outcome ε ρ × σ}
    {spec : Op → τ → Outcome ε ρ × τ} {Adm : τ → Op → Prop}
    (hstep : ∀ s t op, R s t → Adm t op →
      (step op s).1 = (spec op t).1 ∧ R (step op s).2 (spec op t).2)
    (ops : List Op) {s : σ} {t : τ} (hR : R s t) (hadm : AdmissibleOps spec Adm ops t) :
    (specOps step ops s).1 = (specOps spec ops t).1
      ∧ R (specOps step ops s).2 (specOps spec ops t).2 := by
  induction ops generalizing s t with
  | nil => exact ⟨rfl, hR⟩
  | cons op ops ih =>
      obtain ⟨hop, hrest⟩ := hadm
      obtain ⟨hresult, hR'⟩ := hstep s t op hR hop
      obtain ⟨hresults, hlast⟩ := ih hR' hrest
      exact ⟨congrArg₂ List.cons hresult hresults, hlast⟩

/-! ### Sequences of steps -/

/-- The results and the states after each of the steps, one after another. -/
def trail (step : Op → σ → ρ × σ) : List Op → σ → List (ρ × σ)
  | [], _ => []
  | op :: ops, s => step op s :: trail step ops (step op s).2

/-- A property of all steps of a sequence: it holds of each admissible step from a state
that represents an abstract one, and such a step ends in the next abstract one. -/
theorem forall_mem_trail {R : σ → τ → Prop} {step : Op → σ → ρ × σ}
    {spec : Op → τ → Outcome ε α × τ} {Adm : τ → Op → Prop} {Good : ρ × σ → Prop}
    (hstep : ∀ s t op, R s t → Adm t op → R (step op s).2 (spec op t).2 ∧ Good (step op s))
    (ops : List Op) (s : σ) (t : τ) (hR : R s t) (hadm : AdmissibleOps spec Adm ops t) :
    ∀ x ∈ trail step ops s, Good x := by
  induction ops generalizing s t with
  | nil => exact fun x hx => absurd hx List.not_mem_nil
  | cons op ops ih =>
      obtain ⟨hop, hrest⟩ := hadm
      obtain ⟨hR', hgood⟩ := hstep s t op hR hop
      intro x hx
      rcases List.mem_cons.mp hx with rfl | hx
      · exact hgood
      · exact ih _ _ hR' hrest x hx

end ArbReth.Program
