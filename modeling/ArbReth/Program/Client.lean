import ArbReth.Program.Basic

/-!
# `ArbReth.Program.Client`: clients that keep handles

Some operations open a handle that later operations use. A `Client` is a state together
with the handles that were opened so far. `after` keeps the handle that an operation has
opened, `step` runs the program of an operation, and `specStep` is an operation on an
abstract state, whose handles are of another type.

`Simulates` relates two clients: their states by a relation, their handles by a map.
`run_simulates` carries one step to every sequence of operations.
-/

set_option autoImplicit false

namespace ArbReth.Program

variable {Cmd : Type} {Resp : Cmd → Type} {ε σ τ η κ ρ Op : Type}

/-- A state and the handles that were opened on it. -/
structure Client (σ η : Type) where
  state : σ
  handles : List η

namespace Client

/-- The client after an operation. A handle that it has opened is kept. -/
def after (c : Client σ η) : Outcome ε (ρ × Option η) × σ → Outcome ε ρ × Client σ η
  | (.ok (reply, opened), s) => (.ok reply, ⟨s, c.handles ++ opened.toList⟩)
  | (.err e, s) => (.err e, ⟨s, c.handles⟩)
  | (.panic m, s) => (.panic m, ⟨s, c.handles⟩)

/-- One operation. Its program may use the handles. -/
def step (h : Handler Resp σ) (program : Op → List η → Prog Resp ε (ρ × Option η)) (op : Op)
    (c : Client σ η) : Outcome ε ρ × Client σ η :=
  c.after ((program op c.handles).exec h c.state)

/-- One operation on an abstract state. -/
def specStep (spec : Op → List κ → τ → Outcome ε (ρ × Option κ) × τ) (op : Op)
    (d : Client τ κ) : Outcome ε ρ × Client τ κ :=
  d.after (spec op d.handles d.state)

/-- The operations in order. -/
def run (step : Op → Client σ η → Outcome ε ρ × Client σ η) :
    List Op → Client σ η → List (Outcome ε ρ) × Client σ η
  | [], c => ([], c)
  | op :: ops, c =>
      let first := step op c
      let rest := run step ops first.2
      (first.1 :: rest.1, rest.2)

/-- The state represents the abstract one, and the handles are those of the abstract
handles. -/
structure Simulates (R : σ → τ → Prop) (view : κ → η) (c : Client σ η) (d : Client τ κ) :
    Prop where
  state : R c.state d.state
  handles : c.handles = d.handles.map view

/-- A property of the handles on the state, which an operation keeps and which the handle
that it opens has, holds after it. -/
theorem forall_handles_after {P : τ → κ → Prop} {d : Client τ κ}
    (r : Outcome ε (ρ × Option κ) × τ) (hd : ∀ k ∈ d.handles, P d.state k)
    (hkeep : ∀ k, P d.state k → P r.2 k)
    (hopened : ∀ reply k, r.1 = .ok (reply, some k) → P r.2 k) :
    ∀ k ∈ (d.after r).2.handles, P (d.after r).2.state k := by
  rcases r with ⟨⟨reply, opened⟩ | e | m, t⟩
  · intro k hk
    rcases List.mem_append.mp hk with hk | hk
    · exact hkeep k (hd k hk)
    · exact hopened reply k (by rw [Option.mem_toList.mp hk])
  all_goals exact fun k hk => hkeep k (hd k hk)

/-- The state after an operation does not depend on the handles. -/
theorem after_state (d : Client τ κ) (r : Outcome ε (ρ × Option κ) × τ) :
    (d.after r).2.state = r.2 := by
  rcases r with ⟨⟨reply, opened⟩ | e | m, t⟩ <;> rfl

/-- A step whose program ends as the abstract operation says simulates it. -/
theorem step_simulates {h : Handler Resp σ} {R : σ → τ → Prop} {view : κ → η}
    {program : Op → List η → Prog Resp ε (ρ × Option η)}
    {spec : Op → List κ → τ → Outcome ε (ρ × Option κ) × τ} {op : Op} {c : Client σ η}
    {d : Client τ κ} (hR : Simulates R view c d)
    (hstep : ∃ s, (program op (d.handles.map view)).exec h c.state
        = ((spec op d.handles d.state).1.map (fun r => (r.1, r.2.map view)), s)
      ∧ R s (spec op d.handles d.state).2) :
    (step h program op c).1 = (specStep spec op d).1
      ∧ Simulates R view (step h program op c).2 (specStep spec op d).2 := by
  obtain ⟨s, hrun, hs⟩ := hstep
  unfold step specStep
  rw [hR.handles, hrun]
  rcases hspec : spec op d.handles d.state with ⟨⟨reply, opened⟩ | e | m, t⟩
  · rw [hspec] at hs
    refine ⟨rfl, hs, ?_⟩
    show c.handles ++ (opened.map view).toList = (d.handles ++ opened.toList).map view
    rw [hR.handles, List.map_append]
    cases opened <;> rfl
  all_goals
    rw [hspec] at hs
    exact ⟨rfl, hs, hR.handles⟩

/-- A relation that every step of a sequence keeps, with equal outcomes, is kept by the
sequence. -/
theorem run_simulates {Rel : Client σ η → Client τ κ → Prop}
    {step : Op → Client σ η → Outcome ε ρ × Client σ η}
    {step' : Op → Client τ κ → Outcome ε ρ × Client τ κ}
    (ops : List Op)
    (hstep : ∀ op ∈ ops, ∀ c d, Rel c d →
      (step op c).1 = (step' op d).1 ∧ Rel (step op c).2 (step' op d).2)
    (c : Client σ η) (d : Client τ κ) (hR : Rel c d) :
    (run step ops c).1 = (run step' ops d).1 ∧ Rel (run step ops c).2 (run step' ops d).2 := by
  induction ops generalizing c d with
  | nil => exact ⟨rfl, hR⟩
  | cons op ops ih =>
      rw [List.forall_mem_cons] at hstep
      obtain ⟨hout, hnext⟩ := hstep.1 c d hR
      obtain ⟨hrest, hend⟩ := ih hstep.2 _ _ hnext
      exact ⟨by simp only [run, hout, hrest], hend⟩

/-- Each operation of the sequence is admissible on the client that it starts from. -/
def Admissible (step : Op → Client σ η → Outcome ε ρ × Client σ η)
    (Adm : Client σ η → Op → Prop) : List Op → Client σ η → Prop
  | [], _ => True
  | op :: ops, c => Adm c op ∧ Admissible step Adm ops (step op c).2

instance (step : Op → Client σ η → Outcome ε ρ × Client σ η) (Adm : Client σ η → Op → Prop)
    [∀ c op, Decidable (Adm c op)] (ops : List Op) (c : Client σ η) :
    Decidable (Admissible step Adm ops c) :=
  decAdmissible ops c
where
  decAdmissible : (ops : List Op) → (c : Client σ η) → Decidable (Admissible step Adm ops c)
    | [], _ => inferInstanceAs (Decidable True)
    | op :: ops, c =>
        let _ := decAdmissible ops (step op c).2
        inferInstanceAs (Decidable (_ ∧ _))

/-- An invariant of every admissible step holds after every sequence of them. -/
theorem run_invariant {Inv : Client σ η → Prop} {Adm : Client σ η → Op → Prop}
    {step : Op → Client σ η → Outcome ε ρ × Client σ η}
    (hstep : ∀ op c, Inv c → Adm c op → Inv (step op c).2) (ops : List Op) (c : Client σ η)
    (hc : Inv c) (hadm : Admissible step Adm ops c) : Inv (run step ops c).2 := by
  induction ops generalizing c with
  | nil => exact hc
  | cons op ops ih => exact ih _ (hstep op c hc hadm.1) hadm.2

end Client

end ArbReth.Program
