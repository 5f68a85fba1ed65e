import ArbReth.Program.Coherent

/-!
# `ArbReth.Program.Weigh`: two weights of one run, and commands that a run avoids

`WeighsEq f g h p` says that the weights `f` and `g` of `p` are equal from every
state, and `WeighsLe f g h p` that `f` is at most `g`. Both are closed under
sequencing, branching and loops. The rules `weigh_bind_eq`, `weigh_bind_lt_left` and
`weigh_bind_lt_right` compare the weights of a sequence from one state: a sequence is
out of balance as soon as one of its parts that runs is, when no part can make up
for it.

`Avoids P h p s` says that no command of the run satisfies `P`. It has the same
three rules.

`weighOps` weighs a run of operations. When no operation weighs more by `f` than by `g`,
no run does (`weighOps_le`), and the weights of a run are equal exactly when those of each
operation are, in the state it starts from (`weighOps_eq_iff`).
-/

set_option autoImplicit false

namespace ArbReth.Program

variable {Cmd : Type} {Resp : Cmd → Type} {ε ε' α β ρ σ Op : Type}

namespace Prog

/-- Converting an error adds no command. -/
@[simp] theorem trace_mapErr (h : Handler Resp σ) (f : ε → ε') (p : Prog Resp ε α) (s : σ) :
    trace h (p.mapErr f) s = trace h p s :=
  trace_handleErr h p _ (fun _ _ => rfl) s

/-- Another error does not change what a run weighs. -/
theorem weigh_mapErr (w : Event Resp → Nat) (h : Handler Resp σ) (f : ε → ε')
    (p : Prog Resp ε α) (s : σ) : weigh w h (p.mapErr f) s = weigh w h p s := by
  rw [weigh, trace_mapErr, weigh]

/-- Mapping the result adds no command. -/
theorem weigh_bind_done (w : Event Resp → Nat) (h : Handler Resp σ) (p : Prog Resp ε α)
    (f : α → β) (s : σ) : weigh w h (p >>= fun a => .done (f a)) s = weigh w h p s := by
  rw [weigh_bind]
  rcases exec h p s with ⟨_ | _ | _, s'⟩ <;> rfl

/-! ### Two weights, from every state -/

variable (f g : Event Resp → Nat) (h : Handler Resp σ)

/-- The two weights of the program are equal, from every state. -/
def WeighsEq (p : Prog Resp ε α) : Prop := ∀ s, weigh f h p s = weigh g h p s

/-- The first weight of the program is at most the second, from every state. -/
def WeighsLe (p : Prog Resp ε α) : Prop := ∀ s, weigh f h p s ≤ weigh g h p s

variable {f g h}

/-- Equal weights are in order. -/
theorem WeighsEq.le {p : Prog Resp ε α} (hp : WeighsEq f g h p) : WeighsLe f g h p :=
  fun s => Nat.le_of_eq (hp s)

/-- The weights of a sequence from one state, when the parts that run are balanced. -/
theorem weigh_bind_eq {p : Prog Resp ε α} {q : α → Prog Resp ε β} {s : σ}
    (hp : weigh f h p s = weigh g h p s)
    (hq : ∀ a s', exec h p s = (.ok a, s') → weigh f h (q a) s' = weigh g h (q a) s') :
    weigh f h (p >>= q) s = weigh g h (p >>= q) s := by
  rw [weigh_bind, weigh_bind, hp]
  rcases hrun : exec h p s with ⟨_ | _ | _, s'⟩
  · exact congrArg _ (hq _ _ hrun)
  · rfl
  · rfl

/-- A balanced first part leaves the balance of a sequence to the second part. -/
theorem weigh_bind_eq_iff {p : Prog Resp ε α} {q : α → Prog Resp ε β} {s : σ}
    (hp : weigh f h p s = weigh g h p s) :
    weigh f h (p >>= q) s = weigh g h (p >>= q) s
      ↔ ∀ a s', exec h p s = (.ok a, s') → weigh f h (q a) s' = weigh g h (q a) s' := by
  constructor
  · intro hpq a s' hrun
    rw [weigh_bind, weigh_bind, hp, hrun] at hpq
    exact Nat.add_left_cancel hpq
  · exact weigh_bind_eq hp

/-- A sequence weighs no more by `f` when its parts do not. -/
theorem WeighsLe.bind {p : Prog Resp ε α} {q : α → Prog Resp ε β} (hp : WeighsLe f g h p)
    (hq : ∀ a, WeighsLe f g h (q a)) : WeighsLe f g h (p >>= q) := by
  intro s
  rw [weigh_bind, weigh_bind]
  rcases exec h p s with ⟨_ | _ | _, s'⟩
  · exact Nat.add_le_add (hp s) (hq _ s')
  · exact Nat.add_le_add_right (hp s) 0
  · exact Nat.add_le_add_right (hp s) 0

/-- The first part is out of balance, and the second cannot make up for it. -/
theorem weigh_bind_lt_left {p : Prog Resp ε α} {q : α → Prog Resp ε β} {s : σ}
    (hp : weigh f h p s < weigh g h p s) (hq : ∀ a, WeighsLe f g h (q a)) :
    weigh f h (p >>= q) s < weigh g h (p >>= q) s := by
  rw [weigh_bind, weigh_bind]
  rcases exec h p s with ⟨_ | _ | _, s'⟩
  · exact Nat.add_lt_add_of_lt_of_le hp (hq _ s')
  · exact Nat.add_lt_add_right hp 0
  · exact Nat.add_lt_add_right hp 0

/-- The second part is out of balance, and the first cannot make up for it. -/
theorem weigh_bind_lt_right {p : Prog Resp ε α} {q : α → Prog Resp ε β} {s s' : σ} {a : α}
    (hp : WeighsLe f g h p) (hrun : exec h p s = (.ok a, s'))
    (hq : weigh f h (q a) s' < weigh g h (q a) s') :
    weigh f h (p >>= q) s < weigh g h (p >>= q) s := by
  rw [weigh_bind, weigh_bind, hrun]
  exact Nat.add_lt_add_of_le_of_lt (hp s) hq

namespace WeighsEq

/-- A program that returns issues no command. -/
theorem done (a : α) : WeighsEq f g h (.done a : Prog Resp ε α) := fun _ => rfl

/-- A program that fails issues no command. -/
theorem fail (e : ε) : WeighsEq f g h (.fail e : Prog Resp ε α) := fun _ => rfl

/-- A program that panics issues no command. -/
theorem panic (m : String) : WeighsEq f g h (.panic m : Prog Resp ε α) := fun _ => rfl

/-- A sequence weighs the same by both when its parts do. -/
theorem bind {p : Prog Resp ε α} {q : α → Prog Resp ε β} (hp : WeighsEq f g h p)
    (hq : ∀ a, WeighsEq f g h (q a)) : WeighsEq f g h (p >>= q) :=
  fun s => weigh_bind_eq (hp s) fun a s' _ => hq a s'

/-- A program that is one of two which weigh the same by both. -/
theorem ite {c : Prop} [Decidable c] {p q : Prog Resp ε α} (hp : WeighsEq f g h p)
    (hq : WeighsEq f g h q) : WeighsEq f g h (if c then p else q) := by
  split
  · exact hp
  · exact hq

/-- Another error keeps both weights. -/
theorem mapErr {p : Prog Resp ε α} (hp : WeighsEq f g h p) (e : ε → ε') :
    WeighsEq f g h (p.mapErr e) := by
  intro s
  rw [weigh_mapErr, weigh_mapErr, hp]

end WeighsEq

namespace WeighsLe

/-- A program that is one of two which weigh no more by `f`. -/
theorem ite {c : Prop} [Decidable c] {p q : Prog Resp ε α} (hp : WeighsLe f g h p)
    (hq : WeighsLe f g h q) : WeighsLe f g h (if c then p else q) := by
  split
  · exact hp
  · exact hq

/-- Another error keeps the order of the weights. -/
theorem mapErr {p : Prog Resp ε α} (hp : WeighsLe f g h p) (e : ε → ε') :
    WeighsLe f g h (p.mapErr e) := by
  intro s
  rw [weigh_mapErr, weigh_mapErr]
  exact hp s

/-- The loop rule: a bound for each round is one for the loop. -/
theorem forRange {body : Nat → Prog Resp ε Unit} (hbody : ∀ i, WeighsLe f g h (body i))
    (first count : Nat) : WeighsLe f g h (Prog.forRange body first count) := by
  induction count generalizing first with
  | zero => exact (WeighsEq.done ()).le
  | succ count ih => exact (hbody first).bind fun _ => ih (first + 1)

end WeighsLe

/-! ### Commands that a run avoids -/

/-- No command of the run satisfies `P`. -/
def Avoids (P : Event Resp → Prop) (h : Handler Resp σ) (p : Prog Resp ε α) (s : σ) : Prop :=
  ∀ e ∈ trace h p s, ¬P e

variable {P : Event Resp → Prop}

/-- A run avoids the commands when its first command is none, and the rest avoids them. -/
theorem avoids_call {c : Cmd} {k : Resp c → Prog Resp ε α} {s : σ} :
    Avoids P h (.call c k) s ↔ ¬P ⟨c, (h c s).1⟩ ∧ Avoids P h (k (h c s).1) (h c s).2 := by
  simp only [Avoids, trace, List.mem_cons, forall_eq_or_imp]

/-- A run of a sequence avoids the commands when its parts that run do. -/
theorem avoids_bind {p : Prog Resp ε α} {q : α → Prog Resp ε β} {s : σ} (hp : Avoids P h p s)
    (hq : ∀ a s', exec h p s = (.ok a, s') → Avoids P h (q a) s') :
    Avoids P h (p >>= q) s := by
  intro e he
  rw [trace_bind, List.mem_append] at he
  rcases he with he | he
  · exact hp e he
  · rcases hrun : exec h p s with ⟨a | _ | _, s'⟩ <;> rw [hrun] at he
    · exact hq a s' hrun e he
    · exact absurd he List.not_mem_nil
    · exact absurd he List.not_mem_nil

/-- A sequence that avoids the commands does so in its first part. -/
theorem Avoids.bind_left {p : Prog Resp ε α} {q : α → Prog Resp ε β} {s : σ}
    (hpq : Avoids P h (p >>= q) s) : Avoids P h p s := fun e he =>
  hpq e (by rw [trace_bind]; exact List.mem_append_left _ he)

/-- A first part that returns and avoids the commands leaves the rest to the second part. -/
theorem avoids_bind_iff {p : Prog Resp ε α} {q : α → Prog Resp ε β} {s s' : σ} {a : α}
    (hp : Avoids P h p s) (hrun : exec h p s = (.ok a, s')) :
    Avoids P h (p >>= q) s ↔ Avoids P h (q a) s' := by
  constructor
  · intro hpq e he
    exact hpq e (by rw [trace_bind, hrun]; exact List.mem_append_right _ he)
  · intro hq
    refine avoids_bind hp ?_
    intro b s₁ hrun₁
    cases hrun.symm.trans hrun₁
    exact hq

end Prog

/-! ### Sequences of operations -/

section
variable {h : Handler Resp σ} {step : Op → Prog Resp ε ρ}

/-- The sum of the weight over the commands of the operations. -/
def weighOps (w : Event Resp → Nat) (h : Handler Resp σ) (step : Op → Prog Resp ε ρ)
    (ops : List Op) (s : σ) : Nat :=
  ((traceOps h step ops s).map w).sum

/-- No operations weigh nothing. -/
@[simp] theorem weighOps_nil (w : Event Resp → Nat) (s : σ) : weighOps w h step [] s = 0 := rfl

/-- A sequence of operations weighs its first one, and the others from where that ends. -/
@[simp] theorem weighOps_cons (w : Event Resp → Nat) (op : Op) (ops : List Op) (s : σ) :
    weighOps w h step (op :: ops) s
      = (step op).weigh w h s + weighOps w h step ops ((step op).exec h s).2 := by
  simp [weighOps, traceOps, Prog.weigh]

variable {f g : Event Resp → Nat}

/-- No run weighs more by `f` than by `g`, when no operation does. -/
theorem weighOps_le (hle : ∀ op, Prog.WeighsLe f g h (step op)) (ops : List Op) (s : σ) :
    weighOps f h step ops s ≤ weighOps g h step ops s := by
  induction ops generalizing s with
  | nil => simp
  | cons op ops ih =>
      rw [weighOps_cons, weighOps_cons]
      exact Nat.add_le_add (hle op s) (ih _)

/-- A run is in balance exactly when each of its operations is, since no other operation can
make up for one that is not. -/
theorem weighOps_eq_iff (hle : ∀ op, Prog.WeighsLe f g h (step op)) {P : σ → Op → Prop}
    (hstep : ∀ s op, (step op).weigh f h s = (step op).weigh g h s ↔ P s op) (ops : List Op)
    (s : σ) :
    weighOps f h step ops s = weighOps g h step ops s ↔ ForallOps h step P ops s := by
  induction ops generalizing s with
  | nil => simp [ForallOps]
  | cons op ops ih =>
      have hop := hle op s
      have hops := weighOps_le hle ops ((step op).exec h s).2
      rw [weighOps_cons, weighOps_cons, ForallOps, ← hstep, ← ih]
      omega

end

end ArbReth.Program
