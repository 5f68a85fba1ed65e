import ArbReth.Program.Realizes

/-!
# `ArbReth.Program.Coherent`: runs whose answers agree with a memory

A `Memory Resp M` says, for a memory of type `M`, which answers of a command agree with
it and how a command changes it. `Coherent mem m es` says that each event of the list
`es` agrees with the memory that the events before it have left.

A handler tracks a memory when a function `abs` of its state is changed by each command
as the memory is (`Tracks`). Then the coherence of a run splits along the program
(`coherent_bind_iff`) and along a sequence of operations (`coherent_traceOps_iff`). A
coherent run of one handler is also a run of any handler that gives the same answers
wherever they agree with the memory (`exec_of_coherent`, `runOps_of_coherent`).
-/

set_option autoImplicit false

namespace ArbReth.Program

variable {Cmd : Type} {Resp : Cmd → Type} {ε ε' α β ρ σ τ M Op : Type}

/-- A memory: the answers that agree with it, and its change by a command. -/
structure Memory (Resp : Cmd → Type) (M : Type) where
  Agrees : M → Event Resp → Prop
  next : M → Event Resp → M

namespace Memory
variable (mem : Memory Resp M)

/-- Each event agrees with the memory that the events before it have left. -/
def Coherent : M → List (Event Resp) → Prop
  | _, [] => True
  | m, e :: es => mem.Agrees m e ∧ Coherent (mem.next m e) es

/-- A list of events is coherent when its two parts are, one after the other. -/
theorem coherent_append (m : M) (es es' : List (Event Resp)) :
    mem.Coherent m (es ++ es') ↔ mem.Coherent m es ∧ mem.Coherent (es.foldl mem.next m) es' := by
  induction es generalizing m with
  | nil =>
      show _ ↔ True ∧ _
      rw [true_and]
      rfl
  | cons e es ih =>
      rw [List.cons_append, Coherent, Coherent, List.foldl_cons, ih, and_assoc]

/-- Each list is coherent when each answer agrees with each memory. -/
theorem coherent_of_agrees (hagrees : ∀ m e, mem.Agrees m e) (m : M) (es : List (Event Resp)) :
    mem.Coherent m es := by
  induction es generalizing m with
  | nil => trivial
  | cons e es ih => exact ⟨hagrees m e, ih (mem.next m e)⟩

/-- The handler changes `abs` as the memory is changed. -/
def Tracks (h : Handler Resp σ) (abs : σ → M) : Prop :=
  ∀ c s, abs (h c s).2 = mem.next (abs s) ⟨c, (h c s).1⟩

variable {mem} {h : Handler Resp σ} {abs : σ → M}

/-- A run leaves the memory that its events leave. -/
theorem Tracks.exec (ht : mem.Tracks h abs) (p : Prog Resp ε α) (s : σ) :
    abs (p.exec h s).2 = (p.trace h s).foldl mem.next (abs s) := by
  induction p generalizing s with
  | done a => rfl
  | fail e => rfl
  | panic msg => rfl
  | call c k ih =>
      rw [Prog.exec_call, ih, ht]
      rfl

/-- A sequence of programs is coherent when the parts that run are. -/
theorem Tracks.coherent_bind_iff (ht : mem.Tracks h abs) {p : Prog Resp ε α}
    {q : α → Prog Resp ε β} {s : σ} :
    mem.Coherent (abs s) ((p >>= q).trace h s)
      ↔ mem.Coherent (abs s) (p.trace h s)
        ∧ ∀ a s', p.exec h s = (.ok a, s') → mem.Coherent (abs s') ((q a).trace h s') := by
  rw [Prog.trace_bind, coherent_append, ← ht.exec]
  refine and_congr_right ?_
  intro _
  rcases p.exec h s with ⟨a | _ | _, s'⟩
  · constructor
    · rintro hq a s' hrun
      cases hrun
      exact hq
    · exact fun hq => hq a s' rfl
  · exact iff_of_true trivial fun _ _ hrun => by cases hrun
  · exact iff_of_true trivial fun _ _ hrun => by cases hrun

/-- A coherent run is a run of each handler that answers alike where the answers agree
with the memory. -/
theorem exec_of_coherent (ht : mem.Tracks h abs) {h' : Handler Resp τ} (φ : σ → τ)
    (hφ : ∀ c s, mem.Agrees (abs s) ⟨c, (h c s).1⟩ → h' c (φ s) = ((h c s).1, φ (h c s).2))
    (p : Prog Resp ε α) (s : σ) (hco : mem.Coherent (abs s) (p.trace h s)) :
    p.exec h' (φ s) = ((p.exec h s).1, φ (p.exec h s).2) := by
  induction p generalizing s with
  | done a => rfl
  | fail e => rfl
  | panic msg => rfl
  | call c k ih =>
      obtain ⟨hagree, hrest⟩ := hco
      rw [← ht] at hrest
      rw [Prog.exec_call, Prog.exec_call, hφ c s hagree]
      exact ih _ _ hrest

end Memory

/-! ### Sequences of operations -/

/-- The events of the operations, one after another. An operation that fails or panics
leaves the state it has reached to the next one. -/
def traceOps (h : Handler Resp σ) (step : Op → Prog Resp ε ρ) :
    List Op → σ → List (Event Resp)
  | [], _ => []
  | op :: ops, s => (step op).trace h s ++ traceOps h step ops ((step op).exec h s).2

/-- Each operation of the sequence meets the condition in the state it starts from. -/
def ForallOps (h : Handler Resp σ) (step : Op → Prog Resp ε ρ) (P : σ → Op → Prop) :
    List Op → σ → Prop
  | [], _ => True
  | op :: ops, s => P s op ∧ ForallOps h step P ops ((step op).exec h s).2

/-- What holds of the events of each operation holds of those of a sequence. -/
theorem forall_mem_traceOps {h : Handler Resp σ} {step : Op → Prog Resp ε ρ}
    {P : Event Resp → Prop} (hstep : ∀ op s, ∀ e ∈ (step op).trace h s, P e) (ops : List Op)
    (s : σ) : ∀ e ∈ traceOps h step ops s, P e := by
  induction ops generalizing s with
  | nil => simp [traceOps]
  | cons op ops ih =>
      intro e he
      rcases List.mem_append.mp he with he | he
      · exact hstep op s e he
      · exact ih _ e he

/-- A sequence of operations leaves the memory that its events leave. -/
theorem Memory.Tracks.runOps {mem : Memory Resp M} {h : Handler Resp σ} {abs : σ → M}
    (ht : mem.Tracks h abs) (step : Op → Prog Resp ε ρ) (ops : List Op) (s : σ) :
    abs (runOps h step ops s).2 = (traceOps h step ops s).foldl mem.next (abs s) := by
  induction ops generalizing s with
  | nil => rfl
  | cons op ops ih =>
      rw [traceOps, List.foldl_append, ← ht.exec]
      exact ih _

/-- A sequence of operations is coherent exactly when each operation meets a condition
that says when it is coherent alone. -/
theorem Memory.Tracks.coherent_traceOps_iff {mem : Memory Resp M} {h : Handler Resp σ}
    {abs : σ → M} (ht : mem.Tracks h abs) {step : Op → Prog Resp ε ρ} {P : σ → Op → Prop}
    (hstep : ∀ s op, mem.Coherent (abs s) ((step op).trace h s) ↔ P s op)
    (ops : List Op) (s : σ) :
    mem.Coherent (abs s) (traceOps h step ops s) ↔ ForallOps h step P ops s := by
  induction ops generalizing s with
  | nil => exact Iff.rfl
  | cons op ops ih =>
      rw [traceOps, ForallOps, coherent_append, hstep, ← ht.exec, ih]

/-- A coherent sequence of operations has the same results under each handler that answers
alike where the answers agree with the memory. -/
theorem Memory.runOps_of_coherent {mem : Memory Resp M} {h : Handler Resp σ} {abs : σ → M}
    (ht : mem.Tracks h abs) {h' : Handler Resp τ} (φ : σ → τ)
    (hφ : ∀ c s, mem.Agrees (abs s) ⟨c, (h c s).1⟩ → h' c (φ s) = ((h c s).1, φ (h c s).2))
    (step : Op → Prog Resp ε ρ) (ops : List Op) (s : σ)
    (hco : mem.Coherent (abs s) (traceOps h step ops s)) :
    runOps h' step ops (φ s) = ((runOps h step ops s).1, φ (runOps h step ops s).2) := by
  induction ops generalizing s with
  | nil => rfl
  | cons op ops ih =>
      rw [traceOps, coherent_append, ← ht.exec] at hco
      simp only [runOps, exec_of_coherent ht φ hφ _ _ hco.1, ih _ hco.2]

end ArbReth.Program
