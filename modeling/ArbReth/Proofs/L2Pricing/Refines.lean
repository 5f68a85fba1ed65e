import ArbReth.Proofs.L2Pricing.Constraints
import ArbReth.Proofs.L2Pricing.Sample

/-!
# `ArbReth.Proofs.L2Pricing.Refines`: the L2 pricer refines the record

`l2Op_realizes` is the step: each operation ends as it does on the record, from every
store that represents one. `refines_record` is the run, from the initialization with
both lists empty.
-/

set_option autoImplicit false

namespace ArbReth

open ArbReth.Program

/-! ### The words after one setter -/

namespace L2ScalarOp

/-- The scalar that the setter writes. -/
def scalar : L2ScalarOp → L2Scalar
  | .setBaseFeeWei _ => .baseFeeWei
  | .setMinBaseFeeWei _ => .minBaseFeeWei
  | .setSpeedLimitPerSecond _ => .speedLimitPerSecond
  | .setMaxPerBlockGasLimit _ => .perBlockGasLimit
  | .setMaxPerTxGasLimit _ => .perTxGasLimit
  | .setGasBacklog _ => .gasBacklog
  | .setPricingInertia _ => .pricingInertia
  | .setBacklogTolerance _ => .backlogTolerance

/-- The word that the setter writes. -/
def value : L2ScalarOp → StorageValue
  | .setBaseFeeWei val => val
  | .setMinBaseFeeWei val => val
  | .setSpeedLimitPerSecond limit => U256.ofU64 limit
  | .setMaxPerBlockGasLimit limit => U256.ofU64 limit
  | .setMaxPerTxGasLimit limit => U256.ofU64 limit
  | .setGasBacklog backlog => U256.ofU64 backlog
  | .setPricingInertia val => U256.ofU64 val
  | .setBacklogTolerance val => U256.ofU64 val

/-- Every setter of a scalar writes its value to the slot of its scalar. -/
theorem program_eq [Keccak] (op : L2ScalarOp) (sto : Storage) :
    op.program (openL2PricingState sto) = (sto.newSlot op.scalar.offset).set op.value := by
  cases op <;> rfl

/-- A setter of a scalar changes the word of that scalar only. -/
theorem words_apply (op : L2ScalarOp) (R : L2Record) :
    (op.apply R).words
      = { R.words with scalar := Function.update R.scalarWords op.scalar op.value } := by
  have hscalar : (op.apply R).scalarWords
      = Function.update R.scalarWords op.scalar op.value := by
    funext s
    cases op <;> cases s <;> rfl
  have hlists : (op.apply R).gasConstraints = R.gasConstraints
      ∧ (op.apply R).multiGasConstraints = R.multiGasConstraints := by
    cases op <;> exact ⟨rfl, rfl⟩
  simp only [L2Record.words, hscalar, hlists.1, hlists.2]

end L2ScalarOp

namespace GasConstraintOp

/-- The field that the setter writes. -/
def field : GasConstraintOp → GasField
  | .setTarget _ => .target
  | .setAdjustmentWindow _ => .adjustmentWindow
  | .setBacklog _ => .backlog

/-- The word that the setter writes. -/
def value : GasConstraintOp → StorageValue
  | .setTarget val => U256.ofU64 val
  | .setAdjustmentWindow val => U256.ofU64 val
  | .setBacklog val => U256.ofU64 val

/-- A setter of a gas constraint changes the word of its field only. -/
theorem words_apply (op : GasConstraintOp) (c : GasConstraintData) :
    (op.apply c).words = Function.update c.words op.field op.value := by
  funext f
  cases op <;> cases f <;> rfl

end GasConstraintOp

namespace L2Record

/-- The words after a change of one gas constraint. -/
theorem words_modifyGas (R : L2Record) {i : U64} {c : GasConstraintData}
    (hi : R.gasConstraints[i.toNat]? = some c) (op : GasConstraintOp) :
    (R.withGas (R.gasConstraints.modify i.toNat op.apply)).words
      = R.words.setGas i op.field op.value := by
  have hword : elementWords GasConstraintData.words R.gasConstraints i = c.words := by
    rw [elementWords, hi]
  simp only [words, withGas, L2Words.setGas, elementWords_modify _ _ hi, hword, op.words_apply,
    lengthWord, List.length_modify]
  rfl

/-- The words after a change of one multi-gas constraint. -/
theorem words_modifyMultiGas (R : L2Record) {i : U64} {c : MultiGasConstraintData}
    (hi : R.multiGasConstraints[i.toNat]? = some c) (op : MultiGasConstraintOp) :
    (R.withMultiGas (R.multiGasConstraints.modify i.toNat op.apply)).words
      = { R.words with multiGas := Function.update R.words.multiGas i (op.apply c).words } := by
  simp only [words, withMultiGas, elementWords_modify _ _ hi, lengthWord, List.length_modify]
  rfl

end L2Record

namespace L2Pricing
variable [Keccak]

/-- A program on the words of two records is one on the records. -/
theorem realizes_record {ε α : Type} {sto : Storage} {start : World} {p : Exec ε α}
    {r : Outcome ε α} {R R' : L2Record}
    (h : R.gasConstraints.length < 2 ^ 64 → R.multiGasConstraints.length < 2 ^ 64 →
      Realizes World.handle (HoldsWords sto start) p R.words r R'.words)
    (hgas : R.gasConstraints.length < 2 ^ 64 → R'.gasConstraints.length < 2 ^ 64)
    (hmulti : R.multiGasConstraints.length < 2 ^ 64 → R'.multiGasConstraints.length < 2 ^ 64) :
    Realizes World.handle (Represents sto start) p R r R' := by
  intro w hR
  obtain ⟨w', hrun, hw'⟩ := h hR.gas_lt hR.multiGas_lt w hR.words
  exact ⟨w', hrun, hw', hgas hR.gas_lt, hmulti hR.multiGas_lt⟩

section
variable {sto : Storage} (hslots : Function.Injective (layout sto).slot) {start : World}
  (R : L2Record)
include hslots

/-- A setter of a scalar realizes what it does to the record. -/
theorem scalarOp_realizes (op : L2ScalarOp) :
    Realizes World.handle (HoldsWords sto start) (op.program (openL2PricingState sto)) R.words
      (.ok ()) (op.apply R).words := by
  rw [op.program_eq, op.words_apply]
  exact setScalar_realizes hslots R.words op.scalar op.value

/-- A setter of a gas constraint in bounds changes that element of the list. -/
theorem gasConstraintOp_realizes {i : U64} {c : GasConstraintData}
    (hi : R.gasConstraints[i.toNat]? = some c) (op : GasConstraintOp) :
    Realizes World.handle (HoldsWords sto start)
      (op.program ((openL2PricingState sto).openGasConstraintAt i)) R.words (.ok ())
      (R.withGas (R.gasConstraints.modify i.toNat op.apply)).words := by
  rw [R.words_modifyGas hi]
  cases op with
  | setTarget val => exact setGas_realizes hslots R.words i .target _
  | setAdjustmentWindow val => exact setGas_realizes hslots R.words i .adjustmentWindow _
  | setBacklog val => exact setGas_realizes hslots R.words i .backlog _

/-- A setter of a multi-gas constraint in bounds changes that element of the list. -/
theorem multiGasConstraintOp_realizes {i : U64} {c : MultiGasConstraintData}
    (hi : R.multiGasConstraints[i.toNat]? = some c) (op : MultiGasConstraintOp) :
    Realizes World.handle (HoldsWords sto start)
      (op.program ((openL2PricingState sto).openMultiGasConstraintAt i)) R.words (.ok ())
      (R.withMultiGas (R.multiGasConstraints.modify i.toNat op.apply)).words := by
  have hword : R.words.multiGas i = c.words := by
    show elementWords MultiGasConstraintData.words R.multiGasConstraints i = _
    rw [elementWords, hi]
  rw [R.words_modifyMultiGas hi]
  -- a setter of one word of the constraint
  have hset : ∀ (f : MultiGasField) (v : StorageValue),
      (op.apply c).words = Function.update c.words f v →
      Realizes World.handle (HoldsWords sto start) (((layout sto).slotAt (.multiGas i f)).set v)
        R.words (.ok ())
        { R.words with multiGas := Function.update R.words.multiGas i (op.apply c).words } := by
    intro f v h
    rw [h, ← hword]
    exact setMultiGas_realizes hslots R.words i f v
  cases op with
  | setTarget val =>
      refine hset .target (U256.ofU64 val) ?_
      funext f
      cases f <;> rfl
  | setAdjustmentWindow val =>
      refine hset .adjustmentWindow (U256.ofU64 (val.setWidth 64)) ?_
      funext f
      cases f <;> rfl
  | setBacklog val =>
      refine hset .backlog (U256.ofU64 val) ?_
      funext f
      cases f <;> rfl
  | setResourceWeights weights =>
      -- the other words are those that are there
      have hself : ∀ f v, R.words.multiGas i f = v → R.words.setMultiGas i f v = R.words := by
        intro f v h
        rw [L2Words.setMultiGas, ← h, Function.update_eq_self, Function.update_eq_self]
      have htarget : R.words.setMultiGas i .target (U256.ofU64 c.target) = R.words :=
        hself _ _ (congrFun hword _)
      have hwindow : R.words.setMultiGas i .adjustmentWindow
          (U256.ofU64 (c.adjustmentWindow.setWidth 64)) = R.words := hself _ _ (congrFun hword _)
      have hbacklog : R.words.setMultiGas i .backlog (U256.ofU64 c.backlog) = R.words :=
        hself _ _ (congrFun hword _)
      -- So the change is the one of a whole constraint, of which the first writes do nothing.
      rw [← L2Words.setMultiGas_all]
      simp only [MultiGasConstraintOp.apply, MultiGasConstraintData.words,
        MultiGasConstraintData.ofWeights, htarget, hwindow, hbacklog]
      exact setResourceWeights_realizes hslots R.words i weights

omit hslots in
/-- An addition to a list of the largest length. -/
theorem addGasConstraint_panics (target adjustmentWindow backlog : U64)
    (hfull : R.gasConstraints.length = 2 ^ 64 - 1) :
    Realizes World.handle (HoldsWords sto start)
      ((openL2PricingState sto).addGasConstraint target adjustmentWindow backlog) R.words
      (.panic "attempt to add with overflow") R.words :=
  .bind_panic (realizes_words (SubStorageVector.push_panics (k := .gasLength) rfl rfl hfull) rfl)

omit hslots in
/-- A list of the largest length takes no further constraint. -/
theorem addMultiGasConstraint_panics (target : U64) (adjustmentWindow : U32) (backlog : U64)
    (weights : WeightMap) (hfull : R.multiGasConstraints.length = 2 ^ 64 - 1) :
    Realizes World.handle (HoldsWords sto start)
      ((openL2PricingState sto).addMultiGasConstraint target adjustmentWindow backlog weights)
      R.words (.panic "attempt to add with overflow") R.words :=
  .bind_panic
    (realizes_words (SubStorageVector.push_panics (k := .multiGasLength) rfl rfl hfull) rfl)

/-! ### The step and the run -/

/-- Each operation in bounds ends as on the record. -/
theorem l2Op_realizes (op : L2Op) (hop : op.InBounds R) :
    Realizes World.handle (Represents sto start) (op.program (openL2PricingState sto)) R
      (op.apply R).1 (op.apply R).2 := by
  cases op with
  | scalar op =>
      have hlists : (op.apply R).gasConstraints = R.gasConstraints
          ∧ (op.apply R).multiGasConstraints = R.multiGasConstraints := by
        cases op <;> exact ⟨rfl, rfl⟩
      refine realizes_record (fun _ _ => scalarOp_realizes hslots R op) (fun h => ?_) fun h => ?_
      · exact hlists.1 ▸ h
      · exact hlists.2 ▸ h
  | addGasConstraint target adjustmentWindow backlog =>
      simp only [L2Op.apply]
      by_cases hfull : R.gasConstraints.length = 2 ^ 64 - 1
      · rw [if_pos hfull]
        exact realizes_record
          (fun _ _ => addGasConstraint_panics R target adjustmentWindow backlog hfull)
          (fun h => h) fun h => h
      · rw [if_neg hfull]
        refine realizes_record (fun h _ => addGasConstraint_realizes hslots R
          ⟨target, adjustmentWindow, backlog⟩ (by omega)) (fun h => ?_) fun h => h
        show (R.gasConstraints ++ _).length < _
        rw [List.length_append, List.length_singleton]
        omega
  | clearGasConstraints =>
      exact realizes_record (fun h _ => clearGasConstraints_realizes hslots R h)
        (fun _ => Nat.two_pow_pos 64) fun h => h
  | gasConstraint i op =>
      -- In bounds the handle is of an element, and the length does not change.
      have hi := List.getElem?_eq_getElem (show i.toNat < R.gasConstraints.length from hop)
      refine realizes_record (fun _ _ => gasConstraintOp_realizes hslots R hi op) (fun h => ?_)
        fun h => h
      show (R.gasConstraints.modify _ _).length < _
      rwa [List.length_modify]
  | addMultiGasConstraint target adjustmentWindow backlog weights =>
      simp only [L2Op.apply]
      by_cases hfull : R.multiGasConstraints.length = 2 ^ 64 - 1
      · rw [if_pos hfull]
        exact realizes_record
          (fun _ _ => addMultiGasConstraint_panics R target adjustmentWindow backlog weights hfull)
          (fun h => h) fun h => h
      · rw [if_neg hfull]
        refine realizes_record (fun _ h => addMultiGasConstraint_realizes hslots R target
          adjustmentWindow backlog weights (by omega)) (fun h => h) fun h => ?_
        show (R.multiGasConstraints ++ _).length < _
        rw [List.length_append, List.length_singleton]
        omega
  | clearMultiGasConstraints =>
      exact realizes_record (fun _ h => clearMultiGasConstraints_realizes hslots R h)
        (fun h => h) fun _ => Nat.two_pow_pos 64
  | multiGasConstraint i op =>
      have hi := List.getElem?_eq_getElem (show i.toNat < R.multiGasConstraints.length from hop)
      refine realizes_record (fun _ _ => multiGasConstraintOp_realizes hslots R hi op)
        (fun h => h) fun h => ?_
      show (R.multiGasConstraints.modify _ _).length < _
      rwa [List.length_modify]

/-- A write of the initialization is that of a setter. -/
theorem setByUint64_realizes (op : L2ScalarOp) {v : U64} (hv : op.value = U256.ofU64 v) :
    Realizes World.handle (HoldsWords sto start) (sto.setUint64ByUint64 op.scalar.offset v) R.words
      (.ok ()) (op.apply R).words := by
  intro w hw
  obtain ⟨w', hrun, hw'⟩ := scalarOp_realizes hslots R op w hw
  have hset := StorageSlot.run_set (sto.newSlot op.scalar.offset) hw.writable op.value
  -- Both write the same word to the same slot.
  rw [op.program_eq] at hrun
  have heq : w' = w.write sto.account (sto.mapAddress op.scalar.offset) op.value :=
    congrArg Prod.snd (hrun.symm.trans hset)
  refine ⟨w', ?_, hw'⟩
  rw [heq, hv]
  exact Storage.run_set sto hw.writable _ _

/-- The initialization writes the initial scalars. -/
theorem initialize_realizes :
    Realizes World.handle (Represents sto start) (initializeL2PricingState sto) R (.ok ())
      R.initialized := by
  refine realizes_record (fun _ _ => ?_) (fun h => h) fun h => h
  -- The writes in the order of the source. The gas limit of a transaction is not set.
  refine .bind (setByUint64_realizes hslots _ (.setSpeedLimitPerSecond _) rfl) ?_
  refine .bind (setByUint64_realizes hslots _ (.setMaxPerBlockGasLimit _) rfl) ?_
  refine .bind (setByUint64_realizes hslots _ (.setBaseFeeWei _) rfl) ?_
  refine .bind (setByUint64_realizes hslots _ (.setGasBacklog _) rfl) ?_
  refine .bind (setByUint64_realizes hslots _ (.setPricingInertia _) rfl) ?_
  refine .bind (setByUint64_realizes hslots _ (.setBacklogTolerance _) rfl) ?_
  exact setByUint64_realizes hslots _ (.setMinBaseFeeWei _) rfl

end

/-- The places past the end of the lists hold zeros. -/
theorem Represents.past_end {sto : Storage} {start w : World} {R : L2Record}
    (hR : Represents sto start w R) (i : U64) :
    (R.gasConstraints.length ≤ i.toNat → ∀ f, (layout sto).read w (.gas i f) = 0)
      ∧ (R.multiGasConstraints.length ≤ i.toNat →
        ∀ f, (layout sto).read w (.multiGas i f) = 0) := by
  constructor
  · intro hi f
    rw [hR.words.word]
    show elementWords GasConstraintData.words R.gasConstraints i f = 0
    rw [elementWords, List.getElem?_eq_none hi]
  · intro hi f
    rw [hR.words.word]
    show elementWords MultiGasConstraintData.words R.multiGasConstraints i f = 0
    rw [elementWords, List.getElem?_eq_none hi]

omit [Keccak] in
/-- No operation takes an element from an empty list. -/
theorem apply_ne_pop_empty (op : L2Op) (R : L2Record) :
    (op.apply R).1 ≠ .panic "sub-storage vector: can't pop empty" := by
  cases op with
  | addGasConstraint target adjustmentWindow backlog =>
      simp only [L2Op.apply]
      split <;> simp
  | addMultiGasConstraint target adjustmentWindow backlog weights =>
      simp only [L2Op.apply]
      split <;> simp
  -- the other operations do not panic
  | _ => exact fun h => nomatch h

omit [Keccak] in
/-- No run pops an empty list: the clears read the length first. -/
theorem specOps_ne_pop_empty (ops : List L2Op) (R : L2Record) :
    ∀ r ∈ (specOps L2Op.apply ops R).1, r ≠ .panic "sub-storage vector: can't pop empty" := by
  induction ops generalizing R with
  | nil => exact fun _ h => nomatch h
  | cons op ops ih =>
      intro r hr
      rcases List.mem_cons.mp hr with rfl | hr
      · exact apply_ne_pop_empty op R
      · exact ih _ r hr

/-- The state of the L2 pricer refines a record. After the initialization and every
sequence of operations, the setters of a constraint in bounds, the outcomes are those on
the record, and the store represents the record and differs from the start in its slots
only: the places past the end of a list hold zeros, and the slot of the largest weight of
each constraint holds the maximum of the weights that its slots hold. Nothing is ever
taken from an empty list. -/
theorem refines_record {sto : Storage} (hslots : Function.Injective (layout sto).slot)
    {start : World} {R : L2Record} (hR : Represents sto start start R) (ops : List L2Op)
    (hops : AdmissibleOps L2Op.apply L2Op.InBounds ops R.initialized) :
    let init := World.run (initializeL2PricingState sto) start
    let final := runOps World.handle (L2Op.program (openL2PricingState sto)) ops init.2
    let spec := specOps L2Op.apply ops R.initialized
    init.1 = .ok () ∧ final.1 = spec.1 ∧ Represents sto start final.2 spec.2
    ∧ (∀ i : U64, (spec.2.gasConstraints.length ≤ i.toNat →
          ∀ f, (layout sto).read final.2 (.gas i f) = 0)
        ∧ (spec.2.multiGasConstraints.length ≤ i.toNat →
          ∀ f, (layout sto).read final.2 (.multiGas i f) = 0))
    ∧ (∀ i : U64, i.toNat < spec.2.multiGasConstraints.length → ∃ c : MultiGasConstraintData,
        (layout sto).read final.2 (.multiGas i .maxWeight) = U256.ofU64 c.maxWeight
        ∧ (∀ kind, (layout sto).read final.2 (.multiGas i (.weight kind))
            = U256.ofU64 (c.weights kind)
          ∧ c.weights kind ≤ c.maxWeight)
        ∧ ∃ kind, c.weights kind = c.maxWeight)
    ∧ ∀ r ∈ final.1, r ≠ .panic "sub-storage vector: can't pop empty" := by
  intro init final spec
  obtain ⟨w₀, hrun, hR₀⟩ := initialize_realizes hslots R start hR
  have hinit : init = (.ok (), w₀) := hrun
  obtain ⟨hout, hfinal⟩ := runOps_realizes (fun R op hop => l2Op_realizes hslots R op hop) ops w₀
    R.initialized hR₀ hops
  have hfinalw : final = runOps World.handle (L2Op.program (openL2PricingState sto)) ops w₀ := by
    simp only [final, hinit]
  rw [← hfinalw] at hout hfinal
  refine ⟨by rw [hinit], hout, hfinal, hfinal.past_end, ?_, ?_⟩
  · intro i hi
    -- What the store holds in place `i` is the constraint of the record there.
    have hword :
        spec.2.words.multiGas i = (spec.2.multiGasConstraints.get ⟨i.toNat, hi⟩).words := by
      show elementWords MultiGasConstraintData.words spec.2.multiGasConstraints i = _
      rw [elementWords, List.getElem?_eq_getElem hi]
      rfl
    refine ⟨spec.2.multiGasConstraints.get ⟨i.toNat, hi⟩, ?_, fun kind => ⟨?_, ?_⟩, ?_⟩
    · exact (hfinal.words.word _).trans (congrFun hword _)
    · exact (hfinal.words.word _).trans (congrFun hword _)
    · exact MultiGasConstraintData.le_maxWeight _ kind
    · exact MultiGasConstraintData.maxWeight_mem _
  · intro r hr
    rw [hout] at hr
    exact specOps_ne_pop_empty ops _ r hr

end L2Pricing

namespace L2Pricing
attribute [local instance] indexHash

/-- The slots of the pricer in a world without storage. -/
theorem blank_represents : Represents sampleRoot World.blank World.blank L2Record.blank :=
  represents_blank rfl fun _ => rfl

/-- A constraint is added, changed and cleared, and another one takes its place. -/
def sampleOps : List L2Op :=
  [.scalar (.setGasBacklog 5000000000), .addGasConstraint 7000000 102 9,
    .gasConstraint 0 (.setBacklog 11), .addMultiGasConstraint 20 30 40 L2PricingState.equalWeights,
    .multiGasConstraint 0 (.setResourceWeights (WeightMap.ofList [(1, 3), (4, 2)])),
    .clearGasConstraints, .addGasConstraint 5 6 7]

/-- The setters of the sample are in bounds. -/
theorem sampleOps_inBounds :
    AdmissibleOps L2Op.apply L2Op.InBounds sampleOps L2Record.blank.initialized :=
  ⟨trivial, trivial, Nat.one_pos, trivial, Nat.one_pos, trivial, trivial, trivial⟩

/-- The run on a blank world. -/
theorem refines_record_sample :
    let init := World.run (initializeL2PricingState sampleRoot) World.blank
    let final :=
      runOps World.handle (L2Op.program (openL2PricingState sampleRoot)) sampleOps init.2
    let spec := specOps L2Op.apply sampleOps L2Record.blank.initialized
    init.1 = .ok () ∧ final.1 = spec.1 ∧ Represents sampleRoot World.blank final.2 spec.2
    ∧ (∀ i : U64, (spec.2.gasConstraints.length ≤ i.toNat →
          ∀ f, (layout sampleRoot).read final.2 (.gas i f) = 0)
        ∧ (spec.2.multiGasConstraints.length ≤ i.toNat →
          ∀ f, (layout sampleRoot).read final.2 (.multiGas i f) = 0))
    ∧ (∀ i : U64, i.toNat < spec.2.multiGasConstraints.length → ∃ c : MultiGasConstraintData,
        (layout sampleRoot).read final.2 (.multiGas i .maxWeight) = U256.ofU64 c.maxWeight
        ∧ (∀ kind, (layout sampleRoot).read final.2 (.multiGas i (.weight kind))
            = U256.ofU64 (c.weights kind)
          ∧ c.weights kind ≤ c.maxWeight)
        ∧ ∃ kind, c.weights kind = c.maxWeight)
    ∧ ∀ r ∈ final.1, r ≠ .panic "sub-storage vector: can't pop empty" :=
  refines_record sampleRoot_layout_injective blank_represents sampleOps sampleOps_inBounds

end L2Pricing

end ArbReth
