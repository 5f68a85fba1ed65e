import ArbReth.L2Pricing.Calls
import ArbReth.Proofs.L2Pricing.Footprint
import ArbReth.Proofs.L2Pricing.Migration

/-!
# `ArbReth.Proofs.L2Pricing.Calls`: the interface of the L2 pricer refines the record

Each call of the L2 pricer ends as on the record: the reads, the changes, the two
migrations, and the clearing of one constraint in its place. `l2Calls_refine` is the run of
any sequence of calls after the initialization. The provisos are those of the setters of a
constraint, which have to be in bounds.
-/

set_option autoImplicit false

namespace ArbReth

open ArbReth.Program

/-- The constraint that the call puts in the list is the legacy constraint of the migrations. -/
theorem L2Record.migratedConstraint_eq (R : L2Record) :
    R.migratedConstraint = R.legacyConstraint := by
  simp only [migratedConstraint, legacyConstraint, saturatingSub, toNat_saturatingMul]

/-- A constraint of zeros has words of zeros. -/
theorem GasConstraintData.words_zero : GasConstraintData.zero.words = fun _ => 0 := by
  funext f
  cases f <;> rfl

/-- A multi-gas constraint of zeros has words of zeros. -/
theorem MultiGasConstraintData.words_zero : MultiGasConstraintData.zero.words = fun _ => 0 := by
  funext f
  cases f <;> rfl

namespace L2Record
variable (R : L2Record) (i : U64)

/-- The words in any place are those of the gas constraint read there. -/
theorem words_gas : R.words.gas i = (R.gasAt i).words := by
  show elementWords GasConstraintData.words R.gasConstraints i = _
  rw [elementWords, gasAt]
  cases R.gasConstraints[i.toNat]? with
  | none => exact GasConstraintData.words_zero.symm
  | some c => rfl

/-- The words in any place are those of the multi-gas constraint read there. -/
theorem words_multiGas : R.words.multiGas i = (R.multiGasAt i).words := by
  show elementWords MultiGasConstraintData.words R.multiGasConstraints i = _
  rw [elementWords, multiGasAt]
  cases R.multiGasConstraints[i.toNat]? with
  | none => exact MultiGasConstraintData.words_zero.symm
  | some c => rfl

end L2Record

/-- A place that is cleared holds zeros, also past the end. -/
theorem elementWords_clear {α F : Type} (words : α → F → StorageValue) (l : List α) (i : U64)
    {zero : α} (hzero : words zero = fun _ => 0) :
    elementWords words (l.modify i.toNat fun _ => zero)
      = Function.update (elementWords words l) i fun _ => 0 := by
  cases hi : l[i.toNat]? with
  | some c => rw [elementWords_modify words _ hi, hzero]
  | none =>
      have hend : elementWords words l i = fun _ => 0 := by
        rw [elementWords, hi]
      rw [List.modify_eq_self (List.getElem?_eq_none_iff.mp hi), ← hend, Function.update_eq_self]

namespace L2Pricing
variable [Keccak]

section
variable {sto : Storage} {start : World} (R : L2Record)

/-! ### Queries -/

/-- A query reads the words of the record. -/
theorem reads_realizes {α : Type} {p : Exec DbError α} {a : α}
    (h : Realizes World.handle (HoldsWords sto start) p R.words (.ok a) R.words) :
    Realizes World.handle (Represents sto start) p R (.ok a) R :=
  realizes_record (fun _ _ => h) (fun hlen => hlen) fun hlen => hlen

/-- A scalar of 256 bits is read. -/
theorem getWideScalar_realizes (s : L2Scalar) :
    Realizes World.handle (HoldsWords sto start)
      (StorageBackedBigUint.mk (sto.newSlot s.offset)).get R.words (.ok (R.scalarWords s))
      R.words :=
  fun w hw => ⟨w, StorageBackedBigUint.run_get _ (hw.word (.scalar s)), hw⟩

/-- A field of a gas constraint is read, in any place. -/
theorem getGasAt_realizes (i : U64) (f : GasField) {v : U64}
    (hv : (R.gasAt i).words f = U256.ofU64 v) :
    Realizes World.handle (HoldsWords sto start)
      (StorageBackedUint64.mk ((layout sto).slotAt (.gas i f))).get R.words (.ok v) R.words := by
  have hword : R.words.word (.gas i f) = U256.ofU64 v := by
    rw [← hv, ← R.words_gas]
    rfl
  exact getUint64_realizes R.words (.gas i f) hword

omit [Keccak] in
/-- The word of a field in any place is that of the constraint read there. -/
theorem word_multiGasAt (i : U64) (f : MultiGasField) :
    R.words.word (.multiGas i f) = (R.multiGasAt i).words f := by
  rw [← R.words_multiGas]
  rfl

/-- A field of a multi-gas constraint is read, in any place. -/
theorem getMultiGasAt_realizes (i : U64) (f : MultiGasField) {v : U64}
    (hv : (R.multiGasAt i).words f = U256.ofU64 v) :
    Realizes World.handle (HoldsWords sto start)
      (StorageBackedUint64.mk ((layout sto).slotAt (.multiGas i f))).get R.words (.ok v) R.words :=
  getUint64_realizes R.words (.multiGas i f) ((word_multiGasAt R i f).trans hv)

/-- The window of a multi-gas constraint is a word of 32 bits. -/
theorem multiGasWindow_realizes (i : U64) :
    Realizes World.handle (HoldsWords sto start)
      ((openL2PricingState sto).openMultiGasConstraintAt i).adjustmentWindow R.words
      (.ok (R.multiGasAt i).adjustmentWindow) R.words := by
  intro w hw
  have hword := (hw.word (.multiGas i .adjustmentWindow)).trans (word_multiGasAt R i _)
  have hlt := (R.multiGasAt i).adjustmentWindow.isLt
  have hbound : ((R.multiGasAt i).adjustmentWindow.setWidth 64).toNat ≤ 2 ^ 32 - 1 := by
    rw [BitVec.toNat_setWidth, Nat.mod_eq_of_lt (by omega)]
    omega
  have hget := StorageSlot.run_getWord ((layout sto).slotAt (.multiGas i .adjustmentWindow)) hword
    hbound "expected uint32 compatible value in storage"
  refine ⟨w, ?_, hw⟩
  have hrun := World.run_bind_ok hget fun asU64 => pure (asU64.setWidth 32)
  have hback : (((R.multiGasAt i).adjustmentWindow.setWidth 64).setWidth 32 : U32)
      = (R.multiGasAt i).adjustmentWindow := by
    apply BitVec.eq_of_toNat_eq
    rw [BitVec.toNat_setWidth, BitVec.toNat_setWidth, Nat.mod_eq_of_lt (by omega),
      Nat.mod_eq_of_lt (by omega)]
  rw [hback] at hrun
  exact hrun

/-- Each query has the answer of the record. -/
theorem query_realizes (q : L2Query) :
    Realizes World.handle (Represents sto start) (q.program (openL2PricingState sto)) R
      (.ok (q.answer R)) R := by
  -- a query whose program reads the words
  have hreply : ∀ {α : Type} {p : Exec DbError α} {a : α} (result : α → Reply),
      Realizes World.handle (HoldsWords sto start) p R.words (.ok a) R.words →
      Realizes World.handle (Represents sto start) (p.reply CallError.db result) R
        (.ok (result a)) R :=
    fun result h => Exec.reply_realizes _ result (reads_realizes R h)
  cases q with
  | baseFeeWei => exact hreply _ (getWideScalar_realizes R .baseFeeWei)
  | minBaseFeeWei => exact hreply _ (getWideScalar_realizes R .minBaseFeeWei)
  | speedLimitPerSecond => exact hreply _ (getScalar_realizes R .speedLimitPerSecond rfl)
  | perBlockGasLimit => exact hreply _ (getScalar_realizes R .perBlockGasLimit rfl)
  | perTxGasLimit => exact hreply _ (getScalar_realizes R .perTxGasLimit rfl)
  | gasBacklog => exact hreply _ (getScalar_realizes R .gasBacklog rfl)
  | pricingInertia => exact hreply _ (getScalar_realizes R .pricingInertia rfl)
  | backlogTolerance => exact hreply _ (getScalar_realizes R .backlogTolerance rfl)
  | gasConstraintsLength => exact hreply _ (gasConstraintsLength_realizes R)
  | multiGasConstraintsLength => exact hreply _ (multiGasConstraintsLength_realizes R)
  | gasConstraintTarget i => exact hreply _ (getGasAt_realizes R i .target rfl)
  | gasConstraintAdjustmentWindow i => exact hreply _ (getGasAt_realizes R i .adjustmentWindow rfl)
  | gasConstraintBacklog i => exact hreply _ (getGasAt_realizes R i .backlog rfl)
  | multiGasConstraintTarget i => exact hreply _ (getMultiGasAt_realizes R i .target rfl)
  | multiGasConstraintAdjustmentWindow i => exact hreply _ (multiGasWindow_realizes R i)
  | multiGasConstraintBacklog i => exact hreply _ (getMultiGasAt_realizes R i .backlog rfl)

end

/-! ### All calls -/

section
variable {sto : Storage} (hslots : Function.Injective (layout sto).slot) {start : World}
  (R : L2Record)
include hslots

/-- Clearing one gas constraint zeroes that element, if there is one. -/
theorem clearGasConstraintAt_realizes (i : U64) :
    Realizes World.handle (Represents sto start)
      ((openL2PricingState sto).openGasConstraintAt i).clear R (.ok ())
      (R.withGas (R.gasConstraints.modify i.toNat fun _ => .zero)) := by
  have hwords : (R.withGas (R.gasConstraints.modify i.toNat fun _ => .zero)).words
      = { R.words with gas := Function.update R.words.gas i fun _ => 0 } := by
    simp only [L2Record.words, L2Record.withGas, lengthWord, List.length_modify,
      elementWords_clear _ _ _ GasConstraintData.words_zero]
    rfl
  refine realizes_record (fun _ _ => ?_) (fun h => ?_) fun h => h
  · rw [hwords]
    exact clearGas_realizes hslots R.words i
  · show (R.gasConstraints.modify _ _).length < _
    rwa [List.length_modify]

/-- Clearing one multi-gas constraint zeroes that element, if there is one. -/
theorem clearMultiGasConstraintAt_realizes (i : U64) :
    Realizes World.handle (Represents sto start)
      ((openL2PricingState sto).openMultiGasConstraintAt i).clear R (.ok ())
      (R.withMultiGas (R.multiGasConstraints.modify i.toNat fun _ => .zero)) := by
  have hwords : (R.withMultiGas (R.multiGasConstraints.modify i.toNat fun _ => .zero)).words
      = { R.words with multiGas := Function.update R.words.multiGas i fun _ => 0 } := by
    simp only [L2Record.words, L2Record.withMultiGas, lengthWord, List.length_modify,
      elementWords_clear _ _ _ MultiGasConstraintData.words_zero]
    rfl
  refine realizes_record (fun _ _ => ?_) (fun h => h) fun h => ?_
  · rw [hwords]
    exact clearMultiGas_realizes hslots R.words i
  · show (R.multiGasConstraints.modify _ _).length < _
    rwa [List.length_modify]

/-- Each call in bounds ends as on the record. -/
theorem call_realizes (c : L2Call) (hc : c.InBounds R) :
    Realizes World.handle (Represents sto start) (c.program (openL2PricingState sto)) R
      (c.apply R).1 (c.apply R).2 := by
  cases c with
  | query q => exact query_realizes R q
  | change op => exact Exec.reply_realizes _ _ (l2Op_realizes hslots R op hc)
  | clearGasConstraintAt i =>
      exact Exec.reply_realizes _ _ (clearGasConstraintAt_realizes hslots R i)
  | clearMultiGasConstraintAt i =>
      exact Exec.reply_realizes _ _ (clearMultiGasConstraintAt_realizes hslots R i)
  | setGasConstraintsFromLegacy =>
      have hlegacy : Realizes World.handle (Represents sto start)
          (openL2PricingState sto).setGasConstraintsFromLegacy R (.ok ())
          (R.withGas [R.legacyConstraint]) :=
        legacyMigration_realizes hslots R
      rw [← R.migratedConstraint_eq] at hlegacy
      exact Exec.reply_realizes _ _ hlegacy
  | setMultiGasConstraintsFromSingleGasConstraints =>
      exact Exec.reply_realizes _ _ (multiGasMigration_realizes hslots R)

end

/-! ### What a call reaches -/

section
variable {sto : Storage}

/-- Every query keeps to the footprint of the pricer. -/
theorem query_keepsTo (q : L2Query) :
    KeepsTo (footprint sto) (q.program (openL2PricingState sto)) := by
  have hmulti (i : U64) (f : MultiGasField) (bound : Nat) (msg : String) :
      KeepsTo (footprint sto) (((layout sto).slotAt (.multiGas i f)).getWord bound msg) :=
    StorageSlot.getWord_keepsTo (footprint_key sto (.multiGas i f)) bound msg
  cases q with
  | baseFeeWei => exact (getWideScalar_keepsTo .baseFeeWei).dbReply _
  | minBaseFeeWei => exact (getWideScalar_keepsTo .minBaseFeeWei).dbReply _
  | speedLimitPerSecond => exact (getScalar_keepsTo .speedLimitPerSecond).dbReply _
  | perBlockGasLimit => exact (getScalar_keepsTo .perBlockGasLimit).dbReply _
  | perTxGasLimit => exact (getScalar_keepsTo .perTxGasLimit).dbReply _
  | gasBacklog => exact (getScalar_keepsTo .gasBacklog).dbReply _
  | pricingInertia => exact (getScalar_keepsTo .pricingInertia).dbReply _
  | backlogTolerance => exact (getScalar_keepsTo .backlogTolerance).dbReply _
  | gasConstraintsLength => exact gasConstraintsLength_keepsTo.dbReply _
  | multiGasConstraintsLength => exact multiGasConstraintsLength_keepsTo.dbReply _
  | gasConstraintTarget i => exact (getGas_keepsTo i .target).dbReply _
  | gasConstraintAdjustmentWindow i => exact (getGas_keepsTo i .adjustmentWindow).dbReply _
  | gasConstraintBacklog i => exact (getGas_keepsTo i .backlog).dbReply _
  | multiGasConstraintTarget i => exact (hmulti i .target _ _).dbReply _
  | multiGasConstraintAdjustmentWindow i =>
      exact KeepsTo.dbReply ((hmulti i .adjustmentWindow _ _).bind fun _ => .done _) _
  | multiGasConstraintBacklog i => exact (hmulti i .backlog _ _).dbReply _

/-- A call reaches the slots of the pricer only. -/
theorem call_keepsTo (c : L2Call) :
    KeepsTo (footprint sto) (c.program (openL2PricingState sto)) := by
  cases c with
  | query q => exact query_keepsTo q
  | change op => exact (l2Op_keepsTo op).dbReply _
  | clearGasConstraintAt i => exact (clearGas_keepsTo i).dbReply _
  | clearMultiGasConstraintAt i => exact (clearMultiGas_keepsTo i).dbReply _
  | setGasConstraintsFromLegacy => exact setGasConstraintsFromLegacy_keepsTo.dbReply _
  | setMultiGasConstraintsFromSingleGasConstraints =>
      exact setMultiGasConstraintsFromSingleGasConstraints_keepsTo.dbReply _

end

/-! ### Runs -/

/-- The L2 pricer refines the record. After the initialization in a blank space and every
sequence of calls, the setters of a constraint in bounds, each call has the result or the
panic that it has on the record, reads and migrations included. The store represents the
record at the end, and no slot outside the pricer and no balance has changed. -/
theorem l2Calls_refine {sto : Storage} (hslots : Function.Injective (layout sto).slot)
    {start : World} (hwritable : start.readOnly = false)
    (hblank : ∀ k, (layout sto).read start k = 0) (calls : List L2Call)
    (hcalls : AdmissibleOps L2Call.apply L2Call.InBounds calls L2Record.blank.initialized) :
    let init := World.run (initializeL2PricingState sto) start
    let final := runOps World.handle (L2Call.program (openL2PricingState sto)) calls init.2
    let spec := specOps L2Call.apply calls L2Record.blank.initialized
    init.1 = .ok () ∧ final.1 = spec.1 ∧ Represents sto start final.2 spec.2 := by
  intro init final spec
  obtain ⟨w₀, hrun, hR₀⟩ := initialize_realizes hslots L2Record.blank start
    (represents_blank hwritable hblank)
  have hinit : init = (.ok (), w₀) := hrun
  obtain ⟨hresults, hfinal⟩ := runOps_realizes
    (fun R c hc => call_realizes hslots R c hc) calls w₀ _ hR₀ hcalls
  have hfinalw : final = runOps World.handle (L2Call.program (openL2PricingState sto))
      calls w₀ := by
    simp only [final, hinit]
  rw [← hfinalw] at hresults hfinal
  exact ⟨by rw [hinit], hresults, hfinal⟩

end L2Pricing

namespace L2Pricing
attribute [local instance] indexHash

/-- Constraints are added, read, cleared in place and migrated. -/
def sampleCalls : List L2Call :=
  [.change (.addGasConstraint 7000000 102 9), .change (.gasConstraint 0 (.setBacklog 11)),
    .query (.gasConstraintBacklog 0), .query (.gasConstraintBacklog 5),
    .setMultiGasConstraintsFromSingleGasConstraints, .clearGasConstraintAt 0,
    .query (.multiGasConstraintAdjustmentWindow 0), .setGasConstraintsFromLegacy]

/-- Both migrations and the clear of one constraint, after the initialization of a blank store. -/
theorem l2Calls_refine_sample :
    let init := World.run (initializeL2PricingState sampleRoot) World.blank
    let final :=
      runOps World.handle (L2Call.program (openL2PricingState sampleRoot)) sampleCalls init.2
    let spec := specOps L2Call.apply sampleCalls L2Record.blank.initialized
    init.1 = .ok () ∧ final.1 = spec.1 ∧ Represents sampleRoot World.blank final.2 spec.2 :=
  l2Calls_refine sampleRoot_layout_injective rfl (fun _ => rfl) sampleCalls
    ⟨trivial, Nat.one_pos, trivial, trivial, trivial, trivial, trivial, trivial, trivial⟩

end L2Pricing

end ArbReth
