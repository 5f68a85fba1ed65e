import ArbReth.Proofs.L2Pricing.Refines

/-!
# `ArbReth.Proofs.L2Pricing.Migration`: the two migrations

Each migration ends in a record that is a function of the parts of the record that it
reads and does not change. A record fixes the world, so a second run ends where the first
one did. `migrations` says this after the initialization and every sequence of operations.
-/

set_option autoImplicit false

namespace ArbReth

open ArbReth.Program

/-- The gas constraint that the legacy parameters are migrated to. -/
def L2Record.legacyConstraint (R : L2Record) : GasConstraintData where
  target := R.speedLimitPerSecond
  adjustmentWindow := R.pricingInertia
  backlog := BitVec.ofNat 64
    (R.gasBacklog.toNat - min (R.backlogTolerance.toNat * R.speedLimitPerSecond.toNat) (2 ^ 64 - 1))

/-- The backlog of the legacy constraint is what exceeds the tolerance, whose product saturates. -/
theorem L2Record.legacyConstraint_backlog (R : L2Record) :
    (R.legacyConstraint.backlog.toNat : ℤ)
      = max 0 ((R.gasBacklog.toNat : ℤ)
        - min ((R.backlogTolerance.toNat : ℤ) * R.speedLimitPerSecond.toNat) (2 ^ 64 - 1)) := by
  have hlt := R.gasBacklog.isLt
  have hbacklog : R.legacyConstraint.backlog.toNat
      = R.gasBacklog.toNat
        - min (R.backlogTolerance.toNat * R.speedLimitPerSecond.toNat) (2 ^ 64 - 1) := by
    simp only [legacyConstraint, BitVec.toNat_ofNat]
    exact Nat.mod_eq_of_lt (by omega)
  rw [hbacklog, ← Nat.cast_mul]
  omega

/-- The equal weights are those of a migrated constraint. -/
theorem weightOf_equalWeights :
    MultiGasConstraint.weightOf L2PricingState.equalWeights
      = MultiGasConstraintData.equalWeightOf := by
  funext kind
  cases kind <;> rfl

/-- The element that the migration adds for a gas constraint. -/
theorem MultiGasConstraintData.ofWeights_equalWeights (c : GasConstraintData) :
    ofWeights c.target
        ((minWord c.adjustmentWindow (BitVec.ofNat 64 (2 ^ 32 - 1))).setWidth 32) c.backlog
        (MultiGasConstraint.weightOf L2PricingState.equalWeights)
      = ofGas c := by
  have hwindow : (minWord c.adjustmentWindow (BitVec.ofNat 64 (2 ^ 32 - 1))).setWidth 32
      = BitVec.ofNat 32 (min c.adjustmentWindow.toNat (2 ^ 32 - 1)) := by
    apply BitVec.eq_of_toNat_eq
    rw [BitVec.toNat_setWidth, toNat_minWord, BitVec.toNat_ofNat, BitVec.toNat_ofNat]
    rfl
  have hmax : largestWeight equalWeightOf = 1 := by decide
  simp only [ofWeights, ofGas, hwindow, weightOf_equalWeights, hmax]

namespace L2Pricing
variable [Keccak]

section
variable {sto : Storage} (hslots : Function.Injective (layout sto).slot) {start : World}
  (R : L2Record)

/-! ### The reads -/

/-- A scalar of 64 bits is read. -/
theorem getScalar_realizes (s : L2Scalar) {v : U64} (hv : R.scalarWords s = U256.ofU64 v) :
    Realizes World.handle (HoldsWords sto start) (StorageBackedUint64.mk (sto.newSlot s.offset)).get
      R.words (.ok v) R.words :=
  getUint64_realizes R.words (.scalar s) hv

/-- A field of the gas constraint in the place `i` is read. -/
theorem getGas_realizes {i : U64} {c : GasConstraintData}
    (hi : R.gasConstraints[i.toNat]? = some c) (f : GasField) {v : U64}
    (hv : c.words f = U256.ofU64 v) :
    Realizes World.handle (HoldsWords sto start)
      (StorageBackedUint64.mk ((layout sto).slotAt (.gas i f))).get R.words (.ok v) R.words := by
  have hword : R.words.word (.gas i f) = U256.ofU64 v := by
    show elementWords GasConstraintData.words R.gasConstraints i f = _
    rw [elementWords, hi]
    exact hv
  exact getUint64_realizes R.words (.gas i f) hword

/-! ### The migrations -/

include hslots

/-- The legacy migration replaces the gas constraints among the words. -/
theorem setGasConstraintsFromLegacy_realizes (hlen : R.gasConstraints.length < 2 ^ 64) :
    Realizes World.handle (HoldsWords sto start)
      (openL2PricingState sto).setGasConstraintsFromLegacy R.words (.ok ())
      (R.withGas [R.legacyConstraint]).words := by
  have hbacklog : saturatingSub R.gasBacklog
      (saturatingMul R.backlogTolerance R.speedLimitPerSecond) = R.legacyConstraint.backlog := by
    rw [saturatingSub, toNat_saturatingMul]
    rfl
  -- The list is cleared first, so the addition is the only element.
  refine .bind (clearGasConstraints_realizes hslots R hlen) ?_
  refine .bind (getScalar_realizes (R.withGas []) .speedLimitPerSecond rfl) ?_
  refine .bind (getScalar_realizes (R.withGas []) .pricingInertia rfl) ?_
  refine .bind (getScalar_realizes (R.withGas []) .gasBacklog rfl) ?_
  refine .bind (getScalar_realizes (R.withGas []) .backlogTolerance rfl) ?_
  show Realizes _ _ ((openL2PricingState sto).addGasConstraint _ _
    (saturatingSub R.gasBacklog (saturatingMul R.backlogTolerance R.speedLimitPerSecond))) _ _ _
  rw [hbacklog]
  exact addGasConstraint_realizes hslots (R.withGas []) R.legacyConstraint
    (Nat.one_lt_two_pow (by decide))

variable (start) in
/-- One round of the migration moves one gas constraint over. -/
theorem migrateOne_realizes {i : Nat} (hi : i < R.gasConstraints.length)
    (hlen : R.gasConstraints.length < 2 ^ 64) :
    Realizes World.handle (HoldsWords sto start)
      (do
        let c := (openL2PricingState sto).openGasConstraintAt (BitVec.ofNat 64 i)
        let target ← c.target
        let window ← c.adjustmentWindow
        let backlog ← c.backlog
        let adjustmentWindow : U32 := (minWord window (BitVec.ofNat 64 (2 ^ 32 - 1))).setWidth 32
        (openL2PricingState sto).addMultiGasConstraint target adjustmentWindow backlog
          L2PricingState.equalWeights)
      (R.withMultiGas ((R.gasConstraints.take i).map .ofGas)).words (.ok ())
      (R.withMultiGas ((R.gasConstraints.take (i + 1)).map .ofGas)).words := by
  have htake : (R.gasConstraints.take (i + 1)).map MultiGasConstraintData.ofGas
      = (R.gasConstraints.take i).map .ofGas ++ [.ofGas R.gasConstraints[i]] := by
    rw [List.take_succ_eq_append_getElem hi, List.map_append, List.map_singleton]
  -- The gas constraints are read while the other list grows.
  have hget : R.gasConstraints[(BitVec.ofNat 64 i).toNat]? = some R.gasConstraints[i] := by
    rw [BitVec.toNat_ofNat, Nat.mod_eq_of_lt (by omega)]
    exact List.getElem?_eq_getElem hi
  have hroom : ((R.gasConstraints.take i).map MultiGasConstraintData.ofGas).length + 1
      < 2 ^ 64 := by
    rw [List.length_map, List.length_take]
    omega
  -- the record before the round
  let S := R.withMultiGas ((R.gasConstraints.take i).map .ofGas)
  refine .bind (getGas_realizes S hget .target rfl) ?_
  refine .bind (getGas_realizes S hget .adjustmentWindow rfl) ?_
  refine .bind (getGas_realizes S hget .backlog rfl) ?_
  rw [htake, ← MultiGasConstraintData.ofWeights_equalWeights]
  exact addMultiGasConstraint_realizes hslots S _ _ _ _ hroom

/-- The migration to multi-gas constraints replaces them among the words. -/
theorem setMultiGasConstraintsFromSingleGasConstraints_realizes
    (hgas : R.gasConstraints.length < 2 ^ 64) (hmulti : R.multiGasConstraints.length < 2 ^ 64) :
    Realizes World.handle (HoldsWords sto start)
      (openL2PricingState sto).setMultiGasConstraintsFromSingleGasConstraints R.words (.ok ())
      (R.withMultiGas (R.gasConstraints.map .ofGas)).words := by
  -- Nothing of the earlier multi-gas constraints is left when the loop starts.
  refine .bind (clearMultiGasConstraints_realizes hslots R hmulti) ?_
  refine .bind (gasConstraintsLength_realizes (R.withMultiGas [])) ?_
  -- before the round `i` the first `i` constraints are moved over
  have hloop := Realizes.forRange
    (fun i => (R.withMultiGas ((R.gasConstraints.take i).map .ofGas)).words) 0
    R.gasConstraints.length fun i _ hi => by
      rw [Nat.zero_add] at hi
      exact migrateOne_realizes hslots start R hi hgas
  rw [Nat.zero_add, List.take_length] at hloop
  rw [BitVec.toNat_ofNat]
  show Realizes _ _ (Prog.forRange _ 0 (R.gasConstraints.length % 2 ^ 64)) _ _ _
  rw [Nat.mod_eq_of_lt hgas]
  exact hloop

end

/-- A program that takes `R` to `R'`, and `R'` to itself, has the same end when it runs
again. -/
theorem run_twice {ε : Type} {sto : Storage} {start w : World} {p : Exec ε Unit} {R R' : L2Record}
    (hfirst : Realizes World.handle (Represents sto start) p R (.ok ()) R')
    (hagain : Realizes World.handle (Represents sto start) p R' (.ok ()) R')
    (hw : Represents sto start w R) :
    (World.run p w).1 = .ok () ∧ Represents sto start (World.run p w).2 R'
      ∧ World.run p (World.run p w).2 = World.run p w := by
  obtain ⟨w₁, hrun, hw₁⟩ := hfirst w hw
  obtain ⟨w₂, hrun', hw₂⟩ := hagain w₁ hw₁
  -- The record fixes the world, so the second run ends in the world that it started from.
  rw [hw₁.unique hw₂] at hrun'
  rw [World.run, hrun]
  exact ⟨rfl, hw₁, hrun'⟩

section
variable {sto : Storage} (hslots : Function.Injective (layout sto).slot) {start : World}
  (R : L2Record)
include hslots

/-- The legacy migration leaves the legacy constraint only. -/
theorem legacyMigration_realizes :
    Realizes World.handle (Represents sto start)
      (openL2PricingState sto).setGasConstraintsFromLegacy R (.ok ())
      (R.withGas [R.legacyConstraint]) :=
  realizes_record (fun hgas _ => setGasConstraintsFromLegacy_realizes hslots R hgas)
    (fun _ => Nat.one_lt_two_pow (by decide)) fun h => h

/-- The migration leaves one multi-gas constraint for each gas constraint. -/
theorem multiGasMigration_realizes :
    Realizes World.handle (Represents sto start)
      (openL2PricingState sto).setMultiGasConstraintsFromSingleGasConstraints R (.ok ())
      (R.withMultiGas (R.gasConstraints.map .ofGas)) := by
  intro w hR
  have hlen := hR.gas_lt
  refine realizes_record (fun hgas hmulti =>
    setMultiGasConstraintsFromSingleGasConstraints_realizes hslots R hgas hmulti) (fun h => h)
    (fun _ => ?_) w hR
  show (R.gasConstraints.map _).length < _
  rwa [List.length_map]

/-- After the initialization and every sequence of operations in bounds, each migration
replaces its own list and nothing else. The legacy one leaves one gas constraint with the
speed limit, the inertia and the backlog beyond the tolerated one. The other leaves a
multi-gas constraint for each gas constraint, in their order. A second run of a migration
ends as the first. -/
theorem migrations {R : L2Record} (hR : Represents sto start start R) (ops : List L2Op)
    (hops : AdmissibleOps L2Op.apply L2Op.InBounds ops R.initialized) :
    let init := World.run (initializeL2PricingState sto) start
    let w := (runOps World.handle (L2Op.program (openL2PricingState sto)) ops init.2).2
    let S := (specOps L2Op.apply ops R.initialized).2
    let legacy := World.run (openL2PricingState sto).setGasConstraintsFromLegacy
    let multiGas :=
      World.run (openL2PricingState sto).setMultiGasConstraintsFromSingleGasConstraints
    Represents sto start w S
    ∧ ((legacy w).1 = .ok ()
      ∧ Represents sto start (legacy w).2 (S.withGas [S.legacyConstraint])
      ∧ (S.legacyConstraint.backlog.toNat : ℤ)
        = max 0 ((S.gasBacklog.toNat : ℤ)
          - min ((S.backlogTolerance.toNat : ℤ) * S.speedLimitPerSecond.toNat) (2 ^ 64 - 1))
      ∧ legacy (legacy w).2 = legacy w)
    ∧ (multiGas w).1 = .ok ()
    ∧ Represents sto start (multiGas w).2 (S.withMultiGas (S.gasConstraints.map .ofGas))
    ∧ multiGas (multiGas w).2 = multiGas w := by
  intro init w S legacy multiGas
  have hw : Represents sto start w S := (refines_record hslots hR ops hops).2.2.1
  have hlegacy := run_twice (legacyMigration_realizes hslots S)
    (legacyMigration_realizes hslots (S.withGas [S.legacyConstraint])) hw
  have hmulti := run_twice (multiGasMigration_realizes hslots S)
    (multiGasMigration_realizes hslots (S.withMultiGas (S.gasConstraints.map .ofGas))) hw
  exact ⟨hw, ⟨hlegacy.1, hlegacy.2.1, S.legacyConstraint_backlog, hlegacy.2.2⟩, hmulti⟩

end

end L2Pricing

namespace L2Pricing
attribute [local instance] indexHash

/-- After the run on a blank world, with a gas backlog beyond the tolerated one. -/
theorem migrations_sample :
    let init := World.run (initializeL2PricingState sampleRoot) World.blank
    let w :=
      (runOps World.handle (L2Op.program (openL2PricingState sampleRoot)) sampleOps init.2).2
    let S := (specOps L2Op.apply sampleOps L2Record.blank.initialized).2
    let legacy := World.run (openL2PricingState sampleRoot).setGasConstraintsFromLegacy
    let multiGas :=
      World.run (openL2PricingState sampleRoot).setMultiGasConstraintsFromSingleGasConstraints
    Represents sampleRoot World.blank w S
    ∧ ((legacy w).1 = .ok ()
      ∧ Represents sampleRoot World.blank (legacy w).2 (S.withGas [S.legacyConstraint])
      ∧ (S.legacyConstraint.backlog.toNat : ℤ)
        = max 0 ((S.gasBacklog.toNat : ℤ)
          - min ((S.backlogTolerance.toNat : ℤ) * S.speedLimitPerSecond.toNat) (2 ^ 64 - 1))
      ∧ legacy (legacy w).2 = legacy w)
    ∧ (multiGas w).1 = .ok ()
    ∧ Represents sampleRoot World.blank (multiGas w).2
        (S.withMultiGas (S.gasConstraints.map .ofGas))
    ∧ multiGas (multiGas w).2 = multiGas w :=
  migrations sampleRoot_layout_injective blank_represents sampleOps sampleOps_inBounds

end L2Pricing

end ArbReth
