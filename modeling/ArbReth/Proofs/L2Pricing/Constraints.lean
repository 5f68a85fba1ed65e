import ArbReth.Proofs.L2Pricing.Represents
import ArbReth.Proofs.Storage.Vector

/-!
# `ArbReth.Proofs.L2Pricing.Constraints`: the two lists of constraints

One theorem for each program that changes a list says that it ends in the record with the
list changed. Adding an element fills the slots of the place after the last. Clearing
takes the elements from the end, and each round leaves the words of the list without its
last element.

The programs are followed on the words, where the slots of the place that is filled or
emptied hold what was written so far.
-/

set_option autoImplicit false

namespace ArbReth

open ArbReth.Program

/-! ### All words of an element -/

namespace L2Words

/-- Writing all three fields replaces the element. -/
theorem setGas_all (W : L2Words) (i : U64) (e : GasField → StorageValue) :
    ((W.setGas i .target (e .target)).setGas i .adjustmentWindow (e .adjustmentWindow)).setGas i
        .backlog (e .backlog)
      = { W with gas := Function.update W.gas i e } := by
  simp only [setGas, Function.update_self, Function.update_idem]
  -- The three fields are all fields, so nothing of the earlier element is left.
  congr 2
  funext f
  cases f <;> simp

/-- The weights of the kinds of a list are written. -/
def setWeights (W : L2Words) (i : U64) (e : ResourceKind → StorageValue)
    (kinds : List ResourceKind) : L2Words :=
  kinds.foldl (fun W kind => W.setMultiGas i (.weight kind) (e kind)) W

/-- The largest weight is written after the weights. -/
theorem setMultiGas_all (W : L2Words) (i : U64) (e : MultiGasField → StorageValue) :
    ((((W.setMultiGas i .target (e .target)).setMultiGas i .adjustmentWindow
          (e .adjustmentWindow)).setMultiGas i .backlog (e .backlog)).setWeights i
        (fun kind => e (.weight kind)) ResourceKind.all).setMultiGas i .maxWeight (e .maxWeight)
      = { W with multiGas := Function.update W.multiGas i e } := by
  simp only [setWeights, ResourceKind.all, List.foldl_cons, List.foldl_nil, setMultiGas,
    Function.update_self, Function.update_idem]
  -- Each of the eight kinds has its weight written.
  congr 2
  funext f
  cases f with
  | weight kind => cases kind <;> simp
  | _ => simp

/-- The largest weight is cleared before the weights. -/
theorem clearMultiGas_all (W : L2Words) (i : U64) :
    ((((W.setMultiGas i .target 0).setMultiGas i .adjustmentWindow 0).setMultiGas i .backlog
          0).setMultiGas i .maxWeight 0).setWeights i (fun _ => 0) ResourceKind.all
      = { W with multiGas := Function.update W.multiGas i fun _ => 0 } := by
  simp only [setWeights, ResourceKind.all, List.foldl_cons, List.foldl_nil, setMultiGas,
    Function.update_self, Function.update_idem]
  congr 2
  funext f
  cases f with
  | weight kind => cases kind <;> simp
  | _ => simp

end L2Words

namespace L2Pricing
variable [Keccak]

section
variable {sto : Storage} (hslots : Function.Injective (layout sto).slot) {start : World}
  (W : L2Words)
include hslots

/-! ### One element -/

/-- All fields of a gas constraint are written. -/
theorem fillGas_realizes (i : U64) (c : GasConstraintData) :
    Realizes World.handle (HoldsWords sto start)
      (do
        ((openL2PricingState sto).openGasConstraintAt i).setTarget c.target
        ((openL2PricingState sto).openGasConstraintAt i).setAdjustmentWindow c.adjustmentWindow
        ((openL2PricingState sto).openGasConstraintAt i).setBacklog c.backlog)
      W (.ok ()) { W with gas := Function.update W.gas i c.words } := by
  rw [← L2Words.setGas_all]
  refine .bind (setGas_realizes hslots W i .target _) ?_
  refine .bind (setGas_realizes hslots _ i .adjustmentWindow _) ?_
  exact setGas_realizes hslots _ i .backlog _

/-- `clear` of a gas constraint zeroes its element. -/
theorem clearGas_realizes (i : U64) :
    Realizes World.handle (HoldsWords sto start)
      ((openL2PricingState sto).openGasConstraintAt i).clear W (.ok ())
      { W with gas := Function.update W.gas i fun _ => 0 } := by
  rw [← L2Words.setGas_all W i fun _ => 0]
  refine .bind (setGas_realizes hslots W i .target _) ?_
  refine .bind (setGas_realizes hslots _ i .adjustmentWindow _) ?_
  exact setGas_realizes hslots _ i .backlog _

/-- The loop over the kinds writes their weights and returns the largest. -/
theorem setWeights_realizes (i : U64) (weights : WeightMap) (kinds : List ResourceKind)
    (maxWeight : U64) :
    Realizes World.handle (HoldsWords sto start)
      (((openL2PricingState sto).openMultiGasConstraintAt i).setWeights weights kinds maxWeight)
      W (.ok (largestFrom (MultiGasConstraint.weightOf weights) kinds maxWeight))
      (W.setWeights i (fun kind => U256.ofU64 (MultiGasConstraint.weightOf weights kind)) kinds)
    := by
  induction kinds generalizing W maxWeight with
  | nil => exact .pure _
  | cons kind kinds ih =>
      -- The largest weight so far is raised to the one that is written.
      exact .bind (setMultiGas_realizes hslots W i (.weight kind) _) (ih _ _)

/-- `clear` zeroes the weights kind by kind. -/
theorem clearWeights_realizes (i : U64) (kinds : List ResourceKind) :
    Realizes World.handle (HoldsWords sto start)
      (((openL2PricingState sto).openMultiGasConstraintAt i).clearWeights kinds) W (.ok ())
      (W.setWeights i (fun _ => 0) kinds) := by
  induction kinds generalizing W with
  | nil => exact .pure _
  | cons kind kinds ih => exact .bind (setMultiGas_realizes hslots W i (.weight kind) _) (ih _)

/-- The weights are written kind by kind, and the largest of them last. -/
theorem setResourceWeights_realizes (i : U64) (weights : WeightMap) :
    Realizes World.handle (HoldsWords sto start)
      (((openL2PricingState sto).openMultiGasConstraintAt i).setResourceWeights weights) W (.ok ())
      ((W.setWeights i (fun kind => U256.ofU64 (MultiGasConstraint.weightOf weights kind))
          ResourceKind.all).setMultiGas i .maxWeight
        (U256.ofU64 (largestWeight (MultiGasConstraint.weightOf weights)))) :=
  .bind (setWeights_realizes hslots W i weights _ 0) (setMultiGas_realizes hslots _ i .maxWeight _)

/-- All fields of a multi-gas constraint are written. -/
theorem fillMultiGas_realizes (i : U64) (target : U64) (adjustmentWindow : U32) (backlog : U64)
    (weights : WeightMap) :
    Realizes World.handle (HoldsWords sto start)
      (do
        ((openL2PricingState sto).openMultiGasConstraintAt i).setTarget target
        ((openL2PricingState sto).openMultiGasConstraintAt i).setAdjustmentWindow adjustmentWindow
        ((openL2PricingState sto).openMultiGasConstraintAt i).setBacklog backlog
        ((openL2PricingState sto).openMultiGasConstraintAt i).setResourceWeights weights)
      W (.ok ())
      { W with
          multiGas := Function.update W.multiGas i (MultiGasConstraintData.ofWeights target
            adjustmentWindow backlog (MultiGasConstraint.weightOf weights)).words } := by
  rw [← L2Words.setMultiGas_all]
  refine .bind (setMultiGas_realizes hslots W i .target _) ?_
  refine .bind (setMultiGas_realizes hslots _ i .adjustmentWindow _) ?_
  refine .bind (setMultiGas_realizes hslots _ i .backlog _) ?_
  exact setResourceWeights_realizes hslots _ i weights

/-- `clear` of a multi-gas constraint zeroes its element. -/
theorem clearMultiGas_realizes (i : U64) :
    Realizes World.handle (HoldsWords sto start)
      ((openL2PricingState sto).openMultiGasConstraintAt i).clear W (.ok ())
      { W with multiGas := Function.update W.multiGas i fun _ => 0 } := by
  rw [← L2Words.clearMultiGas_all]
  refine .bind (setMultiGas_realizes hslots W i .target _) ?_
  refine .bind (setMultiGas_realizes hslots _ i .adjustmentWindow _) ?_
  refine .bind (setMultiGas_realizes hslots _ i .backlog _) ?_
  refine .bind (setMultiGas_realizes hslots _ i .maxWeight _) ?_
  exact clearWeights_realizes hslots _ i ResourceKind.all

end

/-! ### The lists -/

section
variable {sto : Storage} (hslots : Function.Injective (layout sto).slot) {start : World}
  (R : L2Record)

/-- The length read is that of the list of gas constraints. -/
theorem gasConstraintsLength_realizes :
    Realizes World.handle (HoldsWords sto start) (openL2PricingState sto).gasConstraintsLength
      R.words (.ok (BitVec.ofNat 64 R.gasConstraints.length)) R.words :=
  realizes_words (SubStorageVector.length_realizes (k := .gasLength) rfl rfl) rfl

/-- The length read is that of the list of multi-gas constraints. -/
theorem multiGasConstraintsLength_realizes :
    Realizes World.handle (HoldsWords sto start) (openL2PricingState sto).multiGasConstraintsLength
      R.words (.ok (BitVec.ofNat 64 R.multiGasConstraints.length)) R.words :=
  realizes_words (SubStorageVector.length_realizes (k := .multiGasLength) rfl rfl) rfl

include hslots

/-- A gas constraint is put behind the list. -/
theorem addGasConstraint_realizes (c : GasConstraintData)
    (hroom : R.gasConstraints.length + 1 < 2 ^ 64) :
    Realizes World.handle (HoldsWords sto start)
      ((openL2PricingState sto).addGasConstraint c.target c.adjustmentWindow c.backlog) R.words
      (.ok ()) (R.withGas (R.gasConstraints ++ [c])).words := by
  have hend : (R.withGas (R.gasConstraints ++ [c])).words
      = { R.words with
          gasLength := U256.ofU64 (BitVec.ofNat 64 (R.gasConstraints.length + 1))
          gas := Function.update R.words.gas (BitVec.ofNat 64 R.gasConstraints.length)
            c.words } := by
    simp only [L2Record.words, L2Record.withGas, elementWords_append _ hroom, lengthWord,
      List.length_append, List.length_singleton]
    rfl
  -- The push writes the length only. The new place is filled after it.
  rw [hend]
  refine .bind (realizes_words
    (SubStorageVector.push_realizes (k := .gasLength) hslots rfl rfl hroom)
    (L2Words.word_setGasLength _ _)) ?_
  exact fillGas_realizes hslots { R.words with gasLength := _ } _ c

/-- A multi-gas constraint is put behind the list, with its weights and their maximum. -/
theorem addMultiGasConstraint_realizes (target : U64) (adjustmentWindow : U32) (backlog : U64)
    (weights : WeightMap) (hroom : R.multiGasConstraints.length + 1 < 2 ^ 64) :
    Realizes World.handle (HoldsWords sto start)
      ((openL2PricingState sto).addMultiGasConstraint target adjustmentWindow backlog weights)
      R.words (.ok ())
      (R.withMultiGas (R.multiGasConstraints ++ [.ofWeights target adjustmentWindow backlog
        (MultiGasConstraint.weightOf weights)])).words := by
  have hend : (R.withMultiGas (R.multiGasConstraints ++ [.ofWeights target adjustmentWindow backlog
        (MultiGasConstraint.weightOf weights)])).words
      = { R.words with
          multiGasLength := U256.ofU64 (BitVec.ofNat 64 (R.multiGasConstraints.length + 1))
          multiGas := Function.update R.words.multiGas
            (BitVec.ofNat 64 R.multiGasConstraints.length)
            (MultiGasConstraintData.ofWeights target adjustmentWindow backlog
              (MultiGasConstraint.weightOf weights)).words } := by
    simp only [L2Record.words, L2Record.withMultiGas, elementWords_append _ hroom, lengthWord,
      List.length_append, List.length_singleton]
    rfl
  rw [hend]
  refine .bind (realizes_words
    (SubStorageVector.push_realizes (k := .multiGasLength) hslots rfl rfl hroom)
    (L2Words.word_setMultiGasLength _ _)) ?_
  exact fillMultiGas_realizes hslots { R.words with multiGasLength := _ } _ target adjustmentWindow
    backlog weights

/-- One round of the clearing takes the last element. -/
theorem popGas_realizes {l : List GasConstraintData} (c : GasConstraintData)
    (hlen : l.length + 1 < 2 ^ 64) :
    Realizes World.handle (HoldsWords sto start)
      (do
        let subStorage ← (openL2PricingState sto).gasConstraints.pop
        (GasConstraint.open subStorage).clear)
      (R.withGas (l ++ [c])).words (.ok ()) (R.withGas l).words := by
  have hlength : (R.withGas (l ++ [c])).words.word .gasLength
      = U256.ofU64 (BitVec.ofNat 64 (l.length + 1)) := by
    show lengthWord (l ++ [c]) = _
    rw [lengthWord, List.length_append, List.length_singleton]
  have hend : (R.withGas l).words
      = { (R.withGas (l ++ [c])).words with
          gasLength := U256.ofU64 (BitVec.ofNat 64 l.length)
          gas := Function.update (R.withGas (l ++ [c])).words.gas (BitVec.ofNat 64 l.length)
            fun _ => 0 } := by
    simp only [L2Record.words, L2Record.withGas, elementWords_append _ hlen, Function.update_idem,
      ← elementWords_length GasConstraintData.words (l := l) (by omega), Function.update_eq_self]
    rfl
  -- The pop lowers the length and leaves the fields, which the round clears itself.
  rw [hend]
  refine .bind (realizes_words
    (SubStorageVector.pop_realizes (k := .gasLength) hslots rfl hlength hlen)
    (L2Words.word_setGasLength _ _)) ?_
  exact clearGas_realizes hslots { (R.withGas (l ++ [c])).words with gasLength := _ } _

/-- One step of the clear takes the last constraint off the list and zeroes it. -/
theorem popMultiGas_realizes {l : List MultiGasConstraintData} (c : MultiGasConstraintData)
    (hlen : l.length + 1 < 2 ^ 64) :
    Realizes World.handle (HoldsWords sto start)
      (do
        let subStorage ← (openL2PricingState sto).multiGasConstraints.pop
        (MultiGasConstraint.open subStorage).clear)
      (R.withMultiGas (l ++ [c])).words (.ok ()) (R.withMultiGas l).words := by
  have hlength : (R.withMultiGas (l ++ [c])).words.word .multiGasLength
      = U256.ofU64 (BitVec.ofNat 64 (l.length + 1)) := by
    show lengthWord (l ++ [c]) = _
    rw [lengthWord, List.length_append, List.length_singleton]
  have hend : (R.withMultiGas l).words
      = { (R.withMultiGas (l ++ [c])).words with
          multiGasLength := U256.ofU64 (BitVec.ofNat 64 l.length)
          multiGas := Function.update (R.withMultiGas (l ++ [c])).words.multiGas
            (BitVec.ofNat 64 l.length) fun _ => 0 } := by
    simp only [L2Record.words, L2Record.withMultiGas, elementWords_append _ hlen,
      Function.update_idem,
      ← elementWords_length MultiGasConstraintData.words (l := l) (by omega),
      Function.update_eq_self]
    rfl
  rw [hend]
  refine .bind (realizes_words
    (SubStorageVector.pop_realizes (k := .multiGasLength) hslots rfl hlength hlen)
    (L2Words.word_setMultiGasLength _ _)) ?_
  exact clearMultiGas_realizes hslots
    { (R.withMultiGas (l ++ [c])).words with multiGasLength := _ } _

/-- The clearing makes a round for each element, so it takes none from an empty list. -/
theorem clearGasConstraints_realizes (hlen : R.gasConstraints.length < 2 ^ 64) :
    Realizes World.handle (HoldsWords sto start) (openL2PricingState sto).clearGasConstraints
      R.words (.ok ()) (R.withGas []).words := by
  refine .bind (gasConstraintsLength_realizes R) ?_
  -- the number of rounds is read before the first one
  rw [BitVec.toNat_ofNat, Nat.mod_eq_of_lt hlen]
  refine Realizes.forRange_dropLast (fun l => (R.withGas l).words) R.gasConstraints 0 ?_
  intro l c hl
  exact popGas_realizes hslots R c (by omega)

/-- The clear empties the list of multi-gas constraints. -/
theorem clearMultiGasConstraints_realizes (hlen : R.multiGasConstraints.length < 2 ^ 64) :
    Realizes World.handle (HoldsWords sto start) (openL2PricingState sto).clearMultiGasConstraints
      R.words (.ok ()) (R.withMultiGas []).words := by
  refine .bind (multiGasConstraintsLength_realizes R) ?_
  rw [BitVec.toNat_ofNat, Nat.mod_eq_of_lt hlen]
  refine Realizes.forRange_dropLast (fun l => (R.withMultiGas l).words) R.multiGasConstraints 0 ?_
  intro l c hl
  exact popMultiGas_realizes hslots R c (by omega)

end

end L2Pricing

end ArbReth
