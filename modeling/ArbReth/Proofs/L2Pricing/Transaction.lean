import ArbReth.L2Pricing.Transaction
import ArbReth.Proofs.L2Pricing.Calls
import ArbReth.Proofs.Storage.Transaction

/-!
# `ArbReth.Proofs.L2Pricing.Transaction`: the L2 pricer in a run of transactions

A query and a setter of one cell do in a transaction what they do on a coherent store. The
programs that read a length after they have written it are followed on the words, with the
record `R` of the database for what is read.

`transact_call` is the step, and `l2_transactions_refine` the run from a blank store.
-/

set_option autoImplicit false

namespace ArbReth

open ArbReth.Program

/-! ### The words of a list that loses its last element -/

section
variable {α F : Type} {l : List α} {zero : α}

/-- The list keeps its length when the last element is replaced. -/
theorem length_setLast (l : List α) (a : α) : (setLast l a).length = l.length :=
  List.length_modify _ _ _

/-- The list without its last element still has a length that fits. -/
theorem length_dropLast_lt (hlt : l.length < 2 ^ 64) : l.dropLast.length < 2 ^ 64 := by
  rw [List.length_dropLast]
  omega

/-- The length after an addition fits in a `u64` when the list is not full. -/
theorem length_snoc_lt (hlt : l.length < 2 ^ 64) (hroom : l.length ≠ 2 ^ 64 - 1) (c : α) :
    (l ++ [c]).length < 2 ^ 64 := by
  rw [List.length_append, List.length_singleton]
  omega

variable (words : α → F → StorageValue)

/-- A last element of zeros has the words of no last element. -/
theorem elementWords_setLast (hzero : words zero = fun _ => 0) :
    elementWords words (setLast l zero) = elementWords words l.dropLast := by
  funext i
  rw [elementWords, elementWords, setLast, List.getElem?_modify, List.getElem?_dropLast]
  by_cases hlast : i.toNat < l.length - 1
  · rw [if_pos hlast]
    have hne : l.length - 1 ≠ i.toNat := by omega
    cases l[i.toNat]? with
    | none => rfl
    | some c => simp [hne]
  · rw [if_neg hlast]
    by_cases hi : l.length - 1 = i.toNat
    · cases l[i.toNat]? with
      | none => rfl
      | some c => simp [hi, hzero]
    · rw [List.getElem?_eq_none (by omega)]
      rfl

/-- The place of the last element holds zeros after it is removed. -/
theorem elementWords_dropLast {n : Nat} (hzero : words zero = fun _ => 0)
    (hlen : l.length = n + 1) (hlt : n + 1 < 2 ^ 64) :
    elementWords words l.dropLast
      = Function.update (elementWords words l) (BitVec.ofNat 64 n) fun _ => 0 := by
  have hlast : (BitVec.ofNat 64 n).toNat = l.length - 1 := by
    rw [BitVec.toNat_ofNat, Nat.mod_eq_of_lt (by omega)]
    omega
  rw [← elementWords_setLast words hzero, ← elementWords_clear words l _ hzero, hlast]
  rfl

end

namespace L2Words

/-- The words after an addition to a list of gas constraints that has the length `n`. -/
def putGas (W : L2Words) (n : Nat) (c : GasConstraintData) : L2Words :=
  { W with
      gasLength := U256.ofU64 (BitVec.ofNat 64 (n + 1))
      gas := Function.update W.gas (BitVec.ofNat 64 n) c.words }

/-- The words after an addition to a list of multi-gas constraints that has the length `n`. -/
def putMultiGas (W : L2Words) (n : Nat) (c : MultiGasConstraintData) : L2Words :=
  { W with
      multiGasLength := U256.ofU64 (BitVec.ofNat 64 (n + 1))
      multiGas := Function.update W.multiGas (BitVec.ofNat 64 n) c.words }

/-- The words after the last of `n + 1` gas constraints is taken. -/
def takeGas (W : L2Words) (n : Nat) : L2Words :=
  { W with
      gasLength := U256.ofU64 (BitVec.ofNat 64 n)
      gas := Function.update W.gas (BitVec.ofNat 64 n) fun _ => 0 }

/-- The words after the last of `n + 1` multi-gas constraints is taken. -/
def takeMultiGas (W : L2Words) (n : Nat) : L2Words :=
  { W with
      multiGasLength := U256.ofU64 (BitVec.ofNat 64 n)
      multiGas := Function.update W.multiGas (BitVec.ofNat 64 n) fun _ => 0 }

/-- The second of two additions in the same place is the one that stays. -/
theorem putMultiGas_putMultiGas (W : L2Words) (n : Nat) (c c' : MultiGasConstraintData) :
    (W.putMultiGas n c).putMultiGas n c' = W.putMultiGas n c' := by
  simp only [putMultiGas, Function.update_idem]

end L2Words

namespace L2Record
variable (R : L2Record) {n : Nat}

/-- An addition behind the last element of a list. -/
theorem words_putGas {l : List GasConstraintData} (hlen : l.length = n) (hlt : n + 1 < 2 ^ 64)
    (c : GasConstraintData) :
    (R.withGas l).words.putGas n c = (R.withGas (l ++ [c])).words := by
  subst hlen
  simp only [words, withGas, L2Words.putGas, elementWords_append _ hlt, lengthWord,
    List.length_append, List.length_singleton]
  rfl

/-- An addition behind the last multi-gas constraint. -/
theorem words_putMultiGas {l : List MultiGasConstraintData} (hlen : l.length = n)
    (hlt : n + 1 < 2 ^ 64) (c : MultiGasConstraintData) :
    (R.withMultiGas l).words.putMultiGas n c = (R.withMultiGas (l ++ [c])).words := by
  subst hlen
  simp only [words, withMultiGas, L2Words.putMultiGas, elementWords_append _ hlt, lengthWord,
    List.length_append, List.length_singleton]
  rfl

/-- An addition to a list that has lost its last element since its length was read. -/
theorem words_dropLast_putGas (hlen : R.gasConstraints.length = n) (hlt : n + 1 < 2 ^ 64)
    (c : GasConstraintData) :
    (R.withGas R.gasConstraints.dropLast).words.putGas n c
      = (R.withGas (setLast R.gasConstraints .zero ++ [c])).words := by
  rw [← words_putGas R ((length_setLast _ _).trans hlen) hlt c]
  simp only [words, withGas, L2Words.putGas,
    elementWords_setLast _ GasConstraintData.words_zero]
  rfl

/-- An addition to a list of multi-gas constraints that has lost its last element since its length
was read. The zeros that were written there are one of its elements again. -/
theorem words_dropLast_putMultiGas (hlen : R.multiGasConstraints.length = n)
    (hlt : n + 1 < 2 ^ 64) (c : MultiGasConstraintData) :
    (R.withMultiGas R.multiGasConstraints.dropLast).words.putMultiGas n c
      = (R.withMultiGas (setLast R.multiGasConstraints .zero ++ [c])).words := by
  rw [← words_putMultiGas R ((length_setLast _ _).trans hlen) hlt c]
  simp only [words, withMultiGas, L2Words.putMultiGas,
    elementWords_setLast _ MultiGasConstraintData.words_zero]
  rfl

/-- The last element is taken. -/
theorem words_takeGas (hlen : R.gasConstraints.length = n + 1) (hlt : n + 1 < 2 ^ 64) :
    R.words.takeGas n = (R.withGas R.gasConstraints.dropLast).words := by
  simp only [words, withGas, L2Words.takeGas, lengthWord, List.length_dropLast, hlen,
    elementWords_dropLast _ GasConstraintData.words_zero hlen hlt]
  rfl

/-- The last multi-gas constraint is taken. -/
theorem words_takeMultiGas (hlen : R.multiGasConstraints.length = n + 1) (hlt : n + 1 < 2 ^ 64) :
    R.words.takeMultiGas n = (R.withMultiGas R.multiGasConstraints.dropLast).words := by
  simp only [words, withMultiGas, L2Words.takeMultiGas, lengthWord, List.length_dropLast, hlen,
    elementWords_dropLast _ MultiGasConstraintData.words_zero hlen hlt]
  rfl

/-- The last gas constraint in its place. -/
theorem gasAt_last {c : GasConstraintData} (hlast : R.gasConstraints.getLast? = some c)
    (hlen : R.gasConstraints.length = n + 1) (hlt : n + 1 < 2 ^ 64) :
    R.gasAt (BitVec.ofNat 64 n) = c := by
  rw [List.getLast?_eq_getElem?, hlen, Nat.add_sub_cancel] at hlast
  rw [gasAt, BitVec.toNat_ofNat, Nat.mod_eq_of_lt (by omega), hlast]
  rfl

end L2Record

/-- To take the same gas constraint twice is to take it once. So a loop that reads the same length
in each round takes one constraint only. -/
theorem L2Words.takeGas_takeGas (W : L2Words) (n : Nat) :
    (W.takeGas n).takeGas n = W.takeGas n := by
  simp only [takeGas, Function.update_idem]

/-- The same for a multi-gas constraint. -/
theorem L2Words.takeMultiGas_takeMultiGas (W : L2Words) (n : Nat) :
    (W.takeMultiGas n).takeMultiGas n = W.takeMultiGas n := by
  simp only [takeMultiGas, Function.update_idem]

/-! ### Programs that write only, and programs that read only -/

/-- The setter of a scalar writes one slot. -/
theorem L2ScalarOp.program_tells (self : L2PricingState) (op : L2ScalarOp) :
    Tells (op.program self) := by
  cases op <;> exact StorageSlot.set_tells _ _

/-- The setter of a field of a gas constraint writes one slot. -/
theorem GasConstraintOp.program_tells (c : GasConstraint) (op : GasConstraintOp) :
    Tells (op.program c) := by
  cases op <;> exact StorageSlot.set_tells _ _

/-- The clearing of a gas constraint writes its three slots and reads none. -/
theorem GasConstraint.clear_tells (c : GasConstraint) : Tells c.clear :=
  (StorageSlot.set_tells _ _).bind fun _ =>
  (StorageSlot.set_tells _ _).bind fun _ => StorageSlot.set_tells _ _

namespace MultiGasConstraint
variable (c : MultiGasConstraint)

/-- The loop over the weights writes one slot in each round. -/
theorem setWeights_tells (weights : WeightMap) (kinds : List ResourceKind) (maxWeight : U64) :
    Tells (c.setWeights weights kinds maxWeight) := by
  induction kinds generalizing maxWeight with
  | nil => exact .pure _
  | cons kind kinds ih => exact (StorageSlot.set_tells _ _).bind fun _ => ih _

/-- Setting the weights writes them, and their maximum behind them. -/
theorem setResourceWeights_tells (weights : WeightMap) : Tells (c.setResourceWeights weights) :=
  (c.setWeights_tells weights _ _).bind fun _ => StorageSlot.set_tells _ _

/-- The loop that clears the weights writes one slot in each round. -/
theorem clearWeights_tells (kinds : List ResourceKind) : Tells (c.clearWeights kinds) := by
  induction kinds with
  | nil => exact .pure _
  | cons kind kinds ih => exact (StorageSlot.set_tells _ _).bind fun _ => ih

/-- The clearing of a multi-gas constraint writes all its slots and reads none. -/
theorem clear_tells : Tells c.clear :=
  (StorageSlot.set_tells _ _).bind fun _ =>
  (StorageSlot.set_tells _ _).bind fun _ =>
  (StorageSlot.set_tells _ _).bind fun _ =>
  (StorageSlot.set_tells _ _).bind fun _ => c.clearWeights_tells _

end MultiGasConstraint

/-- The setter of a field of a multi-gas constraint reads nothing. -/
theorem MultiGasConstraintOp.program_tells (c : MultiGasConstraint) (op : MultiGasConstraintOp) :
    Tells (op.program c) := by
  cases op with
  | setResourceWeights weights => exact c.setResourceWeights_tells weights
  | _ => exact StorageSlot.set_tells _ _

/-- A query writes nothing, so it sees what it would see outside of a transaction. -/
theorem L2Query.program_asks [Keccak] (self : L2PricingState) (q : L2Query) :
    Asks (q.program self) := by
  have hword : ∀ (slot : StorageSlot) (bound : Nat) (msg : String),
      Asks ((slot.getWord bound msg).reply CallError.db Reply.uint64) := fun slot bound msg =>
    Exec.reply_asks (slot.getWord_asks bound msg) _ _
  cases q with
  | baseFeeWei => exact Exec.reply_asks (StorageSlot.get_asks _) _ _
  | minBaseFeeWei => exact Exec.reply_asks (StorageSlot.get_asks _) _ _
  | multiGasConstraintAdjustmentWindow i =>
      exact Exec.reply_asks (StorageBackedUint32.get_asks _) _ _
  | _ => exact hword _ _ _

/-- The initialization writes its seven scalars and reads none of them. -/
theorem initializeL2PricingState_tells [Keccak] (sto : Storage) :
    Tells (initializeL2PricingState sto) := by
  have hset : ∀ (offset v : U64), Tells (sto.setUint64ByUint64 offset v) := fun _ _ =>
    ⟨trivial, fun _ => .ite trivial ⟨trivial, fun _ => Exec.sstore_tells _ _ _⟩⟩
  exact (hset _ _).bind fun _ => (hset _ _).bind fun _ => (hset _ _).bind fun _ =>
    (hset _ _).bind fun _ => (hset _ _).bind fun _ => (hset _ _).bind fun _ => hset _ _

namespace L2Pricing
variable [Keccak]

/-! ### The lists in a transaction -/

/-- A program on the words of the layout is one on the words of the pricer. -/
theorem realizes_words_over {ε α : Type} {sto : Storage} {start : World} {p : Exec ε α}
    {r : Outcome ε α} {D W W' : L2Words} {f : L2Key → StorageValue}
    (h : Realizes TwoLayer.handle (InTransaction ((layout sto).Holds start) D.word) p W.word r f)
    (hf : f = W'.word) :
    Realizes TwoLayer.handle (InTransaction (HoldsWords sto start) D) p W r W' := by
  subst hf
  intro s hs
  obtain ⟨s', hrun, hs'⟩ := h s ⟨hs.database, hs.latest⟩
  exact ⟨s', hrun, hs'.database, hs'.latest⟩

section
variable {sto : Storage} {start : World} (R : L2Record) (W : L2Words) {n : Nat}

/-- The number of the gas constraints is that of the database, whatever has been written since. -/
theorem gasConstraintsLength_over :
    Realizes TwoLayer.handle (InTransaction (HoldsWords sto start) R.words)
      (openL2PricingState sto).gasConstraintsLength W
      (.ok (BitVec.ofNat 64 R.gasConstraints.length)) W :=
  Asks.over (StorageSlot.getWord_asks _ _ _) (gasConstraintsLength_realizes R) W

/-- The number of the multi-gas constraints is that of the database, whatever has been written
since. -/
theorem multiGasConstraintsLength_over :
    Realizes TwoLayer.handle (InTransaction (HoldsWords sto start) R.words)
      (openL2PricingState sto).multiGasConstraintsLength W
      (.ok (BitVec.ofNat 64 R.multiGasConstraints.length)) W :=
  Asks.over (StorageSlot.getWord_asks _ _ _) (multiGasConstraintsLength_realizes R) W

/-- An addition to a list of gas constraints that is full in the database panics. -/
theorem addGasConstraint_over_panics (target adjustmentWindow backlog : U64)
    (hfull : R.gasConstraints.length = 2 ^ 64 - 1) :
    Realizes TwoLayer.handle (InTransaction (HoldsWords sto start) R.words)
      ((openL2PricingState sto).addGasConstraint target adjustmentWindow backlog) W
      (.panic "attempt to add with overflow") W :=
  .bind_panic (realizes_words_over
    (SubStorageVector.push_over_panics (k := .gasLength) rfl rfl hfull W.word) rfl)

/-- An addition to a list of multi-gas constraints that is full in the database panics. -/
theorem addMultiGasConstraint_over_panics (target : U64) (adjustmentWindow : U32) (backlog : U64)
    (weights : WeightMap) (hfull : R.multiGasConstraints.length = 2 ^ 64 - 1) :
    Realizes TwoLayer.handle (InTransaction (HoldsWords sto start) R.words)
      ((openL2PricingState sto).addMultiGasConstraint target adjustmentWindow backlog weights) W
      (.panic "attempt to add with overflow") W :=
  .bind_panic (realizes_words_over
    (SubStorageVector.push_over_panics (k := .multiGasLength) rfl rfl hfull W.word) rfl)

variable (hslots : Function.Injective (layout sto).slot)
include hslots

variable (start) in
/-- An addition goes to the place after the last of `R`. -/
theorem addGasConstraint_over (c : GasConstraintData) (hlen : R.gasConstraints.length = n)
    (hlt : n + 1 < 2 ^ 64) :
    Realizes TwoLayer.handle (InTransaction (HoldsWords sto start) R.words)
      ((openL2PricingState sto).addGasConstraint c.target c.adjustmentWindow c.backlog) W
      (.ok ()) (W.putGas n c) := by
  subst hlen
  refine .bind (realizes_words_over
    (SubStorageVector.push_over (k := .gasLength) hslots rfl rfl hlt W.word)
    (L2Words.word_setGasLength _ _)) ?_
  refine Tells.over ?_ (fillGas_realizes hslots { W with gasLength := _ } _ c) R.words
  exact (StorageSlot.set_tells _ _).bind fun _ =>
    (StorageSlot.set_tells _ _).bind fun _ => StorageSlot.set_tells _ _

variable (start) in
/-- An addition of a multi-gas constraint, behind as many elements as the database has. -/
theorem addMultiGasConstraint_over (target : U64) (adjustmentWindow : U32) (backlog : U64)
    (weights : WeightMap) (hlen : R.multiGasConstraints.length = n) (hlt : n + 1 < 2 ^ 64) :
    Realizes TwoLayer.handle (InTransaction (HoldsWords sto start) R.words)
      ((openL2PricingState sto).addMultiGasConstraint target adjustmentWindow backlog weights) W
      (.ok ())
      (W.putMultiGas n (.ofWeights target adjustmentWindow backlog
        (MultiGasConstraint.weightOf weights))) := by
  subst hlen
  refine .bind (realizes_words_over
    (SubStorageVector.push_over (k := .multiGasLength) hslots rfl rfl hlt W.word)
    (L2Words.word_setMultiGasLength _ _)) ?_
  refine Tells.over ?_ (fillMultiGas_realizes hslots { W with multiGasLength := _ } _ target
    adjustmentWindow backlog weights) R.words
  exact (StorageSlot.set_tells _ _).bind fun _ => (StorageSlot.set_tells _ _).bind fun _ =>
    (StorageSlot.set_tells _ _).bind fun _ => MultiGasConstraint.setResourceWeights_tells _ _

variable (start) in
/-- A round of the clearing takes the last element of `R`, also when another round has taken
it before. -/
theorem popGas_over (hlen : R.gasConstraints.length = n + 1) (hlt : n + 1 < 2 ^ 64) :
    Realizes TwoLayer.handle (InTransaction (HoldsWords sto start) R.words)
      (do
        let subStorage ← (openL2PricingState sto).gasConstraints.pop
        (GasConstraint.open subStorage).clear)
      W (.ok ()) (W.takeGas n) := by
  have hlength : R.words.word .gasLength = U256.ofU64 (BitVec.ofNat 64 (n + 1)) := by
    rw [← hlen]
    rfl
  refine .bind (realizes_words_over
    (SubStorageVector.pop_over (k := .gasLength) hslots rfl hlength hlt W.word)
    (L2Words.word_setGasLength _ _)) ?_
  exact Tells.over (GasConstraint.clear_tells _)
    (clearGas_realizes hslots { W with gasLength := _ } _) R.words

variable (start) in
/-- The removal of the last multi-gas constraint that the database has. -/
theorem popMultiGas_over (hlen : R.multiGasConstraints.length = n + 1) (hlt : n + 1 < 2 ^ 64) :
    Realizes TwoLayer.handle (InTransaction (HoldsWords sto start) R.words)
      (do
        let subStorage ← (openL2PricingState sto).multiGasConstraints.pop
        (MultiGasConstraint.open subStorage).clear)
      W (.ok ()) (W.takeMultiGas n) := by
  have hlength : R.words.word .multiGasLength = U256.ofU64 (BitVec.ofNat 64 (n + 1)) := by
    rw [← hlen]
    rfl
  refine .bind (realizes_words_over
    (SubStorageVector.pop_over (k := .multiGasLength) hslots rfl hlength hlt W.word)
    (L2Words.word_setMultiGasLength _ _)) ?_
  exact Tells.over (MultiGasConstraint.clear_tells _)
    (clearMultiGas_realizes hslots { W with multiGasLength := _ } _) R.words

/-- All rounds of the clearing take the same element. -/
theorem clearGasConstraints_over (hlt : R.gasConstraints.length < 2 ^ 64) :
    Realizes TwoLayer.handle (InTransaction (HoldsWords sto start) R.words)
      (openL2PricingState sto).clearGasConstraints R.words (.ok ())
      (R.withGas R.gasConstraints.dropLast).words := by
  refine .bind (gasConstraintsLength_over R R.words) ?_
  rw [BitVec.toNat_ofNat, Nat.mod_eq_of_lt hlt]
  cases hlen : R.gasConstraints.length with
  | zero =>
      have hnil := List.eq_nil_of_length_eq_zero hlen
      have hsame : R.withGas R.gasConstraints.dropLast = R := by
        rw [hnil, List.dropLast_nil, ← hnil]
        rfl
      rw [hsame]
      exact .pure _
  | succ n =>
      rw [hlen] at hlt
      rw [← R.words_takeGas hlen hlt]
      refine .forRange_again 0 n (popGas_over start R _ hslots hlen hlt) ?_
      have hagain := popGas_over start R (R.words.takeGas n) hslots hlen hlt
      rwa [L2Words.takeGas_takeGas] at hagain

/-- The clearing of the multi-gas constraints. Each round takes the last one of the database, so
only that one is gone after the loop. -/
theorem clearMultiGasConstraints_over (hlt : R.multiGasConstraints.length < 2 ^ 64) :
    Realizes TwoLayer.handle (InTransaction (HoldsWords sto start) R.words)
      (openL2PricingState sto).clearMultiGasConstraints R.words (.ok ())
      (R.withMultiGas R.multiGasConstraints.dropLast).words := by
  refine .bind (multiGasConstraintsLength_over R R.words) ?_
  rw [BitVec.toNat_ofNat, Nat.mod_eq_of_lt hlt]
  cases hlen : R.multiGasConstraints.length with
  | zero =>
      have hnil := List.eq_nil_of_length_eq_zero hlen
      have hsame : R.withMultiGas R.multiGasConstraints.dropLast = R := by
        rw [hnil, List.dropLast_nil, ← hnil]
        rfl
      rw [hsame]
      exact .pure _
  | succ n =>
      rw [hlen] at hlt
      rw [← R.words_takeMultiGas hlen hlt]
      refine .forRange_again 0 n (popMultiGas_over start R _ hslots hlen hlt) ?_
      have hagain := popMultiGas_over start R (R.words.takeMultiGas n) hslots hlen hlt
      rwa [L2Words.takeMultiGas_takeMultiGas] at hagain

/-! ### The migrations -/

omit hslots in
/-- A scalar of 64 bits is read. -/
theorem getScalar_over (s : L2Scalar) {v : U64} (hv : R.scalarWords s = U256.ofU64 v) :
    Realizes TwoLayer.handle (InTransaction (HoldsWords sto start) R.words)
      (StorageBackedUint64.mk (sto.newSlot s.offset)).get W (.ok v) W :=
  Asks.over (StorageSlot.getWord_asks _ _ _) (getScalar_realizes R s hv) W

omit hslots in
/-- A field of a gas constraint is read. -/
theorem getGasAt_over (i : U64) (f : GasField) {v : U64}
    (hv : (R.gasAt i).words f = U256.ofU64 v) :
    Realizes TwoLayer.handle (InTransaction (HoldsWords sto start) R.words)
      (StorageBackedUint64.mk ((layout sto).slotAt (.gas i f))).get W (.ok v) W :=
  Asks.over (StorageSlot.getWord_asks _ _ _) (getGasAt_realizes R i f hv) W

/-- The migration of the legacy parameters adds a gas constraint behind a place that it has
cleared. -/
theorem setGasConstraintsFromLegacy_over (hlt : R.gasConstraints.length + 1 < 2 ^ 64) :
    Realizes TwoLayer.handle (InTransaction (HoldsWords sto start) R.words)
      (openL2PricingState sto).setGasConstraintsFromLegacy R.words (.ok ())
      (R.withGas (setLast R.gasConstraints .zero ++ [R.migratedConstraint])).words := by
  rw [← R.words_dropLast_putGas rfl hlt]
  refine .bind (clearGasConstraints_over R hslots (by omega)) ?_
  refine .bind (getScalar_over R _ .speedLimitPerSecond rfl) ?_
  refine .bind (getScalar_over R _ .pricingInertia rfl) ?_
  refine .bind (getScalar_over R _ .gasBacklog rfl) ?_
  refine .bind (getScalar_over R _ .backlogTolerance rfl) ?_
  exact addGasConstraint_over start R _ hslots R.migratedConstraint rfl hlt

/-- The legacy migration clears, and then panics at a list that is full in the database. -/
theorem setGasConstraintsFromLegacy_over_panics (hfull : R.gasConstraints.length = 2 ^ 64 - 1) :
    Realizes TwoLayer.handle (InTransaction (HoldsWords sto start) R.words)
      (openL2PricingState sto).setGasConstraintsFromLegacy R.words
      (.panic "attempt to add with overflow")
      (R.withGas R.gasConstraints.dropLast).words := by
  refine .bind (clearGasConstraints_over R hslots (by omega)) ?_
  refine .bind (getScalar_over R _ .speedLimitPerSecond rfl) ?_
  refine .bind (getScalar_over R _ .pricingInertia rfl) ?_
  refine .bind (getScalar_over R _ .gasBacklog rfl) ?_
  refine .bind (getScalar_over R _ .backlogTolerance rfl) ?_
  exact addGasConstraint_over_panics R _ _ _ _ hfull

variable (start) in
/-- One round of the migration puts a gas constraint behind the multi-gas constraints of `R`. -/
theorem migrateOne_over (i : Nat) (hlen : R.multiGasConstraints.length = n)
    (hlt : n + 1 < 2 ^ 64) :
    Realizes TwoLayer.handle (InTransaction (HoldsWords sto start) R.words)
      (do
        let c := (openL2PricingState sto).openGasConstraintAt (BitVec.ofNat 64 i)
        let target ← c.target
        let window ← c.adjustmentWindow
        let backlog ← c.backlog
        let adjustmentWindow : U32 := (minWord window (BitVec.ofNat 64 (2 ^ 32 - 1))).setWidth 32
        (openL2PricingState sto).addMultiGasConstraint target adjustmentWindow backlog
          L2PricingState.equalWeights)
      W (.ok ()) (W.putMultiGas n (.ofGas (R.gasAt (BitVec.ofNat 64 i)))) := by
  refine .bind (getGasAt_over R W _ .target rfl) ?_
  refine .bind (getGasAt_over R W _ .adjustmentWindow rfl) ?_
  refine .bind (getGasAt_over R W _ .backlog rfl) ?_
  rw [← MultiGasConstraintData.ofWeights_equalWeights]
  exact addMultiGasConstraint_over start R W hslots _ _ _ _ hlen hlt

/-- The migration to multi-gas constraints leaves that of the last gas constraint. -/
theorem setMultiGasConstraintsFromSingleGasConstraints_over {c : GasConstraintData}
    (hlast : R.gasConstraints.getLast? = some c) (hgas : R.gasConstraints.length < 2 ^ 64)
    (hlt : R.multiGasConstraints.length + 1 < 2 ^ 64) :
    Realizes TwoLayer.handle (InTransaction (HoldsWords sto start) R.words)
      (openL2PricingState sto).setMultiGasConstraintsFromSingleGasConstraints R.words (.ok ())
      (R.withMultiGas (setLast R.multiGasConstraints .zero ++ [.ofGas c])).words := by
  refine .bind (clearMultiGasConstraints_over R hslots (by omega)) ?_
  refine .bind (gasConstraintsLength_over R _) ?_
  rw [BitVec.toNat_ofNat, Nat.mod_eq_of_lt hgas]
  obtain ⟨k, hlen⟩ : ∃ k, R.gasConstraints.length = k + 1 :=
    Nat.exists_eq_add_one.mpr (List.length_pos_of_mem (List.mem_of_getLast? hlast))
  rw [← R.words_dropLast_putMultiGas rfl hlt, hlen, ← R.gasAt_last hlast hlen (hlen ▸ hgas)]
  generalize (R.withMultiGas R.multiGasConstraints.dropLast).words = W
  -- before the round `i + 1` the constraint `i` is in the place
  let T : Nat → L2Words
    | 0 => W
    | i + 1 => W.putMultiGas R.multiGasConstraints.length (.ofGas (R.gasAt (BitVec.ofNat 64 i)))
  have hround : ∀ i, (T i).putMultiGas R.multiGasConstraints.length
      (.ofGas (R.gasAt (BitVec.ofNat 64 i))) = T (i + 1) := by
    intro i
    cases i with
    | zero => rfl
    | succ i => exact L2Words.putMultiGas_putMultiGas _ _ _ _
  have hloop := Realizes.forRange T 0 (k + 1) fun i _ _ => by
    rw [← hround i]
    exact migrateOne_over start R (T i) hslots i rfl hlt
  rw [Nat.zero_add] at hloop
  exact hloop

/-- With no gas constraint there is no round after the clearing. -/
theorem setMultiGasConstraintsFromSingleGasConstraints_over_nil
    (hnil : R.gasConstraints.getLast? = none) (hlt : R.multiGasConstraints.length < 2 ^ 64) :
    Realizes TwoLayer.handle (InTransaction (HoldsWords sto start) R.words)
      (openL2PricingState sto).setMultiGasConstraintsFromSingleGasConstraints R.words (.ok ())
      (R.withMultiGas R.multiGasConstraints.dropLast).words := by
  refine .bind (clearMultiGasConstraints_over R hslots hlt) ?_
  refine .bind (gasConstraintsLength_over R _) ?_
  rw [List.getLast?_eq_none_iff.mp hnil]
  exact .pure _

/-- The migration to multi-gas constraints panics at its first addition when their list is full
in the database. -/
theorem setMultiGasConstraintsFromSingleGasConstraints_over_panics {c : GasConstraintData}
    (hlast : R.gasConstraints.getLast? = some c) (hgas : R.gasConstraints.length < 2 ^ 64)
    (hfull : R.multiGasConstraints.length = 2 ^ 64 - 1) :
    Realizes TwoLayer.handle (InTransaction (HoldsWords sto start) R.words)
      (openL2PricingState sto).setMultiGasConstraintsFromSingleGasConstraints R.words
      (.panic "attempt to add with overflow")
      (R.withMultiGas R.multiGasConstraints.dropLast).words := by
  refine .bind (clearMultiGasConstraints_over R hslots (by omega)) ?_
  refine .bind (gasConstraintsLength_over R _) ?_
  rw [BitVec.toNat_ofNat, Nat.mod_eq_of_lt hgas]
  obtain ⟨k, hlen⟩ : ∃ k, R.gasConstraints.length = k + 1 :=
    Nat.exists_eq_add_one.mpr (List.length_pos_of_mem (List.mem_of_getLast? hlast))
  rw [hlen]
  -- the first round panics
  refine .bind_panic ?_
  refine .bind (getGasAt_over R _ 0 .target rfl) ?_
  refine .bind (getGasAt_over R _ 0 .adjustmentWindow rfl) ?_
  refine .bind (getGasAt_over R _ 0 .backlog rfl) ?_
  exact addMultiGasConstraint_over_panics R _ _ _ _ _ hfull

end

/-! ### The step -/

section
variable {sto : Storage} {start w : World} {R : L2Record} (hR : Represents sto start w R)
include hR

/-- What a program does on the words in a transaction, on the records. -/
theorem transact_words {ε α : Type} {p : Exec ε α} {r : Outcome ε α} {R' : L2Record}
    (hp : Realizes TwoLayer.handle (InTransaction (HoldsWords sto start) R.words) p R.words r
      R'.words)
    (hgas : R'.gasConstraints.length < 2 ^ 64) (hmulti : R'.multiGasConstraints.length < 2 ^ 64) :
    (TwoLayer.transact p w).1 = r ∧ Represents sto start (TwoLayer.transact p w).2 R' := by
  obtain ⟨hresult, hwords⟩ := transact_of_realizes hR.words hp
  exact ⟨hresult, hwords, hgas, hmulti⟩

/-- A call that reads nothing it has written does what it does on a coherent store. -/
theorem transact_tells {p : Exec CallError Reply} (htells : Tells p)
    {r : Outcome CallError Reply} {R' : L2Record}
    (hp : Realizes World.handle (Represents sto start) p R r R') :
    (TwoLayer.transact p w).1 = r ∧ Represents sto start (TwoLayer.transact p w).2 R' :=
  transact_of_realizes hR (Tells.over htells hp R)

variable (hslots : Function.Injective (layout sto).slot)
include hslots

/-- A change of the record. The two clears take the last element only. -/
theorem transact_change (op : L2Op) (hop : op.InBounds R) :
    (TwoLayer.transact ((L2Call.change op).program (openL2PricingState sto)) w).1
        = ((L2Call.change op).applyOver R).1
      ∧ Represents sto start
        (TwoLayer.transact ((L2Call.change op).program (openL2PricingState sto)) w).2
        ((L2Call.change op).applyOver R).2 := by
  have hgas := hR.gas_lt
  have hmulti := hR.multiGas_lt
  cases op with
  | scalar op =>
      exact transact_tells hR (Exec.reply_tells (op.program_tells _) _ _)
        (call_realizes hslots R (.change (.scalar op)) hop)
  | gasConstraint i op =>
      exact transact_tells hR (Exec.reply_tells (op.program_tells _) _ _)
        (call_realizes hslots R (.change (.gasConstraint i op)) hop)
  | multiGasConstraint i op =>
      exact transact_tells hR (Exec.reply_tells (op.program_tells _) _ _)
        (call_realizes hslots R (.change (.multiGasConstraint i op)) hop)
  | clearGasConstraints =>
      exact transact_words hR (Exec.reply_realizes _ _ (clearGasConstraints_over R hslots hgas))
        (length_dropLast_lt hgas) hmulti
  | clearMultiGasConstraints =>
      exact transact_words hR (Exec.reply_realizes _ _
        (clearMultiGasConstraints_over R hslots hmulti)) hgas (length_dropLast_lt hmulti)
  | addGasConstraint target adjustmentWindow backlog =>
      simp only [L2Call.applyOver, L2Call.apply, L2Op.apply]
      by_cases hfull : R.gasConstraints.length = 2 ^ 64 - 1
      · rw [if_pos hfull]
        exact transact_words hR (Exec.reply_realizes _ _
          (addGasConstraint_over_panics R _ _ _ _ hfull)) hgas hmulti
      · rw [if_neg hfull]
        have hadd := addGasConstraint_over start R R.words hslots
          ⟨target, adjustmentWindow, backlog⟩ rfl (by omega)
        have hwords := R.words_putGas (l := R.gasConstraints) rfl (by omega)
          ⟨target, adjustmentWindow, backlog⟩
        exact transact_words hR (Exec.reply_realizes _ _ (hwords ▸ hadd))
          (length_snoc_lt hgas hfull _) hmulti
  | addMultiGasConstraint target adjustmentWindow backlog weights =>
      simp only [L2Call.applyOver, L2Call.apply, L2Op.apply]
      by_cases hfull : R.multiGasConstraints.length = 2 ^ 64 - 1
      · rw [if_pos hfull]
        exact transact_words hR (Exec.reply_realizes _ _
          (addMultiGasConstraint_over_panics R _ _ _ _ _ hfull)) hgas hmulti
      · rw [if_neg hfull]
        have hadd := addMultiGasConstraint_over start R R.words hslots target
          adjustmentWindow backlog weights rfl (by omega)
        have hwords := R.words_putMultiGas (l := R.multiGasConstraints) rfl (by omega)
          (.ofWeights target adjustmentWindow backlog (MultiGasConstraint.weightOf weights))
        exact transact_words hR (Exec.reply_realizes _ _ (hwords ▸ hadd)) hgas
          (length_snoc_lt hmulti hfull _)

/-- The legacy migration in a transaction of its own, also on a full list. -/
theorem transact_setGasConstraintsFromLegacy :
    (TwoLayer.transact
        (L2Call.setGasConstraintsFromLegacy.program (openL2PricingState sto)) w).1
        = (L2Call.setGasConstraintsFromLegacy.applyOver R).1
      ∧ Represents sto start (TwoLayer.transact
          (L2Call.setGasConstraintsFromLegacy.program (openL2PricingState sto)) w).2
        (L2Call.setGasConstraintsFromLegacy.applyOver R).2 := by
  have hgas := hR.gas_lt
  simp only [L2Call.applyOver]
  by_cases hfull : R.gasConstraints.length = 2 ^ 64 - 1
  · rw [if_pos hfull]
    exact transact_words hR (Exec.reply_realizes _ _
      (setGasConstraintsFromLegacy_over_panics R hslots hfull)) (length_dropLast_lt hgas)
      hR.multiGas_lt
  · rw [if_neg hfull]
    rw [← length_setLast R.gasConstraints .zero] at hgas hfull
    refine transact_words hR (Exec.reply_realizes _ _
      (setGasConstraintsFromLegacy_over R hslots ?_)) (length_snoc_lt hgas hfull _) hR.multiGas_lt
    rw [length_setLast] at hgas hfull
    omega

/-- The migration to multi-gas constraints in a transaction of its own, also on a full list. -/
theorem transact_setMultiGasConstraintsFromSingleGasConstraints :
    (TwoLayer.transact (L2Call.setMultiGasConstraintsFromSingleGasConstraints.program
        (openL2PricingState sto)) w).1
        = (L2Call.setMultiGasConstraintsFromSingleGasConstraints.applyOver R).1
      ∧ Represents sto start
        (TwoLayer.transact (L2Call.setMultiGasConstraintsFromSingleGasConstraints.program
          (openL2PricingState sto)) w).2
        (L2Call.setMultiGasConstraintsFromSingleGasConstraints.applyOver R).2 := by
  have hgas := hR.gas_lt
  have hmulti := hR.multiGas_lt
  simp only [L2Call.applyOver]
  cases hlast : R.gasConstraints.getLast? with
  | none =>
      exact transact_words hR (Exec.reply_realizes _ _
        (setMultiGasConstraintsFromSingleGasConstraints_over_nil R hslots hlast hmulti)) hgas
        (length_dropLast_lt hmulti)
  | some c =>
      dsimp only
      by_cases hfull : R.multiGasConstraints.length = 2 ^ 64 - 1
      · rw [if_pos hfull]
        exact transact_words hR (Exec.reply_realizes _ _
          (setMultiGasConstraintsFromSingleGasConstraints_over_panics R hslots hlast hgas hfull))
          hgas (length_dropLast_lt hmulti)
      · rw [if_neg hfull]
        rw [← length_setLast R.multiGasConstraints .zero] at hmulti hfull
        refine transact_words hR (Exec.reply_realizes _ _
          (setMultiGasConstraintsFromSingleGasConstraints_over R hslots hlast hgas ?_)) hgas
          (length_snoc_lt hmulti hfull _)
        rw [length_setLast] at hmulti hfull
        omega

/-- Each call in bounds, in a transaction of its own, ends as `applyOver` says. -/
theorem transact_call (c : L2Call) (hc : c.InBounds R) :
    (TwoLayer.transact (c.program (openL2PricingState sto)) w).1 = (c.applyOver R).1
      ∧ Represents sto start (TwoLayer.transact (c.program (openL2PricingState sto)) w).2
        (c.applyOver R).2 := by
  cases c with
  | query q =>
      exact transact_of_realizes hR (Asks.over (q.program_asks _) (query_realizes R q) R)
  | change op => exact transact_change hR hslots op hc
  | clearGasConstraintAt i =>
      exact transact_tells hR (Exec.reply_tells (GasConstraint.clear_tells _) _ _)
        (call_realizes hslots R (.clearGasConstraintAt i) hc)
  | clearMultiGasConstraintAt i =>
      exact transact_tells hR (Exec.reply_tells (MultiGasConstraint.clear_tells _) _ _)
        (call_realizes hslots R (.clearMultiGasConstraintAt i) hc)
  | setGasConstraintsFromLegacy => exact transact_setGasConstraintsFromLegacy hR hslots
  | setMultiGasConstraintsFromSingleGasConstraints =>
      exact transact_setMultiGasConstraintsFromSingleGasConstraints hR hslots

end

/-- The L2 pricer in transactions. After the initialization in a blank space and every sequence
of calls, the setters of a constraint in bounds, where each of them runs in a transaction of
its own, each call has the result that `applyOver` gives it, and the store represents the
record that they lead to and is otherwise as it was. -/
theorem l2_transactions_refine {sto : Storage} (hslots : Function.Injective (layout sto).slot)
    {start : World} (hwritable : start.readOnly = false)
    (hblank : ∀ k, (layout sto).read start k = 0) (calls : List L2Call)
    (hcalls : AdmissibleOps L2Call.applyOver L2Call.InBounds calls L2Record.blank.initialized) :
    let transact := fun (c : L2Call) => TwoLayer.transact (c.program (openL2PricingState sto))
    let init := TwoLayer.transact (initializeL2PricingState sto) start
    let final := specOps transact calls init.2
    let spec := specOps L2Call.applyOver calls L2Record.blank.initialized
    init.1 = .ok () ∧ final.1 = spec.1 ∧ Represents sto start final.2 spec.2 := by
  intro transact init final spec
  have hblankR := represents_blank hwritable hblank
  obtain ⟨hinit, hR₀⟩ := transact_of_realizes hblankR (Tells.over
    (initializeL2PricingState_tells sto) (initialize_realizes hslots L2Record.blank)
    L2Record.blank)
  have hstep : ∀ w R c, Represents sto start w R → c.InBounds R →
      (transact c w).1 = (c.applyOver R).1
        ∧ Represents sto start (transact c w).2 (c.applyOver R).2 :=
    fun _ _ c hR hc => transact_call hR hslots c hc
  exact ⟨hinit, specOps_simulates hstep calls hR₀ hcalls⟩

end L2Pricing

namespace L2Pricing
attribute [local instance] indexHash

/-- Two constraints are added, and the clearing leaves the first. The migration adds one behind
the place that it clears. -/
def sampleTransactions : List L2Call :=
  [.change (.addGasConstraint 7 1 2), .change (.addGasConstraint 8 3 4),
    .change (.addGasConstraint 9 5 6), .change .clearGasConstraints,
    .query .gasConstraintsLength, .setGasConstraintsFromLegacy,
    .setMultiGasConstraintsFromSingleGasConstraints]

example : (specOps L2Call.applyOver sampleTransactions
    L2Record.blank.initialized).2.gasConstraints = [⟨7, 1, 2⟩, ⟨0, 0, 0⟩, ⟨1000000, 102, 0⟩] := by
  decide +kernel

/-- Additions, a clear and both migrations, each in a transaction of its own. -/
theorem l2_transactions_refine_sample :
    let transact := fun (c : L2Call) =>
      TwoLayer.transact (c.program (openL2PricingState sampleRoot))
    let init := TwoLayer.transact (initializeL2PricingState sampleRoot) World.blank
    let final := specOps transact sampleTransactions init.2
    let spec := specOps L2Call.applyOver sampleTransactions L2Record.blank.initialized
    init.1 = .ok () ∧ final.1 = spec.1 ∧ Represents sampleRoot World.blank final.2 spec.2 :=
  l2_transactions_refine sampleRoot_layout_injective rfl (fun _ => rfl) sampleTransactions
    ⟨trivial, trivial, trivial, trivial, trivial, trivial, trivial, trivial⟩

end L2Pricing

end ArbReth
