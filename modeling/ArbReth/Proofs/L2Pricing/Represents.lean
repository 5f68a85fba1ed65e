import ArbReth.L2Pricing.Record
import ArbReth.Proofs.Storage.Words

/-!
# `ArbReth.Proofs.L2Pricing.Represents`: the storage of the L2 pricer is a record

`L2Key` names every slot of the L2 pricer: the scalars, the length of each vector, and
each field of each element. An `L2Words` has the word of each of them, where the words of
an element are a function of its place. `L2Record.words` are the words of a record: the
places past the end of a list hold zeros.

`L2Pricing.Represents` ties a store to a record. The setters of the cells are proved on
the words. The programs are put together from them, and the words of the result are
compared with those of the record.
-/

set_option autoImplicit false

namespace ArbReth

open ArbReth.Program

/-- The scalars of the L2 pricer, as names of slots. -/
inductive L2Scalar where
  | speedLimitPerSecond
  | perBlockGasLimit
  | baseFeeWei
  | minBaseFeeWei
  | gasBacklog
  | pricingInertia
  | backlogTolerance
  | perTxGasLimit
deriving DecidableEq

/-- The offset of the slot of a scalar. -/
def L2Scalar.offset : L2Scalar → U64
  | .speedLimitPerSecond => speedLimitPerSecondOffset
  | .perBlockGasLimit => perBlockGasLimitOffset
  | .baseFeeWei => baseFeeWeiOffset
  | .minBaseFeeWei => minBaseFeeWeiOffset
  | .gasBacklog => gasBacklogOffset
  | .pricingInertia => pricingInertiaOffset
  | .backlogTolerance => backlogToleranceOffset
  | .perTxGasLimit => perTxGasLimitOffset

/-- The fields of a gas constraint. -/
inductive GasField where
  | target
  | adjustmentWindow
  | backlog
deriving DecidableEq

/-- The offset of the field in the space of its constraint. -/
def GasField.offset : GasField → U64
  | .target => targetOffset
  | .adjustmentWindow => adjustmentWindowOffset
  | .backlog => backlogOffset

/-- The fields of a multi-gas constraint. -/
inductive MultiGasField where
  | target
  | adjustmentWindow
  | backlog
  | maxWeight
  | weight (kind : ResourceKind)
deriving DecidableEq

/-- The offset of the field in the space of its constraint. The weights follow the base offset. -/
def MultiGasField.offset : MultiGasField → U64
  | .target => targetOffset
  | .adjustmentWindow => adjustmentWindowOffset
  | .backlog => backlogOffset
  | .maxWeight => maxWeightOffset
  | .weight kind => weightedResourcesBaseOffset + kind.asU8.setWidth 64

/-- The slots of the L2 pricer. -/
inductive L2Key where
  | scalar (s : L2Scalar)
  | gasLength
  | gas (i : U64) (f : GasField)
  | multiGasLength
  | multiGas (i : U64) (f : MultiGasField)
deriving DecidableEq

/-! ### The words of a record -/

/-- The word of each slot. -/
structure L2Words where
  scalar : L2Scalar → StorageValue
  gasLength : StorageValue
  gas : U64 → GasField → StorageValue
  multiGasLength : StorageValue
  multiGas : U64 → MultiGasField → StorageValue

namespace L2Words

/-- The word at a key. -/
def word (W : L2Words) : L2Key → StorageValue
  | .scalar s => W.scalar s
  | .gasLength => W.gasLength
  | .gas i f => W.gas i f
  | .multiGasLength => W.multiGasLength
  | .multiGas i f => W.multiGas i f

/-- Another word of a gas constraint. -/
def setGas (W : L2Words) (i : U64) (f : GasField) (v : StorageValue) : L2Words :=
  { W with gas := Function.update W.gas i (Function.update (W.gas i) f v) }

/-- Another word of a multi-gas constraint. -/
def setMultiGas (W : L2Words) (i : U64) (f : MultiGasField) (v : StorageValue) : L2Words :=
  { W with multiGas := Function.update W.multiGas i (Function.update (W.multiGas i) f v) }

/-- A write to a scalar among the words. -/
theorem word_setScalar (W : L2Words) (s : L2Scalar) (v : StorageValue) :
    Function.update W.word (.scalar s) v
      = { W with scalar := Function.update W.scalar s v }.word := by
  funext k
  cases k <;> simp [word, Function.update_apply]

/-- A write to the length of the gas constraints among the words. -/
theorem word_setGasLength (W : L2Words) (v : StorageValue) :
    Function.update W.word .gasLength v = { W with gasLength := v }.word := by
  funext k
  cases k <;> simp [word]

/-- A write to the length of the multi-gas constraints among the words. -/
theorem word_setMultiGasLength (W : L2Words) (v : StorageValue) :
    Function.update W.word .multiGasLength v = { W with multiGasLength := v }.word := by
  funext k
  cases k <;> simp [word]

/-- A write to a field of a gas constraint among the words. -/
theorem word_setGas (W : L2Words) (i : U64) (f : GasField) (v : StorageValue) :
    Function.update W.word (.gas i f) v = (W.setGas i f v).word := by
  funext k
  cases k with
  | gas j g =>
      -- Another place keeps all its fields, and this one all but `f`.
      by_cases hj : j = i
      · subst hj
        simp [word, setGas, Function.update_apply]
      · simp [word, setGas, hj]
  | _ => simp [word, setGas]

/-- A write to a field of a multi-gas constraint among the words. -/
theorem word_setMultiGas (W : L2Words) (i : U64) (f : MultiGasField) (v : StorageValue) :
    Function.update W.word (.multiGas i f) v = (W.setMultiGas i f v).word := by
  funext k
  cases k with
  | multiGas j g =>
      by_cases hj : j = i
      · subst hj
        simp [word, setMultiGas, Function.update_apply]
      · simp [word, setMultiGas, hj]
  | _ => simp [word, setMultiGas]

end L2Words

/-- The words of a gas constraint. -/
def GasConstraintData.words (c : GasConstraintData) : GasField → StorageValue
  | .target => U256.ofU64 c.target
  | .adjustmentWindow => U256.ofU64 c.adjustmentWindow
  | .backlog => U256.ofU64 c.backlog

/-- The words of a multi-gas constraint. -/
def MultiGasConstraintData.words (c : MultiGasConstraintData) : MultiGasField → StorageValue
  | .target => U256.ofU64 c.target
  | .adjustmentWindow => U256.ofU64 (c.adjustmentWindow.setWidth 64)
  | .backlog => U256.ofU64 c.backlog
  | .maxWeight => U256.ofU64 c.maxWeight
  | .weight kind => U256.ofU64 (c.weights kind)

/-- The words of the element in each place of a list: zeros past the end. -/
def elementWords {α F : Type} (words : α → F → StorageValue) (l : List α) (i : U64) :
    F → StorageValue :=
  match l[i.toNat]? with
  | some c => words c
  | none => fun _ => 0

/-- The words of the scalars. -/
def L2Record.scalarWords (R : L2Record) : L2Scalar → StorageValue
  | .speedLimitPerSecond => U256.ofU64 R.speedLimitPerSecond
  | .perBlockGasLimit => U256.ofU64 R.perBlockGasLimit
  | .baseFeeWei => R.baseFeeWei
  | .minBaseFeeWei => R.minBaseFeeWei
  | .gasBacklog => U256.ofU64 R.gasBacklog
  | .pricingInertia => U256.ofU64 R.pricingInertia
  | .backlogTolerance => U256.ofU64 R.backlogTolerance
  | .perTxGasLimit => U256.ofU64 R.perTxGasLimit

/-- The length of a list as a word of the store. -/
def lengthWord {α : Type} (l : List α) : StorageValue := U256.ofU64 (BitVec.ofNat 64 l.length)

/-- The words of a record. -/
def L2Record.words (R : L2Record) : L2Words where
  scalar := R.scalarWords
  gasLength := lengthWord R.gasConstraints
  gas := elementWords GasConstraintData.words R.gasConstraints
  multiGasLength := lengthWord R.multiGasConstraints
  multiGas := elementWords MultiGasConstraintData.words R.multiGasConstraints

/-! ### The words of a list -/

section
variable {α F : Type} (words : α → F → StorageValue) {l : List α}

/-- The place after the last one, and no other place, is new in a longer list. -/
theorem elementWords_append (hlen : l.length + 1 < 2 ^ 64) (c : α) :
    elementWords words (l ++ [c])
      = Function.update (elementWords words l) (BitVec.ofNat 64 l.length) (words c) := by
  have hlast : (BitVec.ofNat 64 l.length).toNat = l.length := by
    rw [BitVec.toNat_ofNat, Nat.mod_eq_of_lt (by omega)]
  funext i
  by_cases hi : i = BitVec.ofNat 64 l.length
  · rw [hi, Function.update_self, elementWords, hlast, List.getElem?_append_right (Nat.le_refl _)]
    simp
  · rw [Function.update_of_ne hi, elementWords, elementWords]
    have hne : i.toNat ≠ l.length := fun h => hi (BitVec.eq_of_toNat_eq (h.trans hlast.symm))
    -- Before the end the element stays, and past the new end there are zeros as before.
    rcases Nat.lt_or_gt_of_ne hne with hlt | hgt
    · rw [List.getElem?_append_left hlt]
    · rw [List.getElem?_eq_none (by simp; omega), List.getElem?_eq_none (by omega)]

/-- The place after the last one is empty. -/
theorem elementWords_length (hlen : l.length < 2 ^ 64) :
    elementWords words l (BitVec.ofNat 64 l.length) = fun _ => 0 := by
  rw [elementWords, BitVec.toNat_ofNat, Nat.mod_eq_of_lt hlen,
    List.getElem?_eq_none (Nat.le_refl _)]

/-- Another element in one place. -/
theorem elementWords_modify {i : U64} (f : α → α) {c : α} (hi : l[i.toNat]? = some c) :
    elementWords words (l.modify i.toNat f)
      = Function.update (elementWords words l) i (words (f c)) := by
  funext j
  by_cases hj : j = i
  · rw [hj, Function.update_self, elementWords, List.getElem?_modify_eq, hi]
    rfl
  · have hne : i.toNat ≠ j.toNat := fun h => hj (BitVec.eq_of_toNat_eq h.symm)
    rw [Function.update_of_ne hj, elementWords, elementWords, List.getElem?_modify_ne f l hne]

end

namespace L2Pricing
variable [Keccak]

/-- The space of the gas constraints. -/
def gasSpace (sto : Storage) : Storage := sto.openSubStorage gasConstraintsKey

/-- The space of the multi-gas constraints. -/
def multiGasSpace (sto : Storage) : Storage := sto.openSubStorage multiGasConstraintsKey

/-- The slots of the L2 pricer in the space `sto`. -/
def layout (sto : Storage) : Layout L2Key where
  account := sto.account
  slot
    | .scalar s => sto.mapAddress s.offset
    | .gasLength => (gasSpace sto).mapAddress subStorageVectorLengthOffset
    | .gas i f => ((gasSpace sto).openSubStorage i.toBeBytes).mapAddress f.offset
    | .multiGasLength => (multiGasSpace sto).mapAddress subStorageVectorLengthOffset
    | .multiGas i f => ((multiGasSpace sto).openSubStorage i.toBeBytes).mapAddress f.offset

/-- The store has the words, and the world is `start` outside of them. -/
def HoldsWords (sto : Storage) (start w : World) (W : L2Words) : Prop :=
  (layout sto).Holds start w W.word

/-- The store represents the record, and the world is `start` outside of it. -/
structure Represents (sto : Storage) (start w : World) (R : L2Record) : Prop where
  words : HoldsWords sto start w R.words
  gas_lt : R.gasConstraints.length < 2 ^ 64
  multiGas_lt : R.multiGasConstraints.length < 2 ^ 64

/-- The record fixes the world. -/
theorem Represents.unique {sto : Storage} {start w w' : World} {R : L2Record}
    (h : Represents sto start w R) (h' : Represents sto start w' R) : w' = w :=
  Layout.Holds.unique h.words h'.words

/-- A store that was never written in the slots of the pricer is the blank record. -/
theorem represents_blank {sto : Storage} {start : World} (hwritable : start.readOnly = false)
    (hblank : ∀ k, (layout sto).read start k = 0) :
    Represents sto start start L2Record.blank := by
  have hword : ∀ k, L2Record.blank.words.word k = 0 := by
    intro k
    cases k with
    | scalar s => cases s <;> rfl
    | _ => rfl
  refine ⟨⟨fun k => ?_, .refl _ start, hwritable⟩, by decide, by decide⟩
  rw [hblank, hword]

/-! ### Programs on the words -/

/-- A program on the words of the layout is one on the words of the pricer. -/
theorem realizes_words {ε α : Type} {sto : Storage} {start : World} {p : Exec ε α}
    {r : Outcome ε α} {W W' : L2Words} {f : L2Key → StorageValue}
    (h : Realizes World.handle ((layout sto).Holds start) p W.word r f) (hf : f = W'.word) :
    Realizes World.handle (HoldsWords sto start) p W r W' := by
  subst hf
  exact h

section
variable {sto : Storage} (hslots : Function.Injective (layout sto).slot) {start : World}
  (W : L2Words)

/-- A word of 64 bits is read. -/
theorem getUint64_realizes (k : L2Key) {v : U64} (hv : W.word k = U256.ofU64 v) :
    Realizes World.handle (HoldsWords sto start)
      (StorageBackedUint64.mk ((layout sto).slotAt k)).get W (.ok v) W :=
  realizes_words (Layout.getUint64_realizes k hv) rfl

include hslots

/-- A scalar is written. -/
theorem setScalar_realizes (s : L2Scalar) (v : StorageValue) :
    Realizes World.handle (HoldsWords sto start) ((sto.newSlot s.offset).set v) W (.ok ())
      { W with scalar := Function.update W.scalar s v } :=
  realizes_words (Layout.set_realizes hslots (.scalar s) v) (W.word_setScalar s v)

/-- A field of a gas constraint is written. -/
theorem setGas_realizes (i : U64) (f : GasField) (v : StorageValue) :
    Realizes World.handle (HoldsWords sto start) (((layout sto).slotAt (.gas i f)).set v) W
      (.ok ()) (W.setGas i f v) :=
  realizes_words (Layout.set_realizes hslots (.gas i f) v) (W.word_setGas i f v)

/-- A field of a multi-gas constraint is written. -/
theorem setMultiGas_realizes (i : U64) (f : MultiGasField) (v : StorageValue) :
    Realizes World.handle (HoldsWords sto start) (((layout sto).slotAt (.multiGas i f)).set v) W
      (.ok ()) (W.setMultiGas i f v) :=
  realizes_words (Layout.set_realizes hslots (.multiGas i f) v) (W.word_setMultiGas i f v)

end

end L2Pricing

end ArbReth
