import ArbReth.Word
import Mathlib.Logic.Function.Basic

/-!
# `ArbReth.Multigas.Resources`: the dimensions of multi-dimensional gas

A `MultiGas` keeps one amount for each kind of resource, their total and a refund.
The array of the source that is indexed by the kind is a function of the kind, and a
loop over the indices goes through `ResourceKind.all`.

The total is kept next to the amounts and never read off them, but for
`recomputeTotal`. The `safe*` operations return the receiver and `true` on overflow.
The `saturating*` operations clamp each number on its own.
-/

set_option autoImplicit false

namespace ArbReth

/-- A dimension for multi-dimensional gas accounting, in the order of the
discriminants of the source. -/
inductive ResourceKind where
  | unknown
  | computation
  | historyGrowth
  | storageAccess
  | storageGrowth
  | l1Calldata
  | l2Calldata
  | wasmComputation
deriving DecidableEq, Repr

/-- The kinds in the order of their discriminants: the range `0..COUNT`. -/
def ResourceKind.all : List ResourceKind :=
  [.unknown, .computation, .historyGrowth, .storageAccess, .storageGrowth, .l1Calldata,
    .l2Calldata, .wasmComputation]

/-- Every kind is in the list. -/
theorem ResourceKind.mem_all (kind : ResourceKind) : kind ∈ ResourceKind.all := by
  cases kind <;> decide

/-- A resource kind and its gas amount. -/
structure Pair where
  kind : ResourceKind
  amount : U64
deriving DecidableEq

/-- Gas for each kind of resource, with its total and a refund. -/
@[ext] structure MultiGas where
  gas : ResourceKind → U64
  total : U64
  refund : U64

/-- The sum, `2 ^ 64 - 1` on overflow, and whether it has overflowed. -/
def saturatingScalarAdd (a b : U64) : U64 × Bool :=
  if 2 ^ 64 ≤ a.toNat + b.toNat then (BitVec.allOnes 64, true) else (a + b, false)

/-- The difference, zero on underflow, and whether it has underflowed. -/
def saturatingScalarSub (a b : U64) : U64 × Bool :=
  if a < b then (0, true) else (a - b, false)

namespace MultiGas

/-- `MultiGas::zero`. -/
def zero : MultiGas := { gas := fun _ => 0, total := 0, refund := 0 }

/-- `MultiGas::new`. -/
def new (kind : ResourceKind) (amount : U64) : MultiGas :=
  { gas := Function.update (fun _ => 0) kind amount, total := amount, refund := 0 }

/-- The loop of `recomputeTotal`. -/
def sumKinds (gas : ResourceKind → U64) : List ResourceKind → (total : U64) → U64 × Bool
  | [], total => (total, false)
  | kind :: kinds, total =>
      let (sum, overflow) := saturatingScalarAdd total (gas kind)
      if overflow then (BitVec.allOnes 64, true) else sumKinds gas kinds sum

/-- Recompute the total from the amounts. The flag tells an overflow. -/
def recomputeTotal (self : MultiGas) : MultiGas × Bool :=
  let (total, overflow) := sumKinds self.gas ResourceKind.all 0
  ({ self with total }, overflow)

/-- The loop of `fromPairs`: a later pair replaces an earlier one of the same kind. -/
def assignPairs (pairs : List Pair) : ResourceKind → U64 :=
  pairs.foldl (fun gas p => Function.update gas p.kind p.amount) fun _ => 0

/-- `MultiGas::from_pairs`, which panics on overflow. -/
def fromPairs (pairs : List Pair) : Except String MultiGas :=
  let (mg, overflow) := recomputeTotal { zero with gas := assignPairs pairs }
  if overflow then .error "multigas overflow" else .ok mg

/-- The gas of a kind. -/
def get (self : MultiGas) (kind : ResourceKind) : U64 := self.gas kind

/-- Set one kind. The subtraction of its old amount from the total wraps. -/
def «with» (self : MultiGas) (kind : ResourceKind) (amount : U64) : MultiGas × Bool :=
  let base := self.total - self.gas kind
  let (newTotal, overflow) := saturatingScalarAdd base amount
  if overflow then (self, true)
  else ({ self with gas := Function.update self.gas kind amount, total := newTotal }, false)

/-- Another refund. The total does not count it. -/
def withRefund (self : MultiGas) (amount : U64) : MultiGas := { self with refund := amount }

/-- The total minus the refund, zero when the refund is larger. -/
def singleGas (self : MultiGas) : U64 := ArbReth.saturatingSub self.total self.refund

/-- The loop of `safeAdd` and of `safeSub`: it stops at the first kind with a flag. -/
def combineKinds (op : U64 → U64 → U64 × Bool) (x : ResourceKind → U64) :
    List ResourceKind → (gas : ResourceKind → U64) → Option (ResourceKind → U64)
  | [], gas => some gas
  | kind :: kinds, gas =>
      let (v, flag) := op (gas kind) (x kind)
      if flag then none else combineKinds op x kinds (Function.update gas kind v)

/-- Add each kind, the total and the refund. -/
def safeAdd (self x : MultiGas) : MultiGas × Bool :=
  match combineKinds saturatingScalarAdd x.gas ResourceKind.all self.gas with
  | none => (self, true)
  | some gas =>
      let (total, overflow) := saturatingScalarAdd self.total x.total
      if overflow then (self, true)
      else
        let (refund, overflow) := saturatingScalarAdd self.refund x.refund
        if overflow then (self, true) else ({ gas, total, refund }, false)

/-- Add each kind, the total and the refund, each saturating on its own. -/
def saturatingAdd (self x : MultiGas) : MultiGas where
  gas kind := ArbReth.saturatingAdd (self.gas kind) (x.gas kind)
  total := ArbReth.saturatingAdd self.total x.total
  refund := ArbReth.saturatingAdd self.refund x.refund

/-- The same, in place. -/
def saturatingAddInto (self x : MultiGas) : MultiGas where
  gas kind := ArbReth.saturatingAdd (self.gas kind) (x.gas kind)
  total := ArbReth.saturatingAdd self.total x.total
  refund := ArbReth.saturatingAdd self.refund x.refund

/-- Subtract each kind and the refund, and recompute the total. -/
def safeSub (self x : MultiGas) : MultiGas × Bool :=
  match combineKinds saturatingScalarSub x.gas ResourceKind.all self.gas with
  | none => (self, true)
  | some gas =>
      let (refund, underflow) := saturatingScalarSub self.refund x.refund
      if underflow then (self, true)
      else ((recomputeTotal { self with gas, refund }).1, false)

/-- Subtract each kind and the refund, saturating, and recompute the total. -/
def saturatingSub (self x : MultiGas) : MultiGas :=
  (recomputeTotal { self with
    gas := fun kind => ArbReth.saturatingSub (self.gas kind) (x.gas kind)
    refund := ArbReth.saturatingSub self.refund x.refund }).1

/-- Add to one kind and to the total. -/
def safeIncrement (self : MultiGas) (kind : ResourceKind) (gas : U64) : MultiGas × Bool :=
  let (v, overflow) := saturatingScalarAdd (self.gas kind) gas
  if overflow then (self, true)
  else
    let (total, overflow) := saturatingScalarAdd self.total gas
    if overflow then (self, true)
    else ({ self with gas := Function.update self.gas kind v, total }, false)

/-- Add to one kind and to the total, each saturating on its own. -/
def saturatingIncrement (self : MultiGas) (kind : ResourceKind) (gas : U64) : MultiGas :=
  { self with
    gas := Function.update self.gas kind (ArbReth.saturatingAdd (self.gas kind) gas)
    total := ArbReth.saturatingAdd self.total gas }

/-- Take from one kind what it has, up to `gas`, and as much from the total. -/
def saturatingDecrement (self : MultiGas) (kind : ResourceKind) (gas : U64) : MultiGas :=
  let current := self.gas kind
  let reduced := minWord gas current
  { self with
    gas := Function.update self.gas kind (current - reduced)
    total := ArbReth.saturatingSub self.total reduced }

/-- The same as `saturatingIncrement`, in place. -/
def saturatingIncrementInto (self : MultiGas) (kind : ResourceKind) (gas : U64) : MultiGas :=
  { self with
    gas := Function.update self.gas kind (ArbReth.saturatingAdd (self.gas kind) gas)
    total := ArbReth.saturatingAdd self.total gas }

end MultiGas

end ArbReth
