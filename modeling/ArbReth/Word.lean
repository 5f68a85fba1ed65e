import ArbReth.Program.Basic
import Mathlib.Data.Int.Init
import Mathlib.Tactic.NormNum

/-!
# `ArbReth.Word`: the fixed-width integers of the source

An unsigned integer of `w` bits is a `BitVec w`. `U64` and `U256` are the two
widths the pricing code computes with, and an address is its 160-bit value. `+`
on a `BitVec` wraps, which is what ruint's `U256` does. The plain operators on a
`u64` panic on overflow, so their models are programs (`checkedAdd`,
`checkedSub`, `checkedDiv`).

`I256` is an integer together with the proof that it lies in
`[-2 ^ 255, 2 ^ 255)`. Its saturating operations clamp the exact result
(`I256.clamp`). Its division truncates toward zero, as `wrapping_div` does, and
panics on a zero divisor.
-/

set_option autoImplicit false

namespace ArbReth

open ArbReth.Program

abbrev U8 : Type := BitVec 8
abbrev U16 : Type := BitVec 16
abbrev U24 : Type := BitVec 24
abbrev U32 : Type := BitVec 32
abbrev U64 : Type := BitVec 64
abbrev U256 : Type := BitVec 256

/-- A 20-byte account address, as its big-endian value. -/
abbrev Address : Type := BitVec 160

-- named, so that a membership test does not hold a proof of its own
instance : LawfulBEq Address := inferInstance

/-- `revm::primitives::StorageKey`. -/
abbrev StorageKey : Type := U256

/-- `revm::primitives::StorageValue`. -/
abbrev StorageValue : Type := U256

/-! ### Unsigned integers -/

section Unsigned
variable {w : Nat}

/-- `saturating_add`. -/
def saturatingAdd (x y : BitVec w) : BitVec w :=
  BitVec.ofNat w (min (x.toNat + y.toNat) (2 ^ w - 1))

/-- `saturating_sub`. -/
def saturatingSub (x y : BitVec w) : BitVec w :=
  BitVec.ofNat w (x.toNat - y.toNat)

/-- `saturating_mul`. -/
def saturatingMul (x y : BitVec w) : BitVec w :=
  BitVec.ofNat w (min (x.toNat * y.toNat) (2 ^ w - 1))

/-- `min`. -/
def minWord (x y : BitVec w) : BitVec w :=
  if x < y then x else y

/-- A number that is capped at the largest word keeps its value as a word. -/
theorem toNat_ofNat_min (n : Nat) :
    (BitVec.ofNat w (min n (2 ^ w - 1))).toNat = min n (2 ^ w - 1) := by
  have hpos : 0 < 2 ^ w := Nat.two_pow_pos w
  rw [BitVec.toNat_ofNat, Nat.mod_eq_of_lt (by omega)]

/-- The value of a saturating sum. -/
@[simp] theorem toNat_saturatingAdd (x y : BitVec w) :
    (saturatingAdd x y).toNat = min (x.toNat + y.toNat) (2 ^ w - 1) :=
  toNat_ofNat_min _

/-- The value of a saturating product. -/
@[simp] theorem toNat_saturatingMul (x y : BitVec w) :
    (saturatingMul x y).toNat = min (x.toNat * y.toNat) (2 ^ w - 1) :=
  toNat_ofNat_min _

/-- The value of a saturating difference is that of the natural numbers. -/
@[simp] theorem toNat_saturatingSub (x y : BitVec w) :
    (saturatingSub x y).toNat = x.toNat - y.toNat := by
  have hx := x.isLt
  rw [saturatingSub, BitVec.toNat_ofNat, Nat.mod_eq_of_lt (by omega)]

/-- The value of the smaller word. -/
@[simp] theorem toNat_minWord (x y : BitVec w) :
    (minWord x y).toNat = min x.toNat y.toNat := by
  unfold minWord
  split <;> rename_i h <;> rw [BitVec.lt_def] at h <;> omega

variable {Cmd : Type} {Resp : Cmd → Type} {ε : Type}

/-- The operator `+`, checked for overflow. -/
def checkedAdd (x y : BitVec w) : Prog Resp ε (BitVec w) :=
  if x.toNat + y.toNat < 2 ^ w then pure (x + y) else .panic "attempt to add with overflow"

/-- The operator `-`, checked for overflow. -/
def checkedSub (x y : BitVec w) : Prog Resp ε (BitVec w) :=
  if y ≤ x then pure (x - y) else .panic "attempt to subtract with overflow"

/-- The operator `/`. -/
def checkedDiv (x y : BitVec w) : Prog Resp ε (BitVec w) :=
  if y = 0 then .panic "attempt to divide by zero" else pure (x / y)

end Unsigned

/-- `u64` to `U256`, which always fits. -/
def U256.ofU64 (x : U64) : U256 := x.setWidth 256

/-- `u64::try_from(U256)`. -/
def U64.tryFrom (x : U256) : Option U64 :=
  if x.toNat < 2 ^ 64 then some (x.setWidth 64) else none

/-- A `u64` keeps its value as a word. -/
@[simp] theorem U256.toNat_ofU64 (x : U64) : (U256.ofU64 x).toNat = x.toNat := by
  have hx := x.isLt
  rw [U256.ofU64, BitVec.toNat_setWidth, Nat.mod_eq_of_lt (by omega)]

/-- A `u64` comes back from its word. -/
@[simp] theorem U64.tryFrom_ofU64 (x : U64) : U64.tryFrom (U256.ofU64 x) = some x := by
  have hx := x.isLt
  rw [U64.tryFrom, if_pos (by simpa using hx)]
  congr 1
  apply BitVec.eq_of_toNat_eq
  rw [BitVec.toNat_setWidth, U256.toNat_ofU64, Nat.mod_eq_of_lt hx]

/-- Two `u64`s with one word are the same. -/
theorem U256.ofU64_injective : Function.Injective U256.ofU64 := by
  intro x y h
  have := congrArg U64.tryFrom h
  simpa using this

/-- Below the maximum there is room for one more. -/
theorem U64.toNat_add_one_lt {x : U64} (h : x ≠ BitVec.allOnes 64) :
    x.toNat + (1 : U64).toNat < 2 ^ 64 := by
  have hlt := x.isLt
  have hne : x.toNat ≠ 2 ^ 64 - 1 := fun h' => h (BitVec.eq_of_toNat_eq (by simpa using h'))
  show x.toNat + 1 < 2 ^ 64
  omega

/-! ### Signed 256-bit integers -/

/-- `alloy_primitives::I256`: an integer of the range `[-2 ^ 255, 2 ^ 255)`. -/
structure I256 where
  toInt : Int
  le_toInt : -2 ^ 255 ≤ toInt
  toInt_lt : toInt < 2 ^ 255
deriving DecidableEq

namespace I256

/-- Two signed words with the same value are the same. -/
theorem ext {x y : I256} (h : x.toInt = y.toInt) : x = y := by
  cases x; cases y; cases h; rfl

/-- The integers that an `I256` can hold. -/
def InRange (i : Int) : Prop := -2 ^ 255 ≤ i ∧ i < 2 ^ 255

instance (i : Int) : Decidable (InRange i) := inferInstanceAs (Decidable (_ ∧ _))

/-- The value of a signed word is in range. -/
theorem inRange (x : I256) : InRange x.toInt := ⟨x.le_toInt, x.toInt_lt⟩

/-- The value of the range that is closest to `i`. -/
def clamp (i : Int) : I256 where
  toInt := max (-2 ^ 255) (min i (2 ^ 255 - 1))
  le_toInt := by omega
  toInt_lt := by omega

/-- The value of a clamped integer is the nearest one in range. -/
@[simp] theorem toInt_clamp (i : Int) :
    (clamp i).toInt = max (-2 ^ 255) (min i (2 ^ 255 - 1)) := rfl

/-- An integer in range is not changed by clamping. -/
theorem toInt_clamp_of_inRange {i : Int} (h : InRange i) : (clamp i).toInt = i := by
  obtain ⟨h1, h2⟩ := h
  rw [toInt_clamp]
  omega

/-- `I256::ZERO`. -/
def zero : I256 := clamp 0

/-- `I256::ONE`. -/
def one : I256 := clamp 1

/-- `I256::MAX`. -/
def max : I256 := clamp (2 ^ 255 - 1)

/-- The largest signed word. -/
@[simp] theorem toInt_max : max.toInt = 2 ^ 255 - 1 := rfl

/-- `is_zero`. -/
def isZero (x : I256) : Bool := x.toInt == 0

/-- `is_positive`. -/
def isPositive (x : I256) : Bool := 0 < x.toInt

/-- The test for zero is about the value. -/
@[simp] theorem isZero_iff (x : I256) : x.isZero = true ↔ x.toInt = 0 := by simp [isZero]

/-- The test for a positive number is about the value. -/
@[simp] theorem isPositive_iff (x : I256) : x.isPositive = true ↔ 0 < x.toInt := by
  simp [isPositive]

/-- `from_raw`: the two's-complement reading of the bits. -/
def fromRaw (x : U256) : I256 where
  toInt := x.toInt
  le_toInt := by simpa using BitVec.le_toInt x
  toInt_lt := by simpa using BitVec.toInt_lt (x := x)

/-- `into_raw`: the two's-complement bits. -/
def intoRaw (x : I256) : U256 := BitVec.ofInt 256 x.toInt

/-- A signed word comes back from its bits. -/
@[simp] theorem fromRaw_intoRaw (x : I256) : fromRaw x.intoRaw = x := by
  have h1 := x.le_toInt
  have h2 := x.toInt_lt
  apply ext
  show (BitVec.ofInt 256 x.toInt).toInt = x.toInt
  rw [BitVec.toInt_ofInt]
  exact Int.bmod_eq_of_le (by omega) (by omega)

/-- The bits come back from the signed word that they spell. -/
@[simp] theorem intoRaw_fromRaw (x : U256) : (fromRaw x).intoRaw = x :=
  BitVec.ofInt_toInt

/-- `I256::try_from(U256)`. -/
def tryFrom (x : U256) : Option I256 :=
  if h : x.toNat < 2 ^ 255 then
    some { toInt := x.toNat, le_toInt := by omega, toInt_lt := by exact_mod_cast h }
  else none

/-- `I256::try_from(x).unwrap_or(I256::MAX)`. -/
def ofU256 (x : U256) : I256 := (tryFrom x).getD max

/-- The signed word of an unsigned one, which saturates at the largest. -/
@[simp] theorem toInt_ofU256 (x : U256) :
    (ofU256 x).toInt = min (x.toNat : Int) (2 ^ 255 - 1) := by
  unfold ofU256 tryFrom
  split
  · simp only [Option.getD_some]; omega
  · simp only [Option.getD_none, toInt_max]; omega

/-- A 64-bit number is far below the bound. -/
@[simp] theorem toInt_ofU256_ofU64 (x : U64) : (ofU256 (U256.ofU64 x)).toInt = x.toNat := by
  have hlt := x.isLt
  rw [toInt_ofU256, U256.toNat_ofU64]
  exact min_eq_left (by omega)

/-- `U256::try_from(x).unwrap_or(U256::MAX)`. -/
def toU256 (x : I256) : U256 :=
  if 0 ≤ x.toInt then BitVec.ofInt 256 x.toInt else BitVec.allOnes 256

/-- The unsigned word of a signed one that is not negative keeps its value. -/
theorem toNat_toU256 {x : I256} (h : 0 ≤ x.toInt) : (x.toU256.toNat : Int) = x.toInt := by
  have hlt := x.toInt_lt
  rw [toU256, if_pos h, BitVec.toNat_ofInt, Int.emod_eq_of_lt h (by norm_num; omega)]
  omega

/-- `unsigned_abs`. -/
def unsignedAbs (x : I256) : U256 := BitVec.ofNat 256 x.toInt.natAbs

/-- `saturating_add`. -/
def saturatingAdd (x y : I256) : I256 := clamp (x.toInt + y.toInt)

/-- `saturating_sub`. -/
def saturatingSub (x y : I256) : I256 := clamp (x.toInt - y.toInt)

/-- `saturating_mul`. -/
def saturatingMul (x y : I256) : I256 := clamp (x.toInt * y.toInt)

/-- `saturating_neg`. -/
def saturatingNeg (x : I256) : I256 := clamp (-x.toInt)

/-- `wrapping_neg`. -/
def wrappingNeg (x : I256) : I256 := fromRaw (BitVec.ofInt 256 (-x.toInt))

/-- The quotient truncated toward zero, wrapped to 256 bits. -/
def wrappingQuot (x y : I256) : I256 := fromRaw (BitVec.ofInt 256 (x.toInt.tdiv y.toInt))

section Checked
variable {Cmd : Type} {Resp : Cmd → Type} {ε : Type}

/-- `wrapping_div`, which panics on a zero divisor. -/
def wrappingDiv (x y : I256) : Prog Resp ε I256 :=
  if y.toInt = 0 then .panic "attempt to divide by zero" else pure (x.wrappingQuot y)

/-- The operator `-`, checked for overflow. -/
def checkedSub (x y : I256) : Prog Resp ε I256 :=
  if InRange (x.toInt - y.toInt) then pure (clamp (x.toInt - y.toInt))
  else .panic "attempt to subtract with overflow"

end Checked

end I256

end ArbReth
