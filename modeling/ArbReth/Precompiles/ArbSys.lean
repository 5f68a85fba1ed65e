import ArbReth.Storage.Storage

/-!
# `ArbReth.Precompiles.ArbSys`: the alias of an L1 sender

The L2 alias of an L1 contract is its address plus an offset. The source adds and subtracts
the offset byte by byte, in place and from the last byte to the first. The carry goes through
a `u16` and the borrow through an `i16`. The two functions differ in what they do with one
byte, which is `addDigit` and `subDigit`. `offsetLoop` is the loop of both.

`mapL1SenderToL2Alias` is the method of the precompile that returns the alias of its first
argument.
-/

set_option autoImplicit false

namespace ArbReth

open ArbReth.Program ArbReth.BigEndian

/-- A signed 16-bit integer, as its two's-complement bits. -/
abbrev I16 : Type := BitVec 16

/-- The operator `-` of `i16`, checked for overflow. -/
def I16.checkedSub {ε : Type} (x y : I16) : Exec ε I16 :=
  if -2 ^ 15 ≤ x.toInt - y.toInt ∧ x.toInt - y.toInt < 2 ^ 15 then pure (x - y)
  else .panic "attempt to subtract with overflow"

/-- `u8 as u16` and `u8 as i16`. -/
def widen (byte : UInt8) : BitVec 16 := byte.toBitVec.setWidth 16

/-- `u16 as u8` and `i16 as u8`. -/
def truncate (x : BitVec 16) : UInt8 := UInt8.ofBitVec (x.setWidth 8)

/-- `Address::from_slice`, for a string of 20 bytes. -/
def Address.fromSlice (bs : Bytes) : Address := BitVec.ofNat 160 (beValue bs)

/-- `Address::new`. -/
def Address.new (bytes : Vector UInt8 20) : Address := Address.fromSlice bytes.toList

/-- An address has twenty bytes. -/
theorem Address.size_asSlice (addr : Address) : addr.asSlice.toArray.size = 20 :=
  length_beBytes 20 addr.toNat

/-- `Address` into `[u8; 20]`. -/
def Address.intoBytes (addr : Address) : Vector UInt8 20 :=
  ⟨addr.asSlice.toArray, addr.size_asSlice⟩

/-! ### Aliasing -/

/-- `ADDRESS_ALIAS_OFFSET`. -/
def addressAliasOffset : Vector UInt8 20 :=
  #v[0x11, 0x11, 0x00, 0x00, 0x00, 0x00, 0x00, 0x00, 0x00, 0x00,
     0x00, 0x00, 0x00, 0x00, 0x00, 0x00, 0x00, 0x00, 0x11, 0x11]

section
variable {ε : Type}

/-- A byte of the sum, and the carry into the byte before it. -/
def addDigit (byte offset : UInt8) (carry : U16) : Exec ε (UInt8 × U16) := do
  let sum ← checkedAdd (widen byte) (widen offset)
  let sum ← checkedAdd sum carry
  pure (truncate sum, sum >>> 8)

/-- A byte of the difference, and the borrow from the byte before it. -/
def subDigit (byte offset : UInt8) (borrow : I16) : Exec ε (UInt8 × I16) := do
  let diff ← I16.checkedSub (widen byte) (widen offset)
  let diff ← I16.checkedSub diff borrow
  pure (truncate diff, if diff.toInt < 0 then 1 else 0)

/-- The body of the loop at the index `i`: the byte is replaced in place. -/
def offsetRound (digit : UInt8 → UInt8 → BitVec 16 → Exec ε (UInt8 × BitVec 16)) (i : Fin 20)
    (s : Vector UInt8 20 × BitVec 16) : Exec ε (Vector UInt8 20 × BitVec 16) := do
  let (byte, carry) ← digit (s.1.get i) (addressAliasOffset.get i) s.2
  pure (s.1.set i byte i.isLt, carry)

/-- The loop over the bytes of an address and of the offset, `for i in (0..20).rev()`. -/
def offsetLoop (digit : UInt8 → UInt8 → BitVec 16 → Exec ε (UInt8 × BitVec 16))
    (bytes : Vector UInt8 20) : Exec ε (Vector UInt8 20) := do
  let s ← Prog.forRev 20 (offsetRound digit) (bytes, 0)
  pure s.1

/-- `apply_l1_to_l2_alias`. -/
def applyL1ToL2Alias (addr : Address) : Exec ε Address := do
  let bytes ← offsetLoop addDigit addr.intoBytes
  pure (Address.new bytes)

/-- `undo_l1_to_l2_alias`. -/
def undoL1ToL2Alias (addr : Address) : Exec ε Address := do
  let bytes ← offsetLoop subDigit addr.intoBytes
  pure (Address.new bytes)

end

/-! ### The method of the precompile -/

/-- `PrecompileError`: the errors of the modelled methods. -/
inductive PrecompileError where
  | outOfGas
  | other (msg : String)
deriving DecidableEq, Repr

/-- `PrecompileOutput`. -/
structure PrecompileOutput where
  gasUsed : U64
  bytes : Bytes
deriving DecidableEq, Repr

/-- `decode_address`: twelve bytes of padding and the address. -/
def decodeAddress (data : Bytes) : Exec PrecompileError Address :=
  if data.length < 32 then .fail (.other "invalid input length")
  else pure (Address.fromSlice ((data.take 32).drop 12))

/-- `encode_address`. -/
def encodeAddress (addr : Address) : Bytes := List.replicate 12 0 ++ addr.asSlice

/-- `map_l1_sender_to_l2_alias`. The second argument of the call is not read. -/
def mapL1SenderToL2Alias (args : Bytes) (gasLimit : U64) :
    Exec PrecompileError PrecompileOutput := do
  let gas : U64 := 0
  if gasLimit < gas then .fail .outOfGas
  else
    let sender ← decodeAddress args
    let l2Alias ← applyL1ToL2Alias sender
    pure { gasUsed := gas, bytes := encodeAddress l2Alias }

end ArbReth
