import ArbReth.Precompiles.ArbSys

/-!
# `ArbReth.Proofs.Precompiles.ArbSys`: aliasing adds and subtracts a number

Both loops keep the relation `BigEndian.Adds` between the bytes behind the index. The sum of
two addresses is read off it in one direction, and the difference in the other. So the
relation is a parameter of the invariant (`offsetLoop_done`), and each function has one lemma
about a digit, in which no operator overflows.

`applyL1ToL2Alias_eq` and `undoL1ToL2Alias_eq` are the results for words of 160 bits, which
wrap, and `alias_bijective` follows.
-/

set_option autoImplicit false

namespace ArbReth

open ArbReth.Program ArbReth.BigEndian

/-! ### One digit -/

/-- Widening keeps the number. -/
theorem toNat_widen (byte : UInt8) : (widen byte).toNat = byte.toNat := by
  have hlt := byte.toNat_lt
  rw [widen, BitVec.toNat_setWidth]
  exact Nat.mod_eq_of_lt (by omega)

/-- A widened byte is not negative. -/
theorem toInt_widen (byte : UInt8) : (widen byte).toInt = byte.toNat := by
  have hlt := byte.toNat_lt
  rw [BitVec.toInt_eq_toNat_of_lt (by rw [toNat_widen]; omega), toNat_widen]

/-- Truncation keeps the low byte. -/
theorem toNat_truncate (x : BitVec 16) : (truncate x).toNat = x.toNat % 256 := by
  rw [truncate]
  simp

/-- The sum of two numbers that is in the range of the words. -/
theorem checkedAdd_done {ε : Type} {w m n : Nat} {x y : BitVec w} (hx : x.toNat = m)
    (hy : y.toNat = n) (hlt : m + n < 2 ^ w) :
    ∃ z : BitVec w, (checkedAdd x y : Exec ε (BitVec w)) = .done z ∧ z.toNat = m + n := by
  subst hx hy
  refine ⟨x + y, by rw [checkedAdd, if_pos hlt]; rfl, ?_⟩
  rw [BitVec.toNat_add, Nat.mod_eq_of_lt hlt]

/-- The difference of two numbers that is in the range of `i16`. -/
theorem I16.checkedSub_done {ε : Type} {x y : I16} {m n : Int} (hx : x.toInt = m)
    (hy : y.toInt = n) (hlow : -2 ^ 15 ≤ m - n) (hhigh : m - n < 2 ^ 15) :
    ∃ z : I16, (I16.checkedSub x y : Exec ε I16) = .done z ∧ z.toInt = m - n := by
  subst hx hy
  refine ⟨x - y, by rw [I16.checkedSub, if_pos ⟨hlow, hhigh⟩]; rfl, ?_⟩
  rw [BitVec.toInt_sub]
  exact Int.bmod_eq_of_le (by omega) (by omega)

section
variable {ε : Type} {xs ys zs : List UInt8} {carry : BitVec 16}

/-- A digit of the sum. Sixteen bits are enough for it. -/
theorem addDigit_done (x y : UInt8) (h : Adds xs ys zs carry.toNat) :
    ∃ z carry', (addDigit x y carry : Exec ε _) = .done (z, carry')
      ∧ Adds (x :: xs) (y :: ys) (z :: zs) carry'.toNat := by
  have hx := x.toNat_lt
  have hy := y.toNat_lt
  have hcarry := h.carry_le
  obtain ⟨sum₁, hrun₁, hvalue₁⟩ := checkedAdd_done (ε := ε) (toNat_widen x) (toNat_widen y)
    (by omega)
  obtain ⟨sum₂, hrun₂, hvalue₂⟩ := checkedAdd_done (ε := ε) hvalue₁ (rfl : carry.toNat = _)
    (by omega)
  refine ⟨truncate sum₂, sum₂ >>> 8, ?_, h.cons ?_⟩
  · rw [addDigit, hrun₁, Prog.bind_done, hrun₂]
    rfl
  · rw [toNat_truncate, BitVec.toNat_ushiftRight, hvalue₂, Nat.shiftRight_eq_div_pow]
    omega

/-- A digit of the difference. It is above -257, so `i16` is enough for it. -/
theorem subDigit_done (x y : UInt8) (h : Adds zs ys xs carry.toNat) :
    ∃ z carry', (subDigit x y carry : Exec ε _) = .done (z, carry')
      ∧ Adds (z :: zs) (y :: ys) (x :: xs) carry'.toNat := by
  have hx := x.toNat_lt
  have hy := y.toNat_lt
  have hcarry := h.carry_le
  have hborrow : carry.toInt = carry.toNat := BitVec.toInt_eq_toNat_of_lt (by omega)
  obtain ⟨diff₁, hrun₁, hvalue₁⟩ := I16.checkedSub_done (ε := ε) (toInt_widen x) (toInt_widen y)
    (by omega) (by omega)
  obtain ⟨diff₂, hrun₂, hvalue₂⟩ := I16.checkedSub_done (ε := ε) hvalue₁ hborrow (by omega)
    (by omega)
  refine ⟨truncate diff₂, if diff₂.toInt < 0 then 1 else 0, ?_, h.cons ?_⟩
  · rw [subDigit, hrun₁, Prog.bind_done, hrun₂]
    rfl
  · -- the low byte of a negative difference is 256 above it
    have hlow : (diff₂.toNat : Int)
        = if diff₂.toInt < 0 then diff₂.toInt + 2 ^ 16 else diff₂.toInt := by
      rw [BitVec.toInt_eq_toNat_cond]
      have hlt := diff₂.isLt
      split <;> split <;> omega
    rw [toNat_truncate]
    split at hlow
    · rename_i hneg
      rw [if_pos hneg]
      show x.toNat + 256 * 1 = _
      omega
    · rename_i hneg
      rw [if_neg hneg]
      show x.toNat + 256 * 0 = _
      omega

/-! ### The loop -/

/-- The bytes before the index are those of the address. The bytes from the index on, those
of the offset and those of the result are related, with the carry that they leave. -/
structure OffsetInv (R : List UInt8 → List UInt8 → List UInt8 → Nat → Prop)
    (bytes : Vector UInt8 20) (i : Nat) (s : Vector UInt8 20 × BitVec 16) : Prop where
  before : s.1.toList.take i = bytes.toList.take i
  behind : R (bytes.toList.drop i) (addressAliasOffset.toList.drop i) (s.1.toList.drop i)
    s.2.toNat

section Loop
variable {R : List UInt8 → List UInt8 → List UInt8 → Nat → Prop}
  {digit : UInt8 → UInt8 → BitVec 16 → Exec ε (UInt8 × BitVec 16)}
  (hdigit : ∀ x y {xs ys zs} {carry : BitVec 16}, R xs ys zs carry.toNat →
    ∃ z carry', digit x y carry = .done (z, carry')
      ∧ R (x :: xs) (y :: ys) (z :: zs) carry'.toNat)
include hdigit

/-- One round keeps the invariant. The byte that it reads is still that of the address. -/
theorem offsetRound_done {bytes : Vector UInt8 20} (i : Fin 20)
    (s : Vector UInt8 20 × BitVec 16) (h : OffsetInv R bytes (i + 1) s) :
    ∃ s', offsetRound digit i s = .done s' ∧ OffsetInv R bytes i s' := by
  obtain ⟨current, carry⟩ := s
  obtain ⟨hbefore, hbehind⟩ := h
  dsimp only at hbefore hbehind
  have hdrop : ∀ v : Vector UInt8 20, v.toList.drop i = v.get i :: v.toList.drop (i + 1) := by
    intro v
    rw [List.drop_eq_getElem_cons (by simp)]
    simp [Vector.get]
  have hread : current.get i = bytes.get i := by
    have h := congrArg (fun l => l[i.val]?) hbefore
    simpa [Vector.get] using h
  obtain ⟨z, carry', hrun, hrel⟩ := hdigit (bytes.get i) (addressAliasOffset.get i) hbehind
  refine ⟨(current.set i z i.isLt, carry'), ?_, ?_, ?_⟩
  · rw [offsetRound, hread, hrun]
    rfl
  · show (current.set i z i.isLt).toList.take i = _
    rw [Vector.toList_set, List.take_set_of_le (Nat.le_refl _)]
    have h := congrArg (List.take i.val) hbefore
    rwa [List.take_take, List.take_take, Nat.min_eq_left (Nat.le_succ _)] at h
  · show R _ _ ((current.set i z i.isLt).toList.drop i) _
    have hget : (current.set i z i.isLt).get i = z := Vector.getElem_set_self i.isLt
    have hbehind' : (current.set i z i.isLt).toList.drop (i + 1) = current.toList.drop (i + 1) := by
      rw [Vector.toList_set, List.drop_set_of_lt (Nat.lt_succ_self _)]
    rw [hdrop bytes, hdrop addressAliasOffset, hdrop (current.set i z i.isLt), hget, hbehind']
    exact hrel

/-- A relation that each digit keeps holds of all bytes after the loop. -/
theorem offsetLoop_done (hnil : R [] [] [] 0) (bytes : Vector UInt8 20) :
    ∃ (bytes' : Vector UInt8 20) (carry : Nat), offsetLoop digit bytes = .done bytes'
      ∧ R bytes.toList addressAliasOffset.toList bytes'.toList carry := by
  have hstart : OffsetInv R bytes 20 (bytes, 0) := by
    refine ⟨rfl, ?_⟩
    rw [List.drop_of_length_le (by simp), List.drop_of_length_le (by simp)]
    exact hnil
  obtain ⟨s, hloop, hinv⟩ := Prog.forRev_done (OffsetInv R bytes) (offsetRound_done hdigit) hstart
  refine ⟨s.1, s.2.toNat, ?_, hinv.behind⟩
  rw [offsetLoop, hloop]
  rfl

end Loop

/-! ### Aliasing -/

/-- The offset as an address. -/
def aliasOffset : Address := 0x1111000000000000000000000000000000001111

/-- The bytes of the offset are its number. -/
theorem beValue_addressAliasOffset :
    beValue addressAliasOffset.toList = aliasOffset.toNat := by decide +kernel

/-- The bytes of an address are its number. -/
theorem beValue_intoBytes (addr : Address) : beValue addr.intoBytes.toList = addr.toNat :=
  beValue_beBytes_of_lt (by simpa using addr.isLt)

/-- An address made of bytes is their number. -/
theorem toNat_new (bytes : Vector UInt8 20) :
    (Address.new bytes).toNat = beValue bytes.toList := by
  have hlt := beValue_lt bytes.toList
  rw [Vector.length_toList] at hlt
  rw [Address.new, Address.fromSlice, BitVec.toNat_ofNat, Nat.mod_eq_of_lt (by simpa using hlt)]

/-- The bytes of two addresses and of their sum. -/
theorem Adds.eq_add {xs ys zs : Vector UInt8 20} {carry : Nat}
    (h : Adds xs.toList ys.toList zs.toList carry) :
    Address.new zs = Address.new xs + Address.new ys := by
  have hsum := h.sum
  have hcarry := h.carry_le
  rw [Vector.length_toList, ← toNat_new, ← toNat_new, ← toNat_new] at hsum
  refine BitVec.eq_of_toNat_eq ?_
  rw [BitVec.toNat_add]
  have hlt := (Address.new zs).isLt
  rcases Nat.le_one_iff_eq_zero_or_eq_one.mp hcarry with rfl | rfl <;> omega

/-- An address can be made of its bytes again. -/
theorem new_intoBytes (addr : Address) : Address.new addr.intoBytes = addr := by
  refine BitVec.eq_of_toNat_eq ?_
  rw [toNat_new, beValue_intoBytes]

/-- The bytes of the offset make the address of the offset. -/
theorem new_addressAliasOffset : Address.new addressAliasOffset = aliasOffset := by
  refine BitVec.eq_of_toNat_eq ?_
  rw [toNat_new, beValue_addressAliasOffset]

/-- The alias of an address is the wrapping sum with the offset. -/
theorem applyL1ToL2Alias_eq (addr : Address) :
    (applyL1ToL2Alias addr : Exec ε Address) = .done (addr + aliasOffset) := by
  obtain ⟨bytes, carry, hloop, hadds⟩ := offsetLoop_done (ε := ε)
    (fun x y _ _ _ _ h => addDigit_done x y h) Adds.nil addr.intoBytes
  rw [applyL1ToL2Alias, hloop, Prog.bind_done, Adds.eq_add hadds, new_intoBytes,
    new_addressAliasOffset]
  rfl

/-- A sum that wraps all the way through. -/
example : (applyL1ToL2Alias 0xeeeeffffffffffffffffffffffffffffffffeeef : Exec Empty Address)
    = .done 0 := rfl

/-- The loop of the other function runs the sum backwards. -/
theorem undoL1ToL2Alias_eq (addr : Address) :
    (undoL1ToL2Alias addr : Exec ε Address) = .done (addr - aliasOffset) := by
  obtain ⟨bytes, carry, hloop, hadds⟩ := offsetLoop_done (ε := ε)
    (R := fun xs ys zs => Adds zs ys xs) (fun x y _ _ _ _ h => subDigit_done x y h) Adds.nil
    addr.intoBytes
  have hsum : addr = Address.new bytes + aliasOffset := by
    rw [← new_addressAliasOffset, ← Adds.eq_add hadds, new_intoBytes]
  rw [undoL1ToL2Alias, hloop, Prog.bind_done, hsum, BitVec.add_sub_cancel]
  rfl

/-- Both functions return for every address. One adds the offset modulo `2 ^ 160`, the other
subtracts it, and each undoes the other. -/
theorem alias_bijective (ε : Type) (addr : Address) :
    ∃ up down : Address,
      (applyL1ToL2Alias addr : Exec ε Address) = .done up
      ∧ up.toNat = (addr.toNat + 0x1111000000000000000000000000000000001111) % 2 ^ 160
      ∧ (undoL1ToL2Alias addr : Exec ε Address) = .done down
      ∧ (down.toNat : Int)
        = ((addr.toNat : Int) - 0x1111000000000000000000000000000000001111) % 2 ^ 160
      ∧ (undoL1ToL2Alias up : Exec ε Address) = .done addr
      ∧ (applyL1ToL2Alias down : Exec ε Address) = .done addr := by
  refine ⟨addr + aliasOffset, addr - aliasOffset, applyL1ToL2Alias_eq addr, ?_,
    undoL1ToL2Alias_eq addr, ?_, ?_, ?_⟩
  · rw [BitVec.toNat_add]
    rfl
  · have hlt := addr.isLt
    have hoffset : aliasOffset.toNat = 0x1111000000000000000000000000000000001111 := rfl
    rw [BitVec.toNat_sub, hoffset]
    omega
  · rw [undoL1ToL2Alias_eq, BitVec.add_sub_cancel]
  · rw [applyL1ToL2Alias_eq, BitVec.sub_add_cancel]

end

/-! ### The method of the precompile -/

/-- The call without a whole word fails, whatever its gas limit is. -/
theorem mapL1SenderToL2Alias_short {args : Bytes} (gasLimit : U64) (h : args.length < 32) :
    mapL1SenderToL2Alias args gasLimit = .fail (.other "invalid input length") := by
  have hgas : ¬gasLimit < 0 := BitVec.not_lt_zero
  rw [mapL1SenderToL2Alias, if_neg hgas, decodeAddress, if_pos h]
  rfl

end ArbReth
