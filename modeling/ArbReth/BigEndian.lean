import Mathlib.Data.Nat.Init
import Mathlib.Tactic.Ring

/-!
# `ArbReth.BigEndian`: numbers as big-endian byte strings

`beBytes n v` is the `n`-byte big-endian form of `v`, truncated to its low `n`
bytes. `beValue` reads a byte string of any length. The two round trips are
`beValue_beBytes` and `beBytes_beValue`. `beBytes_add` splits a string at a byte
boundary into the bytes of the quotient and the bytes of the low part.
`minimalBytes` is the form without leading zeros. `Adds` is the relation that a loop over the
digits keeps when it adds or subtracts, from the last digit to the first.
-/

set_option autoImplicit false

namespace ArbReth.BigEndian

/-- The low `n` bytes of `v`, most significant byte first. -/
def beBytes : (n v : Nat) → List UInt8
  | 0, _ => []
  | n + 1, v => UInt8.ofNat (v / 256 ^ n) :: beBytes n v

/-- The number that the bytes spell, most significant byte first. -/
def beValue (bs : List UInt8) : Nat :=
  bs.foldl (fun acc b => acc * 256 + b.toNat) 0

/-- The string has the length that is asked for. -/
@[simp] theorem length_beBytes (n v : Nat) : (beBytes n v).length = n := by
  induction n with
  | zero => rfl
  | succ n ih => rw [beBytes, List.length_cons, ih]

/-- The fold of `beValue` over a nonzero accumulator. -/
theorem foldl_beValue (bs : List UInt8) (acc : Nat) :
    bs.foldl (fun acc b => acc * 256 + b.toNat) acc = acc * 256 ^ bs.length + beValue bs := by
  induction bs generalizing acc with
  | nil => simp [beValue]
  | cons b bs ih =>
      have h1 := ih (acc * 256 + b.toNat)
      have h2 := ih (0 * 256 + b.toNat)
      simp only [beValue, List.foldl_cons, List.length_cons] at h1 h2 ⊢
      rw [h1, h2]
      ring

/-- No bytes are zero. -/
@[simp] theorem beValue_nil : beValue [] = 0 := rfl

/-- The first byte counts with the weight of all bytes behind it. -/
theorem beValue_cons (b : UInt8) (bs : List UInt8) :
    beValue (b :: bs) = b.toNat * 256 ^ bs.length + beValue bs := by
  rw [beValue, List.foldl_cons, foldl_beValue]
  simp

/-- A byte string spells a number below `256 ^ length`. -/
theorem beValue_lt (bs : List UInt8) : beValue bs < 256 ^ bs.length := by
  induction bs with
  | nil => simp
  | cons b bs ih =>
      have hb : b.toNat ≤ 255 := Nat.le_of_lt_succ b.toNat_lt
      have hmul : b.toNat * 256 ^ bs.length ≤ 255 * 256 ^ bs.length :=
        Nat.mul_le_mul_right _ hb
      rw [beValue_cons, List.length_cons, Nat.pow_succ]
      omega

/-- Number to bytes and back keeps the low `n` bytes of the number. -/
theorem beValue_beBytes (n v : Nat) : beValue (beBytes n v) = v % 256 ^ n := by
  induction n with
  | zero => simp [beBytes, Nat.mod_one]
  | succ n ih =>
      have hhead : (UInt8.ofNat (v / 256 ^ n)).toNat = v / 256 ^ n % 256 := by simp
      rw [beBytes, beValue_cons, length_beBytes, ih, hhead, Nat.pow_succ, Nat.mod_mul]
      ring

/-- A number that fits in the bytes is read back. -/
theorem beValue_beBytes_of_lt {n v : Nat} (h : v < 256 ^ n) : beValue (beBytes n v) = v := by
  rw [beValue_beBytes, Nat.mod_eq_of_lt h]

/-- The bytes of a sum `n`-byte block by `m`-byte block. -/
theorem beBytes_mul_add (n a b : Nat) (m : Nat) (hb : b < 256 ^ m) :
    beBytes (n + m) (a * 256 ^ m + b) = beBytes n a ++ beBytes m b := by
  induction n with
  | zero =>
      rw [Nat.zero_add, beBytes, List.nil_append]
      -- Only the low `m` bytes are read, so `a` drops out of every digit.
      have key : ∀ k, k ≤ m → beBytes k (a * 256 ^ m + b) = beBytes k b := by
        intro k
        induction k with
        | zero => intro _; rfl
        | succ k ih =>
            intro hk
            rw [beBytes, beBytes, ih (by omega)]
            congr 1
            apply UInt8.toNat_inj.mp
            have hsplit : a * 256 ^ m = 256 ^ k * (256 * (a * 256 ^ (m - (k + 1)))) := by
              conv_lhs => rw [show m = k + 1 + (m - (k + 1)) by omega, Nat.pow_add, Nat.pow_succ]
              ring
            simp only [UInt8.toNat_ofNat']
            rw [hsplit, Nat.mul_add_div (Nat.pow_pos (by norm_num)), Nat.mul_add_mod]
      exact key m (Nat.le_refl m)
  | succ n ih =>
      rw [show n + 1 + m = n + m + 1 by omega, beBytes, ih, beBytes, List.cons_append]
      congr 2
      rw [Nat.pow_add, Nat.mul_comm (256 ^ n), ← Nat.div_div_eq_div_mul, Nat.mul_comm a,
        Nat.mul_add_div (Nat.pow_pos (by norm_num)), Nat.div_eq_of_lt hb, Nat.add_zero]

/-- The bytes of `v` split at a byte boundary. -/
theorem beBytes_add (n m v : Nat) :
    beBytes (n + m) v = beBytes n (v / 256 ^ m) ++ beBytes m (v % 256 ^ m) := by
  have h := beBytes_mul_add n (v / 256 ^ m) (v % 256 ^ m) m
    (Nat.mod_lt _ (Nat.pow_pos (by norm_num)))
  rwa [Nat.mul_comm, Nat.div_add_mod] at h

/-- Bytes to number and back is the identity. -/
theorem beBytes_beValue (bs : List UInt8) : beBytes bs.length (beValue bs) = bs := by
  induction bs with
  | nil => rfl
  | cons b bs ih =>
      have hdiv : beValue (b :: bs) / 256 ^ bs.length = b.toNat := by
        rw [beValue_cons, Nat.mul_comm, Nat.mul_add_div (Nat.pow_pos (by norm_num)),
          Nat.div_eq_of_lt (beValue_lt bs), Nat.add_zero]
      have htail : beBytes bs.length (beValue (b :: bs)) = bs := by
        have h := beBytes_mul_add 0 b.toNat (beValue bs) bs.length (beValue_lt bs)
        rw [Nat.zero_add, ← beValue_cons] at h
        rw [h, ih]
        rfl
      rw [List.length_cons, beBytes, hdiv, htail, UInt8.ofNat_toNat]

/-- Two numbers with the same `n` bytes agree below `256 ^ n`. -/
theorem beBytes_inj {n a b : Nat} (ha : a < 256 ^ n) (hb : b < 256 ^ n) :
    beBytes n a = beBytes n b ↔ a = b := by
  constructor
  · intro h
    have := congrArg beValue h
    rwa [beValue_beBytes_of_lt ha, beValue_beBytes_of_lt hb] at this
  · rintro rfl; rfl

/-- Zero is spelled with zeros. -/
theorem beBytes_zero (n : Nat) : beBytes n 0 = List.replicate n 0 := by
  induction n with
  | zero => rfl
  | succ n ih =>
      rw [beBytes, ih, Nat.zero_div, List.replicate_succ]
      rfl

/-! ### Without leading zeros -/

/-- The low `n` bytes of `v` without leading zeros. Zero has no bytes. -/
def minimalBytes (n v : Nat) : List UInt8 := (beBytes n v).dropWhile (· == 0)

/-- Leading zeros do not count. -/
theorem beValue_dropWhile (bs : List UInt8) : beValue (bs.dropWhile (· == 0)) = beValue bs := by
  induction bs with
  | nil => rfl
  | cons b bs ih =>
      rw [List.dropWhile_cons]
      split
      · rename_i hzero
        rw [ih, beValue_cons, beq_iff_eq.mp hzero]
        simp
      · rfl

/-- A number is read back from its bytes without leading zeros. -/
theorem beValue_minimalBytes {n v : Nat} (h : v < 256 ^ n) : beValue (minimalBytes n v) = v := by
  rw [minimalBytes, beValue_dropWhile, beValue_beBytes_of_lt h]

/-- Numbers with the same bytes without leading zeros are equal. -/
theorem minimalBytes_inj {n a b : Nat} (ha : a < 256 ^ n) (hb : b < 256 ^ n) :
    minimalBytes n a = minimalBytes n b ↔ a = b := by
  constructor
  · intro h
    rw [← beValue_minimalBytes ha, ← beValue_minimalBytes hb, h]
  · rintro rfl
    rfl

/-- Leaving out leading zeros makes the string no longer. -/
theorem length_minimalBytes_le (n v : Nat) : (minimalBytes n v).length ≤ n := by
  have h := (List.dropWhile_sublist (· == 0) (l := beBytes n v)).length_le
  rwa [length_beBytes] at h

/-- The first byte that is kept is not zero. -/
theorem head?_minimalBytes (n v : Nat) : (minimalBytes n v).head? ≠ some 0 := by
  intro h
  have hnot := List.head?_dropWhile_not (· == (0 : UInt8)) (beBytes n v)
  unfold minimalBytes at h
  rw [h] at hnot
  simp at hnot

/-- A positive number has a byte. -/
theorem minimalBytes_ne_nil {n v : Nat} (hpos : 0 < v) (h : v < 256 ^ n) :
    minimalBytes n v ≠ [] := by
  intro hnil
  have hvalue := beValue_minimalBytes h
  rw [hnil, beValue_nil] at hvalue
  omega

/-- Bytes without a leading zero are the shortest ones of their number. -/
theorem minimalBytes_beValue {n : Nat} {bs : List UInt8} (hlen : bs.length ≤ n)
    (hhead : bs.head? ≠ some 0) : minimalBytes n (beValue bs) = bs := by
  have hlt := beValue_lt bs
  have hsplit : beBytes n (beValue bs) = beBytes (n - bs.length) 0 ++ bs := by
    have h := beBytes_add (n - bs.length) bs.length (beValue bs)
    rw [Nat.sub_add_cancel hlen, Nat.div_eq_of_lt hlt, Nat.mod_eq_of_lt hlt, beBytes_beValue] at h
    exact h
  have hzeros : ∀ b ∈ beBytes (n - bs.length) 0, (b == 0) = true := by
    intro b hb
    rw [beBytes_zero, List.mem_replicate] at hb
    rw [hb.2]
    rfl
  rw [minimalBytes, hsplit, List.dropWhile_append_of_pos hzeros]
  cases bs with
  | nil => rfl
  | cons b bs =>
      have hb : b ≠ 0 := by
        rintro rfl
        exact hhead rfl
      rw [List.dropWhile_cons_of_neg (by simpa using hb)]

/-! ### Sums digit by digit -/

/-- The bytes `zs` and a carry out of the first of them are the sum of `xs` and `ys`. Read the
other way, `xs` is the difference of `zs` and `ys` with a borrow. -/
structure Adds (xs ys zs : List UInt8) (carry : Nat) : Prop where
  left : xs.length = zs.length
  right : ys.length = zs.length
  sum : beValue zs + 256 ^ zs.length * carry = beValue xs + beValue ys

namespace Adds

/-- The empty sum has no carry. -/
theorem nil : Adds [] [] [] 0 := ⟨rfl, rfl, rfl⟩

/-- One more digit in front, with the carry of the digits behind it. -/
theorem cons {xs ys zs : List UInt8} {carry carry' : Nat} {x y z : UInt8}
    (h : Adds xs ys zs carry) (hdigit : z.toNat + 256 * carry' = x.toNat + y.toNat + carry) :
    Adds (x :: xs) (y :: ys) (z :: zs) carry' where
  left := congrArg (· + 1) h.left
  right := congrArg (· + 1) h.right
  sum := by
    have hscaled : z.toNat * 256 ^ zs.length + 256 ^ zs.length * 256 * carry'
        = x.toNat * 256 ^ zs.length + y.toNat * 256 ^ zs.length + 256 ^ zs.length * carry := by
      calc z.toNat * 256 ^ zs.length + 256 ^ zs.length * 256 * carry'
          = (z.toNat + 256 * carry') * 256 ^ zs.length := by ring
        _ = (x.toNat + y.toNat + carry) * 256 ^ zs.length := by rw [hdigit]
        _ = _ := by ring
    have hsum := h.sum
    rw [beValue_cons, beValue_cons, beValue_cons, h.left, h.right, List.length_cons, Nat.pow_succ]
    omega

/-- A sum of two has a carry of one at most. -/
theorem carry_le {xs ys zs : List UInt8} {carry : Nat} (h : Adds xs ys zs carry) : carry ≤ 1 := by
  have hx := beValue_lt xs
  have hy := beValue_lt ys
  rw [h.left] at hx
  rw [h.right] at hy
  have hlt : 256 ^ zs.length * carry < 256 ^ zs.length * 2 := by
    have hsum := h.sum
    omega
  exact Nat.le_of_lt_succ (Nat.lt_of_mul_lt_mul_left hlt)

end Adds

end ArbReth.BigEndian
