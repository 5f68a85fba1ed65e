import ArbReth.Proofs.Storage.Space
import ArbReth.Storage.SampleHash
import Mathlib.Data.List.TakeDrop

/-!
# `ArbReth.Proofs.Storage.Bytes`: byte strings in a space

`byteWords b` is the content of a space that stores the string `b`, as a function of the
number of the slot: the length at 0, then the chunks of 32 bytes, the last one
right-aligned, and zero from there on. The empty string is the space whose slots are all
zero.

`setBytes` and `clearBytes` go from one such content to another. Each loop has its
content after some rounds: `clearedTo` and `writtenTo`. `bytes_roundtrip` says of every
sequence of the two that the space stores the last string, that it reads back, and that
nothing else has changed.

Strings of at most `last` chunks use the offsets from 0 to `last`. The proofs assume that
the hash gives these offsets different slots, and nothing about any other key.
-/

set_option autoImplicit false

namespace ArbReth

open ArbReth.Program ArbReth.BigEndian

namespace Storage

/-- The 32 bytes of the chunk `i`: the bytes from `32 * i` on, right-aligned. -/
def chunk (b : Bytes) (i : Nat) : Bytes :=
  List.replicate (32 - ((b.drop (32 * i)).take 32).length) 0 ++ (b.drop (32 * i)).take 32

/-- The word in each numbered slot of a space that stores the string. -/
def byteWords (b : Bytes) (i : Nat) : StorageValue :=
  if i = 0 then U256.ofU64 (BitVec.ofNat 64 b.length)
  else U256.fromBeBytes (chunk b (i - 1))

/-- The number of the slots after the first one that the string uses. -/
def chunkCount (b : Bytes) : Nat := (b.length + 31) / 32

/-- A chunk fills a word. -/
@[simp] theorem length_chunk (b : Bytes) (i : Nat) : (chunk b i).length = 32 := by
  simp [chunk]

/-- A chunk within the string is not padded. -/
theorem chunk_of_full {b : Bytes} {i : Nat} (h : 32 * (i + 1) ≤ b.length) :
    chunk b i = (b.drop (32 * i)).take 32 := by
  have hlen : ((b.drop (32 * i)).take 32).length = 32 := by
    rw [List.length_take, List.length_drop]
    omega
  rw [chunk, hlen]
  rfl

/-- A chunk past the end of the string is zero. -/
theorem fromBeBytes_chunk_of_past {b : Bytes} {i : Nat} (h : b.length ≤ 32 * i) :
    U256.fromBeBytes (chunk b i) = 0 := by
  rw [chunk, List.drop_eq_nil_of_le h]
  decide

/-- The words from the end of the string on are zero. -/
theorem byteWords_of_past {b : Bytes} {i : Nat} (h : chunkCount b < i) : byteWords b i = 0 := by
  unfold chunkCount at h
  rw [byteWords, if_neg (by omega), fromBeBytes_chunk_of_past (by omega)]

/-- The empty string leaves every slot zero. -/
theorem byteWords_nil : byteWords [] = fun _ => 0 := by
  funext i
  by_cases h : i = 0
  · rw [byteWords, if_pos h]
    rfl
  · exact byteWords_of_past (Nat.pos_of_ne_zero h)

/-- The word of a chunk, read as bytes. -/
theorem toBeBytes_byteWords (b : Bytes) (n : Nat) :
    (byteWords b (n + 1)).toBeBytes = chunk b n := by
  rw [byteWords, if_neg (by omega), Nat.add_sub_cancel,
    U256.toBeBytes_fromBeBytes (length_chunk b n)]

/-- The words before the round `next` of the loop of `clearBytes`. -/
def clearedTo (b : Bytes) (next i : Nat) : StorageValue :=
  if 1 ≤ i ∧ i < next then 0 else byteWords b i

/-- The words after the length and the first `n` chunks are written. -/
def writtenTo (b : Bytes) (n i : Nat) : StorageValue :=
  if i ≤ n then byteWords b i else 0

/-- The chunks that are left are past the end. -/
theorem writtenTo_eq_byteWords {b : Bytes} {n : Nat} (h : chunkCount b ≤ n) :
    writtenTo b n = byteWords b := by
  funext i
  rw [writtenTo]
  split
  · rfl
  · rw [byteWords_of_past (by omega)]

/-- One round of the loop of `clearBytes`. -/
theorem update_clearedTo (b : Bytes) {n : Nat} (hn : 1 ≤ n) :
    Function.update (clearedTo b n) n 0 = clearedTo b (n + 1) := by
  funext i
  by_cases h : i = n
  · rw [h, Function.update_self, clearedTo, if_pos (by omega)]
  · rw [Function.update_of_ne h, clearedTo, clearedTo]
    by_cases hlt : 1 ≤ i ∧ i < n
    · rw [if_pos hlt, if_pos (by omega)]
    · rw [if_neg hlt, if_neg (by omega)]

/-- The end of `clearBytes`: after the rounds of the loop the length is cleared too. -/
theorem update_clearedTo_end (b : Bytes) :
    Function.update (clearedTo b (1 + chunkCount b)) 0 0 = byteWords [] := by
  rw [byteWords_nil]
  funext i
  by_cases h : i = 0
  · rw [h, Function.update_self]
  · rw [Function.update_of_ne h, clearedTo]
    by_cases hlt : i < 1 + chunkCount b
    · rw [if_pos (by omega)]
    · rw [if_neg (by omega), byteWords_of_past (by omega)]

/-- Writing one more chunk. -/
theorem update_writtenTo (b : Bytes) (n : Nat) :
    Function.update (writtenTo b n) (n + 1) (U256.fromBeBytes (chunk b n))
      = writtenTo b (n + 1) := by
  funext i
  by_cases h : i = n + 1
  · rw [h, Function.update_self, writtenTo, if_pos (Nat.le_refl _), byteWords,
      if_neg (by omega), Nat.add_sub_cancel]
  · rw [Function.update_of_ne h, writtenTo, writtenTo]
    by_cases hle : i ≤ n
    · rw [if_pos hle, if_pos (by omega)]
    · rw [if_neg hle, if_neg (by omega)]

/-- The string can be stored in the offsets up to `last`: its length is a `usize`, and it
has at most `last` chunks. -/
def FitsTo (last : U64) (b : Bytes) : Prop := b.length < 2 ^ 64 ∧ chunkCount b ≤ last.toNat

/-- The empty string fits. -/
theorem fitsTo_nil (last : U64) : FitsTo last [] := ⟨Nat.two_pow_pos 64, Nat.zero_le _⟩

/-- The length that slot 0 holds is the length of the string. -/
theorem FitsTo.toNat_length {last : U64} {b : Bytes} (h : FitsTo last b) :
    (BitVec.ofNat 64 b.length).toNat = b.length :=
  Nat.mod_eq_of_lt h.1

variable [Keccak] {self : Storage} {last : U64} {start : World} {b : Bytes}

/-! ### Reading -/

/-- The length is in slot 0. -/
theorem getBytesSize_realizes :
    Realizes World.handle (self.Holds last start) self.getBytesSize (byteWords b)
      (.ok (BitVec.ofNat 64 b.length)) (byteWords b) := by
  refine .bind (readSlot_realizes (Nat.zero_le _)) ?_
  have hzero : byteWords b 0 = U256.ofU64 (BitVec.ofNat 64 b.length) := rfl
  rw [hzero, U64.tryFrom_ofU64]
  exact .pure _

/-- The loop over full chunks reads the next bytes of the string. -/
theorem getFullChunks_realizes (hfits : FitsTo last b) (n count : Nat)
    (hfull : 32 * (n + count) ≤ b.length) :
    Realizes World.handle (self.Holds last start) (self.getFullChunks (n + 1) count) (byteWords b)
      (.ok ((b.drop (32 * n)).take (32 * count))) (byteWords b) := by
  have hlast : (b.length + 31) / 32 ≤ last.toNat := hfits.2
  induction count generalizing n with
  | zero =>
      rw [Nat.mul_zero, List.take_zero]
      exact .pure _
  | succ count ih =>
      refine .bind (readSlot_realizes (by omega)) (.bind (ih (n + 1) (by omega)) ?_)
      -- A full chunk is not padded, so its word spells the bytes.
      rw [toBeBytes_byteWords, chunk_of_full (by omega)]
      have hsplit : (b.drop (32 * n)).take (32 * (count + 1))
          = (b.drop (32 * n)).take 32 ++ (b.drop (32 * (n + 1))).take (32 * count) := by
        rw [show 32 * (count + 1) = 32 + 32 * count by omega, List.take_add, List.drop_drop,
          show 32 * n + 32 = 32 * (n + 1) by omega]
      rw [hsplit]
      exact .pure _

/-- The string reads back. -/
theorem getBytes_realizes (hfits : FitsTo last b) :
    Realizes World.handle (self.Holds last start) self.getBytes (byteWords b) (.ok b)
      (byteWords b) := by
  have hlast : (b.length + 31) / 32 ≤ last.toNat := hfits.2
  refine .bind getBytesSize_realizes ?_
  simp only [hfits.toNat_length]
  refine .bind (getFullChunks_realizes hfits 0 (b.length / 32) (by omega)) ?_
  rw [Nat.mul_zero, List.drop_zero]
  by_cases htail : 0 < b.length % 32
  · refine .ite_pos htail (.bind (readSlot_realizes (by omega)) ?_)
    -- the last bytes are at the right end of their word
    have htake : ((b.drop (32 * (b.length / 32))).take 32) = b.drop (32 * (b.length / 32)) :=
      List.take_of_length_le (by rw [List.length_drop]; omega)
    have htail : (chunk b (b.length / 32)).drop (32 - b.length % 32)
        = b.drop (32 * (b.length / 32)) := by
      rw [chunk, htake, List.drop_append, List.length_replicate, List.length_drop,
        List.drop_of_length_le (by simp; omega), List.nil_append,
        show 32 - b.length % 32 - (32 - (b.length - 32 * (b.length / 32))) = 0 by omega,
        List.drop_zero]
    rw [Nat.add_comm 1, toBeBytes_byteWords, htail, List.take_append_drop]
    exact .pure _
  · refine .ite_neg htail ?_
    rw [List.take_of_length_le (by omega)]
    exact .pure _

/-! ### Clearing -/

section
variable (hslots : Set.InjOn self.mapAddress {i | i ≤ last})
include hslots

/-- Clearing leaves the content of the empty string. -/
theorem clearBytes_realizes (hfits : FitsTo last b) :
    Realizes World.handle (self.Holds last start) self.clearBytes (byteWords b) (.ok ())
      (byteWords []) := by
  refine .bind getBytesSize_realizes ?_
  rw [hfits.toNat_length]
  -- one round clears one slot
  have hround : ∀ i, 1 ≤ i → i < 1 + chunkCount b →
      Realizes World.handle (self.Holds last start) (self.writeSlot (chunkOffset i) 0)
        (clearedTo b i) (.ok ()) (clearedTo b (i + 1)) := by
    intro i h1 hi
    have hlast := hfits.2
    rw [← update_clearedTo b h1]
    exact writeSlot_realizes hslots (by omega) 0
  have hloop := Realizes.forRange (clearedTo b) 1 (chunkCount b) hround
  -- no slot is below the first round
  have hstart : clearedTo b 1 = byteWords b := by
    funext i
    rw [clearedTo, if_neg (by omega)]
  rw [hstart] at hloop
  -- the length goes last
  rw [← update_clearedTo_end b]
  exact .bind hloop (writeSlot_realizes hslots (Nat.zero_le _) 0)

/-! ### Writing -/

/-- Writing one more chunk. -/
theorem writeChunk_realizes {n : Nat} (hn : n + 1 ≤ last.toNat) {v : StorageValue}
    (hv : v = U256.fromBeBytes (chunk b n)) :
    Realizes World.handle (self.Holds last start) (self.writeSlot (chunkOffset (n + 1)) v)
      (writtenTo b n) (.ok ()) (writtenTo b (n + 1)) := by
  rw [← update_writtenTo, ← hv]
  exact writeSlot_realizes hslots hn v

/-- The loop of `setBytes` writes the chunks from `n` on. -/
theorem setChunks_realizes (hfits : FitsTo last b) (n count : Nat)
    (hcount : count = (b.length - 32 * n) / 32) (hn : 32 * n ≤ b.length) :
    Realizes World.handle (self.Holds last start)
      (self.setChunks (n + 1) count (b.drop (32 * n))) (writtenTo b n) (.ok ())
      (byteWords b) := by
  have hlast : (b.length + 31) / 32 ≤ last.toNat := hfits.2
  induction count generalizing n with
  | zero =>
      rw [setChunks]
      -- The loop is over. What is left is no byte, or the last chunk, which is right-aligned.
      by_cases hempty : (b.drop (32 * n)).isEmpty = true
      · refine .ite_pos hempty ?_
        rw [List.isEmpty_iff, List.drop_eq_nil_iff] at hempty
        have hend : chunkCount b ≤ n := by unfold chunkCount; omega
        rw [writtenTo_eq_byteWords hend]
        exact .pure _
      · refine .ite_neg hempty ?_
        have hleft : 32 * n < b.length := by
          rw [List.isEmpty_iff, List.drop_eq_nil_iff] at hempty
          omega
        have hend : chunkCount b ≤ n + 1 := by unfold chunkCount; omega
        rw [← writtenTo_eq_byteWords hend]
        refine writeChunk_realizes hslots (by omega) ?_
        rw [chunk, List.take_of_length_le (by rw [List.length_drop]; omega)]
  | succ count ih =>
      have hnext : (b.drop (32 * n)).drop 32 = b.drop (32 * (n + 1)) := by
        rw [List.drop_drop, show 32 * n + 32 = 32 * (n + 1) by omega]
      rw [setChunks, hnext]
      refine .bind (writeChunk_realizes hslots (by omega) ?_) (ih (n + 1) (by omega) (by omega))
      rw [chunk_of_full (by omega)]

/-- `setBytes` replaces one string by another. -/
theorem setBytes_realizes {old : Bytes} (hold : FitsTo last old) (hfits : FitsTo last b) :
    Realizes World.handle (self.Holds last start) (self.setBytes b) (byteWords old) (.ok ())
      (byteWords b) := by
  refine .bind (clearBytes_realizes hslots hold) ?_
  refine .bind (writeSlot_realizes hslots (Nat.zero_le _) _) ?_
  -- the length is written, and no chunk yet
  have hstart : Function.update (byteWords []) 0 (U256.ofU64 (BitVec.ofNat 64 b.length))
      = writtenTo b 0 := by
    rw [byteWords_nil]
    funext i
    by_cases h : i = 0
    · rw [h, Function.update_self]
      rfl
    · rw [Function.update_of_ne h, writtenTo, if_neg (by omega)]
  rw [hstart]
  exact setChunks_realizes hslots hfits 0 (b.length / 32) (by simp) (by omega)

end

end Storage

/-! ### Sequences of edits -/

/-- An operation that changes a stored string. -/
inductive BytesEdit where
  | set (b : Bytes)
  | clear

namespace BytesEdit

/-- The string after the operation. -/
def result : BytesEdit → Bytes
  | .set b => b
  | .clear => []

/-- The program of the operation. -/
def program [Keccak] (self : Storage) : BytesEdit → Exec DbError Unit
  | .set b => self.setBytes b
  | .clear => self.clearBytes

/-- The string after a sequence of operations on the empty string. -/
def contents (edits : List BytesEdit) : Bytes := edits.foldl (fun _ e => e.result) []

end BytesEdit

namespace Storage

section
variable [Keccak] {self : Storage} {last : U64}
  (hslots : Set.InjOn self.mapAddress {i | i ≤ last})
include hslots

/-- Every sequence of edits leaves the last string in the space. The induction is on the
sequence, with the string that is stored before it. -/
theorem runOps_holds (start : World) (edits : List BytesEdit)
    (hfits : ∀ e ∈ edits, FitsTo last e.result) (w : World) (b : Bytes) (hb : FitsTo last b)
    (hw : self.Holds last start w (byteWords b)) :
    (runOps World.handle (BytesEdit.program self) edits w).1 = edits.map (fun _ => .ok ())
      ∧ self.Holds last start (runOps World.handle (BytesEdit.program self) edits w).2
        (byteWords (edits.foldl (fun _ e => e.result) b))
      ∧ FitsTo last (edits.foldl (fun _ e => e.result) b) := by
  induction edits generalizing w b with
  | nil => exact ⟨rfl, hw, hb⟩
  | cons e edits ih =>
      have hfit := hfits e List.mem_cons_self
      have hstep : Realizes World.handle (self.Holds last start) (BytesEdit.program self e)
          (byteWords b) (.ok ()) (byteWords e.result) := by
        cases e with
        | set b' => exact setBytes_realizes hslots hb hfit
        | clear => exact clearBytes_realizes hslots hb
      obtain ⟨w', hrun, hw'⟩ := hstep w hw
      obtain ⟨h₁, h₂⟩ := ih (fun e' he' => hfits e' (List.mem_cons_of_mem _ he')) w' _ hfit hw'
      simp only [runOps, hrun, List.map_cons, List.foldl_cons]
      exact ⟨by rw [h₁], h₂⟩

/-- Every sequence of edits of strings that fit in the offsets up to `last` ends without a
panic, from a space whose slots at these offsets are zero. The last string reads back with
its length, its chunks are in the slots from 1 on, and the slots after them are zero. When
the last string is empty, every slot of the space that was zero is zero, whatever its key.

No other space changes: a slot of any space that is not the slot of one of these offsets
reads as at the start. Nor does anything else of the world. -/
theorem bytes_roundtrip (w : World)
    (hzero : ∀ i ≤ last, w.store self.account (self.mapAddress i) = 0) (edits : List BytesEdit)
    (hfits : ∀ e ∈ edits,
      e.result.length < 2 ^ 64 ∧ (e.result.length + 31) / 32 ≤ last.toNat) :
    let final := runOps World.handle (BytesEdit.program self) edits w
    let b := BytesEdit.contents edits
    final.1 = edits.map (fun _ => .ok ())
    ∧ World.run self.getBytes final.2 = (.ok b, final.2)
    ∧ (∃ size, World.run self.getBytesSize final.2 = (.ok size, final.2)
        ∧ size.toNat = b.length)
    ∧ (∀ i : U64, 1 ≤ i.toNat → i.toNat ≤ (b.length + 31) / 32 →
        final.2.store self.account (self.mapAddress i)
          = U256.fromBeBytes (chunk b (i.toNat - 1)))
    ∧ (∀ i ≤ last, (b.length + 31) / 32 < i.toNat →
        final.2.store self.account (self.mapAddress i) = 0)
    ∧ (b = [] → ∀ key, w.store self.account (self.mapAddressByKey key) = 0 →
        final.2.store self.account (self.mapAddressByKey key) = 0)
    ∧ (∀ (other : Storage) (key : StorageKey),
        (other.account = self.account →
          ∀ i ≤ last, other.mapAddressByKey key ≠ self.mapAddress i) →
        (World.run (other.getByKey key) final.2).1 = (World.run (other.getByKey key) w).1)
    ∧ (self.slotsTo last).SameOutside w final.2 := by
  intro final b
  have hnumber : ∀ i : U64, BitVec.ofNat 64 i.toNat = i := fun i => by
    rw [BitVec.ofNat_toNat, BitVec.setWidth_eq]
  have hstart : self.Holds last w w (byteWords []) := by
    rw [byteWords_nil]
    refine ⟨fun i hi => hzero _ ?_, Layout.SameOutside.refl _ w⟩
    rw [BitVec.le_def, BitVec.toNat_ofNat, Nat.mod_eq_of_lt (by omega)]
    exact hi
  obtain ⟨houtcomes, hfinal, hfit⟩ :=
    runOps_holds hslots w edits hfits w [] (fitsTo_nil last) hstart
  change FitsTo last b at hfit
  change self.Holds last w final.2 (byteWords b) at hfinal
  have hword : ∀ i ≤ last, final.2.store self.account (self.mapAddress i)
      = byteWords b i.toNat := by
    intro i hi
    have hslot := hfinal.word i.toNat (BitVec.le_def.mp hi)
    rwa [hnumber] at hslot
  refine ⟨houtcomes, ?_, ?_, ?_, ?_, ?_, ?_, hfinal.outside⟩
  · exact run_of_realizes (getBytes_realizes hfit) hfinal
  · exact ⟨_, run_of_realizes getBytesSize_realizes hfinal, hfit.toNat_length⟩
  · intro i h1 hi
    have hle : i.toNat ≤ last.toNat := le_trans hi hfit.2
    rw [hword i (BitVec.le_def.mpr hle), byteWords, if_neg (by omega)]
  · intro i hi hpast
    rw [hword i hi]
    exact byteWords_of_past hpast
  -- After a clear the last string is empty, and so are all slots.
  · intro hempty key hkey
    rw [hempty, byteWords_nil] at hfinal
    exact hfinal.zero_of_zero hkey
  · intro other key hapart
    exact hfinal.getByKey_eq hapart

end

section
attribute [local instance] sampleHash

/-- A string of 40 bytes and then one of two bytes, in the root of an account. -/
theorem bytes_roundtrip_sample :
    World.run sampleRoot.getBytes
        (runOps World.handle (BytesEdit.program sampleRoot)
          [.set (List.replicate 40 7), .set [1, 2]] World.blank).2
      = (.ok [1, 2], (runOps World.handle (BytesEdit.program sampleRoot)
          [.set (List.replicate 40 7), .set [1, 2]] World.blank).2) :=
  (bytes_roundtrip (show Set.InjOn sampleRoot.mapAddress {i | i ≤ 2} from
      sampleRoot_mapAddress_injective.injOn) World.blank
    (fun _ _ => rfl) [.set (List.replicate 40 7), .set [1, 2]]
    (by simp [BytesEdit.result])).2.1

end

end Storage

end ArbReth
