import ArbReth.Precompiles.Dispatch
import ArbReth.Proofs.Precompiles.ArbSys

/-!
# `ArbReth.Proofs.Precompiles.Dispatch`: the precompile answers the calls of its interface

`ArbSys.run_selector` finds the method of a selector, when no two methods have the same one.
`ArbSys.body_done_iff` says what the methods answer, and `ArbSys.run_done_iff` puts the two
together: an input has an answer when it is the encoding of an `ArbSysCall` that has one, with
any bytes behind it and enough gas, and the answer is one word. Every other input is an error.
-/

set_option autoImplicit false

namespace ArbReth

open ArbReth.Program ArbReth.BigEndian

/-! ### Words -/

/-- A word can be read back from its bytes. -/
theorem U256.fromBeBytes_toBeBytes (x : U256) : U256.fromBeBytes x.toBeBytes = x := by
  have hlt : x.toNat < 256 ^ 32 := x.isLt
  refine BitVec.eq_of_toNat_eq ?_
  rw [fromBeBytes, toBeBytes, beValue_beBytes_of_lt hlt, BitVec.toNat_ofNat]
  exact Nat.mod_eq_of_lt x.isLt

namespace ArbSys

/-- An address is a word of its number. -/
theorem encodeAddress_eq (addr : Address) :
    encodeAddress addr = U256.toBeBytes (BitVec.ofNat 256 addr.toNat) := by
  have hlt : addr.toNat < 256 ^ 20 := addr.isLt
  have hword : (BitVec.ofNat 256 addr.toNat).toNat = addr.toNat := by
    have hbits : addr.toNat < 2 ^ 256 := lt_trans addr.isLt (by norm_num)
    rw [BitVec.toNat_ofNat, Nat.mod_eq_of_lt hbits]
  have hsplit := beBytes_add 12 20 addr.toNat
  rw [Nat.div_eq_of_lt hlt, Nat.mod_eq_of_lt hlt] at hsplit
  rw [U256.toBeBytes, hword]
  show List.replicate 12 0 ++ beBytes 20 addr.toNat = beBytes (12 + 20) addr.toNat
  rw [hsplit, beBytes_zero]

/-- An address can be read back from its bytes. -/
theorem fromSlice_asSlice (addr : Address) : Address.fromSlice addr.asSlice = addr :=
  new_intoBytes addr

/-- Twenty bytes can be read back from their address. -/
theorem asSlice_fromSlice {bs : Bytes} (h : bs.length = 20) :
    (Address.fromSlice bs).asSlice = bs := by
  have hlt := beValue_lt bs
  have hround := beBytes_beValue bs
  rw [h] at hlt hround
  show beBytes 20 (BitVec.ofNat 160 (beValue bs)).toNat = bs
  rw [BitVec.toNat_ofNat, Nat.mod_eq_of_lt (lt_of_lt_of_eq hlt (by norm_num)), hround]

/-- A flag is encoded as the word zero or one. -/
theorem encodeBool_eq (val : Bool) :
    encodeBool val = U256.toBeBytes (if val then 1 else 0) := by
  cases val <;> decide +kernel

/-- The limbs above the lowest one are zero. -/
theorem u256ToU64_eq (val : U256) :
    u256ToU64 val = if val.toNat < 2 ^ 64 then .done (BitVec.ofNat 64 val.toNat)
      else .fail (.other "block number out of u64 range") := by
  have hlt := val.isLt
  have hlimb : ∀ start, val.extractLsb' start 64 = 0 ↔ val.toNat / 2 ^ start % 2 ^ 64 = 0 := by
    intro start
    rw [BitVec.toNat_eq, BitVec.extractLsb'_toNat, Nat.shiftRight_eq_div_pow]
    rfl
  have h64 := hlimb 64
  have h128 := hlimb 128
  have h192 := hlimb 192
  unfold u256ToU64
  by_cases hsmall : val.toNat < 2 ^ 64
  · have hzero : ¬(val.extractLsb' 64 64 ≠ 0 ∨ val.extractLsb' 128 64 ≠ 0
        ∨ val.extractLsb' 192 64 ≠ 0) := by
      rw [ne_eq, ne_eq, ne_eq, h64, h128, h192]
      omega
    rw [if_neg hzero, if_pos hsmall]
    have hlow : val.extractLsb' 0 64 = BitVec.ofNat 64 val.toNat := by
      refine BitVec.eq_of_toNat_eq ?_
      rw [BitVec.extractLsb'_toNat, BitVec.toNat_ofNat, Nat.shiftRight_zero]
    rw [hlow]
    rfl
  · have hlarge : val.extractLsb' 64 64 ≠ 0 ∨ val.extractLsb' 128 64 ≠ 0
        ∨ val.extractLsb' 192 64 ≠ 0 := by
      rw [ne_eq, ne_eq, ne_eq, h64, h128, h192]
      omega
    rw [if_pos hlarge, if_neg hsmall]

/-! ### Methods -/

/-- The program returns or fails. -/
def Settles {α : Type} (p : Exec PrecompileError α) : Prop :=
  (∃ a, p = .done a) ∨ ∃ e, p = .fail e

/-- The arguments `args` are those of a call of the method with any bytes behind it, and the
call has the answer `out`. -/
def Answers (ctx : ArbSysContext) (m : ArbSysMethod) (args : Bytes) (gasLimit : U64)
    (out : PrecompileOutput) : Prop :=
  ∃ (c : ArbSysCall) (rest : Bytes) (v : U256), c.method = m ∧ args = c.args ++ rest
    ∧ c.value ctx = some v ∧ c.cost ≤ gasLimit ∧ out = ⟨c.cost, v.toBeBytes⟩

/-- The program is the method: it answers the calls of the method, and settles. -/
structure Implements (ctx : ArbSysContext) (m : ArbSysMethod) (args : Bytes) (gasLimit : U64)
    (p : Exec PrecompileError PrecompileOutput) : Prop where
  done : ∀ out, p = .done out ↔ Answers ctx m args gasLimit out
  settles : Settles p

section
variable (ctx : ArbSysContext) (args : Bytes) (gasLimit : U64)

/-- A method without arguments has one call. -/
theorem respond_implements {m : ArbSysMethod} {c : ArbSysCall} {v : U256} {bytes : Bytes}
    (hmethod : ∀ c', c'.method = m ↔ c' = c) (hargs : c.args = []) (hvalue : c.value ctx = some v)
    (hbytes : bytes = v.toBeBytes) :
    Implements ctx m args gasLimit (respond c.cost gasLimit bytes) := by
  unfold respond
  by_cases hgas : gasLimit < c.cost
  · rw [if_pos hgas]
    refine ⟨fun out => ⟨(nomatch ·), ?_⟩, .inr ⟨_, rfl⟩⟩
    rintro ⟨c', rest, v', hc, -, -, hcost, -⟩
    rw [(hmethod c').mp hc] at hcost
    exact absurd hgas (BitVec.not_lt.mpr hcost)
  · rw [if_neg hgas, Prog.pure_eq_done]
    refine ⟨fun out => ⟨fun h => ?_, ?_⟩, .inl ⟨_, rfl⟩⟩
    · injection h with h
      refine ⟨c, args, v, (hmethod c).mpr rfl, ?_, hvalue, BitVec.not_lt.mp hgas, ?_⟩
      · rw [hargs, List.nil_append]
      · rw [← h, hbytes]
    · rintro ⟨c', rest, v', hc, -, hv, -, rfl⟩
      rw [(hmethod c').mp hc] at hv ⊢
      rw [hvalue] at hv
      injection hv with hv
      rw [hbytes, hv]

/-- A method that always fails has no call. -/
theorem fail_implements {m : ArbSysMethod} (hmethod : ∀ c : ArbSysCall, c.method ≠ m)
    (e : PrecompileError) : Implements ctx m args gasLimit (.fail e) where
  done := by
    intro out
    refine ⟨(nomatch ·), ?_⟩
    rintro ⟨c, rest, v, hc, -⟩
    exact absurd hc (hmethod c)
  settles := .inr ⟨e, rfl⟩

/-- The first word of the arguments, and what follows it. -/
theorem args_eq_word (hlen : 32 ≤ args.length) :
    args = (U256.fromBeBytes (args.take 32)).toBeBytes ++ args.drop 32 := by
  have htake : (args.take 32).length = 32 := by simp [hlen]
  rw [U256.toBeBytes_fromBeBytes htake, List.take_append_drop]

/-- Decoding reads the first word only. -/
theorem decodeU256_append (x : U256) (rest : Bytes) :
    decodeU256 (x.toBeBytes ++ rest) = .done x := by
  have hlen : ¬(x.toBeBytes ++ rest).length < 32 := by
    rw [List.length_append, U256.length_toBeBytes]
    omega
  have htake : (x.toBeBytes ++ rest).take 32 = x.toBeBytes :=
    List.take_left' x.length_toBeBytes
  rw [decodeU256, if_neg hlen, htake, U256.fromBeBytes_toBeBytes]
  rfl

/-- The block hash of a number in the window of the last 256 blocks. -/
theorem arbBlockHash_append (requested : U256) (rest : Bytes) (hgas : 20 ≤ gasLimit) :
    (∃ v, (ArbSysCall.arbBlockHash requested).value ctx = some v
        ∧ arbBlockHash ctx (requested.toBeBytes ++ rest) gasLimit = .done ⟨20, v.toBeBytes⟩)
      ∨ (ArbSysCall.arbBlockHash requested).value ctx = none
        ∧ ∃ e, arbBlockHash ctx (requested.toBeBytes ++ rest) gasLimit = .fail e := by
  have hhash : arbBlockHash ctx (requested.toBeBytes ++ rest) gasLimit
      = if ctx.blockNumber ≤ requested ∨ 256 < ctx.blockNumber - requested then
          .fail (.other "invalid block number for ArbBlockHash")
        else (u256ToU64 requested >>= fun reqU64 =>
          .done ⟨20, ((ctx.blockHash reqU64).getD 0).toBeBytes⟩) := by
    unfold arbBlockHash
    rw [if_neg (BitVec.not_lt.mpr hgas), decodeU256_append, Prog.bind_done]
    rfl
  have hwindow : (ctx.blockNumber ≤ requested ∨ 256 < ctx.blockNumber - requested)
      ↔ ¬(requested.toNat < ctx.blockNumber.toNat
        ∧ ctx.blockNumber.toNat ≤ requested.toNat + 256) := by
    have hwide : (256 : U256).toNat = 256 := rfl
    by_cases hle : ctx.blockNumber ≤ requested
    · have hnat := BitVec.le_def.mp hle
      exact ⟨fun _ h => absurd h.1 (by omega), fun _ => .inl hle⟩
    · have hlt := BitVec.lt_def.mp (BitVec.not_le.mp hle)
      rw [or_iff_right hle, BitVec.lt_def,
        BitVec.toNat_sub_of_le (BitVec.le_def.mpr (Nat.le_of_lt hlt)), hwide]
      omega
  rw [hhash]
  by_cases hout : ctx.blockNumber ≤ requested ∨ 256 < ctx.blockNumber - requested
  · refine .inr ⟨if_neg fun h => hwindow.mp hout ⟨h.1, h.2.1⟩, _, if_pos hout⟩
  · have hin := not_not.mp fun h => hout (hwindow.mpr h)
    rw [if_neg hout, u256ToU64_eq]
    by_cases hsmall : requested.toNat < 2 ^ 64
    · rw [if_pos hsmall]
      exact .inl ⟨_, if_pos ⟨hin.1, hin.2, hsmall⟩, rfl⟩
    · rw [if_neg hsmall]
      exact .inr ⟨if_neg fun h => hsmall h.2.2, _, rfl⟩

/-- Arguments without a whole word are those of no call that takes one. -/
theorem not_answers_of_short {m : ArbSysMethod} (hshort : args.length < 32)
    (hargs : ∀ c : ArbSysCall, c.method = m → 32 ≤ c.args.length) (out : PrecompileOutput) :
    ¬Answers ctx m args gasLimit out := by
  rintro ⟨c, rest, v, hc, rfl, -⟩
  have hlen := hargs c hc
  rw [List.length_append] at hshort
  omega

/-- `arbBlockHash` answers its call with one word for 20 gas, or fails. -/
theorem arbBlockHash_implements :
    Implements ctx .arbBlockHash args gasLimit (arbBlockHash ctx args gasLimit) := by
  have hcalls : ∀ c : ArbSysCall, c.method = .arbBlockHash → ∃ n, c = .arbBlockHash n := by
    intro c hc
    cases c with
    | arbBlockHash n => exact ⟨n, rfl⟩
    | _ => cases hc
  by_cases hgas : gasLimit < 20
  · have hrun : arbBlockHash ctx args gasLimit = .fail .outOfGas := by
      unfold arbBlockHash
      rw [if_pos hgas]
    rw [hrun]
    refine ⟨fun out => ⟨(nomatch ·), ?_⟩, .inr ⟨_, rfl⟩⟩
    rintro ⟨c, rest, v, hc, -, -, hcost, -⟩
    obtain ⟨n, rfl⟩ := hcalls c hc
    exact absurd hgas (BitVec.not_lt.mpr hcost)
  have hgas' := BitVec.not_lt.mp hgas
  by_cases hshort : args.length < 32
  · have hrun : arbBlockHash ctx args gasLimit = .fail (.other "invalid input length") := by
      unfold arbBlockHash
      rw [if_neg hgas, decodeU256, if_pos hshort]
      rfl
    rw [hrun]
    refine ⟨fun out => ⟨(nomatch ·), fun h => ?_⟩, .inr ⟨_, rfl⟩⟩
    refine absurd h (not_answers_of_short ctx args gasLimit hshort (fun c hc => ?_) out)
    obtain ⟨n, rfl⟩ := hcalls c hc
    exact (U256.length_toBeBytes n).ge
  -- the arguments are a word and its rest, and no other word begins them
  rw [args_eq_word args (by omega)]
  generalize U256.fromBeBytes (args.take 32) = requested
  have hunique : ∀ n rest, requested.toBeBytes ++ args.drop 32 = U256.toBeBytes n ++ rest →
      n = requested := by
    intro n rest h
    have hword := (List.append_inj h (by simp)).1
    exact (U256.toBeBytes_inj.mp hword).symm
  rcases arbBlockHash_append ctx gasLimit requested (args.drop 32) hgas' with
    ⟨v, hv, hrun⟩ | ⟨hnone, e, hrun⟩
  · rw [hrun]
    refine ⟨fun out => ⟨fun h => ?_, ?_⟩, .inl ⟨_, rfl⟩⟩
    · injection h with h
      exact ⟨.arbBlockHash requested, args.drop 32, v, rfl, rfl, hv, hgas', h.symm⟩
    · rintro ⟨c, rest, v', hc, hargs, hv', -, rfl⟩
      obtain ⟨n, rfl⟩ := hcalls c hc
      rw [hunique n rest hargs, hv] at hv'
      injection hv' with hv'
      rw [hv']
      rfl
  · rw [hrun]
    refine ⟨fun out => ⟨(nomatch ·), ?_⟩, .inr ⟨_, rfl⟩⟩
    rintro ⟨c, rest, v', hc, hargs, hv', -, -⟩
    obtain ⟨n, rfl⟩ := hcalls c hc
    rw [hunique n rest hargs, hnone] at hv'
    cases hv'

/-- The number of the offset. -/
theorem aliasOffset_toNat : aliasOffset.toNat = 0x1111000000000000000000000000000000001111 := rfl

/-- The alias of any twelve bytes and an address. -/
theorem mapL1SenderToL2Alias_append (padding : Vector UInt8 12) (sender : Address) (rest : Bytes) :
    mapL1SenderToL2Alias (padding.toList ++ sender.asSlice ++ rest) gasLimit = .done ⟨0,
      U256.toBeBytes (BitVec.ofNat 256
        ((sender.toNat + 0x1111000000000000000000000000000000001111) % 2 ^ 160))⟩ := by
  have hslice : sender.asSlice.length = 20 := length_beBytes 20 sender.toNat
  have hpadding : padding.toList.length = 12 := padding.length_toList
  have hlen : (padding.toList ++ sender.asSlice).length = 32 := by
    rw [List.length_append, hpadding, hslice]
  have hnot : ¬(padding.toList ++ sender.asSlice ++ rest).length < 32 := by
    rw [List.length_append, hlen]
    omega
  have hword : ((padding.toList ++ sender.asSlice ++ rest).take 32).drop 12 = sender.asSlice := by
    rw [List.take_left' hlen]
    exact List.drop_left' hpadding
  have hgas : ¬gasLimit < 0 := BitVec.not_lt_zero
  have hsum : (sender + aliasOffset).toNat
      = (sender.toNat + 0x1111000000000000000000000000000000001111) % 2 ^ 160 := by
    rw [BitVec.toNat_add, aliasOffset_toNat]
  rw [mapL1SenderToL2Alias, if_neg hgas, decodeAddress, if_neg hnot, hword, fromSlice_asSlice,
    Prog.pure_eq_done, Prog.bind_done, applyL1ToL2Alias_eq, Prog.bind_done, Prog.pure_eq_done,
    encodeAddress_eq, hsum]

/-- The first word of the arguments as some padding and an address. -/
theorem args_eq_address (hlen : 32 ≤ args.length) :
    ∃ (padding : Vector UInt8 12) (sender : Address) (rest : Bytes),
      args = padding.toList ++ sender.asSlice ++ rest := by
  have hpadding : (args.take 12).length = 12 := by simp; omega
  have hsender : ((args.drop 12).take 20).length = 20 := by simp; omega
  refine ⟨⟨(args.take 12).toArray, hpadding⟩, Address.fromSlice ((args.drop 12).take 20),
    args.drop 32, ?_⟩
  have hdrop : args.drop 32 = (args.drop 12).drop 20 := by rw [List.drop_drop]
  rw [asSlice_fromSlice hsender, hdrop, List.append_assoc, List.take_append_drop]
  show args = args.take 12 ++ args.drop 12
  rw [List.take_append_drop]

/-- `mapL1SenderToL2Alias` answers the sender with the offset added. -/
theorem mapL1SenderToL2Alias_implements :
    Implements ctx .mapL1SenderContractAddressToL2Alias args gasLimit
      (mapL1SenderToL2Alias args gasLimit) := by
  have hcalls : ∀ c : ArbSysCall, c.method = .mapL1SenderContractAddressToL2Alias →
      ∃ padding sender, c = .mapL1SenderContractAddressToL2Alias padding sender := by
    intro c hc
    cases c with
    | mapL1SenderContractAddressToL2Alias padding sender => exact ⟨padding, sender, rfl⟩
    | _ => cases hc
  have hlength : ∀ (padding : Vector UInt8 12) (sender : Address),
      (ArbSysCall.mapL1SenderContractAddressToL2Alias padding sender).args.length = 32 := by
    intro padding sender
    show (padding.toList ++ sender.asSlice).length = 32
    have hslice : sender.asSlice.length = 20 := length_beBytes 20 sender.toNat
    rw [List.length_append, padding.length_toList, hslice]
  by_cases hshort : args.length < 32
  · rw [mapL1SenderToL2Alias_short gasLimit hshort]
    refine ⟨fun out => ⟨(nomatch ·), fun h => ?_⟩, .inr ⟨_, rfl⟩⟩
    refine absurd h (not_answers_of_short ctx args gasLimit hshort (fun c hc => ?_) out)
    obtain ⟨padding, sender, rfl⟩ := hcalls c hc
    exact (hlength padding sender).ge
  obtain ⟨padding, sender, rest, rfl⟩ := args_eq_address args (by omega)
  rw [mapL1SenderToL2Alias_append]
  refine ⟨fun out => ⟨fun h => ?_, ?_⟩, .inl ⟨_, rfl⟩⟩
  · injection h with h
    exact ⟨.mapL1SenderContractAddressToL2Alias padding sender, rest, _, rfl, rfl, rfl,
      BitVec.not_lt.mp BitVec.not_lt_zero, h.symm⟩
  · rintro ⟨c, rest', v', hc, hargs', hv', -, rfl⟩
    obtain ⟨padding', sender', rfl⟩ := hcalls c hc
    have hword := (List.append_inj hargs' (by
      rw [hlength]
      exact hlength padding sender)).1
    have hsame : sender' = sender := by
      have hslices := (List.append_inj hword (by
        rw [padding.length_toList, padding'.length_toList])).2
      rw [← fromSlice_asSlice sender', ← hslices, fromSlice_asSlice]
    rw [hsame] at hv'
    injection hv' with hv'
    rw [← hv']
    rfl

/-- The destination is decoded first, but no destination leads to an answer. -/
theorem withdrawEth_fails : ∃ e, withdrawEth args = .fail e := by
  unfold withdrawEth decodeAddress
  split
  · exact ⟨_, rfl⟩
  · exact ⟨_, rfl⟩

/-! ### Dispatch -/

/-- The method on its arguments. -/
def body : ArbSysMethod → Exec PrecompileError PrecompileOutput
  | .arbBlockNumber => arbBlockNumber ctx gasLimit
  | .arbBlockHash => arbBlockHash ctx args gasLimit
  | .arbChainID => arbChainId ctx gasLimit
  | .arbOSVersion => arbOsVersion gasLimit
  | .getStorageGasAvailable => getStorageGasAvailable gasLimit
  | .isTopLevelCall => isTopLevelCall ctx gasLimit
  | .mapL1SenderContractAddressToL2Alias => mapL1SenderToL2Alias args gasLimit
  | .wasMyCallersAddressAliased => wasMyCallersAliased
  | .myCallersAddressWithoutAliasing => myCallersWithoutAliasing
  | .sendTxToL1 => sendTxToL1
  | .sendMerkleTreeState => sendMerkleTreeState
  | .withdrawEth => withdrawEth args

/-- Every method answers its calls and fails on the rest. -/
theorem body_implements (m : ArbSysMethod) :
    Implements ctx m args gasLimit (body ctx args gasLimit m) := by
  -- a method without arguments has one call
  have hcall : ∀ c₀ : ArbSysCall, c₀.args = [] → ∀ c, c.method = c₀.method ↔ c = c₀ := by
    intro c₀ h₀ c
    refine ⟨fun h => ?_, fun h => h ▸ rfl⟩
    cases c₀ with
    | arbBlockHash n => exact absurd (congrArg List.length h₀) (by simp [ArbSysCall.args])
    | mapL1SenderContractAddressToL2Alias padding sender =>
        exact absurd (congrArg List.length h₀) (by simp [ArbSysCall.args])
    | _ => cases c <;> first | rfl | cases h
  cases m with
  | arbBlockNumber =>
      exact respond_implements ctx args gasLimit (hcall .arbBlockNumber rfl) rfl rfl rfl
  | arbBlockHash => exact arbBlockHash_implements ctx args gasLimit
  | arbChainID => exact respond_implements ctx args gasLimit (hcall .arbChainID rfl) rfl rfl rfl
  | arbOSVersion =>
      exact respond_implements ctx args gasLimit (hcall .arbOSVersion rfl) rfl rfl rfl
  | getStorageGasAvailable =>
      exact respond_implements ctx args gasLimit (hcall .getStorageGasAvailable rfl) rfl rfl rfl
  | isTopLevelCall =>
      refine respond_implements ctx args gasLimit (hcall .isTopLevelCall rfl) rfl rfl ?_
      rw [encodeBool_eq]
      have hdepth : ctx.depth ≤ 2 ↔ ctx.depth.toNat ≤ 2 := BitVec.le_def
      simp only [decide_eq_true_eq, hdepth]
  | mapL1SenderContractAddressToL2Alias => exact mapL1SenderToL2Alias_implements ctx args gasLimit
  | wasMyCallersAddressAliased =>
      exact fail_implements ctx args gasLimit (fun c => by cases c <;> simp [ArbSysCall.method]) _
  | myCallersAddressWithoutAliasing =>
      exact fail_implements ctx args gasLimit (fun c => by cases c <;> simp [ArbSysCall.method]) _
  | sendTxToL1 =>
      exact fail_implements ctx args gasLimit (fun c => by cases c <;> simp [ArbSysCall.method]) _
  | sendMerkleTreeState =>
      exact fail_implements ctx args gasLimit (fun c => by cases c <;> simp [ArbSysCall.method]) _
  | withdrawEth =>
      obtain ⟨e, hfail⟩ := withdrawEth_fails args
      show Implements ctx .withdrawEth args gasLimit (withdrawEth args)
      rw [hfail]
      exact fail_implements ctx args gasLimit (fun c => by cases c <;> simp [ArbSysCall.method]) e

variable [Keccak]

/-- A selector has four bytes. -/
theorem length_selector (m : ArbSysMethod) : m.selector.length = 4 := by
  rw [ArbSysMethod.selector, List.length_take, Vector.length_toList]
  rfl

/-- The selector leads to its method, when no two methods have the same one. -/
theorem run_selector (hsel : Function.Injective ArbSysMethod.selector) (m : ArbSysMethod) :
    run ctx (m.selector ++ args) gasLimit = body ctx args gasLimit m := by
  have hlen := length_selector m
  have hnot : ¬(m.selector ++ args).length < 4 := by
    rw [List.length_append, hlen]
    omega
  have htake : (m.selector ++ args).take 4 = m.selector := List.take_left' hlen
  have hdrop : (m.selector ++ args).drop 4 = args := List.drop_left' hlen
  unfold run
  rw [if_neg hnot]
  simp only [htake, hdrop, hsel.eq_iff]
  cases m <;> rfl

/-- An input that begins with no selector is refused. -/
theorem run_refused {input : Bytes} (h : ∀ m : ArbSysMethod, input.take 4 ≠ m.selector) :
    ∃ e, run ctx input gasLimit = .fail e := by
  unfold run
  by_cases hshort : input.length < 4
  · exact ⟨_, if_pos hshort⟩
  · rw [if_neg hshort]
    simp only [if_neg (h _)]
    exact ⟨_, rfl⟩

/-- The precompile answers the calls of its interface, and nothing else. The input of an answer
is the encoding of a call with any bytes behind it. The answer is the number of the call as one
word, for the gas of the call. Every other input is an error, and none is a panic. -/
theorem run_done_iff (hsel : Function.Injective ArbSysMethod.selector) (input : Bytes) :
    (∀ out, run ctx input gasLimit = .done out ↔
        ∃ (c : ArbSysCall) (rest : Bytes) (v : U256), input = c.encode ++ rest
          ∧ c.value ctx = some v ∧ c.cost ≤ gasLimit ∧ out = ⟨c.cost, v.toBeBytes⟩)
      ∧ ((∃ out, run ctx input gasLimit = .done out) ∨ ∃ e, run ctx input gasLimit = .fail e) := by
  by_cases hfound : ∃ m : ArbSysMethod, input.take 4 = m.selector
  · obtain ⟨m, hm⟩ := hfound
    have hinput : input = m.selector ++ input.drop 4 := by rw [← hm, List.take_append_drop]
    generalize input.drop 4 = args at hinput
    subst hinput
    rw [run_selector ctx args gasLimit hsel]
    have himpl := body_implements ctx args gasLimit m
    refine ⟨fun out => (himpl.done out).trans ⟨?_, ?_⟩, himpl.settles⟩
    · rintro ⟨c, rest, v, rfl, rfl, hv, hcost, hout⟩
      exact ⟨c, rest, v, (List.append_assoc ..).symm, hv, hcost, hout⟩
    · rintro ⟨c, rest, v, hencode, hv, hcost, hout⟩
      rw [ArbSysCall.encode, List.append_assoc] at hencode
      obtain ⟨hselector, hargs⟩ := List.append_inj hencode (by
        rw [length_selector, length_selector])
      exact ⟨c, rest, v, (hsel hselector).symm, hargs, hv, hcost, hout⟩
  · obtain ⟨e, hrun⟩ := run_refused ctx gasLimit fun m hm => hfound ⟨m, hm⟩
    rw [hrun]
    refine ⟨fun out => ⟨(nomatch ·), ?_⟩, .inr ⟨e, rfl⟩⟩
    rintro ⟨c, rest, v, rfl, -⟩
    refine absurd ⟨c.method, ?_⟩ hfound
    rw [ArbSysCall.encode, List.append_assoc]
    exact List.take_left' (length_selector c.method)

end

end ArbSys

namespace ArbSysMethod

/-- All methods. -/
def all : List ArbSysMethod :=
  [.arbBlockNumber, .arbBlockHash, .arbChainID, .arbOSVersion, .getStorageGasAvailable,
    .isTopLevelCall, .mapL1SenderContractAddressToL2Alias, .wasMyCallersAddressAliased,
    .myCallersAddressWithoutAliasing, .sendTxToL1, .sendMerkleTreeState, .withdrawEth]

/-- The hash of the signature. -/
def digest : ArbSysMethod → U256
  | .arbBlockNumber =>
      0xa3b1b31d0ae8ef96b8db4dafa7d7b1edf2b83191701b2da809c3104b976c2ae1
  | .arbBlockHash =>
      0x2b407a82a2878a670ad2b503ff28a6cabe2736fe1a585ba90713172238ffe901
  | .arbChainID =>
      0xd127f54a8af81620713eb4bd0db59566b9913d8587c36f830d50f7daccac93d7
  | .arbOSVersion =>
      0x051038f2a0545055dcbd15cf64a0692d325ed8a3769ec299598bcbfda6ce11f8
  | .getStorageGasAvailable =>
      0xa94597ff705ddfafdfa9ff72483045716ffce36fd7339872e697225c12ce164f
  | .isTopLevelCall =>
      0x08bd624c942be4b34d86b26a44fe52c8db4e43e494a5437d9ce1d0bb7f25db59
  | .mapL1SenderContractAddressToL2Alias =>
      0x4dbbd506895c79d6fa91c207ca0bc7e98de51105ba95137095504b218d35d50d
  | .wasMyCallersAddressAliased =>
      0x175a260b57e75bbea14529def61be0272c1d333345962d523c6beb1af0a33ac5
  | .myCallersAddressWithoutAliasing =>
      0xd74523b3bcc500ceb9d3fb4fc8494fd73b715629bfb69b873514d632a5ec6e55
  | .sendTxToL1 =>
      0x928c169a5115fbb912e27165d92c50d19f4125b248e30f6bd121242b7c3e5fdb
  | .sendMerkleTreeState =>
      0x7aeecd2af733425a2abecac7516b54ac9c22c4e167d739803ceeef8bab9eda7d
  | .withdrawEth =>
      0x25e16063a2bfaa8040ea992ef7c6ffa463d0745d806b67292e6fdb9134428dac

/-- The hash on the signatures. Elsewhere it is zero. -/
@[reducible] def signatureHash : Keccak where
  keccak256 bytes :=
    let hash := match all.find? fun m => m.signatureBytes = bytes with
      | some m => m.digest
      | none => 0
    ⟨hash.toBeBytes.toArray, hash.length_toBeBytes⟩

attribute [local instance] signatureHash

/-- A selector is the top of the digest of its signature. -/
theorem beValue_selector (m : ArbSysMethod) :
    beValue m.selector = m.digest.toNat / 2 ^ 224 := by
  cases m <;> decide +kernel

/-- No two methods have one selector. -/
theorem signatureHash_selector_injective : Function.Injective selector := by
  intro m m' h
  have hnumber : m.digest.toNat / 2 ^ 224 = m'.digest.toNat / 2 ^ 224 := by
    rw [← beValue_selector, ← beValue_selector, h]
  revert hnumber
  cases m <;> cases m' <;> decide +kernel

end ArbSysMethod

namespace ArbSys
attribute [local instance] ArbSysMethod.signatureHash

/-- The hash of block 7 at block 9, with two bytes behind the call. -/
def sampleInput : Bytes := (ArbSysCall.arbBlockHash 7).encode ++ [1, 2]

/-- A context with a block hash to ask for. -/
def sampleContext : ArbSysContext where
  blockNumber := 9
  chainId := 42161
  depth := 1
  blockHash n := if n = 7 then some 0xabc else none

/-- A call with a gas limit that covers its cost exactly. -/
theorem run_done_iff_sample :
    (∀ out, run sampleContext sampleInput 20 = .done out ↔
        ∃ (c : ArbSysCall) (rest : Bytes) (v : U256), sampleInput = c.encode ++ rest
          ∧ c.value sampleContext = some v ∧ c.cost ≤ 20 ∧ out = ⟨c.cost, v.toBeBytes⟩)
      ∧ ((∃ out, run sampleContext sampleInput 20 = .done out)
        ∨ ∃ e, run sampleContext sampleInput 20 = .fail e) :=
  run_done_iff sampleContext 20 ArbSysMethod.signatureHash_selector_injective sampleInput

example : run sampleContext sampleInput 20 = .done ⟨20, U256.toBeBytes 0xabc⟩ := by
  rfl

end ArbSys

end ArbReth
