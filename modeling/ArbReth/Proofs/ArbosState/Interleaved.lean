import ArbReth.Program.Interleave
import ArbReth.Proofs.ArbosState.Sample

/-!
# `ArbReth.Proofs.ArbosState.Interleaved`: the components do not interfere

`Component.Represents` says that a world represents an abstract state of a component. It
depends on the footprint of the component only (`Component.represents_of_agreeOn`). Each call
ends as on the abstract state of its component, and it reaches the footprint of its component
only. The footprints are disjoint, so a call keeps what the other components represent.

`ArbosState.components_interleaved` is the run of any sequence of calls of all components,
after the initialization of the two pricers in a blank store.
-/

set_option autoImplicit false

namespace ArbReth

open ArbReth.Program

/-! ### Calls on cells -/

/-- The slot holds the number. -/
structure HoldsUint64 (slot : StorageSlot) (w : World) (v : U64) : Prop where
  word : w.store slot.account slot.slot = U256.ofU64 v
  writable : w.readOnly = false

/-- The slot holds the address, in the low 20 bytes of its word. -/
structure HoldsAddress (slot : StorageSlot) (w : World) (a : Address) : Prop where
  word : Address.ofWord (w.store slot.account slot.slot) = a
  writable : w.readOnly = false

section
variable {slot : StorageSlot}

/-- A write to the cell holds the new number. -/
theorem HoldsUint64.write {w : World} {v : U64} (h : HoldsUint64 slot w v) (v' : U64) :
    HoldsUint64 slot (w.write slot.account slot.slot (U256.ofU64 v')) v' where
  word := by simp [World.store_write]
  writable := h.writable

/-- A call of a 64-bit cell realizes what it does to the number. -/
theorem Uint64Call.program_realizes (c : Uint64Call) (v : U64) :
    Realizes World.handle (HoldsUint64 slot) (c.program ⟨slot⟩) v (c.apply v).1 (c.apply v).2 := by
  have hset : ∀ v' : U64, Realizes World.handle (HoldsUint64 slot)
      (StorageBackedUint64.set ⟨slot⟩ v') v (.ok ()) v' := by
    intro v' w hw
    exact ⟨_, StorageBackedUint64.run_set _ hw.writable v', hw.write v'⟩
  cases c with
  | get =>
      refine Exec.reply_realizes (r := .ok v) _ _ ?_
      intro w hw
      exact ⟨w, StorageBackedUint64.run_get _ hw.word, hw⟩
  | set value => exact Exec.reply_realizes _ _ (hset value)
  | clear => exact Exec.reply_realizes _ _ (hset 0)
  | increment =>
      by_cases hv : v = BitVec.allOnes 64
      · simp only [apply, if_pos hv]
        refine Exec.reply_realizes (r := .panic "Overflow in StorageBackedUint64::Increment") _ _ ?_
        intro w hw
        refine ⟨w, ?_, hw⟩
        rw [StorageBackedUint64.increment, ← World.run, World.run_bind,
          StorageBackedUint64.run_get _ hw.word]
        simp only [if_pos hv]
        rfl
      · simp only [apply, if_neg hv]
        refine Exec.reply_realizes (r := .ok (v + 1)) _ _ ?_
        intro w hw
        exact ⟨_, StorageBackedUint64.run_increment _ hw.writable hw.word
          (U64.toNat_add_one_lt hv), hw.write _⟩
  | decrement =>
      by_cases hv : v = 0
      · simp only [apply, if_pos hv]
        refine Exec.reply_realizes
          (r := .panic "Underflow in StorageBackedUint64::Decrement") _ _ ?_
        intro w hw
        refine ⟨w, ?_, hw⟩
        rw [StorageBackedUint64.decrement, ← World.run, World.run_bind,
          StorageBackedUint64.run_get _ hw.word]
        simp only [if_pos hv]
        rfl
      · simp only [apply, if_neg hv]
        refine Exec.reply_realizes (r := .ok (v - 1)) _ _ ?_
        intro w hw
        exact ⟨_, StorageBackedUint64.run_decrement _ hw.writable hw.word hv, hw.write _⟩

/-- A call of an address cell realizes what it does to the address. -/
theorem AddressCall.program_realizes (c : AddressCall) (a : Address) :
    Realizes World.handle (HoldsAddress slot) (c.program ⟨slot⟩) a (c.apply a).1 (c.apply a).2 := by
  cases c with
  | get =>
      refine Exec.reply_realizes (r := .ok a) _ _ ?_
      intro w hw
      exact ⟨w, StorageBackedAddress.run_get _ hw.word, hw⟩
  | set val =>
      refine Exec.reply_realizes (r := .ok ()) _ _ ?_
      intro w hw
      refine ⟨_, slot.run_set hw.writable val.intoWord, ?_, hw.writable⟩
      show Address.ofWord _ = val
      simp [World.store_write]

/-- A call of a 64-bit cell keeps to its slot. -/
theorem Uint64Call.program_keepsTo {F : Footprint} (h : F.slots slot.account slot.slot)
    (c : Uint64Call) : KeepsTo F (c.program ⟨slot⟩) := by
  cases c with
  | get => exact (StorageBackedUint64.get_keepsTo h).dbReply _
  | set value => exact (StorageBackedUint64.set_keepsTo h value).dbReply _
  | clear => exact (StorageBackedUint64.set_keepsTo h 0).dbReply _
  | increment => exact (StorageBackedUint64.increment_keepsTo h).dbReply _
  | decrement => exact (StorageBackedUint64.decrement_keepsTo h).dbReply _

/-- A call of an address cell keeps to its slot. -/
theorem AddressCall.program_keepsTo {F : Footprint} (h : F.slots slot.account slot.slot)
    (c : AddressCall) : KeepsTo F (c.program ⟨slot⟩) := by
  cases c with
  | get => exact (StorageBackedAddress.get_keepsTo h).dbReply _
  | set val => exact (StorageSlot.set_keepsTo h _).dbReply _

end

namespace Component
variable [Keccak]

/-! ### What a world represents -/

/-- The world represents the state of the component. The posters are accounts of `A`. -/
def Represents (root : Storage) (A : Set Address) : (c : Component) → World → c.State → Prop
  | .upgradeVersion, w, v => HoldsUint64 (root.newSlot upgradeVersionOffset) w v
  | .upgradeTimestamp, w, v => HoldsUint64 (root.newSlot upgradeTimestampOffset) w v
  | .networkFeeAccount, w, a => HoldsAddress (root.newSlot networkFeeAccountOffset) w a
  | .l1Pricing, w, L => L1Pricing.Represents (l1PricingSpace root) A w L
  | .l2Pricing, w, R => L2Pricing.Represents (l2PricingSpace root) w w R
  | .multiGasFees, w, fees =>
      MultiGasFees.Represents ((l2PricingSpace root).openSubStorage multiGasBaseFeesKey) w w fees

/-- A call that writes the record of an account writes one of `A`. -/
def Among (A : Set Address) : (c : Component) → c.Call → Prop
  | .l1Pricing, call => L1Call.Among A call
  | _, _ => True

section
variable {root : Storage} {A : Set Address}

/-- The slots of a key are in the footprint of its component. -/
theorem footprint_slot (k : ArbosKey) :
    (k.component.footprint root).slots root.account ((ArbosState.layout root).slot k) :=
  ⟨rfl, k, rfl, rfl⟩

/-- What a world represents depends on the footprint only. -/
theorem represents_of_agreeOn {c : Component} {w w' : World} {t : c.State}
    (hagree : World.AgreeOn (c.footprint root) w w') (h : Represents root A c w t) :
    Represents root A c w' t := by
  cases c with
  | upgradeVersion =>
      have hslot := hagree.store _ _ (footprint_slot .upgradeVersion)
      exact ⟨hslot.trans h.word, hagree.readOnly.trans h.writable⟩
  | upgradeTimestamp =>
      have hslot := hagree.store _ _ (footprint_slot .upgradeTimestamp)
      exact ⟨hslot.trans h.word, hagree.readOnly.trans h.writable⟩
  | networkFeeAccount =>
      have hslot := hagree.store _ _ (footprint_slot .networkFeeAccount)
      exact ⟨(congrArg Address.ofWord hslot).trans h.word, hagree.readOnly.trans h.writable⟩
  | l1Pricing =>
      have hread : ∀ k, (L1Pricing.layout (l1PricingSpace root)).read w' k
          = (L1Pricing.layout (l1PricingSpace root)).read w k := fun k =>
        hagree.store _ _ (footprint_slot (.l1Pricing k))
      refine ⟨hagree.readOnly.trans h.writable, h.among,
        (hagree.balance rfl).trans h.balance, ?_, ?_⟩
      · intro s
        rw [hread]
        exact h.scalar s
      · intro k
        rw [hread]
        exact h.table k
  | l2Pricing =>
      refine ⟨Layout.Shows.of_agree h.words (fun k => ?_) hagree.readOnly, h.gas_lt, h.multiGas_lt⟩
      exact hagree.store _ _ (footprint_slot (.l2Pricing k))
  | multiGasFees =>
      refine Layout.Shows.of_agree h (fun k => ?_) hagree.readOnly
      exact hagree.store _ _ (footprint_slot (.multiGasFees k))

/-! ### One call -/

/-- Each call in bounds ends as on the state of its component. -/
theorem program_realizes (hslots : (ArbosState.layout root).Apart (ArbosKey.Among A))
    (version : U64) (c : Component) (t : c.State) (call : c.Call) (hcall : c.InBounds t call)
    (hamong : c.Among A call) :
    Realizes World.handle (Represents root A c) (c.program (ArbosState.open root version) call) t
      (c.apply version call t).1 (c.apply version call t).2 := by
  cases c with
  | upgradeVersion => exact Uint64Call.program_realizes call t
  | upgradeTimestamp => exact Uint64Call.program_realizes call t
  | networkFeeAccount => exact AddressCall.program_realizes call t
  | l1Pricing =>
      exact L1Pricing.call_realizes (ArbosState.l1Pricing_apart hslots) version t hamong
  | l2Pricing =>
      intro w hw
      obtain ⟨w', hrun, hw'⟩ := L2Pricing.call_realizes (ArbosState.l2Pricing_injective hslots)
        t call hcall w hw
      exact ⟨w', hrun, hw'.words.shows, hw'.gas_lt, hw'.multiGas_lt⟩
  | multiGasFees =>
      intro w hw
      obtain ⟨w', hrun, hw'⟩ := MultiGasFees.feeCall_realizes
        (ArbosState.multiGasFees_injective hslots) t call w hw
      exact ⟨w', hrun, hw'.shows⟩

/-- What keeps to the L1 pricer keeps to its component. -/
theorem l1Pricing_keepsTo {ε α : Type} [DbErrors ε] {p : Exec ε α}
    (h : KeepsTo (L1Pricing.footprint (l1PricingSpace root)) p) :
    KeepsTo (footprint root .l1Pricing) p := by
  refine h.mono_footprint ?_ fun _ => rfl
  rintro a slot ⟨rfl, k, rfl⟩
  exact ⟨rfl, .l1Pricing k, rfl, rfl⟩

/-- What keeps to the L2 pricer keeps to its component. -/
theorem l2Pricing_keepsTo {ε α : Type} [DbErrors ε] {p : Exec ε α}
    (h : KeepsTo (L2Pricing.footprint (l2PricingSpace root)) p) :
    KeepsTo (footprint root .l2Pricing) p := by
  refine h.mono_footprint ?_ fun hno => hno.elim
  rintro a slot ⟨rfl, k, rfl⟩
  exact ⟨rfl, .l2Pricing k, rfl, rfl⟩

/-- What keeps to the multi-gas fees keeps to their component. -/
theorem multiGasFees_keepsTo {ε α : Type} [DbErrors ε] {p : Exec ε α}
    (h : KeepsTo
      (MultiGasFees.footprint ((l2PricingSpace root).openSubStorage multiGasBaseFeesKey)) p) :
    KeepsTo (footprint root .multiGasFees) p := by
  refine h.mono_footprint ?_ fun hno => hno.elim
  rintro a slot ⟨rfl, k, rfl⟩
  exact ⟨rfl, .multiGasFees k, rfl, rfl⟩

/-- A call reaches the footprint of its component only. -/
theorem program_keepsTo (version : U64) (c : Component) (call : c.Call) :
    KeepsTo (c.footprint root) (c.program (ArbosState.open root version) call) := by
  cases c with
  | upgradeVersion => exact Uint64Call.program_keepsTo (footprint_slot .upgradeVersion) call
  | upgradeTimestamp => exact Uint64Call.program_keepsTo (footprint_slot .upgradeTimestamp) call
  | networkFeeAccount => exact AddressCall.program_keepsTo (footprint_slot .networkFeeAccount) call
  | l1Pricing => exact l1Pricing_keepsTo (L1Pricing.call_keepsTo call)
  | l2Pricing => exact l2Pricing_keepsTo (L2Pricing.call_keepsTo call)
  | multiGasFees => exact multiGasFees_keepsTo (MultiGasFees.feeCall_keepsTo call)

/-- Every call of every component, on every context, also one whose database fails at any
time. It reaches the slots of its own component only, and the balances only for the L1
pricer. When a command fails, it is the last one, and the call reports its error. The call
reports an error of the database in no other case. -/
theorem call_failures {σ : Type} (h : Handler Resp σ) (version : U64) (c : Component)
    (call : c.Call) (s : σ) :
    let p := c.program (ArbosState.open root version) call
    (∀ ev ∈ p.trace h s, (c.footprint root).Allows ev.1)
      ∧ (∀ before ev after e, p.trace h s = before ++ ev :: after → failure ev.1 ev.2 = some e →
          after = [] ∧ (p.exec h s).1 = .err (.db e))
      ∧ ∀ e, (p.exec h s).1 = .err (.db e) →
          ∃ before ev, p.trace h s = before ++ [ev] ∧ failure ev.1 ev.2 = some e := by
  intro p
  have hp : KeepsTo (c.footprint root) p := program_keepsTo version c call
  refine ⟨hp.forall_mem_trace s, ?_, ?_⟩
  · intro before ev after e htrace hev
    exact hp.exec_of_failure htrace hev
  · intro e hrun
    rcases hp.failure_of_exec hrun with hown | ⟨before, ev, e', htrace, hev, heq⟩
    · exact absurd rfl (hown e)
    · injection heq with heq
      exact ⟨before, ev, htrace, by rw [hev, heq]⟩

/-- A program of one component keeps what the others represent. -/
theorem represents_other (hslots : (ArbosState.layout root).Apart (ArbosKey.Among A))
    {ε α : Type} [DbErrors ε] {p : Exec ε α} {c c' : Component} (hp : KeepsTo (c.footprint root) p)
    (hne : c ≠ c') {w : World} {t : c'.State} (h : Represents root A c' w t) :
    Represents root A c' (World.run p w).2 t :=
  represents_of_agreeOn ((hp.unchanged (.refl _ w)).agreeOn (disjoint hslots hne)) h

end

/-! ### The initialization -/

/-- The state of a component in a blank store. -/
def blank (balance : Address → U256) : (c : Component) → c.State
  | .upgradeVersion => (0 : U64)
  | .upgradeTimestamp => (0 : U64)
  | .networkFeeAccount => (0 : Address)
  | .l1Pricing => L1Ledger.fresh balance
  | .l2Pricing => L2Record.blank
  | .multiGasFees => BlockFees.blank

/-- The state of a component after the initialization of the pricers in a blank store. -/
def initial (balance : Address → U256) (initialRewardsRecipient : Address)
    (initialL1BaseFee : U256) : (c : Component) → c.State
  | .l1Pricing => L1Ledger.initial balance initialRewardsRecipient initialL1BaseFee
  | .l2Pricing => L2Record.blank.initialized
  | c => blank balance c

section
variable {root : Storage} {A : Set Address}

/-- A blank store represents the blank state of each component. -/
theorem represents_blank {w : World} (hw : w.readOnly = false)
    (hblank : ∀ k, (ArbosState.layout root).read w k = 0) (c : Component) :
    Represents root A c w (blank w.balance c) := by
  cases c with
  | upgradeVersion => exact ⟨hblank .upgradeVersion, hw⟩
  | upgradeTimestamp => exact ⟨hblank .upgradeTimestamp, hw⟩
  | networkFeeAccount =>
      have hslot := congrArg Address.ofWord (hblank .networkFeeAccount)
      exact ⟨hslot, hw⟩
  | l1Pricing => exact L1Pricing.represents_fresh hw fun k => hblank (.l1Pricing k)
  | l2Pricing => exact L2Pricing.represents_blank hw fun k => hblank (.l2Pricing k)
  | multiGasFees => exact MultiGasFees.represents_blank hw fun k => hblank (.multiGasFees k)

/-- The initialization of the pricers leaves the other components as they are. -/
theorem initializePricing_realizes (hslots : (ArbosState.layout root).Apart (ArbosKey.Among A))
    (hbatch : batchPosterAddress ∈ A) (balance : Address → U256)
    (initialRewardsRecipient : Address) (initialL1BaseFee : U256) :
    Realizes World.handle (Together (Represents root A))
      (initializePricing root initialRewardsRecipient initialL1BaseFee) (blank balance) (.ok ())
      (initial balance initialRewardsRecipient initialL1BaseFee) := by
  let first := Function.update (blank balance) .l1Pricing
    (initial balance initialRewardsRecipient initialL1BaseFee .l1Pricing)
  have hL1 : Realizes World.handle (Together (Represents root A))
      (initializeL1PricingState (l1PricingSpace root) initialRewardsRecipient initialL1BaseFee)
      (blank balance) (.ok ()) first := by
    refine realizes_together ?_ ?_
    · exact L1Pricing.initialize_realizes (ArbosState.l1Pricing_apart hslots) hbatch balance _ _
    · intro c hc w hw
      exact represents_other hslots (l1Pricing_keepsTo (L1Pricing.initialize_keepsTo _ _))
        (Ne.symm hc) (hw c)
  have hblank : first .l2Pricing = blank balance .l2Pricing := Function.update_of_ne (by decide) _ _
  have hL2 : Realizes World.handle (Together (Represents root A))
      (initializeL2PricingState (l2PricingSpace root)) first (.ok ()) (Function.update first
        .l2Pricing (initial balance initialRewardsRecipient initialL1BaseFee .l2Pricing)) := by
    refine realizes_together ?_ ?_
    · rw [hblank]
      intro w hw
      obtain ⟨w', hrun, hw'⟩ := L2Pricing.initialize_realizes
        (ArbosState.l2Pricing_injective hslots) L2Record.blank w hw
      exact ⟨w', hrun, hw'.words.shows, hw'.gas_lt, hw'.multiGas_lt⟩
    · intro c hc w hw
      exact represents_other hslots (l2Pricing_keepsTo L2Pricing.initialize_keepsTo) (Ne.symm hc)
        (hw c)
  have hend : Function.update first .l2Pricing
        (initial balance initialRewardsRecipient initialL1BaseFee .l2Pricing)
      = initial balance initialRewardsRecipient initialL1BaseFee := by
    funext c
    cases c with
    | l1Pricing =>
        rw [Function.update_of_ne (by decide)]
        exact Function.update_self _ _ _
    | l2Pricing => exact Function.update_self _ _ _
    | _ =>
        rw [Function.update_of_ne (by decide)]
        exact Function.update_of_ne (by decide) _ _
  rw [← hend]
  exact hL1.bind hL2

end

end Component

/-! ### Runs -/

namespace ArbosState
variable [Keccak]

/-- All slots of the state, and the balances. -/
def footprint (root : Storage) : Footprint := (layout root).footprint True

/-- What keeps to a component keeps to the state. -/
theorem keepsTo_of_component {root : Storage} {ε α : Type} [DbErrors ε] {p : Exec ε α}
    {c : Component} (h : KeepsTo (c.footprint root) p) : KeepsTo (footprint root) p := by
  refine h.mono_footprint ?_ fun _ => trivial
  rintro a slot ⟨rfl, k, -, rfl⟩
  exact ⟨rfl, k, rfl⟩

/-- The components do not interfere. After the initialization of the pricers in a blank
store, and in every sequence of calls of all components in any order, each component gives
the results that its own calls give on its own abstract state, and the store represents the
state that they lead to. The calls of the others do not matter. No slot outside the state
of ArbOS changes. `A` holds the accounts whose records the calls of the L1 pricer write. -/
theorem components_interleaved {root : Storage} {A : Set Address} (hroot : root.storageKey = [])
    (hcoll : NoCollisions root A) (hbatch : batchPosterAddress ∈ A) (version : U64)
    {start : World} (hwritable : start.readOnly = false)
    (hblank : ∀ k, (layout root).read start k = 0) (initialRewardsRecipient : Address)
    (initialL1BaseFee : U256) (calls : List (Sigma Component.Call))
    (hamong : ∀ c : Component, ∀ call ∈ opsOf c calls, c.Among A call)
    (hcalls : ∀ c : Component, AdmissibleOps (c.apply version) c.InBounds (opsOf c calls)
      (c.initial start.balance initialRewardsRecipient initialL1BaseFee)) :
    let init := World.run (initializePricing root initialRewardsRecipient initialL1BaseFee) start
    let final := runOps World.handle
      (fun call => call.1.program (ArbosState.open root version) call.2) calls init.2
    let spec (c : Component) := specOps (c.apply version) (opsOf c calls)
      (c.initial start.balance initialRewardsRecipient initialL1BaseFee)
    init.1 = .ok ()
      ∧ (∀ c : Component, resultsOf c calls final.1 = (spec c).1
          ∧ c.Represents root A final.2 (spec c).2)
      ∧ ∀ a slot, ¬(footprint root).slots a slot → final.2.store a slot = start.store a slot := by
  intro init final spec
  have hslots := slot_apart hroot hcoll
  obtain ⟨w₀, hrun, hw₀⟩ := Component.initializePricing_realizes hslots hbatch start.balance
    initialRewardsRecipient initialL1BaseFee start (Component.represents_blank hwritable hblank)
  have hinit : init = (.ok (), w₀) := hrun
  have hfinal : final = runOps World.handle
      (fun call => call.1.program (ArbosState.open root version) call.2) calls w₀ := by
    simp only [final, hinit]
  refine ⟨by rw [hinit], ?_, ?_⟩
  · have hruns := Program.interleaved
      (fun c t call hcall =>
        Component.program_realizes hslots version c t call hcall.1 hcall.2)
      (fun c call c' hne w t hw =>
        Component.represents_other hslots (Component.program_keepsTo version c call) (Ne.symm hne)
          (hw c'))
      calls w₀ _ hw₀ (fun c => (hcalls c).and (hamong c))
    rw [hfinal]
    exact hruns
  · have hframe : World.UnchangedOutside (footprint root) start final.2 := by
      have hstart : World.UnchangedOutside (footprint root) start init.2 := by
        refine KeepsTo.unchanged ?_ (.refl _ start)
        exact (keepsTo_of_component
          (Component.l1Pricing_keepsTo (L1Pricing.initialize_keepsTo _ _))).bind fun _ =>
            keepsTo_of_component (Component.l2Pricing_keepsTo L2Pricing.initialize_keepsTo)
      refine runOps_preserves (fun call w h => ?_) calls hstart
      exact (keepsTo_of_component (Component.program_keepsTo version call.1 call.2)).unchanged h
    exact hframe.store

end ArbosState

namespace ArbosState
attribute [local instance] spaceHash

/-- Calls of all components, in turn. -/
def sampleCalls : List (Sigma Component.Call) :=
  [⟨.l1Pricing, L1Call.addPoster 7 8⟩, ⟨.upgradeVersion, Uint64Call.increment⟩,
    ⟨.l2Pricing, L2Call.change (.addGasConstraint 7000000 102 9)⟩,
    ⟨.multiGasFees, FeeCall.setNextBlockFee .computation (I256.clamp 5)⟩,
    ⟨.l1Pricing, L1Call.updateForBatchPosterSpending 10 5 6 7 4 0⟩,
    ⟨.networkFeeAccount, AddressCall.set 9⟩,
    ⟨.l2Pricing, L2Call.change (.gasConstraint 0 (.setBacklog 11))⟩,
    ⟨.upgradeTimestamp, Uint64Call.decrement⟩, ⟨.multiGasFees, FeeCall.commitNextToCurrent⟩]

/-- Calls of all components in turn, after the initialization of a blank store. -/
theorem components_interleaved_sample :
    let init := World.run (initializePricing sampleRoot 9 1) World.blank
    let final := runOps World.handle
      (fun call => call.1.program (ArbosState.open sampleRoot 10) call.2) sampleCalls init.2
    let spec (c : Component) := specOps (c.apply 10) (opsOf c sampleCalls)
      (c.initial World.blank.balance 9 1)
    init.1 = .ok ()
      ∧ (∀ c : Component, resultsOf c sampleCalls final.1 = (spec c).1
          ∧ c.Represents sampleRoot Set.univ final.2 (spec c).2)
      ∧ ∀ a slot, ¬(footprint sampleRoot).slots a slot →
          final.2.store a slot = World.blank.store a slot := by
  refine components_interleaved rfl (sampleRoot_noCollisions _) (Set.mem_univ _) 10 rfl
    (fun _ => rfl) 9 1 sampleCalls ?_ ?_
  · intro c call hmem
    cases c with
    | l1Pricing =>
        simp only [sampleCalls, opsOf] at hmem
        rcases List.mem_pair.mp hmem with rfl | rfl <;> exact Set.mem_univ _
    | _ => trivial
  intro c
  cases c with
  | upgradeVersion => exact ⟨trivial, trivial⟩
  | upgradeTimestamp => exact ⟨trivial, trivial⟩
  | networkFeeAccount => exact ⟨trivial, trivial⟩
  | l1Pricing => exact ⟨trivial, trivial, trivial⟩
  | l2Pricing => exact ⟨trivial, Nat.one_pos, trivial⟩
  | multiGasFees => exact ⟨trivial, trivial, trivial⟩

end ArbosState

end ArbReth
