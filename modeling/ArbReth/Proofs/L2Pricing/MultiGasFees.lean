import ArbReth.L2Pricing.MultiGasFees
import ArbReth.Proofs.L2Pricing.Footprint
import ArbReth.Storage.SampleHash

/-!
# `ArbReth.Proofs.L2Pricing.MultiGasFees`: the base fees refine two vectors

`FeeKey` names the sixteen slots of the fees. A commit copies the fees kind by kind, and
`BlockFees.commit` says what it has copied after some of them. `fees_refine` is the run of
any sequence of calls: a read of a current fee answers with the fee for the next block as it
was at the last commit.
-/

set_option autoImplicit false

namespace ArbReth

open ArbReth.Program

/-- The slots of the fees. -/
inductive FeeKey where
  | next (kind : ResourceKind)
  | current (kind : ResourceKind)
deriving DecidableEq

/-- The offset of the slot of a fee. -/
def FeeKey.offset : FeeKey → U64
  | .next kind => nextBlockFeesOffset + kind.asU8.setWidth 64
  | .current kind => currentBlockFeesOffset + kind.asU8.setWidth 64

namespace BlockFees

/-- The words of the fees. -/
def words (fees : BlockFees) : FeeKey → StorageValue
  | .next kind => (fees.next kind).intoRaw
  | .current kind => (fees.current kind).intoRaw

/-- The fees after the kinds of the list are committed. -/
def commit (fees : BlockFees) (kinds : List ResourceKind) : BlockFees :=
  { fees with current := fun kind => if kind ∈ kinds then fees.next kind else fees.current kind }

/-- A write to a next-block fee among the words. -/
theorem words_setNext (fees : BlockFees) (kind : ResourceKind) (v : I256) :
    Function.update fees.words (.next kind) v.intoRaw
      = { fees with next := Function.update fees.next kind v }.words := by
  funext k
  rcases k with kind' | kind'
  · by_cases hkind : kind' = kind
    · subst hkind
      simp [words]
    · simp [words, hkind]
  · simp [words]

/-- A write to a current fee among the words. -/
theorem words_setCurrent (fees : BlockFees) (kind : ResourceKind) (v : I256) :
    Function.update fees.words (.current kind) v.intoRaw
      = { fees with current := Function.update fees.current kind v }.words := by
  funext k
  rcases k with kind' | kind'
  · simp [words]
  · by_cases hkind : kind' = kind
    · subst hkind
      simp [words]
    · simp [words, hkind]

/-- The first kind is committed before the others. -/
theorem commit_cons (fees : BlockFees) (kind : ResourceKind) (kinds : List ResourceKind) :
    { fees with current := Function.update fees.current kind (fees.next kind) }.commit kinds
      = fees.commit (kind :: kinds) := by
  simp only [commit, mk.injEq, true_and]
  funext kind'
  by_cases hkind : kind' = kind
  · subst hkind
    simp
  · simp [hkind]

/-- All kinds are committed. -/
theorem commit_all (fees : BlockFees) :
    fees.commit ResourceKind.all = { fees with current := fees.next } := by
  simp only [commit, ResourceKind.mem_all, if_true]

end BlockFees

namespace MultiGasFees
variable [Keccak]

/-- The slots of the fees in their space. -/
def layout (sto : Storage) : Layout FeeKey where
  account := sto.account
  slot k := sto.mapAddress k.offset

/-- The slots of the fees. -/
def footprint (sto : Storage) : Footprint := (layout sto).footprint False

/-- The store holds the fees, and the world is `start` outside of them. -/
def Represents (sto : Storage) (start w : World) (fees : BlockFees) : Prop :=
  (layout sto).Holds start w fees.words

/-- A store that was never written in the slots of the fees. -/
theorem represents_blank {sto : Storage} {start : World} (hwritable : start.readOnly = false)
    (hblank : ∀ k, (layout sto).read start k = 0) :
    Represents sto start start BlockFees.blank := by
  refine ⟨fun k => ?_, .refl _ start, hwritable⟩
  rw [hblank]
  cases k <;> rfl

/-! ### Calls -/

section
variable {sto : Storage} (hslots : Function.Injective (layout sto).slot) {start : World}
  (fees : BlockFees)

/-- A fee is read. -/
theorem getFee_realizes (k : FeeKey) {v : I256} (hv : fees.words k = v.intoRaw) :
    Realizes World.handle (Represents sto start)
      (StorageBackedBigInt.mk ((layout sto).slotAt k)).get fees (.ok v) fees := fun w hw =>
  Layout.getBigInt_realizes k hv w hw

include hslots

/-- The setter changes the next-block fee of its kind only. -/
theorem setNext_realizes (kind : ResourceKind) (v : I256) :
    Realizes World.handle (Represents sto start) ((MultiGasFees.open sto).setNextBlockFee kind v)
      fees (.ok ()) { fees with next := Function.update fees.next kind v } := by
  intro w hw
  obtain ⟨w', hrun, hw'⟩ := Layout.set_realizes hslots (.next kind) v.intoRaw w hw
  rw [BlockFees.words_setNext] at hw'
  exact ⟨w', hrun, hw'⟩

/-- The commit changes the current fee of its kind only. -/
theorem setCurrent_realizes (kind : ResourceKind) (v : I256) :
    Realizes World.handle (Represents sto start)
      (((MultiGasFees.open sto).current kind).setChecked v) fees (.ok ())
      { fees with current := Function.update fees.current kind v } := by
  intro w hw
  obtain ⟨w', hrun, hw'⟩ := Layout.set_realizes hslots (.current kind) v.intoRaw w hw
  rw [BlockFees.words_setCurrent] at hw'
  exact ⟨w', hrun, hw'⟩

/-- The loop commits the kinds of the list, whatever was committed before. -/
theorem commitKinds_realizes (kinds : List ResourceKind) :
    Realizes World.handle (Represents sto start) ((MultiGasFees.open sto).commitKinds kinds) fees
      (.ok ()) (fees.commit kinds) := by
  induction kinds generalizing fees with
  | nil => exact .pure ()
  | cons kind kinds ih =>
      rw [← fees.commit_cons]
      refine .bind (getFee_realizes fees (.next kind) rfl) ?_
      exact .bind (setCurrent_realizes hslots fees kind _) (ih _)

/-- Every call realizes what it does to the two vectors. -/
theorem feeCall_realizes (c : FeeCall) :
    Realizes World.handle (Represents sto start) (c.program (MultiGasFees.open sto)) fees
      (c.apply fees).1 (c.apply fees).2 := by
  cases c with
  | getCurrentBlockFee kind =>
      exact Exec.reply_realizes _ _ (getFee_realizes fees (.current kind) rfl)
  | getNextBlockFee kind => exact Exec.reply_realizes _ _ (getFee_realizes fees (.next kind) rfl)
  | setNextBlockFee kind v => exact Exec.reply_realizes _ _ (setNext_realizes hslots fees kind v)
  | commitNextToCurrent =>
      have hcommit : Realizes World.handle (Represents sto start)
          ((MultiGasFees.open sto).commitKinds ResourceKind.all) fees (.ok ())
          (fees.commit ResourceKind.all) :=
        commitKinds_realizes hslots fees ResourceKind.all
      rw [fees.commit_all] at hcommit
      exact Exec.reply_realizes _ _ hcommit

end

/-! ### What a call reaches -/

section
variable {sto : Storage}

/-- Each fee has its slot in the footprint. -/
theorem footprint_key (k : FeeKey) :
    (footprint sto).slots sto.account ((layout sto).slot k) := ⟨rfl, k, rfl⟩

/-- A read of a fee keeps to the footprint. -/
theorem fee_keepsTo (k : FeeKey) :
    KeepsTo (footprint sto) (StorageBackedBigInt.mk ((layout sto).slotAt k)).get :=
  StorageBackedBigInt.get_keepsTo (footprint_key k)

/-- A write of a fee keeps to the footprint. -/
theorem setFee_keepsTo (k : FeeKey) (v : StorageValue) :
    KeepsTo (footprint sto) (((layout sto).slotAt k).set v) :=
  StorageSlot.set_keepsTo (footprint_key k) v

/-- The commit keeps to the footprint, kind by kind. -/
theorem commitKinds_keepsTo (kinds : List ResourceKind) :
    KeepsTo (footprint sto) ((MultiGasFees.open sto).commitKinds kinds) := by
  induction kinds with
  | nil => exact .done ()
  | cons kind kinds ih =>
      exact (fee_keepsTo (.next kind)).bind fun _ =>
        (setFee_keepsTo (.current kind) _).bind fun _ => ih

/-- Every call keeps to the footprint. -/
theorem feeCall_keepsTo (c : FeeCall) :
    KeepsTo (footprint sto) (c.program (MultiGasFees.open sto)) := by
  cases c with
  | getCurrentBlockFee kind => exact (fee_keepsTo (.current kind)).dbReply _
  | getNextBlockFee kind => exact (fee_keepsTo (.next kind)).dbReply _
  | setNextBlockFee kind v => exact (setFee_keepsTo (.next kind) _).dbReply _
  | commitNextToCurrent => exact (commitKinds_keepsTo _).dbReply _

end

end MultiGasFees

/-! ### Runs -/

namespace FeeCall

/-- The call commits the fees. -/
def IsCommit : FeeCall → Prop
  | .commitNextToCurrent => True
  | _ => False

/-- Without a commit, the current fees stay. -/
theorem specOps_current {calls : List FeeCall} (h : ∀ c ∈ calls, ¬c.IsCommit) (fees : BlockFees) :
    (specOps apply calls fees).2.current = fees.current := by
  induction calls generalizing fees with
  | nil => rfl
  | cons c calls ih =>
      have hrest := ih (fun c' hc' => h c' (List.mem_cons_of_mem c hc')) (c.apply fees).2
      have hfirst : (c.apply fees).2.current = fees.current := by
        cases c with
        | commitNextToCurrent => exact absurd trivial (h _ List.mem_cons_self)
        | _ => rfl
      exact hrest.trans hfirst

/-- The current fees are those for the next block at the last commit. -/
theorem specOps_last_commit (before : List FeeCall) {after : List FeeCall}
    (h : ∀ c ∈ after, ¬c.IsCommit) (fees : BlockFees) :
    (specOps apply (before ++ .commitNextToCurrent :: after) fees).2.current
      = (specOps apply before fees).2.next := by
  induction before generalizing fees with
  | nil => exact specOps_current h _
  | cons c before ih => exact ih _

end FeeCall

namespace MultiGasFees

section
variable [Keccak]

/-- The fees refine two vectors. In every sequence of calls from a blank store, each call
has the result that it has on the vectors, and the store holds them at the end and has not
changed elsewhere. The current fee of a kind is the fee for the next block as it was at the
last commit. -/
theorem fees_refine {sto : Storage} (hslots : Function.Injective (layout sto).slot) {start : World}
    (hwritable : start.readOnly = false) (hblank : ∀ k, (layout sto).read start k = 0)
    (calls : List FeeCall) :
    let final := runOps World.handle (FeeCall.program (MultiGasFees.open sto)) calls start
    let spec := specOps FeeCall.apply calls BlockFees.blank
    final.1 = spec.1 ∧ Represents sto start final.2 spec.2
      ∧ ∀ before after kind, calls = before ++ .commitNextToCurrent :: after →
        (∀ c ∈ after, ¬c.IsCommit) →
        (layout sto).read final.2 (.current kind)
          = ((specOps FeeCall.apply before BlockFees.blank).2.next kind).intoRaw := by
  intro final spec
  have hrun : final.1 = spec.1 ∧ Represents sto start final.2 spec.2 :=
    runOps_realizes_all (fun fees c => feeCall_realizes hslots fees c) calls start _
      (represents_blank hwritable hblank)
  refine ⟨hrun.1, hrun.2, ?_⟩
  rintro before after kind rfl hafter
  have hword : (layout sto).read final.2 (.current kind) = (spec.2.current kind).intoRaw :=
    hrun.2.word (.current kind)
  rw [hword, FeeCall.specOps_last_commit before hafter]

end

end MultiGasFees

namespace MultiGasFees
attribute [local instance] sampleHash

/-- The slots of the fees are apart under the sample hash. -/
theorem sampleRoot_fees_injective : Function.Injective (layout sampleRoot).slot := by
  intro k k' h
  have hoffset := sampleRoot_mapAddress_injective h
  rcases k with kind | kind <;> rcases k' with kind' | kind' <;> cases kind <;> cases kind' <;>
    first | rfl | exact absurd hoffset (by decide)

/-- A fee is set, committed and set again. -/
def sampleFeeCalls : List FeeCall :=
  [.setNextBlockFee .computation (I256.clamp 5), .commitNextToCurrent,
    .setNextBlockFee .computation (I256.clamp (-7)), .getCurrentBlockFee .computation]

/-- The current fee read at the end is that of the commit, not of the setter behind it. -/
theorem fees_refine_sample :
    let final := runOps World.handle (FeeCall.program (MultiGasFees.open sampleRoot))
      sampleFeeCalls World.blank
    let spec := specOps FeeCall.apply sampleFeeCalls BlockFees.blank
    final.1 = spec.1 ∧ Represents sampleRoot World.blank final.2 spec.2
      ∧ ∀ before after kind, sampleFeeCalls = before ++ .commitNextToCurrent :: after →
        (∀ c ∈ after, ¬c.IsCommit) →
        (layout sampleRoot).read final.2 (.current kind)
          = ((specOps FeeCall.apply before BlockFees.blank).2.next kind).intoRaw :=
  fees_refine sampleRoot_fees_injective rfl (fun _ => rfl) sampleFeeCalls

end MultiGasFees

end ArbReth
