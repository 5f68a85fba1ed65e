import ArbReth.Proofs.ArbosState.Interleaved
import ArbReth.Proofs.Storage.History

/-!
# `ArbReth.Proofs.ArbosState.History`: histories of transactions

A history is a list of transactions, and a transaction a list of calls of the components. A
call does not see what an earlier call of its transaction has written. Where no transaction
calls a component twice, that does not matter: the components work on disjoint parts of the
store, also when each of them runs in a transaction (`ArbosState.onParts`).

`ArbosState.histories_equivalent` is what follows of two histories in which each component has
the same calls in the same order. How the calls are grouped into transactions, and how those of
different components are ordered, has no influence.
-/

set_option autoImplicit false

namespace ArbReth

open ArbReth.Program

namespace ArbosState
variable [Keccak]

section
variable {root : Storage} {A : Set Address}

/-- The transactions of the components work on their own parts of the store. -/
theorem onParts (hslots : (layout root).Apart (ArbosKey.Among A)) (version : U64) :
    OnParts (fun c : Component => World.AgreeOn (c.footprint root)) fun c call =>
      TwoLayer.transact (c.program (ArbosState.open root version) call) where
  own c call w w' h := TwoLayer.transact_agreeOn (Component.program_keepsTo version c call).issues h
  other c c' call w w' hne h := by
    have hkeeps : KeepsTo (c.footprint root) (c.program (ArbosState.open root version) call) :=
      Component.program_keepsTo version c call
    have hchange := TwoLayer.transact_unchanged hkeeps.issues w'
    exact h.trans (hchange.agreeOn (Component.disjoint hslots (Ne.symm hne)))

/-- A transaction changes the slots of the state only. -/
theorem transact_unchanged (version : U64) (call : Sigma Component.Call) (w : World) :
    World.UnchangedOutside (footprint root) w
      (TwoLayer.transact (call.1.program (ArbosState.open root version) call.2) w).2 :=
  TwoLayer.transact_unchanged
    (keepsTo_of_component (Component.program_keepsTo version call.1 call.2)).issues w

/-- Worlds that agree on all components agree on the whole state. -/
theorem agreeOn_of_components {w w' : World}
    (h : ∀ c : Component, World.AgreeOn (c.footprint root) w w') :
    World.AgreeOn (footprint root) w w' where
  store := by
    rintro a slot ⟨rfl, k, rfl⟩
    exact (h k.component).store root.account _ (Component.footprint_slot k)
  balance _ := (h .l1Pricing).balance rfl
  readOnly := (h .l1Pricing).readOnly

/-- One call in each transaction: the order matters within each component only. -/
theorem specOps_eq_of_opsOf (hslots : (layout root).Apart (ArbosKey.Among A)) (version : U64)
    {calls calls' : List (Sigma Component.Call)} (hsame : ∀ c, opsOf c calls = opsOf c calls')
    (w : World) :
    let step := fun (call : Sigma Component.Call) =>
      TwoLayer.transact (call.1.program (ArbosState.open root version) call.2)
    (specOps step calls w).2 = (specOps step calls' w).2
      ∧ ∀ c, resultsOf c calls (specOps step calls w).1
        = resultsOf c calls' (specOps step calls' w).1 := by
  intro step
  have halone := fun c calls => (onParts hslots version).specOps_alone c calls
    (World.AgreeOn.refl (c.footprint root) w)
  have hunchanged : ∀ calls, World.UnchangedOutside (footprint root) w (specOps step calls w).2 :=
    fun calls => specOps_preserves (fun call w' h => h.trans (transact_unchanged version call w'))
      calls (.refl _ w)
  constructor
  · have hagree : World.AgreeOn (footprint root) (specOps step calls' w).2
        (specOps step calls w).2 := by
      refine agreeOn_of_components fun c => ?_
      have hcalls := (halone c calls).2
      rw [hsame c] at hcalls
      exact (halone c calls').2.symm.trans hcalls
    exact hagree.eq_of_unchanged (hunchanged calls') (hunchanged calls)
  · intro c
    rw [(halone c calls).1, (halone c calls').1, hsame c]

/-- Calls of different components have disjoint footprints. -/
theorem pairwise_disjoint (hslots : (layout root).Apart (ArbosKey.Among A))
    {tx : List (Sigma Component.Call)} (honce : (tx.map Sigma.fst).Nodup) :
    tx.Pairwise fun call call' => (call.1.footprint root).Disjoint (call'.1.footprint root) := by
  rw [List.Nodup, List.pairwise_map] at honce
  exact honce.imp fun hne => Component.disjoint hslots hne

end

/-- Two histories of transactions, from any state of the store. No transaction calls a component
twice, and each component has the same calls in the same order in both histories. Then each call
has the same result in both, and they end in the same store, whatever transactions the calls
are in and however those of different components are ordered. -/
theorem histories_equivalent {root : Storage} (hroot : root.storageKey = [])
    (hcoll : NoCollisions root ∅) (version : U64) {txs txs' : List (List (Sigma Component.Call))}
    (honce : ∀ tx ∈ txs, (tx.map Sigma.fst).Nodup) (honce' : ∀ tx ∈ txs', (tx.map Sigma.fst).Nodup)
    (hsame : ∀ c, opsOf c txs.flatten = opsOf c txs'.flatten) (w : World) :
    let history := TwoLayer.transactions fun (call : Sigma Component.Call) =>
      call.1.program (ArbosState.open root version) call.2
    (history txs w).2 = (history txs' w).2
      ∧ ∀ c, resultsOf c txs.flatten (history txs w).1
        = resultsOf c txs'.flatten (history txs' w).1 := by
  intro history
  have hslots := slot_apart hroot hcoll
  have halone : ∀ txs, (∀ tx ∈ txs, (tx.map Sigma.fst).Nodup) →
      history txs w = specOps (fun (call : Sigma Component.Call) =>
        TwoLayer.transact (call.1.program (ArbosState.open root version) call.2)) txs.flatten w :=
    fun txs honce => TwoLayer.transactions_eq_specOps
      (fun call => (Component.program_keepsTo version call.1 call.2).issues)
      (fun tx htx => pairwise_disjoint hslots (honce tx htx)) w
  rw [halone txs honce, halone txs' honce']
  exact specOps_eq_of_opsOf hslots version hsame w

end ArbosState

namespace ArbosState
attribute [local instance] spaceHash

/-- Two transactions with calls of four components. -/
def sampleHistory : List (List (Sigma Component.Call)) :=
  [[⟨.l1Pricing, L1Call.addPoster 7 8⟩, ⟨.upgradeVersion, Uint64Call.increment⟩,
      ⟨.l2Pricing, L2Call.change (.addGasConstraint 7000000 102 9)⟩],
    [⟨.upgradeVersion, Uint64Call.increment⟩, ⟨.multiGasFees, FeeCall.commitNextToCurrent⟩,
      ⟨.l1Pricing, L1Call.updateForBatchPosterSpending 10 5 6 7 4 0⟩]]

/-- The same calls in three transactions. -/
def sampleRegrouped : List (List (Sigma Component.Call)) :=
  [[⟨.upgradeVersion, Uint64Call.increment⟩, ⟨.multiGasFees, FeeCall.commitNextToCurrent⟩],
    [⟨.l2Pricing, L2Call.change (.addGasConstraint 7000000 102 9)⟩,
      ⟨.l1Pricing, L1Call.addPoster 7 8⟩],
    [⟨.l1Pricing, L1Call.updateForBatchPosterSpending 10 5 6 7 4 0⟩,
      ⟨.upgradeVersion, Uint64Call.increment⟩]]

/-- The history and its regrouping have the same results and the same store. -/
theorem histories_equivalent_sample :
    let history := TwoLayer.transactions fun (call : Sigma Component.Call) =>
      call.1.program (ArbosState.open sampleRoot 10) call.2
    (history sampleHistory World.blank).2 = (history sampleRegrouped World.blank).2
      ∧ ∀ c, resultsOf c sampleHistory.flatten (history sampleHistory World.blank).1
        = resultsOf c sampleRegrouped.flatten (history sampleRegrouped World.blank).1 :=
  histories_equivalent rfl (sampleRoot_noCollisions ∅) 10 (by decide) (by decide)
    (fun c => by cases c <;> rfl) World.blank

-- two calls of one component in a transaction: the second one does not see the first
example : (TwoLayer.transactions (fun (call : Sigma Component.Call) =>
      call.1.program (ArbosState.open sampleRoot 10) call.2)
    [[⟨.upgradeVersion, Uint64Call.increment⟩, ⟨.upgradeVersion, Uint64Call.increment⟩]]
    World.blank).1 = [.ok (.uint64 1), .ok (.uint64 1)] := rfl

end ArbosState

end ArbReth
