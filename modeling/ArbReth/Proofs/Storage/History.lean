import ArbReth.Proofs.Storage.Footprint
import ArbReth.Proofs.Storage.Transaction

/-!
# `ArbReth.Proofs.Storage.History`: several programs in one transaction

`TwoLayer.transactAll` runs programs one after another in one transaction, and
`TwoLayer.transactions` runs such transactions one after another. A program reads the database
there, so it does not see what an earlier program of the same transaction has written.

That is no matter where the programs of a transaction have disjoint footprints: the
transaction then is the same as one transaction for each program
(`TwoLayer.transactions_eq_specOps`). What a transaction reads and changes is its footprint
(`TwoLayer.transact_agreeOn`, `TwoLayer.transact_unchanged`).
-/

set_option autoImplicit false

namespace ArbReth

open ArbReth.Program

variable {ε ρ α Op : Type}

/-! ### Worlds and footprints -/

namespace World
variable {F : Footprint} {w w' w₀ : World}

/-- A store agrees with itself. -/
theorem AgreeOn.refl (F : Footprint) (w : World) : AgreeOn F w w :=
  ⟨fun _ _ _ => rfl, fun _ => rfl, rfl⟩

/-- Agreement is symmetric. -/
theorem AgreeOn.symm (h : AgreeOn F w w') : AgreeOn F w' w :=
  ⟨fun a k hF => (h.store a k hF).symm, fun hF => (h.balance hF).symm, h.readOnly.symm⟩

/-- Agreement is transitive. -/
theorem AgreeOn.trans (h : AgreeOn F w₀ w) (h' : AgreeOn F w w') : AgreeOn F w₀ w' where
  store a k hF := (h'.store a k hF).trans (h.store a k hF)
  balance hF := (h'.balance hF).trans (h.balance hF)
  readOnly := h'.readOnly.trans h.readOnly

/-- Two changes within the footprint are one. -/
theorem UnchangedOutside.trans (h : UnchangedOutside F w₀ w) (h' : UnchangedOutside F w w') :
    UnchangedOutside F w₀ w' where
  store a k hF := (h'.store a k hF).trans (h.store a k hF)
  balance hF := (h'.balance hF).trans (h.balance hF)
  readOnly := h'.readOnly.trans h.readOnly

/-- Two worlds that agree on a footprint, and differ from a third one there only, are equal. -/
theorem AgreeOn.eq_of_unchanged (h : AgreeOn F w w') (hw : UnchangedOutside F w₀ w)
    (hw' : UnchangedOutside F w₀ w') : w' = w := by
  apply World.ext
  · funext a k
    by_cases hF : F.slots a k
    · exact h.store a k hF
    · exact (hw'.store a k hF).trans (hw.store a k hF).symm
  · by_cases hF : F.balances
    · exact h.balance hF
    · exact (hw'.balance hF).trans (hw.balance hF).symm
  · exact h.readOnly

end World

/-! ### Runs of one program -/

namespace TwoLayer
variable {F G : Footprint} {p : Exec ε α} {s s' : TwoLayer}

/-- What a transaction reads: the database and the balances. -/
def database (s : TwoLayer) : World := ⟨s.db, s.balance, s.readOnly⟩

/-- The two states agree on a footprint, in the database and in the store that a commit would
leave. -/
structure AgreeOn (F : Footprint) (s s' : TwoLayer) : Prop where
  database : World.AgreeOn F s.database s'.database
  committed : World.AgreeOn F s.committed s'.committed

/-- A write is the same write to both. -/
theorem AgreeOn.record (h : AgreeOn F s s') (a : Address) (k : StorageKey) (v : StorageValue) :
    AgreeOn F (s.record a k v) (s'.record a k v) where
  database := h.database
  committed := by
    rw [committed_record, committed_record]
    refine ⟨fun a' k' hF => ?_, h.committed.balance, h.committed.readOnly⟩
    rw [World.store_write, World.store_write, h.committed.store a' k' hF]

/-- A program answers alike in two states that agree on its footprint, and they agree on it
afterwards. -/
theorem exec_agreeOn (hp : p.Issues F.Allows) (h : AgreeOn F s s') :
    (p.exec handle s).1 = (p.exec handle s').1
      ∧ AgreeOn F (p.exec handle s).2 (p.exec handle s').2 := by
  refine hp.exec_rel (R := AgreeOn F) (fun c s s' hc h => ?_) h
  cases c with
  | storage a k => exact ⟨congrArg Except.ok (h.database.store a k hc).symm, h⟩
  | sstore a k v => exact ⟨rfl, h.record a k v⟩
  | loadBalance a =>
      have hbalance : s'.balance = s.balance := h.database.balance hc
      exact ⟨congrArg Except.ok (congrFun hbalance a).symm, h⟩
  | transfer src dst amount =>
      have hbalance : s'.balance = s.balance := h.database.balance hc
      simp only [handle, hbalance]
      exact ⟨trivial, ⟨h.database.store, fun _ => rfl, h.database.readOnly⟩,
        ⟨h.committed.store, fun _ => rfl, h.committed.readOnly⟩⟩
  | readOnly => exact ⟨h.database.readOnly.symm, h⟩
  | _ => exact ⟨rfl, h⟩

/-- A program changes the store that a commit would leave in its footprint only. -/
theorem exec_unchanged (hp : p.Issues F.Allows) (s : TwoLayer) :
    World.UnchangedOutside F s.committed (p.exec handle s).2.committed := by
  refine hp.preserves (I := fun s' : TwoLayer => World.UnchangedOutside F s.committed s'.committed)
    (fun c s' hc hs' => ?_) (.refl F _)
  cases c with
  | sstore a k v =>
      show World.UnchangedOutside F s.committed (s'.record a k v).committed
      rw [committed_record]
      refine ⟨fun a' k' hF => ?_, hs'.balance, hs'.readOnly⟩
      rw [World.store_write, if_neg, hs'.store a' k' hF]
      rintro ⟨rfl, rfl⟩
      exact hF hc
  | transfer src dst amount =>
      exact ⟨hs'.store, fun hno => absurd hc hno, hs'.readOnly⟩
  | _ => exact hs'

/-- A program leaves the slots of a disjoint footprint clean. -/
theorem exec_clean (hp : p.Issues F.Allows) (hdisjoint : F.Disjoint G)
    (hclean : ∀ a k, G.slots a k → s.Clean a k) :
    ∀ a k, G.slots a k → (p.exec handle s).2.Clean a k := by
  intro a k hG
  have hlatest := (exec_unchanged hp s).store a k fun hF => hdisjoint.slots a k hF hG
  exact (hlatest.trans (hclean a k hG)).trans (congrFun₂ (exec_frame p s).1 a k).symm

/-! ### Transactions -/

/-- A transaction reads its footprint only. -/
theorem transact_agreeOn (hp : p.Issues F.Allows) {w w' : World} (h : World.AgreeOn F w w') :
    (transact p w).1 = (transact p w').1
      ∧ World.AgreeOn F (transact p w).2 (transact p w').2 := by
  have hbegin : AgreeOn F (.begin w.store w.balance w.readOnly)
      (.begin w'.store w'.balance w'.readOnly) := ⟨h, h⟩
  obtain ⟨hresult, hlast⟩ := exec_agreeOn hp hbegin
  exact ⟨hresult, hlast.committed⟩

/-- A transaction changes its footprint only. -/
theorem transact_unchanged (hp : p.Issues F.Allows) (w : World) :
    World.UnchangedOutside F w (transact p w).2 :=
  exec_unchanged hp (.begin w.store w.balance w.readOnly)

/-- Where the slots of a program are clean, it runs as in a transaction of its own. -/
theorem exec_of_clean (hp : p.Issues F.Allows) (hclean : ∀ a k, F.slots a k → s.Clean a k) :
    (p.exec handle s).1 = (transact p s.committed).1
      ∧ (p.exec handle s).2.committed = (transact p s.committed).2 := by
  have hagree : AgreeOn F (.begin s.latest s.balance s.readOnly) s :=
    ⟨⟨fun a k hF => (hclean a k hF).symm, fun _ => rfl, rfl⟩, .refl F _⟩
  obtain ⟨hresult, hlast⟩ := exec_agreeOn hp hagree
  exact ⟨hresult.symm, hlast.committed.eq_of_unchanged (transact_unchanged hp s.committed)
    (exec_unchanged hp s)⟩

/-- Run programs one after another in one transaction, which is committed whatever their
outcomes are. -/
def transactAll (step : Op → Exec ε ρ) (ops : List Op) (w : World) :
    List (Outcome ε ρ) × World :=
  let run := runOps handle step ops (.begin w.store w.balance w.readOnly)
  (run.1, run.2.committed)

/-- Run transactions one after another. -/
def transactions (step : Op → Exec ε ρ) : List (List Op) → World → List (Outcome ε ρ) × World
  | [], w => ([], w)
  | tx :: txs, w =>
      let first := transactAll step tx w
      let rest := transactions step txs first.2
      (first.1 ++ rest.1, rest.2)

section
variable {step : Op → Exec ε ρ} {footprint : Op → Footprint}
  (hstep : ∀ op, (step op).Issues (footprint op).Allows)
include hstep

/-- The rest of a transaction, whose footprints are disjoint and clean. -/
theorem runOps_of_clean {ops : List Op}
    (hdisjoint : ops.Pairwise fun op op' => (footprint op).Disjoint (footprint op'))
    (hclean : ∀ op ∈ ops, ∀ a k, (footprint op).slots a k → s.Clean a k) :
    (runOps handle step ops s).1 = (specOps (fun op => transact (step op)) ops s.committed).1
      ∧ (runOps handle step ops s).2.committed
        = (specOps (fun op => transact (step op)) ops s.committed).2 := by
  induction ops generalizing s with
  | nil => exact ⟨rfl, rfl⟩
  | cons op ops ih =>
      rw [List.pairwise_cons] at hdisjoint
      rw [List.forall_mem_cons] at hclean
      obtain ⟨hresult, hnext⟩ := exec_of_clean (hstep op) hclean.1
      obtain ⟨hresults, hlast⟩ := ih hdisjoint.2 fun op' hop' =>
        exec_clean (hstep op) (hdisjoint.1 op' hop') (hclean.2 op' hop')
      rw [hnext] at hresults hlast
      exact ⟨congrArg₂ List.cons hresult hresults, hlast⟩

/-- A transaction of programs with disjoint footprints is the same as a transaction for each
program. -/
theorem transactAll_eq_specOps {ops : List Op}
    (hdisjoint : ops.Pairwise fun op op' => (footprint op).Disjoint (footprint op')) (w : World) :
    transactAll step ops w = specOps (fun op => transact (step op)) ops w := by
  have hclean : ∀ op ∈ ops, ∀ a k, (footprint op).slots a k →
      (begin w.store w.balance w.readOnly).Clean a k := fun _ _ _ _ _ => rfl
  obtain ⟨hresults, hlast⟩ := runOps_of_clean hstep hdisjoint hclean
  exact Prod.ext hresults hlast

/-- The same for a history of such transactions. -/
theorem transactions_eq_specOps {txs : List (List Op)}
    (hdisjoint : ∀ tx ∈ txs, tx.Pairwise fun op op' => (footprint op).Disjoint (footprint op'))
    (w : World) :
    transactions step txs w = specOps (fun op => transact (step op)) txs.flatten w := by
  induction txs generalizing w with
  | nil => rfl
  | cons tx txs ih =>
      rw [List.forall_mem_cons] at hdisjoint
      rw [transactions, transactAll_eq_specOps hstep hdisjoint.1, List.flatten_cons,
        specOps_append, ih hdisjoint.2]

end

end TwoLayer

end ArbReth
