import ArbReth.Proofs.AddressSet

/-!
# `ArbReth.Proofs.AddressSet.AnyMember`: the first member of the list

`getAnyMember` answers with the member in slot 1 of the list. It takes a zero word there
for an empty list. The zero address is encoded as the zero word, so a set whose first
member is the zero address has no member to show (`run_getAnyMember`).

The runs of this module are those of `add`, of `remove` from version 11 on, and of `clear`,
over the addresses whose slots are apart. `MemberOp.apply` is what an operation does to the
list of the members.
`getsMember_iff` states when the answer of `getAnyMember` is right after a run.
-/

set_option autoImplicit false

namespace ArbReth

open ArbReth.Program

/-- An operation that changes a set, from version 11 on. -/
inductive MemberOp where
  | add (addr : Address)
  | remove (addr : Address) (arbosVersion : U64) (current : 11 ≤ arbosVersion)
  | clear

namespace MemberOp

/-- The meaning of the operation on the list of the members. A list that has no room for a
new member stays as it is, and the addition panics. -/
def apply : MemberOp → List Address → Outcome DbError Unit × List Address
  | .add addr, l =>
      if addr ∈ l then (.ok (), l)
      else if l.length = 2 ^ 64 - 1 then (.panic "attempt to add with overflow", l)
      else (.ok (), l ++ [addr])
  | .remove addr _ _, l => (.ok (), AddressSet.removeSwap l addr)
  | .clear, _ => (.ok (), [])

/-- An operation that adds an address adds one of `A`. -/
def Among (A : Set Address) : MemberOp → Prop
  | .add addr => addr ∈ A
  | .remove _ _ _ => True
  | .clear => True

/-- The program of the operation. -/
def program [Keccak] (self : AddressSet) : MemberOp → Exec DbError Unit
  | .add addr => self.add addr
  | .remove addr arbosVersion _ => self.remove addr arbosVersion
  | .clear => self.clear

end MemberOp

namespace AddressSet

/-- The zero address is the one that is encoded as zero. -/
theorem addrToValue_eq_zero_iff (addr : Address) : addrToValue addr = 0 ↔ addr = 0 :=
  ⟨fun h => Address.intoWord_injective (h.trans rfl), fun h => by rw [h]; rfl⟩

variable [Keccak]

/-- The answer of `getAnyMember` is right: a member of a set that is not empty, and `none`
for the empty set. -/
def GetsMember (self : AddressSet) (w : World) : Prop :=
  ∃ size, World.run self.size w = (.ok size, w)
    ∧ (size = 0 → World.run self.getAnyMember w = (.ok none, w))
    ∧ (0 < size → ∃ addr, World.run self.getAnyMember w = (.ok (some addr), w)
        ∧ World.run (self.isMember addr) w = (.ok true, w))

section
variable {sto : Storage} {A : Set Address} {w : World} {l : List Address}
  (hR : Represents sto A w l)
include hR

/-- The first member of the list, unless it is the zero address. -/
theorem run_getAnyMember :
    World.run (new sto).getAnyMember w
      = (.ok (if l.head? = some 0 then none else l.head?), w) := by
  have hlen := hR.length_lt
  have hsize : World.run (new sto).sizeCell.get w = (.ok (BitVec.ofNat 64 l.length), w) :=
    run_size hR
  rw [getAnyMember, World.run_bind_ok hsize]
  cases l with
  | nil => rfl
  | cons first rest =>
    have hne : BitVec.ofNat 64 (first :: rest).length ≠ 0 := by
      intro h
      have hnat := congrArg BitVec.toNat h
      rw [BitVec.toNat_ofNat, Nat.mod_eq_of_lt hlen] at hnat
      exact absurd hnat (Nat.succ_ne_zero rest.length)
    have hslot : World.run ((new sto).backingStorage.readSlot 1) w
        = (.ok (addrToValue first), w) :=
      congrArg (fun v => (Outcome.ok v, w)) (hR.list 1 (Nat.le_refl 1) (by omega))
    rw [if_neg hne, World.run_bind_ok hslot]
    -- the word of the slot is zero exactly for the zero address
    by_cases hzero : first = 0
    · rw [if_pos ((addrToValue_eq_zero_iff first).mpr hzero)]
      simp [hzero]
    · rw [if_neg fun h => hzero ((addrToValue_eq_zero_iff first).mp h)]
      simp only [List.head?_cons, Option.some.injEq, hzero, if_false]
      show (Outcome.ok (some (Address.ofWord (Address.intoWord first))), w) = _
      rw [Address.ofWord_intoWord]

/-- The answer is right unless the first member is the zero address. -/
theorem getsMember_iff_head : GetsMember (new sto) w ↔ l.head? ≠ some 0 := by
  have hlen := hR.length_lt
  have hget := run_getAnyMember hR
  constructor
  · -- with a member in the list, `none` is a wrong answer
    rintro ⟨size, hsize, -, hmember⟩ hhead
    rw [if_pos hhead] at hget
    have hpos : 0 < l.length := List.length_pos_of_mem (List.mem_of_mem_head? hhead)
    have hword : size = BitVec.ofNat 64 l.length :=
      Outcome.ok.inj (congrArg Prod.fst (hsize.symm.trans (run_size hR)))
    obtain ⟨addr, hsome, -⟩ := hmember (by
      rw [hword, BitVec.lt_def, BitVec.toNat_ofNat, Nat.mod_eq_of_lt hlen]
      exact hpos)
    have := hget.symm.trans hsome
    simp at this
  · intro hhead
    rw [if_neg hhead] at hget
    refine ⟨_, run_size hR, fun hzero => ?_, fun hpos => ?_⟩
    · have hnat := congrArg BitVec.toNat hzero
      rw [BitVec.toNat_ofNat, Nat.mod_eq_of_lt hlen] at hnat
      rw [hget, List.length_eq_zero_iff.mp hnat]
      rfl
    · cases l with
      | nil => exact absurd hpos (by decide)
      | cons first rest => exact ⟨first, hget, by rw [run_isMember hR]; simp⟩

end

/-- Each operation realizes what it does to the list. -/
theorem memberOp_realizes {sto : Storage} {A : Set Address}
    (hslots : (layout sto).Apart (SetKey.Among A)) (l : List Address) (op : MemberOp)
    (hop : op.Among A) :
    Realizes World.handle (Represents sto A) (MemberOp.program (new sto) op) l
      (MemberOp.apply op l).1 (MemberOp.apply op l).2 := by
  cases op with
  | add addr =>
    intro w hR
    have hlen := hR.length_lt
    simp only [MemberOp.apply]
    by_cases hmem : addr ∈ l
    · have hmember : World.run ((new sto).isMember addr) w = (.ok true, w) := by
        rw [run_isMember hR addr, decide_eq_true hmem]
      rw [if_pos hmem]
      exact ⟨w, World.run_bind_ok hmember _, hR⟩
    · rw [if_neg hmem]
      by_cases hfull : l.length = 2 ^ 64 - 1
      · rw [if_pos hfull]
        exact ⟨w, run_add_of_full (hR.index_not_mem addr hmem) (hfull ▸ hR.size), hR⟩
      · rw [if_neg hfull]
        obtain ⟨w', hrun, hR'⟩ := add_realizes hslots l hop (by omega) w hR
        rw [if_neg hmem] at hR'
        exact ⟨w', hrun, hR'⟩
  | remove addr arbosVersion current => exact remove_realizes hslots l addr arbosVersion current
  | clear => exact clear_realizes hslots l

/-- Take any run of `add`, of `remove` from version 11 on, and of `clear` on a set that was
initialized in a fresh space. `l` is the list that the run leads to. The answer of
`getAnyMember` is right in the state that is reached exactly when the first member of `l`
is not the zero address. `A` holds the addresses that are added. -/
theorem getsMember_iff {sto : Storage} {A : Set Address}
    (hslots : (layout sto).Apart (SetKey.Among A)) (w : World) (hw : w.readOnly = false)
    (hfresh : ∀ k, (layout sto).read w k = 0) (ops : List MemberOp)
    (hops : ∀ op ∈ ops, op.Among A) :
    let start := World.run (initializeSet sto) w
    let final := (runOps World.handle (MemberOp.program (new sto)) ops start.2).2
    let l := (specOps MemberOp.apply ops []).2
    GetsMember (new sto) final ↔ l.head? ≠ some 0 := by
  intro start final l
  obtain ⟨w₀, hrun, hR₀⟩ := initializeSet_represents hslots hw hfresh
  have hstart : start.2 = w₀ := congrArg Prod.snd hrun
  obtain ⟨-, hR⟩ := runOps_realizes (fun l op hop => memberOp_realizes hslots l op hop) ops w₀ []
    hR₀ (admissibleOps_of_forall hops [])
  have hfinal : Represents sto A final l := by
    simp only [final, hstart]
    exact hR
  exact getsMember_iff_head hfinal

end AddressSet

namespace AddressSet
attribute [local instance] sampleHash

/-- The first member goes, and the last one takes its place. -/
theorem getsMember_iff_sample :
    GetsMember (new sampleRoot) (runOps World.handle (MemberOp.program (new sampleRoot))
      [.add 0, .add 5, .add 9, .remove 0 11 (by decide)]
      (World.run (initializeSet sampleRoot) World.blank).2).2 :=
  (getsMember_iff sampleRoot_layout_apart World.blank rfl (fun _ => rfl)
    [.add 0, .add 5, .add 9, .remove 0 11 (by decide)] (by simp [MemberOp.Among])).mpr (by decide)

/-- The zero address is added to the empty set. It is the only member, and no member is
shown. -/
theorem not_getsMember_sample :
    let final := (runOps World.handle (MemberOp.program (new sampleRoot)) [.add 0]
      (World.run (initializeSet sampleRoot) World.blank).2).2
    World.run (new sampleRoot).size final = (.ok 1, final)
      ∧ World.run ((new sampleRoot).isMember 0) final = (.ok true, final)
      ∧ World.run (new sampleRoot).getAnyMember final = (.ok none, final)
      ∧ ¬GetsMember (new sampleRoot) final := by
  intro final
  obtain ⟨w₀, hrun, hR₀⟩ := initializeSet_represents sampleRoot_layout_apart
    (w := World.blank) rfl fun _ => rfl
  have hstart : (World.run (initializeSet sampleRoot) World.blank).2 = w₀ := congrArg Prod.snd hrun
  obtain ⟨-, hR⟩ := runOps_realizes
    (fun l op hop => memberOp_realizes sampleRoot_layout_apart l op hop) [.add 0] w₀ [] hR₀
    (admissibleOps_of_forall (by simp [MemberOp.Among]) [])
  have hfinal : Represents sampleRoot Set.univ final [0] := by
    simp only [final, hstart]
    exact hR
  exact ⟨run_size hfinal, run_isMember hfinal 0, run_getAnyMember hfinal,
    fun h => (getsMember_iff_head hfinal).mp h rfl⟩

end AddressSet

end ArbReth
