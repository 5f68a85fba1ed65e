import ArbReth.L1Pricing.BatchPoster
import ArbReth.Program.Client

/-!
# `ArbReth.L1Pricing.PosterMap`: the table of the batch posters as a map

What the table is for: a map from each poster to the account that is paid for it and the
amount due to it, in the order in which the posters were added, and the total of the
amounts. `TableOp.apply` is the meaning of each operation on such a map, and
`TableOp.program` is the program of the operation.

A record that was opened is a handle. An operation on a record names the handle by its
number, in the order in which the handles were opened.
-/

set_option autoImplicit false

namespace ArbReth

open ArbReth.Program

/-- The posters in the order of their addition, with their accounts and amounts. -/
structure PosterMap where
  order : List Address
  payTo : Address → Address
  due : Address → I256
  total : I256

namespace PosterMap

/-- No posters, and nothing is due. -/
def empty : PosterMap where
  order := []
  payTo := fun _ => 0
  due := fun _ => I256.zero
  total := I256.zero

/-- The map with a new poster, to which nothing is due. -/
def insert (m : PosterMap) (poster payTo : Address) : PosterMap :=
  { m with
      order := m.order ++ [poster]
      payTo := Function.update m.payTo poster payTo
      due := Function.update m.due poster I256.zero }

/-- The map with another amount due to a poster. The total moves by the change. -/
def setFundsDue (m : PosterMap) (poster : Address) (val : I256) : PosterMap :=
  { m with
      due := Function.update m.due poster val
      total := (m.total.saturatingAdd val).saturatingSub (m.due poster) }

/-- The map with another account for a poster. -/
def setPayTo (m : PosterMap) (poster addr : Address) : PosterMap :=
  { m with payTo := Function.update m.payTo poster addr }

/-- The posters to which a positive amount is due, with the amounts. -/
def fundsDueList (m : PosterMap) : List FundsDueItem :=
  (m.order.filter fun p => (m.due p).isPositive).map fun p =>
    { dueTo := p, balance := m.due p }

end PosterMap

/-- An operation of a client of the table. -/
inductive TableOp where
  | addPoster (posterAddress payTo : Address)
  | openPoster (poster : Address) (createIfNotExist : Bool)
  | setFundsDue (handle : Nat) (val : I256)
  | setPayTo (handle : Nat) (addr : Address)
  | allPosters (maxNumToGet : U64)
  | containsPoster (poster : Address)
  | getFundsDueList

/-- What an operation returns to the client. -/
inductive TableReply where
  | opened
  | done
  | posters (addrs : List Address)
  | contains (isBatchPoster : Bool)
  | fundsDue (items : List FundsDueItem)
deriving DecidableEq

namespace TableOp

/-- The program of the operation. An operation on a handle that was not opened does
nothing. -/
def program [Keccak] (table : BatchPostersTable) : TableOp → List BatchPosterState →
    Exec OpenPosterResult (TableReply × Option BatchPosterState)
  | .addPoster posterAddress payTo, _ => do
      let bpState ← table.addPoster posterAddress payTo
      pure (.opened, some bpState)
  | .openPoster poster createIfNotExist, _ => do
      let bpState ← table.openPoster poster createIfNotExist
      pure (.opened, some bpState)
  | .setFundsDue handle val, handles =>
      match handles[handle]? with
      | none => pure (.done, none)
      | some bpState => do
          (bpState.setFundsDue val).mapErr .db
          pure (.done, none)
  | .setPayTo handle addr, handles =>
      match handles[handle]? with
      | none => pure (.done, none)
      | some bpState => do
          (bpState.setPayTo addr).mapErr .db
          pure (.done, none)
  | .allPosters maxNumToGet, _ => do
      let addrs ← (table.allPosters maxNumToGet).mapErr .db
      pure (.posters addrs, none)
  | .containsPoster poster, _ => do
      let isBatchPoster ← (table.containsPoster poster).mapErr .db
      pure (.contains isBatchPoster, none)
  | .getFundsDueList, _ => do
      let items ← table.getFundsDueList
      pure (.fundsDue items, none)

/-- The addition of a poster that is not in the map. The number of the posters is a
word, and an addition beyond it panics. -/
def insertNew (m : PosterMap) (poster payTo : Address) :
    Outcome OpenPosterResult (TableReply × Option Address) × PosterMap :=
  if m.order.length = 2 ^ 64 - 1 then (.panic "attempt to add with overflow", m)
  else (.ok (.opened, some poster), m.insert poster payTo)

/-- The meaning of the operation on a map. A handle is the poster that it was opened
for. -/
def apply : TableOp → List Address → PosterMap →
    Outcome OpenPosterResult (TableReply × Option Address) × PosterMap
  | .addPoster posterAddress payTo, _, m =>
      if posterAddress ∈ m.order then (.err (.semantic .alreadyExists), m)
      else insertNew m posterAddress payTo
  | .openPoster poster createIfNotExist, _, m =>
      if poster ∈ m.order then (.ok (.opened, some poster), m)
      else if createIfNotExist then insertNew m poster poster
      else (.err (.semantic .notExist), m)
  | .setFundsDue handle val, handles, m =>
      match handles[handle]? with
      | none => (.ok (.done, none), m)
      | some poster => (.ok (.done, none), m.setFundsDue poster val)
  | .setPayTo handle addr, handles, m =>
      match handles[handle]? with
      | none => (.ok (.done, none), m)
      | some poster => (.ok (.done, none), m.setPayTo poster addr)
  | .allPosters maxNumToGet, _, m => (.ok (.posters (m.order.take maxNumToGet.toNat), none), m)
  | .containsPoster poster, _, m => (.ok (.contains (decide (poster ∈ m.order)), none), m)
  | .getFundsDueList, _, m => (.ok (.fundsDue m.fundsDueList, none), m)

end TableOp

end ArbReth
