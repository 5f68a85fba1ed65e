import ArbReth.AddressSet

/-!
# `ArbReth.L1Pricing.BatchPoster`: the table of batch posters

Slot 0 of the table holds `totalFundsDue`. The sub-space with the id `[0]` is the
set of the posters. The sub-space with the id `[1]` holds one sub-space for each
poster, named by the 20 bytes of its address: slot 0 is the amount due to it and
slot 1 the account that receives its payments.

A `BatchPosterState` holds the slot of the total as well, so that `setFundsDue`
can move the total by the change of the one amount.
-/

set_option autoImplicit false

namespace ArbReth

open ArbReth.Program

/-- `TOTAL_FUNDS_DUE_OFFSET`. -/
def totalFundsDueOffset : U64 := 0

/-- `POSTER_ADDRS_KEY`. -/
def posterAddrsKey : Bytes := [0]

/-- `POSTER_INFO_KEY`. -/
def posterInfoKey : Bytes := [1]

/-- The semantic errors of the table. -/
inductive BatchPosterError where
  | alreadyExists
  | notExist
deriving DecidableEq, Repr

/-- The `Debug` form of the error. -/
def BatchPosterError.debug : BatchPosterError → String
  | .alreadyExists => "AlreadyExists"
  | .notExist => "NotExist"

/-- A semantic error or an error of the database. -/
inductive OpenPosterResult where
  | semantic (e : BatchPosterError)
  | db (e : DbError)
deriving DecidableEq, Repr

/-- The table of the batch posters. -/
structure BatchPostersTable where
  posterAddrs : AddressSet
  posterInfo : Storage
  totalFundsDueCell : StorageBackedBigInt

/-- The record of one batch poster. -/
structure BatchPosterState where
  fundsDueCell : StorageBackedBigInt
  payToCell : StorageBackedAddress
  tableTotalFundsDue : StorageBackedBigInt
deriving DecidableEq

/-- An amount that is due to a poster. -/
structure FundsDueItem where
  dueTo : Address
  balance : I256
deriving DecidableEq

namespace BatchPosterState

/-- The amount due to the poster. -/
def fundsDue (self : BatchPosterState) : Exec DbError I256 := self.fundsDueCell.get

/-- Write the amount due, and move the total of the table by the change. -/
def setFundsDue (self : BatchPosterState) (val : I256) : Exec DbError Unit := do
  let prev ← self.fundsDueCell.get
  let prevTotal ← self.tableTotalFundsDue.get
  let newTotal := (prevTotal.saturatingAdd val).saturatingSub prev
  self.tableTotalFundsDue.setSaturatingWithWarning newTotal "batch poster total funds due"
  self.fundsDueCell.setSaturatingWithWarning val "batch poster funds due"

/-- The address that the poster is paid at. -/
def payTo (self : BatchPosterState) : Exec DbError Address := self.payToCell.get

/-- Write the pay-to address. Nothing else depends on it. -/
def setPayTo (self : BatchPosterState) (addr : Address) : Exec DbError Unit :=
  self.payToCell.set addr

end BatchPosterState

namespace BatchPostersTable
variable [Keccak]

/-- `BatchPostersTable::initialize`: the total is zero and the set is empty. -/
def initializeTable (storage : Storage) : Exec DbError Unit := do
  (storage.openStorageBackedBigInt totalFundsDueOffset).setChecked I256.zero
  AddressSet.initializeSet (storage.openCachedSubStorage posterAddrsKey)

/-- `BatchPostersTable::open`. -/
def «open» (storage : Storage) : BatchPostersTable where
  posterAddrs := AddressSet.new (storage.openCachedSubStorage posterAddrsKey)
  posterInfo := storage.openSubStorage posterInfoKey
  totalFundsDueCell := storage.openStorageBackedBigInt totalFundsDueOffset

/-- The record of `poster`, whether or not it is a member. -/
def internalOpen (self : BatchPostersTable) (poster : Address) : BatchPosterState where
  fundsDueCell := (self.posterInfo.openSubStorage poster.asSlice).openStorageBackedBigInt 0
  payToCell := (self.posterInfo.openSubStorage poster.asSlice).openStorageBackedAddress 1
  tableTotalFundsDue := self.totalFundsDueCell

/-- Add a poster with nothing due. -/
def addPoster (self : BatchPostersTable) (posterAddress payTo : Address) :
    Exec OpenPosterResult BatchPosterState := do
  let isBatchPoster ← (self.posterAddrs.isMember posterAddress).mapErr .db
  if isBatchPoster then
    .fail (.semantic .alreadyExists)
  else
    let bpState := self.internalOpen posterAddress
    (bpState.fundsDueCell.setChecked I256.zero).mapErr .db
    (bpState.payToCell.set payTo).mapErr .db
    (self.posterAddrs.add posterAddress).mapErr .db
    pure bpState

/-- The record of `poster`. A poster that is not a member is added, with itself as
the account to pay, or refused. -/
def openPoster (self : BatchPostersTable) (poster : Address) (createIfNotExist : Bool) :
    Exec OpenPosterResult BatchPosterState := do
  let isBatchPoster ← (self.posterAddrs.isMember poster).mapErr .db
  if !isBatchPoster then
    if !createIfNotExist then
      .fail (.semantic .notExist)
    else
      self.addPoster poster poster
  else
    pure (self.internalOpen poster)

/-- Whether the account is in the set of the posters. -/
def containsPoster (self : BatchPostersTable) (poster : Address) : Exec DbError Bool :=
  self.posterAddrs.isMember poster

/-- The first members of the set, `maxNumToGet` of them at most. -/
def allPosters (self : BatchPostersTable) (maxNumToGet : U64) : Exec DbError (List Address) :=
  self.posterAddrs.allMembers maxNumToGet

/-- The stored total of the amounts due. -/
def totalFundsDue (self : BatchPostersTable) : Exec DbError I256 := self.totalFundsDueCell.get

/-- The loop of `getFundsDueList`. -/
def fundsDueItems (self : BatchPostersTable) :
    List Address → Exec OpenPosterResult (List FundsDueItem)
  | [] => pure []
  | posterAddr :: posters => do
      let poster ← self.openPoster posterAddr false
      let due ← poster.fundsDue.mapErr .db
      let rest ← self.fundsDueItems posters
      if due.isPositive then pure ({ dueTo := posterAddr, balance := due } :: rest) else pure rest

/-- The posters with a positive amount due. -/
def getFundsDueList (self : BatchPostersTable) : Exec OpenPosterResult (List FundsDueItem) := do
  let allPosters ← (self.allPosters (BitVec.allOnes 64)).mapErr .db
  self.fundsDueItems allPosters

end BatchPostersTable

end ArbReth
