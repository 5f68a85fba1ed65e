import ArbReth.L1Pricing.State
import ArbReth.Program.Realizes

/-!
# `ArbReth.Reply`: what the calls of the pricers return

The public functions of the two pricers have different results and errors. A run of many
calls lists them, so they are put into one type each: `Reply` and `CallError`.
`Exec.reply` does this for the program of one call.
-/

set_option autoImplicit false

namespace ArbReth

open ArbReth.Program

/-- The result of a call. A record that is opened is known by its poster, so its handle is
no part of the result. -/
inductive Reply where
  | done
  | flag (b : Bool)
  | uint32 (v : U32)
  | uint64 (v : U64)
  | int64 (v : I64)
  | bigUint (v : U256)
  | bigInt (v : I256)
  | address (a : Address)
  | addresses (l : List Address)
  | fundsDue (l : List FundsDueItem)
deriving DecidableEq

/-- The error of a call. -/
inductive CallError where
  | db (e : DbError)
  | semantic (e : BatchPosterError)
  | invalidTime
deriving DecidableEq

namespace CallError

/-- The error of an operation on the table. -/
def ofOpen : OpenPosterResult → CallError
  | .db e => .db e
  | .semantic e => .semantic e

/-- The error of an update. -/
def ofUpdate : UpdateSpendingError → CallError
  | .db e => .db e
  | .invalidTime => .invalidTime

end CallError

/-- The program of a call ends as the function does, in the common types. -/
theorem Exec.reply_realizes {σ τ ε α : Type} {h : Handler Resp σ} {R : σ → τ → Prop} {t t' : τ}
    {p : Exec ε α} {r : Outcome ε α} (err : ε → CallError) (result : α → Reply)
    (hp : Realizes h R p t r t') :
    Realizes h R (p.reply err result) t ((r.mapErr err).map result) t' :=
  (hp.mapErr_map err).bind_pure result

end ArbReth
