import ArbReth.L2Pricing.Calls

/-!
# `ArbReth.L2Pricing.Transaction`: the calls in one transaction, on records

In a transaction of revm each call reads the record as it was before the transaction. Most
calls read nothing that they have written. The two loops that clear a list do: each round reads
the old length, so all rounds remove the same element, the last one. An addition after it
reads the old length as well, and goes behind the place that was cleared.

`L2Call.applyOver` says what each call does in a transaction of its own. It is
`L2Call.apply` but for the two clears and the two migrations.
-/

set_option autoImplicit false

namespace ArbReth

open ArbReth.Program

/-- Another last element. An empty list has none. -/
def setLast {α : Type} (l : List α) (a : α) : List α := l.modify (l.length - 1) fun _ => a

namespace L2Call

/-- The call on a record, in a transaction of its own. The migration to multi-gas constraints
writes each of them to the same place, so the last one stays. -/
def applyOver : L2Call → L2Record → Outcome CallError Reply × L2Record
  | .change .clearGasConstraints, R => (.ok .done, R.withGas R.gasConstraints.dropLast)
  | .change .clearMultiGasConstraints, R =>
      (.ok .done, R.withMultiGas R.multiGasConstraints.dropLast)
  | .setGasConstraintsFromLegacy, R =>
      if R.gasConstraints.length = 2 ^ 64 - 1 then
        (.panic "attempt to add with overflow", R.withGas R.gasConstraints.dropLast)
      else
        (.ok .done,
          R.withGas (setLast R.gasConstraints .zero ++ [R.migratedConstraint]))
  | .setMultiGasConstraintsFromSingleGasConstraints, R =>
      match R.gasConstraints.getLast? with
      | none => (.ok .done, R.withMultiGas R.multiGasConstraints.dropLast)
      | some c =>
          if R.multiGasConstraints.length = 2 ^ 64 - 1 then
            (.panic "attempt to add with overflow",
              R.withMultiGas R.multiGasConstraints.dropLast)
          else
            (.ok .done,
              R.withMultiGas (setLast R.multiGasConstraints .zero ++ [.ofGas c]))
  | c, R => c.apply R

end L2Call

end ArbReth
