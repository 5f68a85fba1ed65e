import ArbReth.Context

/-!
# `ArbReth.Burn`: burners, and the machine that a handle of the storage works on

`Burner` is the part of the trait of the source that the storage uses. `burn`
records a charge, and `readOnly` tells whether writes are refused. No law relates
the two: an implementation may answer `readOnly` from the charges it has seen.
`SystemBurner` is the implementation of the source. It never refuses a charge, and
its amounts saturate.

`Context σ` is a revm context with state `σ`. A read of the database answers with
the word that `view` shows and leaves the state alone, and a write succeeds. `World`
and `TwoLayer` are contexts. In a `World` the view is the store. In a `TwoLayer` it
is the database, which does not show the uncommitted writes of the journal.

`Machine σ B` is a context together with a burner, for arbitrary `σ` and `B`. The
tracer is notified and has no say in the run.
-/

set_option autoImplicit false

namespace ArbReth

open ArbReth.Program

/-! ### Burners -/

/-- `Burner`. `burn` changes the burner behind a shared reference, so its model
returns the burner. -/
class Burner (B : Type) where
  burn : B → ResourceKind → U64 → B
  readOnly : B → Bool

namespace Burner
variable {B : Type} [Burner B]

/-- The burner refuses writes, now and after any further charges. -/
def IsReadOnly (b : B) : Prop :=
  ∀ charges : List (ResourceKind × U64),
    readOnly (charges.foldl (fun b c => burn b c.1 c.2) b) = true

/-- A burner that stays read-only is read-only now. -/
theorem IsReadOnly.readOnly {b : B} (h : IsReadOnly b) : readOnly b = true := h []

/-- A burner that stays read-only stays so after a charge. -/
theorem IsReadOnly.burn {b : B} (h : IsReadOnly b) (kind : ResourceKind) (amount : U64) :
    IsReadOnly (burn b kind amount) := fun charges => h ((kind, amount) :: charges)

end Burner

/-- The burner of the system: it counts the gas and never refuses a charge. -/
structure SystemBurner where
  gasBurnt : MultiGas
  readOnly : Bool

namespace SystemBurner

/-- `SystemBurner::new`. -/
def new (readOnly : Bool) : SystemBurner := { gasBurnt := .zero, readOnly }

/-- Count the gas of one kind, saturating. Nothing is refused. -/
def burn (self : SystemBurner) (kind : ResourceKind) (amount : U64) : SystemBurner :=
  { self with gasBurnt := self.gasBurnt.saturatingIncrementInto kind amount }

/-- Count the gas of all kinds, saturating. Nothing is refused. -/
def burnMultiGas (self : SystemBurner) (amount : MultiGas) : SystemBurner :=
  { self with gasBurnt := self.gasBurnt.saturatingAddInto amount }

/-- The gas counted so far, as a single number. -/
def burned (self : SystemBurner) : U64 := self.gasBurnt.singleGas

instance : Burner SystemBurner where
  burn := burn
  readOnly := readOnly

/-- Charges do not change whether a system burner refuses writes. -/
theorem readOnly_foldl (charges : List (ResourceKind × U64)) (b : SystemBurner) :
    (charges.foldl (fun b c => Burner.burn b c.1 c.2) b).readOnly = b.readOnly := by
  induction charges generalizing b with
  | nil => rfl
  | cons c charges ih => exact ih (Burner.burn b c.1 c.2)

/-- A system burner that is made read-only stays so. -/
theorem isReadOnly_new : Burner.IsReadOnly (new true) := fun charges =>
  readOnly_foldl charges (new true)

end SystemBurner

/-! ### Contexts -/

/-- A revm context with state `σ`, whose database shows `view`. -/
class Context (σ : Type) where
  handle : Handler Resp σ
  view : σ → Address → StorageKey → StorageValue
  handle_storage : ∀ account key s, handle (.storage account key) s = (.ok (view s account key), s)
  handle_sstore : ∀ account key value s, (handle (.sstore account key value) s).1 = .ok ()

instance : Context World where
  handle := World.handle
  view := World.store
  handle_storage _ _ _ := rfl
  handle_sstore _ _ _ _ := rfl

instance : Context TwoLayer where
  handle := TwoLayer.handle
  view := TwoLayer.db
  handle_storage _ _ _ := rfl
  handle_sstore _ _ _ _ := rfl

/-! ### Machines -/

/-- A context and the burner that the handles of the storage hold. -/
structure Machine (σ B : Type) where
  context : σ
  burner : B

namespace Machine
variable {σ B : Type}

/-- The machine after a charge. -/
def charge [Burner B] (m : Machine σ B) (kind : ResourceKind) (amount : U64) : Machine σ B :=
  { m with burner := Burner.burn m.burner kind amount }

/-- The machine after a command that the context answers. -/
def step [Context σ] (m : Machine σ B) (c : Cmd) : Machine σ B :=
  { m with context := (Context.handle c m.context).2 }

/-- The word that the database shows. -/
def view [Context σ] (m : Machine σ B) : Address → StorageKey → StorageValue :=
  Context.view m.context

/-- A read changes nothing. -/
@[simp] theorem step_storage [Context σ] (m : Machine σ B) (a : Address) (k : StorageKey) :
    m.step (.storage a k) = m := by
  rw [step, Context.handle_storage]

variable [Context σ] [Burner B]

/-- The meaning of the commands, when `refuses` answers for the burner. -/
def handleWith (refuses : B → Bool) : Handler Resp (Machine σ B)
  | .burn kind amount, m => ((), m.charge kind amount)
  | .readOnly, m => (refuses m.burner, m)
  | .captureStorageGet _, m => ((), m)
  | .captureStorageSet _ _, m => ((), m)
  -- the other commands are the context's
  | c, m => ((Context.handle c m.context).1, m.step c)

/-- The meaning of the commands. -/
abbrev handle : Handler Resp (Machine σ B) := handleWith Burner.readOnly

/-- The same meaning, when the burner accepts writes. -/
abbrev handleWritable : Handler Resp (Machine σ B) := handleWith fun _ => false

/-- The start of a transaction on an empty database, under a system burner. -/
def blank (readOnly : Bool) : Machine TwoLayer SystemBurner where
  context := .begin (fun _ _ => 0) (fun _ => 0) readOnly
  burner := .new readOnly

end Machine

end ArbReth
