import Mathlib.Logic.Function.Basic
import Mathlib.Algebra.BigOperators.Group.List.Basic
import Mathlib.Algebra.GroupWithZero.Nat

/-!
# `ArbReth.Program.Basic`: programs over a command interface

A `Prog Resp ε α` is a finite tree of commands. Each command `c` is answered by
a value of the type `Resp c`, and the program continues with the answer. It ends
with a result, with an error value of type `ε` (an `Err` of the host language),
or with a panic. The tree says nothing about what a command does. A `Handler`
says it, over a state type of its choice, and `exec` runs the program with a
handler.

The same program can thus run over several state types. `trace` lists the commands of
a run. `weigh` sums a weight over the commands of a run. `exec_bind`, `trace_bind` and
`weigh_bind` are the sequencing rules. `forRev_done` is the invariant rule of a loop.
-/

set_option autoImplicit false

namespace ArbReth.Program

/-- A program that issues commands of type `Cmd`. A command `c` is answered by a
value of type `Resp c`. -/
inductive Prog {Cmd : Type} (Resp : Cmd → Type) (ε α : Type) : Type where
  /-- The program returns `a`. -/
  | done (a : α)
  /-- The program returns the error `e`. -/
  | fail (e : ε)
  /-- The program panics with the message `msg`. -/
  | panic (msg : String)
  /-- The program issues the command `c` and continues with the answer. -/
  | call (c : Cmd) (k : Resp c → Prog Resp ε α)

/-- How a run ends. -/
inductive Outcome (ε α : Type) : Type where
  | ok (a : α)
  | err (e : ε)
  | panic (msg : String)
deriving DecidableEq, Repr

/-- Two runs end alike: with the same result, with the same error, or both with a panic. -/
def Outcome.Alike {ε α : Type} : Outcome ε α → Outcome ε α → Prop
  | .ok a, .ok b => a = b
  | .err e, .err e' => e = e'
  | .panic _, .panic _ => True
  | _, _ => False

/-- The run has ended with a panic. -/
def Outcome.IsPanic {ε α : Type} : Outcome ε α → Prop
  | .panic _ => True
  | _ => False

/-- Map the result of a run that returns. -/
def Outcome.map {ε α β : Type} (f : α → β) : Outcome ε α → Outcome ε β
  | .ok a => .ok (f a)
  | .err e => .err e
  | .panic m => .panic m

/-- Map the error of a run that fails. -/
def Outcome.mapErr {ε ε' α : Type} (f : ε → ε') : Outcome ε α → Outcome ε' α
  | .ok a => .ok a
  | .err e => .err (f e)
  | .panic m => .panic m

/-- The meaning of every command, as a function on a state type `σ`. -/
abbrev Handler {Cmd : Type} (Resp : Cmd → Type) (σ : Type) : Type :=
  (c : Cmd) → σ → Resp c × σ

/-- One executed command, with its answer. -/
abbrev Event {Cmd : Type} (Resp : Cmd → Type) : Type := (c : Cmd) × Resp c

variable {Cmd : Type} {Resp : Cmd → Type} {ε ε' α β σ τ : Type}

namespace Prog

/-- Sequencing. An error or a panic of `p` is the error or panic of the whole. -/
def bind : Prog Resp ε α → (α → Prog Resp ε β) → Prog Resp ε β
  | .done a, f => f a
  | .fail e, _ => .fail e
  | .panic m, _ => .panic m
  | .call c k, f => .call c fun r => (k r).bind f

instance : Monad (Prog Resp ε) where
  pure := .done
  bind := bind

/-- Handle the error of `p` with `f`. A panic cannot be handled. -/
def handleErr : Prog Resp ε α → (ε → Prog Resp ε' α) → Prog Resp ε' α
  | .done a, _ => .done a
  | .fail e, f => f e
  | .panic m, _ => .panic m
  | .call c k, f => .call c fun r => (k r).handleErr f

/-- Convert the error of `p` with `f`: the `map_err` of the host language. -/
def mapErr (f : ε → ε') (p : Prog Resp ε α) : Prog Resp ε' α :=
  p.handleErr fun e => .fail (f e)

/-- Run `body` on `first`, `first + 1`, …, `first + count - 1`, in this order. -/
def forRange (body : Nat → Prog Resp ε Unit) : (first count : Nat) → Prog Resp ε Unit
  | _, 0 => pure ()
  | first, count + 1 => do body first; forRange body (first + 1) count

/-- Run `body` on the state for the indices `n - 1`, …, `1`, `0`, in this order. -/
def forRev : (n : Nat) → (body : Fin n → σ → Prog Resp ε σ) → σ → Prog Resp ε σ
  | 0, _, s => pure s
  | n + 1, body, s => do
      let s ← body (Fin.last n) s
      forRev n (fun i => body i.castSucc) s

/-- Run the program with the handler `h` from the state `s`. A run that ends with
an error or a panic keeps the state it has reached. -/
def exec (h : Handler Resp σ) : Prog Resp ε α → σ → Outcome ε α × σ
  | .done a, s => (.ok a, s)
  | .fail e, s => (.err e, s)
  | .panic m, s => (.panic m, s)
  | .call c k, s => exec h (k (h c s).1) (h c s).2

/-- The commands of the run of the program, in order, with their answers. -/
def trace (h : Handler Resp σ) : Prog Resp ε α → σ → List (Event Resp)
  | .done _, _ => []
  | .fail _, _ => []
  | .panic _, _ => []
  | .call c k, s => ⟨c, (h c s).1⟩ :: trace h (k (h c s).1) (h c s).2

/-- The sum of the weight `f` over the commands of the run. -/
def weigh (f : Event Resp → Nat) (h : Handler Resp σ) (p : Prog Resp ε α) (s : σ) : Nat :=
  ((p.trace h s).map f).sum

/-! ### Sequencing rules -/

/-- `pure` is the program that returns at once. -/
@[simp] theorem pure_eq_done (a : α) : (pure a : Prog Resp ε α) = .done a := rfl

/-- A program that has returned hands its result on. -/
@[simp] theorem bind_done (a : α) (f : α → Prog Resp ε β) :
    ((.done a : Prog Resp ε α) >>= f) = f a := rfl

/-- What follows a failure is not run. -/
@[simp] theorem bind_fail (e : ε) (f : α → Prog Resp ε β) :
    ((.fail e : Prog Resp ε α) >>= f) = .fail e := rfl

/-- What follows a panic is not run. -/
@[simp] theorem bind_panic (m : String) (f : α → Prog Resp ε β) :
    ((.panic m : Prog Resp ε α) >>= f) = .panic m := rfl

/-- What follows a command follows each of its answers. -/
@[simp] theorem bind_call (c : Cmd) (k : Resp c → Prog Resp ε α) (f : α → Prog Resp ε β) :
    (.call c k >>= f) = .call c fun r => k r >>= f := rfl

/-- Returning leaves the state. -/
@[simp] theorem exec_done (h : Handler Resp σ) (a : α) (s : σ) :
    exec h (.done a : Prog Resp ε α) s = (.ok a, s) := rfl

/-- Failing leaves the state. -/
@[simp] theorem exec_fail (h : Handler Resp σ) (e : ε) (s : σ) :
    exec h (.fail e : Prog Resp ε α) s = (.err e, s) := rfl

/-- Panicking leaves the state. -/
@[simp] theorem exec_panic (h : Handler Resp σ) (m : String) (s : σ) :
    exec h (.panic m : Prog Resp ε α) s = (.panic m, s) := rfl

/-- A command is answered by the handler, in the state that it leaves. -/
@[simp] theorem exec_call (h : Handler Resp σ) (c : Cmd) (k : Resp c → Prog Resp ε α) (s : σ) :
    exec h (.call c k) s = exec h (k (h c s).1) (h c s).2 := rfl

/-- The run of a sequence: the second program starts where the first has ended,
when the first has returned a result. -/
theorem exec_bind (h : Handler Resp σ) (p : Prog Resp ε α) (f : α → Prog Resp ε β) (s : σ) :
    exec h (p >>= f) s
      = match exec h p s with
        | (.ok a, s') => exec h (f a) s'
        | (.err e, s') => (.err e, s')
        | (.panic m, s') => (.panic m, s') := by
  induction p generalizing s with
  | done a => rfl
  | fail e => rfl
  | panic m => rfl
  | call c k ih => exact ih _ _

/-- The run of a sequence whose first program returns. -/
theorem exec_bind_ok {h : Handler Resp σ} {p : Prog Resp ε α} {s s' : σ} {a : α}
    (hp : exec h p s = (.ok a, s')) (f : α → Prog Resp ε β) :
    exec h (p >>= f) s = exec h (f a) s' := by
  rw [exec_bind, hp]

/-- The run of a sequence whose first program fails. -/
theorem exec_bind_err {h : Handler Resp σ} {p : Prog Resp ε α} {s s' : σ} {e : ε}
    (hp : exec h p s = (.err e, s')) (f : α → Prog Resp ε β) :
    exec h (p >>= f) s = (.err e, s') := by
  rw [exec_bind, hp]

/-- The run of a sequence whose first program panics. -/
theorem exec_bind_panic {h : Handler Resp σ} {p : Prog Resp ε α} {s s' : σ} {m : String}
    (hp : exec h p s = (.panic m, s')) (f : α → Prog Resp ε β) :
    exec h (p >>= f) s = (.panic m, s') := by
  rw [exec_bind, hp]

/-- The run of a program with its errors handled by `f`. -/
theorem exec_handleErr (h : Handler Resp σ) (p : Prog Resp ε α) (f : ε → Prog Resp ε' α) (s : σ) :
    exec h (p.handleErr f) s
      = match exec h p s with
        | (.ok a, s') => (.ok a, s')
        | (.err e, s') => exec h (f e) s'
        | (.panic m, s') => (.panic m, s') := by
  induction p generalizing s with
  | done a => rfl
  | fail e => rfl
  | panic m => rfl
  | call c k ih => exact ih _ _

/-- The trace of a sequence: the trace of the first program, then the trace of
the second from where the first has ended. -/
theorem trace_bind (h : Handler Resp σ) (p : Prog Resp ε α) (f : α → Prog Resp ε β) (s : σ) :
    trace h (p >>= f) s
      = trace h p s ++ match exec h p s with
        | (.ok a, s') => trace h (f a) s'
        | _ => [] := by
  induction p generalizing s with
  | done a => rfl
  | fail e => rfl
  | panic m => rfl
  | call c k ih => exact congrArg _ (ih _ _)

/-- Handling the errors of a program by further errors or panics adds no command. -/
theorem trace_handleErr (h : Handler Resp σ) (p : Prog Resp ε α) (f : ε → Prog Resp ε' α)
    (hf : ∀ e s, trace h (f e) s = []) (s : σ) :
    trace h (p.handleErr f) s = trace h p s := by
  induction p generalizing s with
  | done a => rfl
  | fail e => exact hf e s
  | panic m => rfl
  | call c k ih => exact congrArg _ (ih _ _)

/-- Returning weighs nothing. -/
@[simp] theorem weigh_done (f : Event Resp → Nat) (h : Handler Resp σ) (a : α) (s : σ) :
    weigh f h (.done a : Prog Resp ε α) s = 0 := rfl

/-- Failing weighs nothing. -/
@[simp] theorem weigh_fail (f : Event Resp → Nat) (h : Handler Resp σ) (e : ε) (s : σ) :
    weigh f h (.fail e : Prog Resp ε α) s = 0 := rfl

/-- Panicking weighs nothing. -/
@[simp] theorem weigh_panic (f : Event Resp → Nat) (h : Handler Resp σ) (m : String) (s : σ) :
    weigh f h (.panic m : Prog Resp ε α) s = 0 := rfl

/-- A command weighs what its event does, and the rest is weighed after it. -/
@[simp] theorem weigh_call (f : Event Resp → Nat) (h : Handler Resp σ) (c : Cmd)
    (k : Resp c → Prog Resp ε α) (s : σ) :
    weigh f h (.call c k) s = f ⟨c, (h c s).1⟩ + weigh f h (k (h c s).1) (h c s).2 := rfl

/-- The weight of a sequence. -/
theorem weigh_bind (f : Event Resp → Nat) (h : Handler Resp σ) (p : Prog Resp ε α)
    (q : α → Prog Resp ε β) (s : σ) :
    weigh f h (p >>= q) s
      = weigh f h p s + match exec h p s with
        | (.ok a, s') => weigh f h (q a) s'
        | _ => 0 := by
  simp only [weigh, trace_bind, List.map_append, List.sum_append]
  congr 1
  split <;> rfl

/-! ### Loops -/

/-- A loop whose body returns and passes an invariant from each index to the one before. -/
theorem forRev_done {n : Nat} {body : Fin n → σ → Prog Resp ε σ} (Inv : Nat → σ → Prop)
    (hbody : ∀ (i : Fin n) s, Inv (i + 1) s → ∃ s', body i s = .done s' ∧ Inv i s') {s : σ}
    (h : Inv n s) : ∃ s', forRev n body s = .done s' ∧ Inv 0 s' := by
  induction n generalizing s with
  | zero => exact ⟨s, rfl, h⟩
  | succ n ih =>
    obtain ⟨s₁, hlast, h₁⟩ := hbody (Fin.last n) s h
    obtain ⟨s', hrest, h'⟩ := ih (fun i s hs => hbody i.castSucc s hs) h₁
    refine ⟨s', ?_, h'⟩
    rw [forRev, hlast, bind_done, hrest]

end Prog

end ArbReth.Program
