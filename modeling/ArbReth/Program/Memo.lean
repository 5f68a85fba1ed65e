/-!
# `ArbReth.Program.Memo`: caches of the values of a function

A `Cache` answers lookups and takes values. Nothing is said about what it keeps: a lookup
may change its state, and a push may evict any entry. `OnlyPushed` is the one law. A lookup
answers only with a value that was pushed before under the same key, in whatever order the
lookups and pushes came.

A program that pushes only the values of a function `f` leaves the cache `Honest`. Then the
law makes every answer a value of `f` (`Honest.lookup`), so the answer can be used in place
of the computation.

`Keeps` is the usual way to the law: a relation between states, keys and values that holds
what a lookup answers, and to which only a push adds.
-/

set_option autoImplicit false

namespace ArbReth.Program

/-- A cache from `K` to `V` with state `C`. A push returns the entry that it has replaced or
evicted. -/
class Cache (K V : outParam Type) (C : Type) where
  get : C → K → Option V × C
  push : C → K → V → Option (K × V) × C

namespace Cache
variable {K V C : Type}

/-- A call on a cache. -/
inductive Call (K V : Type) where
  | get (key : K)
  | push (key : K) (value : V)

variable [Cache K V C]

/-- The cache after a call. -/
def Call.apply (c : C) : Call K V → C
  | .get key => (Cache.get c key).2
  | .push key value => (Cache.push c key value).2

/-- The cache after the calls. -/
def after (start : C) (calls : List (Call K V)) : C := calls.foldl Call.apply start

/-- From the start on, a lookup answers only with a value that was pushed for its key. -/
def OnlyPushed (start : C) : Prop :=
  ∀ calls key value, (Cache.get (after start calls) key).1 = some value →
    Call.push key value ∈ calls

/-- The cache was reached from the start, and only values of `f` were pushed. -/
def Honest (start : C) (f : K → V) (c : C) : Prop :=
  ∃ calls, c = after start calls ∧ ∀ key value, Call.push key value ∈ calls → value = f key

namespace Honest
variable {start c : C} {f : K → V}

/-- The start is honest: nothing was pushed. -/
theorem initial : Honest start f start := ⟨[], rfl, fun _ _ h => by cases h⟩

/-- A lookup keeps a cache honest. -/
theorem get (h : Honest start f c) (key : K) : Honest start f (Cache.get c key).2 := by
  obtain ⟨calls, rfl, hcalls⟩ := h
  refine ⟨calls ++ [.get key], by simp [after, Call.apply], fun key' value hmem => ?_⟩
  simp only [List.mem_append, List.mem_singleton, reduceCtorEq, or_false] at hmem
  exact hcalls key' value hmem

/-- A push of the value of the function keeps a cache honest. -/
theorem push (h : Honest start f c) (key : K) : Honest start f (Cache.push c key (f key)).2 := by
  obtain ⟨calls, rfl, hcalls⟩ := h
  refine ⟨calls ++ [.push key (f key)], by simp [after, Call.apply], fun key' value hmem => ?_⟩
  simp only [List.mem_append, List.mem_singleton, Call.push.injEq] at hmem
  rcases hmem with hmem | ⟨rfl, rfl⟩
  · exact hcalls key' value hmem
  · rfl

/-- An answer of an honest cache is the value of the function. -/
theorem lookup (hlaw : OnlyPushed start) (h : Honest start f c) {key : K} {value : V}
    (hget : (Cache.get c key).1 = some value) : value = f key := by
  obtain ⟨calls, rfl, hcalls⟩ := h
  exact hcalls key value (hlaw calls key value hget)

end Honest

/-- What a cache keeps: its answers are kept, and only a push adds to it. -/
structure Keeps (holds : C → K → V → Prop) : Prop where
  answer : ∀ c key value, (Cache.get c key).1 = some value → holds c key value
  of_get : ∀ c key' key value, holds (Cache.get c key').2 key value → holds c key value
  of_push : ∀ c key' value' key value, holds (Cache.push c key' value').2 key value →
    (key = key' ∧ value = value') ∨ holds c key value

namespace Keeps
variable {holds : C → K → V → Prop}

/-- What is kept after the calls was pushed by them, or was kept before. -/
theorem of_after (h : Keeps holds) (calls : List (Call K V)) (c : C) {key : K} {value : V}
    (hholds : holds (after c calls) key value) :
    Call.push key value ∈ calls ∨ holds c key value := by
  induction calls generalizing c with
  | nil => exact .inr hholds
  | cons call calls ih =>
    rcases ih (call.apply c) hholds with hmem | hkept
    · exact .inl (List.mem_cons_of_mem _ hmem)
    · cases call with
      | get key' => exact .inr (h.of_get c key' key value hkept)
      | push key' value' =>
        rcases h.of_push c key' value' key value hkept with ⟨rfl, rfl⟩ | hkept
        · exact .inl List.mem_cons_self
        · exact .inr hkept

/-- A cache that keeps nothing at the start answers only with what was pushed. -/
theorem onlyPushed (h : Keeps holds) {start : C} (hempty : ∀ key value, ¬holds start key value) :
    OnlyPushed start := by
  intro calls key value hget
  have hkept := h.answer _ key value hget
  rcases h.of_after calls start hkept with hmem | hstart
  · exact hmem
  · exact absurd hstart (hempty key value)

end Keeps

end Cache

end ArbReth.Program
