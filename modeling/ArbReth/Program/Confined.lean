import ArbReth.Program.Realizes

/-!
# `ArbReth.Program.Confined`: what a program can do, whatever the answers are

`Confined P failure inj Own p` bounds a program without running it. Each command that `p`
can issue satisfies `P`. An answer can hold an error, which `failure` takes out of it, and
`p` ends with that error at once, as `inj` puts it into the errors of `p`. Any other error
that `p` ends with is one of its own, that is, one of `Own`.

The rules follow the structure of the program, so a program is confined when its parts
are. Where the second part of a sequence is confined for some results of the first only,
`Returns` bounds the results. Four things follow of each run, with each handler:

* `forall_mem_trace`: the commands of the run satisfy `P`;
* `exec_of_failure`: a failed command is the last one, and its error is that of the run;
* `failure_of_exec`: an error of the run is that of the last command, or one of its own;
* `preserves`: what the commands of `P` preserve holds after the run when it holds before.

`Prog.Issues P p` is the first of these bounds alone. A program that issues commands of `P`
runs alike with two handlers that answer these commands alike (`Prog.Issues.exec_eq`).
-/

set_option autoImplicit false

namespace ArbReth.Program

variable {Cmd : Type} {Resp : Cmd → Type} {E ε ε' α β σ : Type}

/-- The program issues commands of `P` only, and ends with the first error that answers
one of them. -/
inductive Confined (P : Cmd → Prop) (failure : (c : Cmd) → Resp c → Option E) (inj : E → ε)
    (Own : ε → Prop) {α : Type} : Prog Resp ε α → Prop
  | done (a : α) : Confined P failure inj Own (.done a)
  | fail (e : ε) (he : Own e) : Confined P failure inj Own (.fail e)
  | panic (m : String) : Confined P failure inj Own (.panic m)
  | call (c : Cmd) (k : Resp c → Prog Resp ε α) (hc : P c)
      (hfail : ∀ r e, failure c r = some e → k r = .fail (inj e))
      (hk : ∀ r, failure c r = none → Confined P failure inj Own (k r)) :
      Confined P failure inj Own (.call c k)

/-- Each result that the program can return satisfies `Q`, whatever the answers are. -/
def Prog.Returns (Q : α → Prop) : Prog Resp ε α → Prop
  | .done a => Q a
  | .fail _ => True
  | .panic _ => True
  | .call _ k => ∀ r, (k r).Returns Q

/-- Every result satisfies the trivial condition. -/
theorem Prog.returns_true (p : Prog Resp ε α) : p.Returns fun _ => True := by
  induction p with
  | call c k ih => exact ih
  | _ => exact trivial

namespace Prog.Returns
variable {Q : β → Prop}

/-- What a sequence returns is what its last part returns. -/
theorem bind {p : Prog Resp ε α} {q : α → Prog Resp ε β} (hq : ∀ a, (q a).Returns Q) :
    (p >>= q).Returns Q := by
  induction p with
  | done a => exact hq a
  | fail e => exact trivial
  | panic m => exact trivial
  | call c k ih => exact fun r => ih r

/-- A branch returns what its sides return. -/
theorem ite {c : Prop} [Decidable c] {p q : Prog Resp ε β} (hp : p.Returns Q)
    (hq : q.Returns Q) : (if c then p else q).Returns Q := by
  split
  · exact hp
  · exact hq

/-- A handler of the errors that only fails or panics adds no result. -/
theorem handleErr {p : Prog Resp ε β} {f : ε → Prog Resp ε' β} (hp : p.Returns Q)
    (hf : ∀ e, (f e).Returns Q) : (p.handleErr f).Returns Q := by
  induction p with
  | done a => exact hp
  | fail e => exact hf e
  | panic m => exact trivial
  | call c k ih => exact fun r => ih r (hp r)

end Prog.Returns

namespace Confined
variable {P Q : Cmd → Prop} {failure : (c : Cmd) → Resp c → Option E} {inj : E → ε}
  {inj' : E → ε'} {Own : ε → Prop} {Own' : ε' → Prop}

/-! ### Rules -/

/-- Confinement to less is confinement to more. -/
theorem mono {Own' : ε → Prop} {p : Prog Resp ε α} (hp : Confined P failure inj Own p)
    (hPQ : ∀ c, P c → Q c) (hOwn : ∀ e, Own e → Own' e) : Confined Q failure inj Own' p := by
  induction hp with
  | done a => exact .done a
  | fail e he => exact .fail e (hOwn e he)
  | panic m => exact .panic m
  | call c k hc hfail _ ih => exact .call c k (hPQ c hc) hfail ih

/-- A sequence whose second part is confined for the results of the first. -/
theorem bind_of_returns {p : Prog Resp ε α} {q : α → Prog Resp ε β} {R : α → Prop}
    (hp : Confined P failure inj Own p) (hR : p.Returns R)
    (hq : ∀ a, R a → Confined P failure inj Own (q a)) :
    Confined P failure inj Own (p >>= q) := by
  induction hp with
  | done a => exact hq a hR
  | fail e he => exact .fail e he
  | panic m => exact .panic m
  | call c k hc hfail _ ih =>
      refine .call c _ hc ?_ fun r hr => ih r hr (hR r)
      intro r e he
      show k r >>= q = _
      rw [hfail r e he, Prog.bind_fail]

/-- A sequence is confined when its parts are. -/
theorem bind {p : Prog Resp ε α} {q : α → Prog Resp ε β} (hp : Confined P failure inj Own p)
    (hq : ∀ a, Confined P failure inj Own (q a)) : Confined P failure inj Own (p >>= q) :=
  hp.bind_of_returns p.returns_true fun a _ => hq a

/-- The handler of the errors passes on those of the commands. It decides about those that
are the program's own. -/
theorem handleErr {p : Prog Resp ε α} {f : ε → Prog Resp ε' α}
    (hp : Confined P failure inj Own p) (hinj : ∀ e, f (inj e) = .fail (inj' e))
    (hf : ∀ e, Own e → Confined P failure inj' Own' (f e)) :
    Confined P failure inj' Own' (p.handleErr f) := by
  induction hp with
  | done a => exact .done a
  | fail e he => exact hf e he
  | panic m => exact .panic m
  | call c k hc hfail _ ih =>
      refine .call c _ hc ?_ ih
      intro r e he
      show (k r).handleErr f = _
      rw [hfail r e he]
      exact hinj e

/-- A confined program stays confined under a map of its errors. -/
theorem mapErr {p : Prog Resp ε α} (hp : Confined P failure inj Own p) (f : ε → ε')
    (hOwn : ∀ e, Own e → Own' (f e)) :
    Confined P failure (fun e => f (inj e)) Own' (p.mapErr f) :=
  hp.handleErr (fun _ => rfl) fun e he => .fail (f e) (hOwn e he)

/-- A branch is confined when both sides are. -/
theorem ite {c : Prop} [Decidable c] {p q : Prog Resp ε α} (hp : Confined P failure inj Own p)
    (hq : Confined P failure inj Own q) :
    Confined P failure inj Own (if c then p else q) := by
  split
  · exact hp
  · exact hq

/-- A continuation that several branches of the program share. -/
theorem join {k : α → Prog Resp ε β} {p : (α → Prog Resp ε β) → Prog Resp ε β}
    (hk : ∀ a, Confined P failure inj Own (k a))
    (hp : ∀ k : α → Prog Resp ε β, (∀ a, Confined P failure inj Own (k a)) →
      Confined P failure inj Own (p k)) :
    Confined P failure inj Own (have rest := k; p rest) := hp k hk

/-- A loop is confined when every turn is. -/
theorem forRange {body : Nat → Prog Resp ε Unit}
    (hbody : ∀ i, Confined P failure inj Own (body i)) (first count : Nat) :
    Confined P failure inj Own (Prog.forRange body first count) := by
  induction count generalizing first with
  | zero => exact .done ()
  | succ count ih => exact (hbody first).bind fun _ => ih (first + 1)

/-! ### Runs -/

variable {h : Handler Resp σ}

/-- The commands of a run satisfy `P`. -/
theorem forall_mem_trace {p : Prog Resp ε α} (hp : Confined P failure inj Own p) (s : σ) :
    ∀ ev ∈ p.trace h s, P ev.1 := by
  induction hp generalizing s with
  | done a => exact fun ev hev => absurd hev List.not_mem_nil
  | fail e he => exact fun ev hev => absurd hev List.not_mem_nil
  | panic m => exact fun ev hev => absurd hev List.not_mem_nil
  | call c k hc hfail hk ih =>
      intro ev hev
      rcases List.mem_cons.mp hev with rfl | hev
      · exact hc
      · cases hanswer : failure c (h c s).1 with
        | none => exact ih _ hanswer _ ev hev
        | some e =>
            rw [hfail _ e hanswer] at hev
            exact absurd hev List.not_mem_nil

/-- A command that fails is the last one, and the run ends with its error. -/
theorem exec_of_failure {p : Prog Resp ε α} (hp : Confined P failure inj Own p) {s : σ}
    {before after : List (Event Resp)} {ev : Event Resp} {e : E}
    (htrace : p.trace h s = before ++ ev :: after) (hev : failure ev.1 ev.2 = some e) :
    after = [] ∧ (p.exec h s).1 = .err (inj e) := by
  induction hp generalizing s before with
  | done a => cases before <;> cases htrace
  | fail e he => cases before <;> cases htrace
  | panic m => cases before <;> cases htrace
  | call c k hc hfail hk ih =>
      change ⟨c, (h c s).1⟩ :: (k (h c s).1).trace h (h c s).2 = before ++ ev :: after at htrace
      rw [Prog.exec_call]
      cases before with
      | nil =>
          obtain ⟨rfl, hrest⟩ := List.cons.inj htrace
          rw [hfail _ e hev] at hrest ⊢
          exact ⟨hrest.symm, rfl⟩
      | cons first before =>
          have hrest := (List.cons.inj htrace).2
          cases hanswer : failure c (h c s).1 with
          | none => exact ih _ hanswer hrest
          -- after an error there is no further command
          | some e' =>
              rw [hfail _ e' hanswer] at hrest
              cases before <;> cases hrest

/-- An error of the run is one of the program's own, or the error of the last command. -/
theorem failure_of_exec {p : Prog Resp ε α} (hp : Confined P failure inj Own p) {s : σ} {e : ε}
    (hrun : (p.exec h s).1 = .err e) :
    Own e ∨ ∃ before ev e', p.trace h s = before ++ [ev] ∧ failure ev.1 ev.2 = some e'
      ∧ inj e' = e := by
  induction hp generalizing s with
  | done a => cases hrun
  | fail e' he =>
      cases hrun
      exact .inl he
  | panic m => cases hrun
  | call c k hc hfail hk ih =>
      rw [Prog.exec_call] at hrun
      have htrace : (Prog.call c k : Prog Resp ε _).trace h s
          = ⟨c, (h c s).1⟩ :: (k (h c s).1).trace h (h c s).2 := rfl
      cases hanswer : failure c (h c s).1 with
      | none =>
          refine (ih _ hanswer hrun).imp_right ?_
          rintro ⟨before, ev, e', hrest, hev, he⟩
          exact ⟨⟨c, (h c s).1⟩ :: before, ev, e', by rw [htrace, hrest]; rfl, hev, he⟩
      | some e' =>
          rw [hfail _ e' hanswer] at htrace hrun
          cases hrun
          exact .inr ⟨[], ⟨c, (h c s).1⟩, e', htrace, hanswer, rfl⟩

/-- What each command of `P` preserves is preserved by a run. -/
theorem preserves {p : Prog Resp ε α} (hp : Confined P failure inj Own p) {I : σ → Prop}
    (hI : ∀ c s, P c → I s → I (h c s).2) {s : σ} (hs : I s) : I (p.exec h s).2 := by
  induction hp generalizing s with
  | done a => exact hs
  | fail e he => exact hs
  | panic m => exact hs
  | call c k hc hfail hk ih =>
      have hnext := hI c s hc hs
      rw [Prog.exec_call]
      cases hanswer : failure c (h c s).1 with
      | none => exact ih _ hanswer hnext
      | some e =>
          rw [hfail _ e hanswer]
          exact hnext

end Confined

/-! ### The commands alone -/

/-- Each command that the program can issue satisfies `P`, whatever the answers are. -/
def Prog.Issues (P : Cmd → Prop) : Prog Resp ε α → Prop
  | .done _ => True
  | .fail _ => True
  | .panic _ => True
  | .call c k => P c ∧ ∀ r, (k r).Issues P

namespace Prog.Issues
variable {P : Cmd → Prop} {τ : Type}

/-- Returning issues nothing. -/
theorem pure (a : α) : (Pure.pure a : Prog Resp ε α).Issues P := trivial

/-- A sequence issues what its parts issue. -/
theorem bind {p : Prog Resp ε α} {q : α → Prog Resp ε β} (hp : p.Issues P)
    (hq : ∀ a, (q a).Issues P) : (p >>= q).Issues P := by
  induction p with
  | done a => exact hq a
  | fail e => exact trivial
  | panic m => exact trivial
  | call c k ih => exact ⟨hp.1, fun r => ih r (hp.2 r)⟩

/-- A branch issues what its sides issue. -/
theorem ite {c : Prop} [Decidable c] {p q : Prog Resp ε α} (hp : p.Issues P) (hq : q.Issues P) :
    (if c then p else q).Issues P := by
  split
  · exact hp
  · exact hq

/-- A map of the errors changes nothing of what is issued. -/
theorem mapErr {p : Prog Resp ε α} (hp : p.Issues P) (f : ε → ε') : (p.mapErr f).Issues P := by
  induction p with
  | call c k ih => exact ⟨hp.1, fun r => ih r (hp.2 r)⟩
  | _ => exact trivial

/-- Two runs from related states, where the commands of `P` have the same answers in related
states and lead to related ones. -/
theorem exec_rel {p : Prog Resp ε α} (hp : p.Issues P) {h : Handler Resp σ} {h' : Handler Resp τ}
    {R : σ → τ → Prop}
    (hstep : ∀ c s t, P c → R s t → (h c s).1 = (h' c t).1 ∧ R (h c s).2 (h' c t).2)
    {s : σ} {t : τ} (hst : R s t) :
    (p.exec h s).1 = (p.exec h' t).1 ∧ R (p.exec h s).2 (p.exec h' t).2 := by
  induction p generalizing s t with
  | call c k ih =>
      obtain ⟨hanswer, hnext⟩ := hstep c s t hp.1 hst
      rw [exec_call, exec_call, ← hanswer]
      exact ih _ (hp.2 _) hnext
  | _ => exact ⟨rfl, hst⟩

/-- Two handlers that answer the commands of `P` alike run the program alike. -/
theorem exec_eq {p : Prog Resp ε α} (hp : p.Issues P) {h : Handler Resp σ} {h' : Handler Resp τ}
    (φ : σ → τ) (hφ : ∀ c s, P c → h' c (φ s) = ((h c s).1, φ (h c s).2)) (s : σ) :
    p.exec h' (φ s) = ((p.exec h s).1, φ (p.exec h s).2) := by
  have hstep : ∀ c s t, P c → t = φ s → (h c s).1 = (h' c t).1 ∧ (h' c t).2 = φ (h c s).2 := by
    rintro c s t hc rfl
    rw [hφ c s hc]
    exact ⟨rfl, rfl⟩
  obtain ⟨hresult, hlast⟩ := hp.exec_rel (R := fun s t => t = φ s) hstep (s := s) rfl
  exact Prod.ext hresult.symm hlast

/-- What each command of `P` preserves is preserved by a run. -/
theorem preserves {p : Prog Resp ε α} (hp : p.Issues P) {h : Handler Resp σ} {I : σ → Prop}
    (hI : ∀ c s, P c → I s → I (h c s).2) {s : σ} (hs : I s) : I (p.exec h s).2 := by
  induction p generalizing s with
  | call c k ih => exact ih _ (hp.2 _) (hI c s hp.1 hs)
  | _ => exact hs

end Prog.Issues

/-- A confined program issues commands of `P` only. -/
theorem Confined.issues {P : Cmd → Prop} {failure : (c : Cmd) → Resp c → Option E} {inj : E → ε}
    {Own : ε → Prop} {p : Prog Resp ε α} (hp : Confined P failure inj Own p) : p.Issues P := by
  induction hp with
  | call c k hc hfail _ ih =>
      refine ⟨hc, fun r => ?_⟩
      cases hr : failure c r with
      | none => exact ih r hr
      | some e =>
          rw [hfail r e hr]
          trivial
  | _ => trivial

/-- What each operation preserves is preserved by a sequence of operations. -/
theorem runOps_preserves {Op ρ : Type} {h : Handler Resp σ} {step : Op → Prog Resp ε ρ}
    {I : σ → Prop} (hstep : ∀ op s, I s → I ((step op).exec h s).2) (ops : List Op) {s : σ}
    (hs : I s) : I (runOps h step ops s).2 := by
  induction ops generalizing s with
  | nil => exact hs
  | cons op ops ih => exact ih (hstep op s hs)

end ArbReth.Program
