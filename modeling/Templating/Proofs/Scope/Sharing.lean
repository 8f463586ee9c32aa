import Templating.Proofs.Scope.Binding

/-!
# A scope that is used again

A loop could enter a new scope for every pass. It does not, and what an earlier pass has left in the
scope of the loop is still there in the next one. `Twins` are two chains that differ in what their
current scopes bind some names to. Each assignment to such a name takes it from the difference, as
long as no scope further out binds it.

Results:
1. `Twins.set`, `Twins.eq`: an assignment to both chains leaves one name less to differ in, and
   chains that differ in no name are equal.
2. `Reusable.set_set`: setting the names of a loop makes a reusable scope equal to a new one.
3. `Reusable.of_effect`: an evaluation that introduces no names leaves a scope reusable.
-/

namespace Templating.Chain

/-! ## Definitions -/

/-- Two chains that only differ in the current scope, where they may bind the names that `differ` to
different values or not at all. Scopes further out bind none of these names. -/
structure Twins (differ : String → Prop) (first second : Chain) : Prop where
  outer : second.outer = first.outer
  firstSorted : Fields.Sorted first.current
  secondSorted : Fields.Sorted second.current
  same : ∀ name, ¬ differ name → second.current.find? name = first.current.find? name
  unhiding : ∀ name, differ name → ∀ i, ¬ first.Binds (i + 1) name

/-- The scope of a loop with the given variable between two passes. Apart from `loop` and the
variable it binds nothing, and these only where no scope further out does. The names that were
`bound` further out still are. -/
structure Reusable (target : String) (bound : String → Prop) (chain : Chain) : Prop where
  nested : 1 < chain.depth
  sorted : chain.SortedAt 0
  own : ∀ name, chain.Binds 0 name → name = "loop" ∨ name = target
  unhiding : ∀ name, chain.Binds 0 name → ∀ i, ¬ chain.Binds (i + 1) name
  around : ∀ name, bound name → ∃ i, chain.Binds (i + 1) name

/-! ## 1. Twins -/

namespace Twins

variable {differ : String → Prop} {first second : Chain}

/-- An assignment goes to the current scope in both chains or in none. -/
theorem binds_or_free (h : Twins differ first second) (name : String) :
    (second.current.binds name || !second.outer.any (·.binds name)) =
      (first.current.binds name || !first.outer.any (·.binds name)) := by
  rw [h.outer]
  by_cases hname : differ name
  · have hfree : first.outer.any (·.binds name) = false := by
      rw [List.any_eq_false]
      intro scope hscope hbinds
      obtain ⟨i, hi⟩ := List.mem_iff_getElem?.mp hscope
      refine h.unhiding name hname i ?_
      rw [Binds, binding, scopes, List.getElem?_cons_succ, hi]
      exact hbinds
    rw [hfree]
    simp
  · rw [Scope.binds, Scope.binds, h.same name hname]

/-- An assignment to both chains leaves one name less to differ in. -/
theorem set (h : Twins differ first second) (name : String) (value : Value) :
    Twins (fun other => differ other ∧ other ≠ name) (first.set name value)
      (second.set name value) := by
  have hunhiding : ∀ other, differ other ∧ other ≠ name →
      ∀ i, ¬ (first.set name value).Binds (i + 1) other := by
    intro other hother i hi
    have heffect : Effect (fun _ => True) (fun _ => True) first (first.set name value) :=
      Effect.set value trivial trivial
    exact h.unhiding other hother.1 i (heffect.outer i other hi)
  have hbranch := h.binds_or_free name
  by_cases hcurrent : (first.current.binds name || !first.outer.any (·.binds name)) = true
  · have hfirst : first.set name value = { first with current := first.current.bind name value } :=
      if_pos hcurrent
    have hsecond : second.set name value =
        { second with current := second.current.bind name value } :=
      if_pos (hbranch.trans hcurrent)
    rw [hfirst] at hunhiding ⊢
    rw [hsecond]
    refine ⟨h.outer, h.firstSorted.insert name value, h.secondSorted.insert name value, ?_,
      hunhiding⟩
    intro other hother
    rw [Scope.find?_bind, Scope.find?_bind]
    split
    next => rfl
    next hne => exact h.same other fun hdiffer => hother ⟨hdiffer, hne⟩
  · have hfirst : first.set name value =
        { first with outer := overwrite name value first.outer } := if_neg hcurrent
    have hsecond : second.set name value =
        { second with outer := overwrite name value second.outer } :=
      if_neg fun h => hcurrent (hbranch.symm.trans h)
    rw [hfirst] at hunhiding ⊢
    rw [hsecond]
    refine ⟨congrArg (overwrite name value) h.outer, h.firstSorted, h.secondSorted, ?_, hunhiding⟩
    intro other hother
    by_cases hname : other = name
    · -- Neither of the current scopes binds the name, or it would have been set there.
      subst hname
      have hfree : ∀ {chain : Chain},
          ¬ (chain.current.binds other || !chain.outer.any (·.binds other)) = true →
          chain.current.find? other = none := by
        intro chain hchain
        rw [Bool.or_eq_true, not_or] at hchain
        exact Option.not_isSome_iff_eq_none.mp hchain.1
      rw [hfree hcurrent, hfree fun h => hcurrent (hbranch.symm.trans h)]
    · exact h.same other fun hdiffer => hother ⟨hdiffer, hname⟩

/-- Chains that differ in no name are equal. -/
theorem eq (h : Twins differ first second) (hsame : ∀ name, ¬ differ name) : second = first := by
  obtain ⟨firstCurrent, firstOuter⟩ := first
  obtain ⟨secondCurrent, secondOuter⟩ := second
  obtain rfl : secondOuter = firstOuter := h.outer
  have hcurrent := h.secondSorted.eq_of_find? h.firstSorted fun name => h.same name (hsame name)
  exact congrArg (Chain.mk · secondOuter) hcurrent

end Twins

/-! ## 2. Passes of a loop -/

namespace Reusable

variable {target : String} {bound : String → Prop} {chain after : Chain}

/-- A new scope is reusable. -/
theorem push (chain : Chain) (target : String) :
    Reusable target (fun name => ∃ i, chain.Binds i name) chain.push where
  nested := by
    rw [depth_push]
    exact Nat.succ_lt_succ (Nat.succ_pos _)
  sorted scope hscope := by
    obtain rfl := Option.some.inj hscope
    exact Fields.sorted_nil
  own name h := absurd h Bool.false_ne_true
  unhiding name h := absurd h Bool.false_ne_true
  around name h := h

/-- Setting the names of a loop makes a reusable scope equal to a new one. -/
theorem set_set (h : Reusable target bound chain) (state item : Value) :
    (chain.pop.push.set "loop" state).set target item =
      (chain.set "loop" state).set target item := by
  have hpush : chain.pop.push.outer = chain.outer := scopes_pop h.nested
  have htwins : Twins (chain.Binds 0) chain chain.pop.push :=
    { outer := hpush
      firstSorted := h.sorted chain.current rfl
      secondSorted := Fields.sorted_nil
      same := fun name hname => (Option.not_isSome_iff_eq_none.mp hname).symm
      unhiding := h.unhiding }
  refine ((htwins.set "loop" state).set target item).eq ?_
  rintro name ⟨⟨hname, hloop⟩, htarget⟩
  rcases h.own name hname with rfl | rfl
  · exact hloop rfl
  · exact htarget rfl

/-- A scope stays reusable if nothing is introduced in it but names of the loop and names that are
bound further out. The latter are not introduced at all, they are overwritten there. -/
theorem of_effect {fresh written : String → Prop} (h : Reusable target bound chain)
    (heffect : Effect fresh written chain after)
    (hfresh : ∀ name, fresh name → name = "loop" ∨ name = target ∨ bound name) :
    Reusable target bound after where
  nested := by
    rw [heffect.depth]
    exact h.nested
  sorted := heffect.sorted 0 h.sorted
  own name hname := by
    rcases heffect.current name hname with hold | hnew
    · exact h.own name hold
    · rcases hfresh name hnew with hname | hname | hbound
      · exact Or.inl hname
      · exact Or.inr hname
      · rcases heffect.unhiding name hname with hold | hfree
        · exact h.own name hold
        · obtain ⟨i, hi⟩ := h.around name hbound
          exact absurd hi (hfree (i + 1))
  unhiding name hname i hi := by
    have houter := heffect.outer i name hi
    rcases heffect.unhiding name hname with hold | hfree
    · exact h.unhiding name hold i houter
    · exact hfree (i + 1) houter
  around name hname := by
    obtain ⟨i, hi⟩ := h.around name hname
    exact ⟨i, heffect.keeps (i + 1) name hi⟩

end Reusable

end Templating.Chain
