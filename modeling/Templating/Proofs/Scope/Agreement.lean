import Mathlib.Logic.Function.Defs
import Templating.Proofs.Scope.Binding

/-!
# Chains that agree

Two chains agree on some names if they have equally many scopes and the scopes in the same place
bind these names to the same values. The names may be other ones in the second chain. What a chain
binds other names to, and which scopes bind them, does not matter.

Results:
1. `Agree.lookup`: names on which chains agree have the same value in both.
2. `Agree.set`: assigning a value to a name in both keeps the agreement, whether they agree on that
   name or not.
3. `Agree.push`, `Agree.pop`: so do entering and leaving a scope.
-/

namespace Templating.Chain

/-- The second chain binds the `relevant` names, renamed by `r`, like the first one. -/
structure Agree (r : String → String) (relevant : String → Prop) (first second : Chain) : Prop where
  depth : second.depth = first.depth
  binding : ∀ i name, relevant name → second.binding i (r name) = first.binding i name

theorem pop_of_depth {chain : Chain} (h : ¬ 1 < chain.depth) : chain.pop = chain := by
  obtain ⟨current, outer⟩ := chain
  cases outer with
  | nil => rfl
  | cons scope outer => exact absurd (Nat.succ_lt_succ (Nat.succ_pos _)) h

namespace Agree

variable {r : String → String} {relevant : String → Prop} {first second : Chain}

theorem lookup (h : Agree r relevant first second) {name : String} (hname : relevant name) :
    second.lookup (r name) = first.lookup name := by
  have hbinding := fun i => h.binding i name hname
  rw [lookup_eq, lookup_eq, home_congr hbinding, hbinding]

/-- The name is written in the same place in both chains if they agree on it. If they do not, it may
be written in different places, but no other name changes. -/
theorem set (h : Agree r relevant first second) (hr : Function.Injective r) (name : String)
    (value : Value) : Agree r relevant (first.set name value) (second.set (r name) value) where
  depth := by rw [depth_set, depth_set, h.depth]
  binding i other hother := by
    rw [binding_set, binding_set, h.binding i other hother]
    by_cases hname : other = name
    · subst hname
      rw [home_congr fun j => h.binding j other hother]
      simp
    · have hnew : r other ≠ r name := fun hsame => hname (hr hsame)
      simp [hname, hnew]

theorem push (h : Agree r relevant first second) : Agree r relevant first.push second.push where
  depth := by rw [depth_push, depth_push, h.depth]
  binding i name hname := by
    rw [binding_push, binding_push]
    cases i with
    | zero => rfl
    | succ i => exact h.binding i name hname

theorem pop (h : Agree r relevant first second) : Agree r relevant first.pop second.pop := by
  by_cases hfirst : 1 < first.depth
  · have hsecond : 1 < second.depth := h.depth ▸ hfirst
    refine ⟨?_, fun i name hname => ?_⟩
    · rw [depth_pop hfirst, depth_pop hsecond, h.depth]
    · rw [binding_pop hfirst, binding_pop hsecond]
      exact h.binding (i + 1) name hname
  · have hsecond : ¬ 1 < second.depth := h.depth ▸ hfirst
    rw [pop_of_depth hfirst, pop_of_depth hsecond]
    exact h

end Agree

end Templating.Chain
