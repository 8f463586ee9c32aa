import Templating.Proofs.Evaluation.Lockstep

/-!
# Trees that may change places

Two trees are independent if neither writes a name that the other one mentions or writes. Of two
such trees the second one runs in a chain that the first one has changed, but only in names that the
second one does not look at.

Results:
1. `evaluate_agree`: what an evaluation leaves agrees with what it started from on all names that
   the tree does not write.
2. `evaluate_behind`: a tree that mentions none of the names that another one writes does the same
   before and after it.
3. `evaluate_commute`: independent trees that are evaluated one after the other may change places.
-/

namespace Templating

/-! ## Definitions -/

/-- Neither of two trees writes a name that the other one mentions or writes. -/
structure Node.Independent (first second : Node) : Prop where
  forward : ∀ name, first.Writes name → ¬ second.Mentions name
  backward : ∀ name, second.Writes name → ¬ first.Mentions name
  apart : ∀ name, first.Writes name → ¬ second.Writes name

variable (functions : Nat → String × HostFunction)

/-! ## 1. What one tree leaves -/

/-- The chains before and after an evaluation agree on the names that the tree does not write. -/
theorem evaluate_agree (node : Node) (chain : Chain) :
    Chain.Agree id (fun name => ¬ node.Writes name) chain
      ((node.evaluate (Natives.ofHost functions)).start chain).2 := by
  have heffect := evaluate_effect (Natives.ofHost_readOnly functions) node chain
  exact ⟨heffect.depth, heffect.unwritten⟩

/-! ## 2. One tree behind another -/

/-- A tree that mentions none of the names that another one writes gives the same result in a chain
and in what the other one leaves of it, whether the other one succeeds or fails there. What the tree
leaves itself only differs in names that the other one writes. -/
theorem evaluate_behind {node other : Node}
    (h : ∀ name, other.Writes name → ¬ node.Mentions name) (chain : Chain) :
    let left := ((other.evaluate (Natives.ofHost functions)).start chain).2
    let ahead := (node.evaluate (Natives.ofHost functions)).start chain
    let behind := (node.evaluate (Natives.ofHost functions)).start left
    behind.1 = ahead.1 ∧ Chain.Agree id (fun name => ¬ other.Writes name) ahead.2 behind.2 := by
  have hlockstep := evaluate_lockstep Function.injective_id rfl functions node
    fun name hmentions hwrites => h name hwrites hmentions
  rw [Node.rename_id] at hlockstep
  exact hlockstep _ _ (evaluate_agree functions other chain)

/-! ## 3. Two trees -/

/-- Independent trees may change places: if they succeed one after the other, then they do so in the
other order as well, each of them with the same value, and every scope ends with the same
bindings. -/
theorem evaluate_commute {first second : Node} (h : first.Independent second)
    {chain middle after : Chain} {x y : Value}
    (hfirst : (first.evaluate (Natives.ofHost functions)).start chain = (.ok x, middle))
    (hsecond : (second.evaluate (Natives.ofHost functions)).start middle = (.ok y, after)) :
    ∃ between last,
      (second.evaluate (Natives.ofHost functions)).start chain = (.ok y, between) ∧
      (first.evaluate (Natives.ofHost functions)).start between = (.ok x, last) ∧
      last.depth = after.depth ∧ ∀ i name, last.binding i name = after.binding i name := by
  obtain ⟨hy, hahead⟩ := evaluate_behind functions h.forward chain
  obtain ⟨hx, hbehind⟩ := evaluate_behind functions h.backward chain
  simp only [hfirst, hsecond] at hy hahead
  simp only [hfirst] at hx hbehind
  have hbetween := evaluate_agree functions first
    ((second.evaluate (Natives.ofHost functions)).start chain).2
  have hafter := evaluate_agree functions second middle
  rw [hsecond] at hafter
  refine ⟨_, _, Prod.ext hy.symm rfl, Prod.ext hx rfl, ?_, fun i name => ?_⟩
  · rw [hbetween.depth, hahead.depth]
  -- A name that the second tree writes has its last value before the first tree runs, any other
  -- name gets it from the first tree.
  · by_cases hname : second.Writes name
    · have hfree : ¬ first.Writes name := fun hwrites => h.apart name hwrites hname
      exact (hbetween.binding i name hfree).trans (hahead.binding i name hfree).symm
    · exact (hbehind.binding i name hname).trans (hafter.binding i name hname).symm

/-- One tree introduces a name in the current scope, the other one is a loop that overwrites a name
further out and introduces names in a scope of its own. -/
theorem evaluate_commute_loop :
    let none := Natives.ofHost fun _ => ("none", fun _ => .ok .none)
    let first := Node.set (.identifier "title") (.identifier "last")
    let second := Node.loop (.identifier "item") (.identifier "items") [
      .set (.identifier "total") (.identifier "item"), .identifier "total"]
    let items := Value.array [.string "a", .boolean true]
    let chain : Chain := ⟨[("items", items)], [[("last", .string "z"), ("total", .null)]]⟩
    first.Independent second ∧
      ∃ between last, (second.evaluate none).start chain = (.ok (.string "atrue"), between) ∧
        (first.evaluate none).start between = (.ok .null, last) ∧
        last.binding 0 "title" = some (.string "z") ∧
        last.binding 1 "total" = some (.boolean true) := by
  intro none first second items chain
  have hindependent : first.Independent second := by
    have hmentions : ∀ node : Node, ∀ name, node.Mentions name ↔
        Node.identifier name ∈ node.subtrees := fun _ _ => Node.mem_subtrees_iff.symm
    refine ⟨fun name h => ?_, fun name h => ?_, fun name h => ?_⟩
    · have hname : "title" = name := by simpa [first] using h
      simp [hmentions, ← hname, second, Node.subtrees_eq, Node.children]
    · have hname : ("item" = name ∨ name = "loop") ∨ "total" = name := by simpa [second] using h
      rcases hname with (rfl | rfl) | rfl <;>
        simp [hmentions, first, Node.subtrees_eq, Node.children]
    · have hname : "title" = name := by simpa [first] using h
      simp [← hname, second]
  let middle : Chain := ⟨[("items", items), ("title", .string "z")], chain.outer⟩
  let after : Chain := ⟨middle.current, [[("last", .string "z"), ("total", .boolean true)]]⟩
  have hfirst : (first.evaluate none).start chain = (.ok .null, middle) := by
    simp only [first, none, chain, middle, items]
    rfl
  have hsecond : (second.evaluate none).start middle = (.ok (.string "atrue"), after) := by
    simp only [second, none, chain, middle, items, after]
    rfl
  obtain ⟨between, last, hsecond, hfirst, -, hbinding⟩ :=
    evaluate_commute (fun _ => ("none", fun _ => .ok .none)) hindependent hfirst hsecond
  exact ⟨hindependent, between, last, hsecond, hfirst, hbinding 0 "title", hbinding 1 "total"⟩

end Templating
