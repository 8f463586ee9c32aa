import Templating.Proofs.Evaluation.Effect
import Templating.Proofs.Scope.Sharing

/-!
# Loops with a scope for each pass

All passes of a loop run in one scope. `loopPassesApart` enters a new scope for each of them, so that
no pass sees what another one has bound. A template can only tell the difference if the body
introduces a name: one that is neither set by the loop itself nor bound around it.

Results:
1. `loopPasses_apart`: from a scope that is reusable, the passes in that scope and the passes in
   scopes of their own give the same result and leave the same chain around the loop.
2. `evaluate_loop_apart`: so does a whole loop whose body introduces no name.
-/

namespace Templating

/-! ## Definitions -/

/-- The passes of a loop over the items that are left, each in a new scope. -/
def loopPassesApart (name : String) (body : Evaluation String) (length : Nat) :
    Nat → List Value → Evaluation String
  | _, [] => pure ""
  | index, item :: rest => do
    let text ← (loopPass name body index length item).inChild
    return text ++ (← loopPassesApart name body length (index + 1) rest)

/-- A loop whose passes run in scopes of their own. -/
def evaluateLoopApart (natives : Natives) (target iterable : Node) (body : List Node) :
    Evaluation Value := do
  let name ← Evaluation.ofExcept target.target
  match ← iterable.evaluate natives with
  | .array items =>
    return .string (← loopPassesApart name (evaluateBlock natives body) items.length 0 items)
  | other => throw (.typeMismatch .iterable other.kind)

/-! ## 1. Passes -/

section

variable {name : String} {body : Evaluation String} {bound fresh written : String → Prop}

/-- A pass in a reusable scope is a pass in a new scope. -/
theorem start_loopPass_inChild {chain : Chain} (h : chain.Reusable name bound) (index length : Nat)
    (item : Value) :
    (loopPass name body index length item).inChild.start chain.pop =
      (((loopPass name body index length item).start chain).1,
        ((loopPass name body index length item).start chain).2.pop) := by
  rw [Evaluation.start_inChild, start_loopPass, start_loopPass, h.set_set]

/-- A pass whose body introduces no name leaves the scope reusable. -/
theorem reusable_loopPass {chain : Chain} (h : chain.Reusable name bound)
    (hbody : body.Respects (Chain.Effect fresh written))
    (hfresh : ∀ other, fresh other → other = "loop" ∨ other = name ∨ bound other)
    (index length : Nat) (item : Value) :
    ((loopPass name body index length item).start chain).2.Reusable name bound := by
  have hset : ∀ {chain : Chain} {other : String} (value : Value), chain.Reusable name bound →
      (other = "loop" ∨ other = name) → (chain.set other value).Reusable name bound := by
    intro chain other value hreusable hother
    have heffect : Chain.Effect (· = other) (fun _ => True) chain (chain.set other value) :=
      Chain.Effect.set value rfl trivial
    refine hreusable.of_effect heffect ?_
    rintro _ rfl
    exact hother.imp_right Or.inl
  rw [start_loopPass]
  refine Chain.Reusable.of_effect ?_ (hbody _) hfresh
  exact hset item (hset _ h (Or.inl rfl)) (Or.inr rfl)

/-- Passes in a reusable scope and passes in scopes of their own give the same result and leave the
same chain around the loop, as long as the body introduces no name. -/
theorem loopPasses_apart (hbody : body.Respects (Chain.Effect fresh written))
    (hfresh : ∀ other, fresh other → other = "loop" ∨ other = name ∨ bound other)
    {chain : Chain} (h : chain.Reusable name bound) (length index : Nat) (items : List Value) :
    (loopPassesApart name body length index items).start chain.pop =
      (((loopPasses name body length index items).start chain).1,
        ((loopPasses name body length index items).start chain).2.pop) := by
  induction items generalizing index chain with
  | nil => rfl
  | cons item rest ih =>
    have hafter := reusable_loopPass h hbody hfresh index length item
    rw [loopPassesApart, loopPasses, Evaluation.start_bind, Evaluation.start_bind,
      start_loopPass_inChild h]
    generalize (loopPass name body index length item).start chain = run at hafter ⊢
    obtain ⟨result, after⟩ := run
    cases result with
    | error error => rfl
    | ok text =>
      simp only
      rw [Evaluation.start_bind, Evaluation.start_bind, ih hafter]
      generalize (loopPasses name body length (index + 1) rest).start after = restRun
      obtain ⟨restResult, restAfter⟩ := restRun
      cases restResult with
      | error error => rfl
      | ok texts => rfl

end

/-! ## 2. Loops -/

/-- Whether the passes of a loop share a scope or get one each makes no difference, neither for the
value or the error nor for the bindings afterwards, if every assignment in the body outside of
further loops is to the loop variable, to `loop` or to a name that is bound when the loop starts. -/
theorem evaluate_loop_apart {natives : Natives} (hnatives : natives.ReadOnly)
    (target iterable : Node) (body : List Node) (chain : Chain)
    (hbody : ∀ statement ∈ body, ∀ name, statement.Sets name →
      target = .identifier name ∨ name = "loop" ∨
        ∃ i, ((iterable.evaluate natives).start chain).2.Binds i name) :
    ((Node.loop target iterable body).evaluate natives).start chain =
      (evaluateLoopApart natives target iterable body).start chain := by
  rw [Node.evaluate, evaluateLoopApart, Evaluation.start_bind, Evaluation.start_bind]
  cases htarget : target.target with
  | error error => rfl
  | ok name =>
    obtain rfl := Node.target_eq_ok_iff.mp htarget
    show (iterable.evaluate natives >>= _).start chain =
      (iterable.evaluate natives >>= _).start chain
    rw [Evaluation.start_bind, Evaluation.start_bind]
    generalize (iterable.evaluate natives).start chain = run at hbody ⊢
    obtain ⟨result, start⟩ := run
    cases result with
    | error error => rfl
    | ok value =>
      cases value with
      | array items =>
        have hblock : (evaluateBlock natives body).Respects
            (Chain.Effect (fun name => ∃ statement ∈ body, statement.Sets name) fun _ => True) :=
          (Chain.Effect.composes _ _).evaluateBlock fun statement hstatement =>
            (evaluate_effect hnatives statement).mono (fun _ h => ⟨statement, hstatement, h⟩)
              fun _ _ => trivial
        have hfresh : ∀ other, (∃ statement ∈ body, statement.Sets other) →
            other = "loop" ∨ other = name ∨ ∃ i, start.Binds i other := by
          rintro other ⟨statement, hstatement, hsets⟩
          rcases hbody statement hstatement other hsets with hname | hloop | hbound
          · exact Or.inr (Or.inl (Node.identifier.inj hname).symm)
          · exact Or.inl hloop
          · exact Or.inr (Or.inr hbound)
        have hpasses := loopPasses_apart hblock hfresh (Chain.Reusable.push start name)
          items.length 0 items
        rw [Chain.pop_push] at hpasses
        simp only
        rw [Evaluation.start_bind, Evaluation.start_bind, Evaluation.start_inChild, hpasses]
      | _ => rfl

/-- The body overwrites the loop variable, `loop` and a global, a loop in it introduces a name of its
own, and the second pass fails. The function reads the scope that it is called from. -/
theorem evaluate_loop_apart_failing_pass :
    let peek : Natives := fun _ _ => do return (← get).lookup "cell"
    let target := Node.identifier "row"
    let iterable := Node.identifier "rows"
    let body := [
      Node.loop (.identifier "cell") (.identifier "row") [
        .set (.identifier "own") (.call (.identifier "peek") []),
        .set (.identifier "total") (.binary .add (.identifier "total") (.identifier "own"))],
      .set (.identifier "row") (.identifier "total"),
      .set (.identifier "loop") (.identifier "row")]
    let rows := Value.array [.array [.string "a", .boolean true], .null]
    let chain : Chain := ⟨[("peek", .native "peek" 0), ("rows", rows), ("total", .string "-")], []⟩
    let run := ((Node.loop target iterable body).evaluate peek).start chain
    peek.ReadOnly ∧
      (∀ statement ∈ body, ∀ name, statement.Sets name →
        target = .identifier name ∨ name = "loop" ∨
          ∃ i, ((iterable.evaluate peek).start chain).2.Binds i name) ∧
      run = (evaluateLoopApart peek target iterable body).start chain ∧
      run.1 = .error (.typeMismatch .iterable .null) ∧
      run.2.lookup "total" = .string "-atrue" := by
  intro peek target iterable body rows chain run
  have hreadOnly : peek.ReadOnly := fun _ _ _ => rfl
  have hbody : ∀ statement ∈ body, ∀ name, statement.Sets name →
      target = .identifier name ∨ name = "loop" ∨
        ∃ i, ((iterable.evaluate peek).start chain).2.Binds i name := by
    intro statement hstatement name hsets
    simp only [body, List.mem_cons, List.not_mem_nil, or_false] at hstatement
    rcases hstatement with rfl | rfl | rfl
    · simp at hsets
    · exact Or.inl (by simpa [target] using hsets)
    · exact Or.inr (Or.inl (by simpa [eq_comm] using hsets))
  have hfails : run.1 = .error (.typeMismatch .iterable .null) := by
    simp only [run, chain, rows, body, iterable, target, peek]
    rfl
  have htotal : run.2.lookup "total" = .string "-atrue" := by
    simp only [run, chain, rows, body, iterable, target, peek]
    rfl
  exact ⟨hreadOnly, hbody, evaluate_loop_apart hreadOnly target iterable body chain hbody, hfails,
    htotal⟩

end Templating
