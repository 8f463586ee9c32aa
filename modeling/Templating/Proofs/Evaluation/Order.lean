import Templating.Proofs.Evaluation.LoopPasses

/-!
# The order of evaluation

The operands of a node are those of its children that it evaluates before it decides anything. They
are evaluated in the order in which `Node.children` lists them, each once and in the chain that the
one before it has left, until one of them fails or the node refuses what it has got so far.
`Node.InOrder` are the courses that an evaluation may take by this rule, and what each of them gives
and leaves.

Results:
1. `evaluateAll_of_inTurn`, `evaluateAll_of_failure`: a list of nodes that are evaluated from left
   to right; `exists_inTurn_or_failure`: there is no third case. `evaluateBlock_eq`: a block is such
   a list, and `Passes.start_loopPasses` says what the passes of a loop give together.
2. `Strict.inOrder_iff`: a node that only goes on with the values of its operands; one instance for
   each kind of such nodes.
3. `member_inOrder_iff`, `branch_inOrder_iff`, `loop_inOrder_iff`: nodes for which it depends on a
   value what is evaluated next.
4. `evaluate_inOrder_iff`: an evaluation of a node is one of these courses, whatever the node is.
-/

namespace Templating

/-! ## Definitions -/

/-- Some nodes are evaluated from left to right, each once and in the chain that the one before it
has left, and all of them succeed. -/
inductive InTurn (natives : Natives) : List Node → Chain → List Value → Chain → Prop
  | done {chain : Chain} : InTurn natives [] chain [] chain
  | next {node : Node} {rest : List Node} {chain after last : Chain} {value : Value}
      {values : List Value} :
      (node.evaluate natives).start chain = (.ok value, after) →
      InTurn natives rest after values last →
      InTurn natives (node :: rest) chain (value :: values) last

/-- What some passes give together: their joined texts, or the error of the one that fails. -/
def Pass.outcome : List Pass → Except RuntimeError String
  | [] => .ok ""
  | pass :: rest => do
    let text ← pass.result
    return text ++ (← outcome rest)

namespace Node

/-- The children that are evaluated whatever their values are. The target of an assignment or a
loop and a property that is a name are only looked at, and of a branch or a loop it depends on the
first value what is evaluated next. -/
def operands (node : Node) : List Node :=
  match node with
  | set .. | member _ (identifier _) false => node.children.tail
  | branch .. => node.children.take 1
  | loop .. => node.children.tail.take 1
  | _ => node.children

/-- Once its first operands have the given values, a node fails by itself: its target is not a name,
or a value is not of the kind that its place takes. -/
inductive Stops : Node → List Value → RuntimeError → Prop
  | assignee {assignee value : Node} :
      assignee.kind ≠ .identifier →
      Stops (.set assignee value) [] (.invalidAssignmentTarget assignee.kind)
  | target {target iterable : Node} {body : List Node} :
      target.kind ≠ .identifier →
      Stops (.loop target iterable body) [] (.invalidAssignmentTarget target.kind)
  | key {object property : Node} {computed : Bool} {key : Value} :
      (computed = true ∨ property.kind ≠ .identifier) → key.kind ≠ .string →
      Stops (.member object property computed) [key] (.typeMismatch .propertyKey key.kind)
  | condition {test : Node} {body alternate : List Node} {value : Value} :
      value.kind ≠ .boolean →
      Stops (.branch test body alternate) [value] (.typeMismatch .condition value.kind)
  | iterable {name : String} {iterable : Node} {body : List Node} {value : Value} :
      value.kind ≠ .array →
      Stops (.loop (.identifier name) iterable body) [value] (.typeMismatch .iterable value.kind)

/-- What a node gives and leaves once all its operands have the given values. No node is evaluated
any more. -/
inductive Completes (natives : Natives) :
    Node → List Value → Chain → Except RuntimeError Value × Chain → Prop
  | program {body : List Node} {values : List Value} {chain : Chain} :
      Completes natives (.program body) values chain
        (.ok (.string (String.join (values.map Value.print))), chain)
  | set {name : String} {node : Node} {value : Value} {chain : Chain} :
      Completes natives (.set (.identifier name) node) [value] chain
        (.ok .null, chain.set name value)
  | call {callee : Node} {args : List Node} {values : List Value} {function : Value}
      {chain : Chain} :
      Completes natives (.call callee args) (values ++ [function]) chain
        ((function.call natives values).start chain)
  | field {object : Node} {name : String} {value : Value} {chain : Chain} :
      Completes natives (.member object (.identifier name) false) [value] chain
        (value.member name, chain)
  | member {object property : Node} {computed : Bool} {name : String} {value : Value}
      {chain : Chain} :
      (computed = true ∨ property.kind ≠ .identifier) →
      Completes natives (.member object property computed) [.string name, value] chain
        (value.member name, chain)
  | unary {operator : UnaryOperator} {argument : Node} {value : Value} {chain : Chain} :
      Completes natives (.unary operator argument) [value] chain (operator.apply value, chain)
  | binary {operator : BinaryOperator} {left right : Node} {first second : Value}
      {chain : Chain} :
      Completes natives (.binary operator left right) [first, second] chain
        (operator.apply first second, chain)
  | numeric {value : Numeral} {chain : Chain} :
      Completes natives (.numeric value) [] chain (value.value, chain)
  | string {text : String} {chain : Chain} :
      Completes natives (.string text) [] chain (.ok (.string text), chain)
  | boolean {value : Bool} {chain : Chain} :
      Completes natives (.boolean value) [] chain (.ok (.boolean value), chain)
  | identifier {name : String} {chain : Chain} :
      Completes natives (.identifier name) [] chain (.ok (chain.lookup name), chain)
  | unknown {chain : Chain} : Completes natives .unknown [] chain (.error .unknownNode, chain)

/-- What the evaluation of a node in a chain may give and leave.

* `completes`: all operands are evaluated in turn, and the node goes on with their values.
* `fails`: the operands are evaluated in turn up to the first that fails. The node fails with the
  same error and leaves the same chain.
* `stops`: the operands are evaluated in turn up to the point at which the node fails by itself.
* `chooses`: after the test of a branch, the statements of the chosen block are evaluated in order.
* `loops`: after the iterable of a loop, the statements of the body are evaluated in order, once for
  each item or until a pass fails. -/
inductive InOrder (natives : Natives) : Node → Chain → Except RuntimeError Value × Chain → Prop
  | completes {node : Node} {chain middle : Chain} {values : List Value}
      {run : Except RuntimeError Value × Chain} :
      InTurn natives node.operands chain values middle →
      node.Completes natives values middle run →
      InOrder natives node chain run
  | fails {node operand : Node} {before after : List Node} {chain middle last : Chain}
      {values : List Value} {error : RuntimeError} :
      node.operands = before ++ operand :: after →
      InTurn natives before chain values middle →
      (∀ seen stop, seen <+: values → ¬ node.Stops seen stop) →
      (operand.evaluate natives).start middle = (.error error, last) →
      InOrder natives node chain (.error error, last)
  | stops {node : Node} {before after : List Node} {chain last : Chain} {values : List Value}
      {error : RuntimeError} :
      node.operands = before ++ after →
      InTurn natives before chain values last →
      node.Stops values error →
      InOrder natives node chain (.error error, last)
  | chooses {test : Node} {body alternate : List Node} {chain middle : Chain} {choice : Bool}
      {run : Except RuntimeError Value × Chain} :
      InTurn natives [test] chain [.boolean choice] middle →
      InOrder natives (.program (if choice then body else alternate)) middle run →
      InOrder natives (.branch test body alternate) chain run
  | loops {name : String} {iterable : Node} {body : List Node} {items : List Value}
      {chain around : Chain} {passes : List Pass} :
      InTurn natives [iterable] chain [.array items] around →
      Passes natives name body items.length 0 items around.push passes →
      (∀ pass ∈ passes, InOrder natives (.program body) pass.start
        (pass.result.map .string, pass.after)) →
      InOrder natives (.loop (.identifier name) iterable body) chain
        ((Pass.outcome passes).map .string, (Pass.last passes around.push).pop)

end Node

variable {natives : Natives}

/-! ## 1. Lists of nodes -/

theorem InTurn.single {node : Node} {chain last : Chain} {value : Value}
    (h : (node.evaluate natives).start chain = (.ok value, last)) :
    InTurn natives [node] chain [value] last :=
  .next h .done

/-- A list is evaluated to the values that its nodes have in turn. -/
theorem evaluateAll_of_inTurn {nodes : List Node} {chain last : Chain} {values : List Value}
    (h : InTurn natives nodes chain values last) :
    (evaluateAll natives nodes).start chain = (.ok values, last) := by
  induction h with
  | done => rfl
  | next hnode _ ih =>
    rw [evaluateAll, Evaluation.start_bind, hnode]
    simp only
    rw [Evaluation.start_bind, ih]
    rfl

/-- A list fails with the first of its nodes that does. -/
theorem evaluateAll_of_failure {before : List Node} {node : Node} {chain middle last : Chain}
    {values : List Value} {error : RuntimeError}
    (hbefore : InTurn natives before chain values middle)
    (hnode : (node.evaluate natives).start middle = (.error error, last)) (after : List Node) :
    (evaluateAll natives (before ++ node :: after)).start chain = (.error error, last) := by
  induction hbefore with
  | done => rw [List.nil_append, evaluateAll, Evaluation.start_bind, hnode]
  | next hfirst _ ih =>
    rw [List.cons_append, evaluateAll, Evaluation.start_bind, hfirst]
    simp only
    rw [Evaluation.start_bind, ih hnode]

/-- All nodes of a list succeed in turn, or there is a first one that fails. -/
theorem exists_inTurn_or_failure (natives : Natives) (nodes : List Node) (chain : Chain) :
    (∃ values last, InTurn natives nodes chain values last) ∨
      ∃ before node after values middle error last, nodes = before ++ node :: after ∧
        InTurn natives before chain values middle ∧
        (node.evaluate natives).start middle = (.error error, last) := by
  induction nodes generalizing chain with
  | nil => exact Or.inl ⟨[], chain, .done⟩
  | cons node rest ih =>
    cases hnode : (node.evaluate natives).start chain with
    | mk result next =>
      cases result with
      | error error => exact Or.inr ⟨[], node, rest, [], chain, error, next, rfl, .done, hnode⟩
      | ok value =>
        rcases ih next with ⟨values, last, hrest⟩ |
          ⟨before, other, after, values, middle, error, last, rfl, hbefore, hother⟩
        · exact Or.inl ⟨value :: values, last, .next hnode hrest⟩
        · exact Or.inr ⟨node :: before, other, after, value :: values, middle, error, last, rfl,
            .next hnode hbefore, hother⟩

theorem InTurn.length_eq {nodes : List Node} {chain last : Chain} {values : List Value}
    (h : InTurn natives nodes chain values last) : values.length = nodes.length := by
  induction h with
  | done => rfl
  | next _ _ ih => rw [List.length_cons, List.length_cons, ih]

/-- A list is evaluated up to its last node before that one is. -/
theorem evaluateAll_concat (natives : Natives) (nodes : List Node) (node : Node) :
    evaluateAll natives (nodes ++ [node]) = do
      let values ← evaluateAll natives nodes
      let value ← node.evaluate natives
      return values ++ [value] := by
  induction nodes with
  | nil => simp [evaluateAll]
  | cons first rest ih => simp [evaluateAll, ih]

/-- The text of a block are the joined texts of its statements. -/
theorem evaluateBlock_eq (natives : Natives) (body : List Node) :
    evaluateBlock natives body =
      (fun values => String.join (values.map Value.print)) <$> evaluateAll natives body := by
  induction body with
  | nil => simp [evaluateBlock, evaluateAll, String.join_nil]
  | cons statement rest ih =>
    simp only [evaluateBlock, evaluateAll, ih, map_bind, bind_map_left, map_pure, List.map_cons,
      String.join_cons]

/-- A program gives the text of its block. -/
theorem start_program (body : List Node) (chain : Chain) :
    ((Node.program body).evaluate natives).start chain =
      (((evaluateBlock natives body).start chain).1.map .string,
        ((evaluateBlock natives body).start chain).2) := by
  rw [Node.evaluate, Evaluation.start_bind]
  obtain ⟨result, after⟩ := (evaluateBlock natives body).start chain
  cases result with
  | ok text => rfl
  | error error => rfl

/-- In each pass of a loop the body is evaluated. -/
theorem Passes.body_run {name : String} {body : List Node} {length index : Nat}
    {items : List Value} {chain : Chain} {passes : List Pass}
    (h : Passes natives name body length index items chain passes) {pass : Pass}
    (hpass : pass ∈ passes) :
    (evaluateBlock natives body).start pass.start = (pass.result, pass.after) := by
  induction h with
  | done => cases hpass
  | next _ hbody _ ih =>
    rcases List.mem_cons.mp hpass with rfl | hrest
    · exact hbody
    · exact ih hrest
  | fails _ hbody =>
    obtain rfl := List.mem_singleton.mp hpass
    exact hbody

/-- What a loop gives and leaves is what its passes give together and what the last one leaves. -/
theorem Passes.start_loopPasses {name : String} {body : List Node} {length index : Nat}
    {items : List Value} {chain : Chain} {passes : List Pass}
    (h : Passes natives name body length index items chain passes) :
    (loopPasses name (evaluateBlock natives body) length index items).start chain =
      (Pass.outcome passes, Pass.last passes chain) := by
  induction h with
  | done => rfl
  | @next index item rest chain start after text passes hstart hbody _ ih =>
    rw [loopPasses, Evaluation.start_bind, start_loopPass, ← hstart, hbody]
    simp only [Evaluation.start_bind]
    rw [ih]
    have hlast : Pass.last (⟨start, .ok text, after⟩ :: passes) chain = Pass.last passes after := by
      cases passes <;> rfl
    rw [hlast, Pass.outcome]
    cases Pass.outcome passes <;> rfl
  | fails hstart hbody =>
    rw [loopPasses, Evaluation.start_bind, start_loopPass, ← hstart, hbody]
    rfl

/-! ## 2. Nodes that only evaluate their operands -/

/-- The evaluation of a node is that of its operands, followed by what it does with their values,
and the node never fails by itself. -/
structure Node.Strict (natives : Natives) (node : Node) (next : List Value → Evaluation Value) :
    Prop where
  goesOn : ∀ {seen : List Value} {stop : RuntimeError}, ¬ node.Stops seen stop
  evaluate_eq : node.evaluate natives = evaluateAll natives node.operands >>= next
  completes_iff : ∀ {chain middle : Chain} {values : List Value}
    {run : Except RuntimeError Value × Chain}, InTurn natives node.operands chain values middle →
    (node.Completes natives values middle run ↔ (next values).start middle = run)

namespace Node

/-- Such a node has two courses: all its operands succeed, or it fails with the first that does
not. -/
theorem Strict.inOrder_iff {node : Node} {next : List Value → Evaluation Value}
    (h : node.Strict natives next) {chain : Chain} {run : Except RuntimeError Value × Chain} :
    node.InOrder natives chain run ↔ (node.evaluate natives).start chain = run := by
  rw [h.evaluate_eq, Evaluation.start_bind]
  constructor
  · intro hrun
    cases hrun with
    | completes hall hcompletes =>
      rw [evaluateAll_of_inTurn hall]
      exact (h.completes_iff hall).mp hcompletes
    | fails hoperands hbefore _ hoperand =>
      rw [hoperands, evaluateAll_of_failure hbefore hoperand]
    | stops _ _ hstop => exact absurd hstop h.goesOn
    -- A branch or a loop fails by itself if its first value is null.
    | chooses => exact absurd (.condition (show Value.null.kind ≠ .boolean by decide)) h.goesOn
    | loops =>
      exact absurd (.iterable (show Value.null.kind ≠ .array by decide)) h.goesOn
  · rintro rfl
    rcases exists_inTurn_or_failure natives node.operands chain with ⟨values, last, hall⟩ |
      ⟨before, operand, after, values, middle, error, last, hoperands, hbefore, hoperand⟩
    · rw [evaluateAll_of_inTurn hall]
      exact .completes hall ((h.completes_iff hall).mpr rfl)
    · rw [hoperands, evaluateAll_of_failure hbefore hoperand]
      exact .fails hoperands hbefore (fun _ _ _ => h.goesOn) hoperand

theorem program_strict (body : List Node) :
    (Node.program body).Strict natives fun values =>
      pure (.string (String.join (values.map Value.print))) where
  goesOn := by
    intro seen stop hstop
    cases hstop
  evaluate_eq := by
    simp only [evaluate, evaluateBlock_eq, bind_map_left]
    rfl
  completes_iff := by
    intro chain middle values run _
    constructor
    · intro hcompletes
      cases hcompletes
      rfl
    · rintro rfl
      exact .program

theorem set_strict (name : String) (value : Node) :
    (Node.set (.identifier name) value).Strict natives fun values => do
      modify (·.set name (values.headD .null))
      return .null where
  goesOn := by
    intro seen stop hstop
    cases hstop with
    | assignee hkind => exact hkind rfl
  evaluate_eq := by
    simp [evaluate, operands, children, evaluateAll]
    rfl
  completes_iff := by
    rintro chain middle values run (_ | ⟨_, ⟨⟩⟩)
    constructor
    · intro hcompletes
      cases hcompletes
      rfl
    · rintro rfl
      exact .set

theorem call_strict (callee : Node) (args : List Node) :
    (Node.call callee args).Strict natives fun values =>
      (values.getLastD .null).call natives values.dropLast where
  goesOn := by
    intro seen stop hstop
    cases hstop
  evaluate_eq := by simp [evaluate, operands, children, evaluateAll_concat]
  completes_iff := by
    intro chain middle values run hall
    constructor
    · intro hcompletes
      cases hcompletes
      rw [List.getLastD_concat, List.dropLast_concat]
    · rintro rfl
      rcases List.eq_nil_or_concat values with rfl | ⟨values, function, rfl⟩
      · have hlength := hall.length_eq
        simp [operands, children] at hlength
      · simp only [List.concat_eq_append, List.getLastD_concat, List.dropLast_concat]
        exact .call

/-- A member whose property is a name evaluates its object only. -/
theorem field_strict (object : Node) (name : String) :
    (Node.member object (.identifier name) false).Strict natives fun values =>
      Evaluation.ofExcept ((values.headD .null).member name) where
  goesOn := by
    intro seen stop hstop
    cases hstop with
    | key hproperty => exact hproperty.elim Bool.false_ne_true fun hkind => hkind rfl
  evaluate_eq := by simp [evaluate, operands, children, evaluateAll]
  completes_iff := by
    rintro chain middle values run (_ | ⟨_, ⟨⟩⟩)
    constructor
    · intro hcompletes
      cases hcompletes
      rfl
    · rintro rfl
      exact .field

theorem unary_strict (operator : UnaryOperator) (argument : Node) :
    (Node.unary operator argument).Strict natives fun values =>
      Evaluation.ofExcept (operator.apply (values.headD .null)) where
  goesOn := by
    intro seen stop hstop
    cases hstop
  evaluate_eq := by simp [evaluate, operands, children, evaluateAll]
  completes_iff := by
    rintro chain middle values run (_ | ⟨_, ⟨⟩⟩)
    constructor
    · intro hcompletes
      cases hcompletes
      rfl
    · rintro rfl
      exact .unary

theorem binary_strict (operator : BinaryOperator) (left right : Node) :
    (Node.binary operator left right).Strict natives fun values =>
      Evaluation.ofExcept (operator.apply (values.headD .null) (values.tail.headD .null)) where
  goesOn := by
    intro seen stop hstop
    cases hstop
  evaluate_eq := by simp [evaluate, operands, children, evaluateAll]
  completes_iff := by
    rintro chain middle values run (_ | ⟨_, _ | ⟨_, ⟨⟩⟩⟩)
    constructor
    · intro hcompletes
      cases hcompletes
      rfl
    · rintro rfl
      exact .binary

/-- A node without operands. -/
theorem leaf_strict {node : Node} (hoperands : node.operands = [])
    (hgoesOn : ∀ {seen : List Value} {stop : RuntimeError}, ¬ node.Stops seen stop)
    (hcompletes : ∀ {chain : Chain} {run : Except RuntimeError Value × Chain},
      node.Completes natives [] chain run ↔ (node.evaluate natives).start chain = run) :
    node.Strict natives fun _ => node.evaluate natives where
  goesOn := hgoesOn
  evaluate_eq := by rw [hoperands, evaluateAll, pure_bind]
  completes_iff := by
    intro chain middle values run hall
    rw [hoperands] at hall
    cases hall
    exact hcompletes

/-! ## 3. Nodes that look at the values of their operands -/

/-- A set statement or a loop without a name for its target fails before anything is evaluated. -/
theorem inOrder_iff_of_stops_nil {node : Node} {stop : RuntimeError} (hstop : node.Stops [] stop)
    {chain : Chain} {run : Except RuntimeError Value × Chain} :
    node.InOrder natives chain run ↔ (node.evaluate natives).start chain = run := by
  have hrun : (node.evaluate natives).start chain = (.error stop, chain) := by
    cases hstop with
    | assignee hkind | target hkind =>
      rw [evaluate, target_of_kind_ne hkind]
      rfl
  rw [hrun]
  constructor
  · intro h
    cases h with
    | completes _ hcompletes =>
      cases hstop with
      | assignee hkind =>
        cases hcompletes
        exact absurd rfl hkind
      | target => cases hcompletes
    | fails _ _ hgoesOn _ => exact absurd hstop (hgoesOn [] stop List.nil_prefix)
    | stops _ hbefore hother =>
      cases hstop with
      | assignee hkind =>
        cases hother
        cases hbefore
        rfl
      | target hkind =>
        cases hother with
        | target =>
          cases hbefore
          rfl
        | iterable => exact absurd rfl hkind
    | chooses => cases hstop
    | loops =>
      cases hstop with
      | target hkind => exact absurd rfl hkind
  · rintro rfl
    exact .stops (List.nil_append _).symm .done hstop

/-- A node fails with its first operand, unless it fails by itself before. -/
theorem inOrder_of_first {node operand : Node} {rest : List Node} {chain last : Chain}
    {error : RuntimeError} (hoperands : node.operands = operand :: rest)
    (hgoesOn : ∀ {stop : RuntimeError}, ¬ node.Stops [] stop)
    (hoperand : (operand.evaluate natives).start chain = (.error error, last)) :
    node.InOrder natives chain (.error error, last) := by
  refine .fails (hoperands.trans (List.nil_append _).symm) .done (fun seen stop hseen => ?_)
    hoperand
  rw [List.prefix_nil.mp hseen]
  exact hgoesOn

/-- A node fails by itself once it has the value of its first operand. -/
theorem inOrder_of_refused {node operand : Node} {rest : List Node} {chain last : Chain}
    {value : Value} {error : RuntimeError} (hoperands : node.operands = operand :: rest)
    (hoperand : (operand.evaluate natives).start chain = (.ok value, last))
    (hstop : node.Stops [value] error) : node.InOrder natives chain (.error error, last) :=
  .stops (hoperands.trans List.singleton_append.symm) (.single hoperand) hstop

/-- Of a single operand no other comes before, and it is the one that fails. -/
theorem fails_single {node operand : Node} {before after : List Node} {chain middle : Chain}
    {values : List Value} (hsplit : [node] = before ++ operand :: after)
    (hbefore : InTurn natives before chain values middle) : operand = node ∧ middle = chain := by
  cases hbefore with
  | done =>
    cases hsplit
    exact ⟨rfl, rfl⟩
  | next => simp at hsplit

/-- Once a single operand has a value, it has been evaluated. -/
theorem stops_single {node : Node} {before after : List Node} {chain last : Chain} {value : Value}
    (hsplit : [node] = before ++ after) (hbefore : InTurn natives before chain [value] last) :
    (node.evaluate natives).start chain = (.ok value, last) := by
  obtain _ | ⟨hnode, ⟨⟩⟩ := hbefore
  cases hsplit
  exact hnode

section

variable {object property : Node} {computed : Bool}
  (hproperty : computed = true ∨ property.kind ≠ .identifier)

include hproperty

theorem operands_member : (Node.member object property computed).operands = [property, object] := by
  cases computed with
  | true => cases property <;> rfl
  | false =>
    cases property with
    | identifier name => exact absurd rfl (hproperty.resolve_left Bool.false_ne_true)
    | _ => rfl

/-- The object is evaluated once the key is known to be a string. -/
theorem start_member (chain : Chain) :
    ((Node.member object property computed).evaluate natives).start chain =
      match (property.evaluate natives).start chain with
      | (.ok (.string name), middle) =>
        match (object.evaluate natives).start middle with
        | (.ok value, last) => (value.member name, last)
        | (.error error, last) => (.error error, last)
      | (.ok key, middle) => (.error (.typeMismatch .propertyKey key.kind), middle)
      | (.error error, middle) => (.error error, middle) := by
  rw [evaluate_member, key_of_evaluated natives hproperty, Evaluation.start_bind]
  obtain ⟨result, middle⟩ := (property.evaluate natives).start chain
  cases result with
  | error error => rfl
  | ok key =>
    cases key with
    | string name =>
      simp only [access]
      rw [Evaluation.start_bind]
      obtain ⟨result, last⟩ := (object.evaluate natives).start middle
      cases result <;> rfl
    | _ => rfl

/-- A member whose property is evaluated evaluates it before the object, which is left out if the
key is not a string. -/
theorem member_inOrder_iff {chain : Chain} {run : Except RuntimeError Value × Chain} :
    (Node.member object property computed).InOrder natives chain run ↔
      ((Node.member object property computed).evaluate natives).start chain = run := by
  have hoperands : (Node.member object property computed).operands = [property, object] :=
    operands_member hproperty
  rw [start_member hproperty]
  constructor
  · intro h
    cases h with
    | completes hall hcompletes =>
      rw [hoperands] at hall
      cases hcompletes with
      | field => exact (hproperty.elim Bool.false_ne_true fun hkind => hkind rfl).elim
      | member =>
        obtain _ | ⟨hkey, _ | ⟨hobject, ⟨⟩⟩⟩ := hall
        simp only [hkey, hobject]
    | fails hsplit hbefore hgoesOn hoperand =>
      rw [hoperands] at hsplit
      cases hbefore with
      | done =>
        cases hsplit
        rw [hoperand]
      | @next _ _ _ _ _ key _ hkey hbefore =>
        obtain ⟨rfl, hrest⟩ := List.cons.inj hsplit
        obtain ⟨rfl, rfl⟩ := fails_single hrest hbefore
        have hstring : key.kind = .string := by
          by_contra hkind
          exact hgoesOn [key] _ (List.prefix_append [key] _) (.key hproperty hkind)
        obtain ⟨name, rfl⟩ := Value.kind_eq_string hstring
        simp only [hkey, hoperand]
    | stops hsplit hbefore hstop =>
      rw [hoperands] at hsplit
      cases hstop with
      | @key _ _ _ key _ hkind =>
        obtain _ | ⟨hkey, ⟨⟩⟩ := hbefore
        cases hsplit
        rw [hkey]
        cases key with
        | string name => exact absurd rfl hkind
        | _ => rfl
  · rintro rfl
    cases hkey : (property.evaluate natives).start chain with
    | mk result middle =>
      cases result with
      | error error =>
        refine inOrder_of_first hoperands (fun hstop => ?_) hkey
        cases hstop
      | ok key =>
        cases key with
        | string name =>
          cases hobject : (object.evaluate natives).start middle with
          | mk result last =>
            simp only [hobject]
            cases result with
            | ok value =>
              exact .completes (hoperands ▸ .next hkey (.single hobject)) (.member hproperty)
            | error error =>
              have hsplit : (Node.member object property computed).operands =
                  [property] ++ object :: [] := hoperands
              refine .fails hsplit (.single hkey) (fun seen stop hseen hstop => ?_) hobject
              cases hstop with
              | key _ hother =>
                cases hseen.eq_of_length rfl
                exact hother rfl
        | _ => exact inOrder_of_refused hoperands hkey (.key hproperty fun hkind => by cases hkind)

end

/-- A branch evaluates its test, and then the statements of one of its blocks. -/
theorem branch_inOrder_iff {test : Node} {body alternate : List Node} {chain : Chain}
    {run : Except RuntimeError Value × Chain} :
    (Node.branch test body alternate).InOrder natives chain run ↔
      ((Node.branch test body alternate).evaluate natives).start chain = run := by
  rw [evaluate, Evaluation.start_bind]
  constructor
  · intro h
    cases h with
    | completes _ hcompletes => cases hcompletes
    | fails hsplit hbefore _ hoperand =>
      obtain ⟨rfl, rfl⟩ := fails_single hsplit hbefore
      rw [hoperand]
    | stops hsplit hbefore hstop =>
      cases hstop with
      | @condition _ _ _ value hkind =>
        rw [stops_single hsplit hbefore]
        cases value with
        | boolean choice => exact absurd rfl hkind
        | _ => rfl
    | @chooses _ _ _ _ _ choice _ htest hbody =>
      obtain _ | ⟨htest, ⟨⟩⟩ := htest
      rw [htest, ← (program_strict _).inOrder_iff.mp hbody, evaluate]
      cases choice <;> rfl
  · rintro rfl
    cases htest : (test.evaluate natives).start chain with
    | mk result middle =>
      cases result with
      | error error =>
        refine inOrder_of_first rfl (fun hstop => ?_) htest
        cases hstop
      | ok value =>
        cases value with
        | boolean choice =>
          refine .chooses (.single htest) ((program_strict _).inOrder_iff.mpr ?_)
          rw [evaluate]
          cases choice <;> rfl
        | _ => exact inOrder_of_refused rfl htest (.condition fun hkind => by cases hkind)

/-- A loop evaluates its iterable, and then the statements of its body once for each item. -/
theorem loop_inOrder_iff {name : String} {iterable : Node} {body : List Node} {chain : Chain}
    {run : Except RuntimeError Value × Chain} :
    (Node.loop (.identifier name) iterable body).InOrder natives chain run ↔
      ((Node.loop (.identifier name) iterable body).evaluate natives).start chain = run := by
  rw [start_loop_eq]
  constructor
  · intro h
    cases h with
    | completes _ hcompletes => cases hcompletes
    | fails hsplit hbefore _ hoperand =>
      obtain ⟨rfl, rfl⟩ := fails_single hsplit hbefore
      rw [hoperand]
    | stops hsplit hbefore hstop =>
      cases hstop with
      | target hkind => exact absurd rfl hkind
      | @iterable _ _ _ value hkind =>
        rw [stops_single hsplit hbefore]
        cases value with
        | array items => exact absurd rfl hkind
        | _ => rfl
    | loops hiterable hpasses _ =>
      obtain _ | ⟨hiterable, ⟨⟩⟩ := hiterable
      rw [hiterable]
      simp only [hpasses.start_loopPasses]
  · rintro rfl
    cases hiterable : (iterable.evaluate natives).start chain with
    | mk result around =>
      cases result with
      | error error =>
        refine inOrder_of_first rfl (fun hstop => ?_) hiterable
        cases hstop with
        | target hkind => exact hkind rfl
      | ok value =>
        cases value with
        | array items =>
          obtain ⟨passes, hpasses⟩ :=
            exists_passes natives name body items.length 0 items around.push
          have hbodies : ∀ pass ∈ passes, (Node.program body).InOrder natives pass.start
              (pass.result.map .string, pass.after) := by
            intro pass hpass
            refine (program_strict body).inOrder_iff.mpr ?_
            rw [start_program, hpasses.body_run hpass]
          simp only [hpasses.start_loopPasses]
          exact .loops (.single hiterable) hpasses hbodies
        | _ => exact inOrder_of_refused rfl hiterable (.iterable fun hkind => by cases hkind)

end Node

/-! ## 4. All nodes -/

/-- What a node gives and leaves in a chain is what a course of its operands in order gives and
leaves, and there is such a course. -/
theorem evaluate_inOrder_iff (natives : Natives) (node : Node) (chain : Chain)
    (run : Except RuntimeError Value × Chain) :
    node.InOrder natives chain run ↔ (node.evaluate natives).start chain = run := by
  cases node with
  | program body => exact (Node.program_strict body).inOrder_iff
  | set assignee value =>
    by_cases hkind : assignee.kind = .identifier
    · obtain ⟨name, rfl⟩ := Node.kind_eq_identifier hkind
      exact (Node.set_strict name value).inOrder_iff
    · exact Node.inOrder_iff_of_stops_nil (.assignee hkind)
  | branch test body alternate => exact Node.branch_inOrder_iff
  | loop target iterable body =>
    by_cases hkind : target.kind = .identifier
    · obtain ⟨name, rfl⟩ := Node.kind_eq_identifier hkind
      exact Node.loop_inOrder_iff
    · exact Node.inOrder_iff_of_stops_nil (.target hkind)
  | call callee args => exact (Node.call_strict callee args).inOrder_iff
  | member object property computed =>
    by_cases hproperty : computed = true ∨ property.kind ≠ .identifier
    · exact Node.member_inOrder_iff hproperty
    · obtain ⟨rfl, hkind⟩ : computed = false ∧ property.kind = .identifier := by
        simpa using hproperty
      obtain ⟨name, rfl⟩ := Node.kind_eq_identifier hkind
      exact (Node.field_strict object name).inOrder_iff
  | unary operator argument => exact (Node.unary_strict operator argument).inOrder_iff
  | binary operator left right => exact (Node.binary_strict operator left right).inOrder_iff
  | numeric | string | boolean | identifier | unknown =>
    refine (Node.leaf_strict rfl ?_ ?_).inOrder_iff
    · intro seen stop hstop
      cases hstop
    · intro chain run
      rw [Node.evaluate]
      constructor
      · intro hcompletes
        cases hcompletes
        rfl
      · rintro rfl
        constructor

-- The second operand of `and` is evaluated, and its error is the one of the conjunction, although
-- the first is false.
example : ((Node.binary .and (.boolean false) .unknown).evaluate Natives.none).start Chain.empty =
    (.error .unknownNode, Chain.empty) := rfl

end Templating
