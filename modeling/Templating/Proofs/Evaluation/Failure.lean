import Templating.Proofs.Evaluation.Basic
import Templating.Proofs.Node.Position
import Templating.Proofs.Scope.Binding
import Templating.Proofs.Value.Functions

/-!
# Why evaluations fail

`Node.Raises` lists the errors that a node raises by itself, kind by kind. An evaluation that fails
does so because some node of the tree raises the error; this holds together with an invariant on
values, which every binding and every result keeps.

Results:
1. `evaluate_meets`: from a chain that holds admitted values only, a tree evaluates to an admitted
   value or fails with an error that one of its nodes raises, and admitted values are all that the
   chain holds afterwards.
2. `evaluate_error_explained`: if no native functions are around, the construct that an error names
   is in the tree.
-/

namespace Templating

/-! ## Definitions -/

/-- The errors that a node raises by itself and not through its parts, if only admitted values are
around. -/
inductive Node.Raises (natives : Natives) (admits : Value → Prop) : Node → RuntimeError → Prop
  | assignee {assignee value : Node} : assignee.kind ≠ .identifier →
      Raises natives admits (.set assignee value) (.invalidAssignmentTarget assignee.kind)
  | target {target iterable : Node} {body : List Node} : target.kind ≠ .identifier →
      Raises natives admits (.loop target iterable body) (.invalidAssignmentTarget target.kind)
  | condition {test : Node} {body alternate : List Node} {got : ValueKind} : got ≠ .boolean →
      Raises natives admits (.branch test body alternate) (.typeMismatch .condition got)
  | iterable {target iterable : Node} {body : List Node} {got : ValueKind} : got ≠ .array →
      Raises natives admits (.loop target iterable body) (.typeMismatch .iterable got)
  | literal {source : String} : Number.parse? (Text.trim source) = none →
      Raises natives admits (.numeric (.text source)) (.invalidLiteral source)
  | key {object property : Node} {computed : Bool} {got : ValueKind} : got ≠ .string →
      Raises natives admits (.member object property computed) (.typeMismatch .propertyKey got)
  | property {object property : Node} {computed : Bool} {kind : ValueKind} {name : String} :
      Raises natives admits (.member object property computed) (.noSuchProperty kind name)
  | notCallable {callee : Node} {args : List Node} {kind : ValueKind} : kind ≠ .function →
      Raises natives admits (.call callee args) (.notCallable kind)
  | arity {callee : Node} {args : List Node} {method : Method} : args ≠ [] →
      Raises natives admits (.call callee args) (.arityMismatch method.name 0 args.length)
  | receiver {callee : Node} {receiver : Value} {method : Method} :
      admits (.bound receiver method) → receiver.kind ≠ .string →
      Raises natives admits (.call callee []) (.typeMismatch (.receiver method) receiver.kind)
  /-- A native function fails in a way of its own. -/
  | native {callee : Node} {args : List Node} {name : String} {identity : Nat}
      {values : List Value} {chain : Chain} {error : RuntimeError} :
      admits (.native name identity) →
      ((natives identity values).start chain).1 = .error error →
      Raises natives admits (.call callee args) error
  | negation {argument : Node} {operand : ValueKind} :
      Raises natives admits (.unary .negate argument) (.unknownUnary .negate operand)
  | nullOperand {operator : BinaryOperator} {left right : Node} {first second : ValueKind} :
      first = .null ∨ second = .null →
      Raises natives admits (.binary operator left right) (.nullOperand operator first second)
  | undefinedOperator {operator : BinaryOperator} {left right : Node}
      {first second : ValueKind} :
      Raises natives admits (.binary operator left right) (.unknownBinary operator first second)
  | unknown : Raises natives admits .unknown .unknownNode

/-- Some node in the tree raises the error. -/
def Node.Fails (natives : Natives) (admits : Value → Prop) (node : Node) (error : RuntimeError) :
    Prop :=
  ∃ part, node.Contains part ∧ part.Raises natives admits error

/-- Called with admitted values in a chain of such values, native functions that are themselves
admitted give an admitted value and leave such a chain behind, or fail in any way. -/
def Natives.Keep (natives : Natives) (admits : Value → Prop) : Prop :=
  ∀ name identity args, admits (.native name identity) → (∀ value ∈ args, admits value) →
    Meets (Chain.Holds admits) (fun error => ∃ chain,
      ((natives identity args).start chain).1 = .error error) admits (natives identity args)

/-! ## Helpers -/

/-- Where no native function is admitted, there is nothing to keep. -/
theorem Natives.keep_of_not_admitted (natives : Natives) {admits : Value → Prop}
    (h : ∀ name identity, ¬ admits (.native name identity)) : natives.Keep admits :=
  fun name identity _ hadmits _ => absurd hadmits (h name identity)

theorem Natives.keep_any (natives : Natives) : natives.Keep fun _ => True := by
  intro name identity args _ _ chain _
  refine ⟨fun _ _ _ _ => trivial, ?_⟩
  split
  next => trivial
  next error herror => exact ⟨chain, herror⟩

namespace Node

variable {natives : Natives} {admits : Value → Prop} {node child : Node} {error : RuntimeError}

theorem Raises.fails (h : node.Raises natives admits error) : node.Fails natives admits error :=
  ⟨node, node.contains_self, h⟩

theorem Fails.of_child (hchild : child ∈ node.children) (h : child.Fails natives admits error) :
    node.Fails natives admits error := by
  obtain ⟨part, hpart, hraises⟩ := h
  exact ⟨part, hpart.of_child hchild, hraises⟩

theorem target_eq_error (h : node.target = .error error) :
    node.kind ≠ .identifier ∧ error = .invalidAssignmentTarget node.kind := by
  cases node with
  | identifier name => cases h
  | _ =>
    cases h
    exact ⟨nofun, rfl⟩

end Node

theorem Numeral.value_eq_error {numeral : Numeral} {error : RuntimeError}
    (h : numeral.value = .error error) :
    ∃ source, numeral = .text source ∧ Number.parse? (Text.trim source) = none ∧
      error = .invalidLiteral source := by
  cases numeral with
  | number x => cases h
  | text source =>
    unfold value at h
    dsimp only at h
    split at h
    next => cases h
    next hparse =>
      cases h
      exact ⟨source, rfl, hparse, rfl⟩

theorem Value.member_eq_error {value : Value} {name : String} {error : RuntimeError}
    (h : value.member name = .error error) : error = .noSuchProperty value.kind name := by
  unfold member at h
  dsimp only at h
  split at h
  next => cases h
  next =>
    cases h
    rfl

theorem BinaryOperator.apply_eq_error {operator : BinaryOperator} {left right : Value}
    {error : RuntimeError} (h : operator.apply left right = .error error) :
    (left.kind = .null ∨ right.kind = .null) ∧ error = .nullOperand operator left.kind right.kind ∨
      error = .unknownBinary operator left.kind right.kind := by
  have hkind : ∀ value : Value, value.isNull = true → value.kind = .null := by
    intro value hnull
    cases value with
    | null => rfl
    | _ => cases hnull
  unfold apply at h
  split at h
  next hnull =>
    cases h
    exact Or.inl ⟨((Bool.or_eq_true _ _).mp hnull).imp (hkind left) (hkind right), rfl⟩
  next =>
    split at h
    next => cases h
    next =>
      cases h
      exact Or.inr rfl

theorem Numeral.isData_value {numeral : Numeral} {value : Value} (h : numeral.value = .ok value) :
    value.IsData := by
  cases numeral with
  | number x =>
    cases h
    exact Value.isData_numeric x
  | text source =>
    unfold Numeral.value at h
    dsimp only at h
    split at h
    next x _ =>
      cases h
      exact Value.isData_numeric x
    next => cases h

theorem Method.invoke_eq_error {method : Method} {receiver : Value} {args : List Value}
    {error : RuntimeError} (h : method.invoke receiver args = .error error) :
    args.length ≠ 0 ∧ error = .arityMismatch method.name 0 args.length ∨
      args.length = 0 ∧ receiver.kind ≠ .string ∧
        error = .typeMismatch (.receiver method) receiver.kind := by
  unfold invoke at h
  split at h
  next hlength =>
    split at h
    next => cases h
    next hstring =>
      cases h
      refine Or.inr ⟨hlength, fun hkind => ?_, rfl⟩
      obtain ⟨text, rfl⟩ := Value.kind_eq_string hkind
      exact hstring text rfl
  next hlength =>
    cases h
    exact Or.inl ⟨hlength, rfl⟩

theorem Method.isData_invoke {method : Method} {receiver value : Value} {args : List Value}
    (h : method.invoke receiver args = .ok value) : value.IsData := by
  unfold invoke at h
  split at h
  next =>
    split at h
    next =>
      cases h
      exact Value.isData_string _
    next => cases h
  next => cases h

theorem UnaryOperator.isData_apply {operator : UnaryOperator} {operand value : Value}
    (h : operator.apply operand = .ok value) : value.IsData := by
  cases operator with
  | not =>
    cases h
    exact Value.isData_boolean _
  | negate => cases h

theorem UnaryOperator.apply_eq_error {operator : UnaryOperator} {operand : Value}
    {error : RuntimeError} (h : operator.apply operand = .error error) :
    operator = .negate ∧ error = .unknownUnary .negate operand.kind := by
  cases operator with
  | not => cases h
  | negate =>
    cases h
    exact ⟨rfl, rfl⟩

theorem BinaryOperator.isData_apply {operator : BinaryOperator} {left right value : Value}
    (h : operator.apply left right = .ok value) : value.IsData := by
  unfold apply at h
  split at h
  next => cases h
  next =>
    split at h
    next found hfound =>
      cases h
      exact isData_result? hfound
    next => cases h

section

variable {natives : Natives} {admits : Value → Prop} {allowed : RuntimeError → Prop}

/-- A block meets the contract of its statements. -/
theorem evaluateBlock_meets (body : List Node)
    (hbody : ∀ statement ∈ body,
      Meets (Chain.Holds admits) allowed admits (statement.evaluate natives)) :
    Meets (Chain.Holds admits) allowed (fun _ => True) (evaluateBlock natives body) := by
  induction body with
  | nil =>
    rw [evaluateBlock]
    exact Meets.pure trivial
  | cons statement rest ih =>
    rw [evaluateBlock]
    refine (hbody statement List.mem_cons_self).bind fun value _ => ?_
    refine (ih fun node hnode => hbody node (List.mem_cons_of_mem _ hnode)).seq fun text => ?_
    exact Meets.pure trivial

theorem evaluateAll_meets {nodes : List Node}
    (hnodes : ∀ node ∈ nodes, Meets (Chain.Holds admits) allowed admits (node.evaluate natives)) :
    Meets (Chain.Holds admits) allowed
      (fun values => values.length = nodes.length ∧ ∀ value ∈ values, admits value)
      (evaluateAll natives nodes) := by
  induction nodes with
  | nil =>
    rw [evaluateAll]
    exact Meets.pure ⟨rfl, fun _ h => absurd h List.not_mem_nil⟩
  | cons node rest ih =>
    rw [evaluateAll]
    refine (hnodes node List.mem_cons_self).bind fun value hvalue => ?_
    refine (ih fun node hnode => hnodes node (List.mem_cons_of_mem _ hnode)).bind ?_
    rintro values ⟨hlength, hvalues⟩
    refine Meets.pure ⟨congrArg Nat.succ hlength, fun other hother => ?_⟩
    rcases List.mem_cons.mp hother with rfl | hother
    · exact hvalue
    · exact hvalues other hother

theorem set_meets (name : String) {value : Value} (hvalue : admits value) :
    Meets (Chain.Holds admits) allowed (fun _ => True)
      (modify (·.set name value) : Evaluation Unit) :=
  fun _ hchain => ⟨hchain.set name hvalue, trivial⟩

theorem get_meets :
    Meets (Chain.Holds admits) allowed (fun chain => chain.Holds admits) (get : Evaluation Chain) :=
  fun _ hchain => ⟨hchain, hchain⟩

theorem loopPass_meets (hadmits : Value.Admissible admits) (name : String)
    {body : Evaluation String} (hbody : Meets (Chain.Holds admits) allowed (fun _ => True) body)
    (index length : Nat) {item : Value} (hitem : admits item) :
    Meets (Chain.Holds admits) allowed (fun _ => True) (loopPass name body index length item) := by
  rw [loopPass]
  have hstate := hadmits.data _ (Value.isData_loopState index length)
  refine (set_meets "loop" hstate).seq fun _ => ?_
  exact (set_meets name hitem).seq fun _ => hbody

/-- The passes of a loop meet the contract of its body. -/
theorem loopPasses_meets (hadmits : Value.Admissible admits) {name : String}
    {body : Evaluation String} (hbody : Meets (Chain.Holds admits) allowed (fun _ => True) body)
    {length index : Nat} {items : List Value} (hitems : ∀ item ∈ items, admits item) :
    Meets (Chain.Holds admits) allowed (fun _ => True)
      (loopPasses name body length index items) := by
  induction items generalizing index with
  | nil =>
    rw [loopPasses]
    exact Meets.pure trivial
  | cons item rest ih =>
    rw [loopPasses]
    have hitem := hitems item List.mem_cons_self
    refine (loopPass_meets hadmits name hbody index length hitem).seq fun text => ?_
    refine (ih fun other hother => hitems other (List.mem_cons_of_mem _ hother)).seq ?_
    exact fun texts => Meets.pure trivial

theorem inChild_meets {α : Type} {good : α → Prop} {evaluation : Evaluation α}
    (h : Meets (Chain.Holds admits) allowed good evaluation) :
    Meets (Chain.Holds admits) allowed good evaluation.inChild := by
  intro chain hchain
  obtain ⟨hafter, hresult⟩ := h chain.push hchain.push
  exact ⟨hafter.pop, hresult⟩

theorem key_meets {property : Node} (computed : Bool)
    (hproperty : Meets (Chain.Holds admits) allowed admits (property.evaluate natives)) :
    Meets (Chain.Holds admits) allowed (fun _ => True) (Node.key natives computed property) := by
  unfold Node.key
  split
  next => exact Meets.pure trivial
  next => exact hproperty.mono (fun _ h => h) fun _ _ => trivial

/-- A call of an admitted function. -/
theorem call_meets (hadmits : Value.Admissible admits) (hnatives : natives.Keep admits)
    (callee : Node) {args : List Node} {function : Value} {values : List Value}
    (hfunction : admits function) (hlength : values.length = args.length)
    (hvalues : ∀ value ∈ values, admits value) :
    Meets (Chain.Holds admits) ((Node.call callee args).Raises natives admits) admits
      (function.call natives values) := by
  unfold Value.call
  split
  next name identity =>
    refine (hnatives name identity values hfunction hvalues).mono ?_ fun _ h => h
    rintro error ⟨chain, herror⟩
    exact .native hfunction herror
  next receiver method =>
    refine Meets.ofExcept (fun result hresult => ?_) fun error herror => ?_
    · exact hadmits.data _ (Method.isData_invoke hresult)
    · rcases Method.invoke_eq_error herror with ⟨hne, rfl⟩ | ⟨hzero, hkind, rfl⟩
      · rw [hlength] at hne ⊢
        exact .arity fun hnil => hne (congrArg List.length hnil)
      · obtain rfl := List.eq_nil_of_length_eq_zero (hlength.symm.trans hzero)
        exact .receiver hfunction hkind
  next hnative hbound =>
    refine Meets.throw (.notCallable fun hkind => ?_)
    rcases Value.kind_eq_function hkind with ⟨name, identity, rfl⟩ | ⟨receiver, method, rfl⟩
    · exact hnative name identity rfl
    · exact hbound receiver method rfl

end

/-! ## 1. The contract of a tree -/

/-- From a chain of admitted values a tree evaluates to an admitted value, or it fails with an error
that one of its nodes raises. In both cases it leaves a chain of admitted values. -/
theorem evaluate_meets {natives : Natives} {admits : Value → Prop}
    (hadmits : Value.Admissible admits) (hnatives : natives.Keep admits) (node : Node) :
    Meets (Chain.Holds admits) (node.Fails natives admits) admits (node.evaluate natives) := by
  induction node using Node.children_induction with
  | inherit node ih =>
    have hpart : ∀ part ∈ node.children,
        Meets (Chain.Holds admits) (node.Fails natives admits) admits (part.evaluate natives) := by
      intro part hmem
      exact (ih part hmem).mono (fun error herror => herror.of_child hmem) fun _ h => h
    have hnull : admits .null := hadmits.data _ Value.isData_null
    have hstring : ∀ text, admits (.string text) := fun text =>
      hadmits.data _ (Value.isData_string text)
    cases node with
    | program body =>
      rw [Node.evaluate]
      exact (evaluateBlock_meets body hpart).seq fun text => Meets.pure (hstring text)
    | set assignee value =>
      rw [Node.evaluate]
      refine Meets.seq ?_ fun name => ?_
      · refine Meets.ofExcept (fun _ _ => trivial) fun error herror => ?_
        obtain ⟨hkind, rfl⟩ := Node.target_eq_error herror
        exact (Node.Raises.assignee hkind).fails
      · refine (hpart value (by simp [Node.children])).bind fun result hresult => ?_
        exact (set_meets name hresult).seq fun _ => Meets.pure hnull
    | branch test body alternate =>
      rw [Node.evaluate]
      refine (hpart test (by simp [Node.children])).bind fun result _ => ?_
      split
      next =>
        refine (evaluateBlock_meets body fun part hmem => hpart part ?_).seq fun text =>
          Meets.pure (hstring text)
        simp [Node.children, hmem]
      next =>
        refine (evaluateBlock_meets alternate fun part hmem => hpart part ?_).seq fun text =>
          Meets.pure (hstring text)
        simp [Node.children, hmem]
      next htrue hfalse =>
        refine Meets.throw (Node.Raises.condition fun hkind => ?_).fails
        exact (Value.kind_eq_boolean hkind).elim htrue hfalse
    | loop target iterable body =>
      rw [Node.evaluate]
      refine Meets.seq ?_ fun name => ?_
      · refine Meets.ofExcept (fun _ _ => trivial) fun error herror => ?_
        obtain ⟨hkind, rfl⟩ := Node.target_eq_error herror
        exact (Node.Raises.target hkind).fails
      · refine (hpart iterable (by simp [Node.children])).bind fun result hresult => ?_
        split
        next items =>
          have hbody := evaluateBlock_meets body fun part hmem => hpart part (by
            simp [Node.children, hmem])
          have hitems : ∀ item ∈ items, admits item := fun item => hadmits.item items item hresult
          exact (inChild_meets (loopPasses_meets hadmits hbody hitems)).seq fun text =>
            Meets.pure (hstring text)
        next harray =>
          refine Meets.throw (Node.Raises.iterable fun hkind => ?_).fails
          obtain ⟨items, rfl⟩ := Value.kind_eq_array hkind
          exact harray items rfl
    | numeric value =>
      rw [Node.evaluate]
      refine Meets.ofExcept (fun result hresult => ?_) fun error herror => ?_
      · exact hadmits.data _ (Numeral.isData_value hresult)
      · obtain ⟨source, rfl, hparse, rfl⟩ := Numeral.value_eq_error herror
        exact (Node.Raises.literal hparse).fails
    | string value =>
      rw [Node.evaluate]
      exact Meets.pure (hstring value)
    | boolean value =>
      rw [Node.evaluate]
      exact Meets.pure (hadmits.data _ (Value.isData_boolean value))
    | identifier name =>
      rw [Node.evaluate]
      exact get_meets.bind fun chain hchain => Meets.pure (hchain.lookup hnull name)
    | call callee args =>
      rw [Node.evaluate]
      refine (evaluateAll_meets fun part hmem => hpart part ?_).bind ?_
      · simp [Node.children, hmem]
      · -- An error of the call shows the number of arguments, so the values must keep it.
        rintro values ⟨hlength, hvalues⟩
        refine (hpart callee (by simp [Node.children])).bind fun function hfunction => ?_
        have hcall := call_meets hadmits hnatives callee hfunction hlength hvalues
        exact hcall.mono (fun error herror => herror.fails) fun _ h => h
    | member object property computed =>
      rw [Node.evaluate_member]
      refine (key_meets computed (hpart property (by simp [Node.children]))).seq fun key => ?_
      -- Nothing is known of the key: one that is no string fails before the object is looked at.
      unfold Node.access
      split
      next name =>
        refine (hpart object (by simp [Node.children])).bind fun owner howner => ?_
        refine Meets.ofExcept (fun found hfound => hadmits.member howner hfound) ?_
        intro error herror
        rw [Value.member_eq_error herror]
        exact Node.Raises.property.fails
      next hstring =>
        refine Meets.throw (Node.Raises.key fun hkind => ?_).fails
        obtain ⟨name, rfl⟩ := Value.kind_eq_string hkind
        exact hstring name rfl
    | unary operator argument =>
      rw [Node.evaluate]
      refine (hpart argument (by simp [Node.children])).bind fun operand _ => ?_
      refine Meets.ofExcept (fun result hresult => ?_) fun error herror => ?_
      · exact hadmits.data _ (UnaryOperator.isData_apply hresult)
      · obtain ⟨rfl, rfl⟩ := UnaryOperator.apply_eq_error herror
        exact Node.Raises.negation.fails
    | binary operator left right =>
      rw [Node.evaluate]
      refine (hpart left (by simp [Node.children])).bind fun first _ => ?_
      refine (hpart right (by simp [Node.children])).bind fun second _ => ?_
      refine Meets.ofExcept (fun result hresult => ?_) fun error herror => ?_
      · exact hadmits.data _ (BinaryOperator.isData_apply hresult)
      · rcases BinaryOperator.apply_eq_error herror with ⟨hnull, rfl⟩ | rfl
        · exact (Node.Raises.nullOperand hnull).fails
        · exact Node.Raises.undefinedOperator.fails
    | unknown =>
      rw [Node.evaluate]
      exact Meets.throw Node.Raises.unknown.fails

/-! ## 2. The construct behind an error -/

/-- The construct that an error names is in the tree. Errors that come from the host name none. -/
def Node.Explains (node : Node) : RuntimeError → Prop
  | .invalidAssignmentTarget found =>
    found ≠ .identifier ∧ ∃ target, target.kind = found ∧
      ((∃ value, node.Contains (.set target value)) ∨
        ∃ iterable body, node.Contains (.loop target iterable body))
  | .invalidLiteral text =>
    node.Contains (.numeric (.text text)) ∧ Number.parse? (Text.trim text) = none
  | .arityMismatch _ _ got =>
    1 ≤ got ∧ ∃ callee args, node.Contains (.call callee args) ∧ args.length = got
  | .nullOperand operator _ _ => ∃ left right, node.Contains (.binary operator left right)
  | .unknownBinary operator _ _ => ∃ left right, node.Contains (.binary operator left right)
  | .unknownUnary operator _ =>
    operator = .negate ∧ ∃ argument, node.Contains (.unary operator argument)
  | .notCallable _ => ∃ callee args, node.Contains (.call callee args)
  | .noSuchProperty _ _ =>
    ∃ object property computed, node.Contains (.member object property computed)
  | .typeMismatch .condition _ =>
    ∃ test body alternate, node.Contains (.branch test body alternate)
  | .typeMismatch .iterable _ => ∃ target iterable body, node.Contains (.loop target iterable body)
  | .typeMismatch .propertyKey _ =>
    ∃ object property computed, node.Contains (.member object property computed)
  | .typeMismatch (.receiver _) _ => ∃ callee, node.Contains (.call callee [])
  | .unknownNode => node.Contains .unknown
  | .duplicateDeclaration _ => False
  | .conversion _ => False
  | .hostCall _ _ => False

/-- What a node raises by itself is explained by a tree around it, native functions apart. -/
theorem Node.Raises.explains {natives : Natives} {admits : Value → Prop} {node part : Node}
    {error : RuntimeError} (hnative : ∀ name identity, ¬ admits (.native name identity))
    (hpart : node.Contains part) (h : part.Raises natives admits error) : node.Explains error := by
  cases h with
  | assignee hkind => exact ⟨hkind, _, rfl, Or.inl ⟨_, hpart⟩⟩
  | target hkind => exact ⟨hkind, _, rfl, Or.inr ⟨_, _, hpart⟩⟩
  | condition => exact ⟨_, _, _, hpart⟩
  | iterable => exact ⟨_, _, _, hpart⟩
  | literal hparse => exact ⟨hpart, hparse⟩
  | key => exact ⟨_, _, _, hpart⟩
  | property => exact ⟨_, _, _, hpart⟩
  | notCallable => exact ⟨_, _, hpart⟩
  | arity hne => exact ⟨List.length_pos_iff.mpr hne, _, _, hpart, rfl⟩
  | receiver => exact ⟨_, hpart⟩
  | native hadmits => exact absurd hadmits (hnative _ _)
  | negation => exact ⟨rfl, _, hpart⟩
  | nullOperand => exact ⟨_, _, hpart⟩
  | undefinedOperator => exact ⟨_, _, hpart⟩
  | unknown => exact hpart

/-- If a chain holds no native functions, not even inside other values, and a tree fails in it, then
the tree has the construct that the error names in it. -/
theorem evaluate_error_explained {natives : Natives} {node : Node} {chain : Chain}
    {error : RuntimeError} (hchain : chain.Holds Value.NativeFree)
    (hfails : ((node.evaluate natives).start chain).1 = .error error) : node.Explains error := by
  have hkeep := natives.keep_of_not_admitted Value.not_nativeFree_native
  have hmeets := evaluate_meets Value.admissible_nativeFree hkeep node
  obtain ⟨part, hpart, hraises⟩ := hmeets.error hchain hfails
  exact hraises.explains Value.not_nativeFree_native hpart

/-- A method that is kept in a variable and called with an argument later: the error shows the
number of arguments of the call, wherever the method comes from. -/
theorem evaluate_error_explained_stored_method :
    let tree := Node.program [
      .set (.identifier "shout") (.field (.string "ab") "upper"),
      .loop (.identifier "item") (.identifier "items") [
        .call (.identifier "shout") [.identifier "item"]]]
    let chain : Chain := ⟨[("items", .array [.null])], []⟩
    let error := RuntimeError.arityMismatch "upper" 0 1
    chain.Holds Value.NativeFree ∧
      ((tree.evaluate Natives.none).start chain).1 = .error error ∧ tree.Explains error := by
  intro tree chain error
  have hitems : (Value.array [.null]).IsData := Value.isData_array (by simp [Value.isData_null])
  have hchain : chain.Holds Value.NativeFree :=
    .of_mem (by simpa [chain, Chain.scopes] using Value.admissible_nativeFree.data _ hitems)
  have hfails : ((tree.evaluate Natives.none).start chain).1 = .error error := rfl
  exact ⟨hchain, hfails, evaluate_error_explained hchain hfails⟩

end Templating
