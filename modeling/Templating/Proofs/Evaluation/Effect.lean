import Templating.Proofs.Evaluation.Basic
import Templating.Proofs.Node.Position
import Templating.Proofs.Scope.Binding
import Templating.Value.Json

/-!
# What evaluation does to the bindings

An evaluation `Respects` a relation on chains if the chain it starts in and the chain it leaves
behind are related, whether it succeeds or fails. For a relation that `Composes` this is inherited
along the construction of evaluations, so that only assignments and new scopes need a thought.

`Node.Sets` are the names that a tree may bind in the current scope, `Node.Writes` the names whose
bindings it may change.

Results:
1. `evaluate_effect`: evaluating a tree has the effect `Chain.Effect node.Sets node.Writes`.
2. `evaluate_scopes`: the scopes stay, outer ones bind what they bound before, the current one may
   get names of `Node.Sets`; a loop leaves nothing of its body behind.
3. `evaluate_frame`: a binding that is not written or that is hidden keeps its value.
-/

namespace Templating

/-! ## Definitions -/

/-- No native function writes to the scope that it is called from. -/
def Natives.ReadOnly (natives : Natives) : Prop :=
  ∀ identity args chain, ((natives identity args).start chain).2 = chain

/-- The table of some functions of the host, each with its name. -/
def Natives.ofHost (functions : Nat → String × HostFunction) : Natives := fun identity args =>
  Evaluation.ofExcept ((functions identity).2.run (functions identity).1 args)

/-- The name is the assignee of an assignment in the tree that lies outside all bodies of loops. -/
def Node.Sets (node : Node) (name : String) : Prop :=
  ∃ position value, node.at? position = some (.set (.identifier name) value) ∧
    position.inLoopBody = false

/-- What a node writes besides what its parts do: an assignment its assignee, a loop its variable
and `loop`. -/
def Node.Assigns (name : String) : Node → Prop
  | .set assignee _ => assignee = .identifier name
  | .loop target _ _ => target = .identifier name ∨ name = "loop"
  | _ => False

/-- The name is written by some node in the tree. -/
def Node.Writes (node : Node) (name : String) : Prop :=
  ∃ position part, node.at? position = some part ∧ part.Assigns name

/-- A relation on chains that any number of steps may be measured by. -/
structure Composes (effect : Chain → Chain → Prop) : Prop where
  refl : ∀ chain, effect chain chain
  trans : ∀ before middle after, effect before middle → effect middle after → effect before after

/-- The chains before and after an evaluation are related. -/
def Evaluation.Respects {α : Type} (effect : Chain → Chain → Prop) (evaluation : Evaluation α) :
    Prop :=
  ∀ chain, effect chain (evaluation.start chain).2

/-! ## Helpers -/

/-- Functions of the host know nothing about scopes. -/
theorem Natives.ofHost_readOnly (functions : Nat → String × HostFunction) :
    (Natives.ofHost functions).ReadOnly := fun _ _ _ => rfl

namespace Composes

variable {α β : Type} {effect : Chain → Chain → Prop}

theorem ofExcept (h : Composes effect) (result : Except RuntimeError α) :
    (Evaluation.ofExcept result).Respects effect := fun chain => h.refl chain

theorem pure (h : Composes effect) (value : α) :
    (Pure.pure value : Evaluation α).Respects effect := fun chain => h.refl chain

theorem throw (h : Composes effect) (error : RuntimeError) :
    (MonadExcept.throw error : Evaluation α).Respects effect := fun chain => h.refl chain

theorem bind (h : Composes effect) {evaluation : Evaluation α} {next : α → Evaluation β}
    (hfirst : evaluation.Respects effect) (hnext : ∀ value, (next value).Respects effect) :
    (evaluation >>= next).Respects effect := by
  intro chain
  have hbefore := hfirst chain
  rw [Evaluation.start_bind]
  generalize evaluation.start chain = run at hbefore ⊢
  obtain ⟨result, middle⟩ := run
  cases result with
  | error error => exact hbefore
  | ok value => exact h.trans _ _ _ hbefore (hnext value middle)

/-- The statements of a block respect what each of them does. -/
theorem evaluateBlock (h : Composes effect) {natives : Natives} {body : List Node}
    (hbody : ∀ statement ∈ body, (statement.evaluate natives).Respects effect) :
    (evaluateBlock natives body).Respects effect := by
  induction body with
  | nil =>
    rw [Templating.evaluateBlock]
    exact h.pure _
  | cons statement rest ih =>
    rw [Templating.evaluateBlock]
    refine h.bind (hbody statement List.mem_cons_self) fun value => ?_
    refine h.bind (ih fun node hnode => hbody node (List.mem_cons_of_mem _ hnode)) fun text => ?_
    exact h.pure _

theorem evaluateAll (h : Composes effect) {natives : Natives} {nodes : List Node}
    (hnodes : ∀ node ∈ nodes, (node.evaluate natives).Respects effect) :
    (evaluateAll natives nodes).Respects effect := by
  induction nodes with
  | nil =>
    rw [Templating.evaluateAll]
    exact h.pure _
  | cons node rest ih =>
    rw [Templating.evaluateAll]
    refine h.bind (hnodes node List.mem_cons_self) fun value => ?_
    refine h.bind (ih fun node hnode => hnodes node (List.mem_cons_of_mem _ hnode)) fun values => ?_
    exact h.pure _

/-- The passes of a loop respect what an assignment to its names and a run of its body do. -/
theorem loopPasses (h : Composes effect) {name : String} {body : Evaluation String}
    (hloop : ∀ chain value, effect chain (chain.set "loop" value))
    (hname : ∀ chain value, effect chain (chain.set name value))
    (hbody : body.Respects effect) (length index : Nat) (items : List Value) :
    (loopPasses name body length index items).Respects effect := by
  induction items generalizing index with
  | nil =>
    rw [Templating.loopPasses]
    exact h.pure _
  | cons item rest ih =>
    rw [Templating.loopPasses]
    refine h.bind ?_ fun text => h.bind (ih (index + 1)) fun texts => h.pure _
    refine h.bind (fun chain => hloop chain _) fun _ => ?_
    exact h.bind (fun chain => hname chain _) fun _ => hbody

/-- A call of a function respects what the native functions do. -/
theorem call (h : Composes effect) {natives : Natives}
    (hnatives : ∀ identity args, (natives identity args).Respects effect) (callee : Value)
    (args : List Value) : (callee.call natives args).Respects effect := by
  unfold Value.call
  split
  · exact hnatives _ _
  · exact h.ofExcept _
  · exact h.throw _

/-- What comes after a fixed result may use that it is the result. -/
theorem bind_ofExcept (h : Composes effect) {result : Except RuntimeError α}
    {next : α → Evaluation β} (hnext : ∀ value, result = .ok value → (next value).Respects effect) :
    (Evaluation.ofExcept result >>= next).Respects effect := by
  cases result with
  | error error => exact fun chain => h.refl chain
  | ok value => exact hnext value rfl

/-- A loop respects what its iterable does and what its passes do in a scope of their own. -/
theorem loop (h : Composes effect) {inner : Chain → Chain → Prop} (hinner : Composes inner)
    {natives : Natives} {target iterable : Node} {body : List Node}
    (hchild : ∀ {evaluation : Evaluation String}, evaluation.Respects inner →
      evaluation.inChild.Respects effect)
    (hset : ∀ name, name = "loop" ∨ target = .identifier name →
      ∀ chain value, inner chain (chain.set name value))
    (hiterable : (iterable.evaluate natives).Respects effect)
    (hbody : ∀ statement ∈ body, (statement.evaluate natives).Respects inner) :
    ((Node.loop target iterable body).evaluate natives).Respects effect := by
  rw [Node.evaluate]
  refine h.bind_ofExcept fun name htarget => ?_
  refine h.bind hiterable fun value => ?_
  split
  · refine h.bind (hchild ?_) fun text => h.pure _
    refine hinner.loopPasses (hset "loop" (Or.inl rfl)) ?_ (hinner.evaluateBlock hbody) _ _ _
    exact hset name (Or.inr (Node.target_eq_ok_iff.mp htarget))
  · exact h.throw _

/-- A node respects what its parts do, if it also respects what it does itself: an assignment sets
its assignee, and a loop is a case of its own. -/
theorem node (h : Composes effect) {natives : Natives} {node : Node}
    (hnatives : ∀ identity args, (natives identity args).Respects effect)
    (hset : ∀ name value, node = .set (.identifier name) value →
      ∀ chain result, effect chain (chain.set name result))
    (hloop : node.kind = .loop → (node.evaluate natives).Respects effect)
    (hpart : ∀ step part, node.part? step = some part → step.isLoopBody = false →
      (part.evaluate natives).Respects effect) :
    (node.evaluate natives).Respects effect := by
  have hlist : ∀ {nodes : List Node} (step : Nat → Step), (∀ i, node.part? (step i) = nodes[i]?) →
      (∀ i, (step i).isLoopBody = false) → ∀ part ∈ nodes,
      (part.evaluate natives).Respects effect := by
    intro nodes step hstep hbody part hmem
    obtain ⟨i, hi⟩ := List.mem_iff_getElem?.mp hmem
    exact hpart (step i) part ((hstep i).trans hi) (hbody i)
  cases node with
  | program body =>
    rw [Node.evaluate]
    refine h.bind (h.evaluateBlock ?_) fun text => h.pure _
    exact hlist .statement (fun _ => rfl) fun _ => rfl
  | set assignee value =>
    rw [Node.evaluate]
    refine h.bind_ofExcept fun name hname => ?_
    obtain rfl := Node.target_eq_ok_iff.mp hname
    refine h.bind (hpart .value value rfl rfl) fun result => ?_
    exact h.bind (fun chain => hset name value rfl chain result) fun _ => h.pure _
  | branch test body alternate =>
    rw [Node.evaluate]
    refine h.bind (hpart .test test rfl rfl) fun result => ?_
    split
    · refine h.bind (h.evaluateBlock ?_) fun text => h.pure _
      exact hlist .consequent (fun _ => rfl) fun _ => rfl
    · refine h.bind (h.evaluateBlock ?_) fun text => h.pure _
      exact hlist .alternate (fun _ => rfl) fun _ => rfl
    · exact h.throw _
  | loop target iterable body => exact hloop rfl
  | numeric value =>
    rw [Node.evaluate]
    exact h.ofExcept _
  | string value | boolean value =>
    rw [Node.evaluate]
    exact h.pure _
  | identifier name =>
    rw [Node.evaluate]
    exact h.bind (fun chain => h.refl chain) fun chain => h.pure _
  | call callee args =>
    rw [Node.evaluate]
    refine h.bind (h.evaluateAll ?_) fun values => ?_
    · exact hlist .argument (fun _ => rfl) fun _ => rfl
    · refine h.bind (hpart .callee callee rfl rfl) fun function => ?_
      exact h.call hnatives function values
  | member object property computed =>
    rw [Node.evaluate_member]
    refine h.bind ?_ fun key => ?_
    · unfold Node.key
      split
      · exact h.pure _
      · exact hpart .property _ rfl rfl
    · unfold Node.access
      split
      · refine h.bind (hpart .object object rfl rfl) fun value => ?_
        exact h.ofExcept _
      · exact h.throw _
  | unary operator argument =>
    rw [Node.evaluate]
    refine h.bind (hpart .operand argument rfl rfl) fun operand => ?_
    exact h.ofExcept _
  | binary operator left right =>
    rw [Node.evaluate]
    refine h.bind (hpart .left left rfl rfl) fun left => ?_
    refine h.bind (hpart .right right rfl rfl) fun right => ?_
    exact h.ofExcept _
  | unknown =>
    rw [Node.evaluate]
    exact h.throw _

end Composes

theorem Chain.Effect.composes (fresh written : String → Prop) :
    Composes (Chain.Effect fresh written) where
  refl := Chain.Effect.refl fresh written
  trans _ _ _ := Chain.Effect.trans

/-- Whatever an evaluation binds in a scope of its own is gone when it ends. -/
theorem Evaluation.Respects.inChild {α : Type} {fresh bound written : String → Prop}
    {evaluation : Evaluation α} (h : evaluation.Respects (Chain.Effect bound written)) :
    evaluation.inChild.Respects (Chain.Effect fresh written) :=
  fun chain => Chain.Effect.pop (h chain.push)

theorem Evaluation.Respects.mono {α : Type} {fresh written fresh' written' : String → Prop}
    {evaluation : Evaluation α} (h : evaluation.Respects (Chain.Effect fresh written))
    (hfresh : ∀ name, fresh name → fresh' name) (hwritten : ∀ name, written name → written' name) :
    evaluation.Respects (Chain.Effect fresh' written') :=
  fun chain => (h chain).mono hfresh hwritten

namespace Node

variable {node part : Node} {name : String}

theorem Sets.of_part (step : Step) (hpart : node.part? step = some part)
    (hstep : step.isLoopBody = false) (h : part.Sets name) : node.Sets name := by
  obtain ⟨position, value, hposition, hbody⟩ := h
  refine ⟨step :: position, value, ?_, ?_⟩
  · rw [at?, hpart]
    exact hposition
  · rw [Position.inLoopBody, List.any_cons, hstep]
    exact hbody

/-- The assignments in a tree that count are the tree itself and those in its parts, bodies of loops
left out. -/
theorem sets_iff : node.Sets name ↔ (∃ value, node = .set (.identifier name) value) ∨
    ∃ step part, node.part? step = some part ∧ step.isLoopBody = false ∧ part.Sets name := by
  constructor
  · rintro ⟨position, value, hposition, hbody⟩
    cases position with
    | nil => exact Or.inl ⟨value, Option.some.inj hposition⟩
    | cons step rest =>
      obtain ⟨part, hpart, hrest⟩ := Option.bind_eq_some_iff.mp hposition
      obtain ⟨hstep, hrestBody⟩ := Bool.or_eq_false_iff.mp hbody
      exact Or.inr ⟨step, part, hpart, hstep, rest, value, hrest, hrestBody⟩
  · rintro (⟨value, rfl⟩ | ⟨step, part, hpart, hstep, h⟩)
    · exact ⟨[], value, rfl, rfl⟩
    · exact h.of_part step hpart hstep

/-- A leaf has no assignment in it. -/
theorem not_sets_leaf (h : node.children = []) : ¬ node.Sets name := by
  rw [sets_iff]
  rintro (⟨value, rfl⟩ | ⟨step, part, hpart, -, -⟩)
  · cases h
  · have hmem := mem_children_iff.mpr ⟨step, hpart⟩
    rw [h] at hmem
    exact absurd hmem List.not_mem_nil

@[simp] theorem not_sets_identifier {other : String} : ¬ (Node.identifier other).Sets name :=
  not_sets_leaf rfl

@[simp] theorem sets_set (assignee value : Node) (name : String) :
    (set assignee value).Sets name ↔
      assignee = .identifier name ∨ assignee.Sets name ∨ value.Sets name := by
  constructor
  · intro h
    rcases sets_iff.mp h with ⟨_, hset⟩ | ⟨step, part, hpart, -, hsets⟩
    · exact Or.inl (Node.set.inj hset).1
    · cases step with
      | assignee => exact Or.inr (Or.inl (Option.some.inj hpart ▸ hsets))
      | value => exact Or.inr (Or.inr (Option.some.inj hpart ▸ hsets))
      | _ => cases hpart
  · rintro (rfl | h | h)
    · exact ⟨[], value, rfl, rfl⟩
    · exact h.of_part .assignee rfl rfl
    · exact h.of_part .value rfl rfl

@[simp] theorem sets_loop (target iterable : Node) (body : List Node) (name : String) :
    (loop target iterable body).Sets name ↔ target.Sets name ∨ iterable.Sets name := by
  constructor
  · intro h
    rcases sets_iff.mp h with ⟨_, hset⟩ | ⟨step, part, hpart, hstep, hsets⟩
    · cases hset
    · cases step with
      | target => exact Or.inl (Option.some.inj hpart ▸ hsets)
      | iterable => exact Or.inr (Option.some.inj hpart ▸ hsets)
      | loopBody i => cases hstep
      | _ => cases hpart
  · rintro (h | h)
    · exact h.of_part .target rfl rfl
    · exact h.of_part .iterable rfl rfl

theorem Writes.of_part (step : Step) (hpart : node.part? step = some part) (h : part.Writes name) :
    node.Writes name := by
  obtain ⟨position, written, hposition, hwritten⟩ := h
  refine ⟨step :: position, written, ?_, hwritten⟩
  rw [at?, hpart]
  exact hposition

theorem writes_iff : node.Writes name ↔
    node.Assigns name ∨ ∃ part ∈ node.children, part.Writes name := by
  constructor
  · rintro ⟨position, written, hposition, hwritten⟩
    cases position with
    | nil =>
      cases hposition
      exact Or.inl hwritten
    | cons step rest =>
      rw [at?] at hposition
      obtain ⟨part, hpart, hrest⟩ := Option.bind_eq_some_iff.mp hposition
      exact Or.inr ⟨part, mem_children_iff.mpr ⟨step, hpart⟩, rest, written, hrest, hwritten⟩
  · rintro (h | ⟨part, hmem, h⟩)
    · exact ⟨[], node, rfl, h⟩
    · obtain ⟨step, hstep⟩ := mem_children_iff.mp hmem
      exact h.of_part step hstep

@[simp] theorem writes_identifier (name other : String) : ¬ (identifier other).Writes name := by
  rw [writes_iff]
  simp [Assigns, children]

@[simp] theorem writes_set (assignee value : Node) (name : String) :
    (set assignee value).Writes name ↔
      assignee = .identifier name ∨ assignee.Writes name ∨ value.Writes name := by
  rw [writes_iff]
  simp [Assigns, children]

@[simp] theorem writes_loop (target iterable : Node) (body : List Node) (name : String) :
    (loop target iterable body).Writes name ↔
      (target = .identifier name ∨ name = "loop") ∨ target.Writes name ∨ iterable.Writes name ∨
        ∃ statement ∈ body, statement.Writes name := by
  rw [writes_iff]
  simp [Assigns, children]

end Node

/-! ## 1. The effect of a tree -/

variable {natives : Natives}

/-- The trees below a node do what is claimed of all trees. -/
def Node.PartsRespect (natives : Natives) (node : Node) : Prop :=
  ∀ part ∈ node.children,
    (part.evaluate natives).Respects (Chain.Effect part.Sets part.Writes)

/-- A loop binds in the current scope only what its iterable binds there. -/
theorem loop_effect {target iterable : Node} {body : List Node}
    (h : (Node.loop target iterable body).PartsRespect natives) :
    ((Node.loop target iterable body).evaluate natives).Respects
      (Chain.Effect iterable.Sets (Node.loop target iterable body).Writes) := by
  have houter := Chain.Effect.composes iterable.Sets (Node.loop target iterable body).Writes
  -- In the scope of the loop any name may become bound: the scope is left at the end.
  have hinner := Chain.Effect.composes (fun _ => True) (Node.loop target iterable body).Writes
  have hiterable := h iterable (by simp [Node.children])
  refine houter.loop hinner Evaluation.Respects.inChild ?_ ?_ ?_
  · intro name hname chain value
    exact Chain.Effect.set value trivial ⟨[], _, rfl, hname.symm⟩
  · exact hiterable.mono (fun _ h => h) fun _ h => h.of_part .iterable rfl
  · intro statement hstatement
    obtain ⟨i, hi⟩ := List.mem_iff_getElem?.mp hstatement
    exact (h statement (by simp [Node.children, hstatement])).mono (fun _ _ => trivial)
      fun _ h => h.of_part (.loopBody i) hi

/-- Evaluating a tree binds only names that it sets and changes only bindings that it writes. -/
theorem evaluate_effect (hnatives : natives.ReadOnly) (node : Node) :
    (node.evaluate natives).Respects (Chain.Effect node.Sets node.Writes) := by
  induction node using Node.children_induction with
  | inherit node ih =>
    have hcomposes := Chain.Effect.composes node.Sets node.Writes
    refine hcomposes.node (fun identity args chain => ?_) ?_ (fun hkind => ?_) ?_
    · rw [hnatives identity args chain]
      exact hcomposes.refl chain
    · rintro name value rfl chain result
      exact Chain.Effect.set result ⟨[], value, rfl, rfl⟩ ⟨[], _, rfl, rfl⟩
    · cases node with
      | loop target iterable body =>
        exact (loop_effect ih).mono (fun _ h => h.of_part .iterable rfl rfl) fun _ h => h
      | _ => cases hkind
    · intro step part hpart hstep
      exact (ih part (Node.mem_children_iff.mpr ⟨step, hpart⟩)).mono
        (fun _ h => h.of_part step hpart hstep) fun _ h => h.of_part step hpart

/-! ## 2. Which names are bound -/

/-- After an evaluation the scopes are the same ones. Outer scopes bind what they bound before, the
current scope keeps its names, and a name that is new in it is set outside all bodies of loops; if
the tree is itself a loop, it is set in the iterable. -/
theorem evaluate_scopes (hnatives : natives.ReadOnly) (node : Node) (chain : Chain) :
    let after := ((node.evaluate natives).start chain).2
    after.depth = chain.depth ∧
    (∀ i name, after.Binds (i + 1) name ↔ chain.Binds (i + 1) name) ∧
    (∀ name, chain.Binds 0 name → after.Binds 0 name) ∧
    (∀ name, after.Binds 0 name → ¬ chain.Binds 0 name → node.Sets name) ∧
    (∀ target iterable body, node = .loop target iterable body →
      ∀ name, after.Binds 0 name → ¬ chain.Binds 0 name → iterable.Sets name) := by
  have heffect := evaluate_effect hnatives node chain
  refine ⟨heffect.depth, fun i name => ⟨heffect.outer i name, heffect.keeps (i + 1) name⟩,
    heffect.keeps 0, fun name hafter hnew => (heffect.current name hafter).resolve_left hnew, ?_⟩
  rintro target iterable body rfl name hafter hnew
  have hparts : (Node.loop target iterable body).PartsRespect natives :=
    fun part _ => evaluate_effect hnatives part
  have hloop := loop_effect hparts chain
  exact (hloop.current name hafter).resolve_left hnew

/-- A loop inside a loop that fails in its second pass: neither `loop` nor the variables nor the
name that the bodies set are left in the scope around it. -/
theorem evaluate_scopes_failing_loop :
    let echo := Natives.ofHost fun _ => ("echo", fun args => .ok (some (.array args)))
    let tree := Node.loop (.identifier "row") (.identifier "rows")
      [.loop (.identifier "cell") (.identifier "row")
        [.set (.identifier "last") (.identifier "cell")]]
    let chain : Chain := ⟨[("rows", .array [.array [.null], .null])], [[("title", .null)]]⟩
    let after := ((tree.evaluate echo).start chain).2
    echo.ReadOnly ∧ after.depth = 2 ∧ ¬ after.Binds 0 "loop" ∧ ¬ after.Binds 0 "row" ∧
      ¬ after.Binds 0 "cell" ∧ ¬ after.Binds 0 "last" := by
  intro echo tree chain after
  have hreadOnly : echo.ReadOnly := Natives.ofHost_readOnly _
  obtain ⟨hdepth, -, -, -, hloop⟩ := evaluate_scopes hreadOnly tree chain
  have hnew : ∀ name, name ≠ "rows" → ¬ after.Binds 0 name := by
    intro name hname hafter
    refine Node.not_sets_identifier (hloop _ _ _ rfl name hafter ?_)
    have hfind : Scope.find? chain.current name = none := by
      rw [Scope.find?, Fields.find?_cons, if_neg hname]
      rfl
    simp [Chain.Binds, Chain.binding, Chain.scopes, hfind]
  exact ⟨hreadOnly, hdepth, hnew _ (by decide), hnew _ (by decide), hnew _ (by decide),
    hnew _ (by decide)⟩

/-! ## 3. Which bindings change -/

/-- An evaluation changes neither a binding whose name the tree does not write nor one that a
nearer scope hides. -/
theorem evaluate_frame (hnatives : natives.ReadOnly) (node : Node) (chain : Chain) :
    let after := ((node.evaluate natives).start chain).2
    (∀ i name, ¬ node.Writes name → after.binding i name = chain.binding i name) ∧
    (∀ i j name, j < i → chain.Binds j name → after.binding i name = chain.binding i name) := by
  have heffect := evaluate_effect hnatives node chain
  exact ⟨heffect.unwritten, heffect.shadowed⟩

/-- An assignment in a loop writes the nearest binding: the one further out, which it hides, and
the binding of another name stay as they are. -/
theorem evaluate_frame_hidden_name :
    let none := Natives.ofHost fun _ => ("none", fun _ => .ok .none)
    let tree := Node.loop (.identifier "item") (.identifier "items")
      [.set (.identifier "last") (.identifier "item")]
    let chain : Chain := ⟨[("items", .array [.boolean true, .boolean false]), ("last", .null)],
      [[("last", .string "outer")]]⟩
    let after := ((tree.evaluate none).start chain).2
    none.ReadOnly ∧ chain.Binds 0 "last" ∧ after.binding 1 "last" = some (.string "outer") ∧
      after.binding 0 "items" = chain.binding 0 "items" := by
  intro none tree chain after
  have hreadOnly : none.ReadOnly := Natives.ofHost_readOnly _
  obtain ⟨hunwritten, hhidden⟩ := evaluate_frame hreadOnly tree chain
  have hbinds : chain.Binds 0 "last" := by rfl
  refine ⟨hreadOnly, hbinds, (hhidden 1 0 "last" (by decide) hbinds).trans rfl,
    hunwritten 0 "items" ?_⟩
  simp [tree]

end Templating
