import Templating.Helper
import Templating.Proofs.Evaluation.Effect
import Templating.Proofs.Scope.History

/-!
# The passes of a loop

A loop runs its body once for each item, in a scope that all passes share. `Passes` says which
passes there are, each with the chain in which its body starts and with what the body gives and
leaves there. `LoopLaws` is what can be relied on, whatever the body and the native functions do to
the names of the loop.

Results:
1. `evaluate_surrounds`: if native functions work on scopes by their operations, an evaluation
   leaves the scopes that it found, and no name is added to those around the current one. The
   ready-made functions are such functions (`Helper.natives_useScopes`).
2. `Passes.start_eq`: how a pass starts; so what it finds (`Passes.item`, `Passes.state`).
3. `exists_passes`, `Passes.run`: the passes that a loop makes, and what it gives and leaves.
4. `start_loop_eq`, `start_loop`: a loop over an array makes its passes in a scope of its own.
   `evaluate_loop_passes`: it obeys its laws.
-/

namespace Templating

/-! ## Definitions -/

/-- Every native function does to the scope that it is called from what some operations do that
leave the scopes which they enter. -/
def Natives.UseScopes (natives : Natives) : Prop :=
  ∀ identity args chain, ∃ operations, Operation.Balanced operations ∧
    ((natives identity args).start chain).2 = chain.run operations

/-- One pass of a loop: where its body starts, what the body gives, and what it leaves. -/
structure Pass where
  start : Chain
  result : Except RuntimeError String
  after : Chain

/-- The passes of a loop over the items that are left, from pass `index` on. A pass starts where the
one before it has ended, after `loop` and the loop variable have been set. One that fails is the
last. -/
inductive Passes (natives : Natives) (name : String) (body : List Node) (length : Nat) :
    Nat → List Value → Chain → List Pass → Prop
  | done {index : Nat} {chain : Chain} : Passes natives name body length index [] chain []
  | next {index : Nat} {item : Value} {rest : List Value} {chain start after : Chain}
      {text : String} {passes : List Pass} :
      start = (chain.set "loop" (loopState index length)).set name item →
      (evaluateBlock natives body).start start = (.ok text, after) →
      Passes natives name body length (index + 1) rest after passes →
      Passes natives name body length index (item :: rest) chain
        (⟨start, .ok text, after⟩ :: passes)
  | fails {index : Nat} {item : Value} {rest : List Value} {chain start after : Chain}
      {error : RuntimeError} :
      start = (chain.set "loop" (loopState index length)).set name item →
      (evaluateBlock natives body).start start = (.error error, after) →
      Passes natives name body length index (item :: rest) chain [⟨start, .error error, after⟩]

/-- The chain that some passes leave, the given one if there are none. -/
def Pass.last (passes : List Pass) (chain : Chain) : Chain :=
  (passes.getLast?.map Pass.after).getD chain

/-- What can be relied on in a loop over some items that starts in the chain `around` and makes the
given passes.

* `order`: the passes are made one after the other in the scope of the loop.
* `item`, `state`: when a pass starts, the loop variable is its item, and `loop` says which pass it
  is, unless that is the name of the loop variable.
* `outcome`: all passes succeed, one for each item, and their texts are joined, or the last one
  fails, and so does the loop.
* `left`: the scope of the loop is left after the last pass.
* `scope`: every pass starts in the scope of the loop, and the scopes around it bind the names that
  they bound before the loop. -/
structure LoopLaws (natives : Natives) (name : String) (body : List Node) (items : List Value)
    (around : Chain) (passes : List Pass) (run : Except RuntimeError Value × Chain) : Prop where
  order : Passes natives name body items.length 0 items around.push passes
  item : ∀ (i : Nat) (pass : Pass), passes[i]? = some pass →
    items[i]? = some (pass.start.lookup name)
  state : ∀ (i : Nat) (pass : Pass), passes[i]? = some pass → name ≠ "loop" →
    pass.start.lookup "loop" = .object [
      ("first", .boolean (decide (i = 0))),
      ("index", .numeric (Number.ofNat (i + 1))),
      ("index0", .numeric (Number.ofNat i)),
      ("last", .boolean (decide (i + 1 = items.length))),
      ("length", .numeric (Number.ofNat items.length))]
  outcome :
    (∃ texts : List String, passes.length = items.length ∧
      passes.map Pass.result = texts.map .ok ∧ run.1 = .ok (.string (String.join texts))) ∨
    ∃ (texts : List String) (error : RuntimeError),
      passes.map Pass.result = texts.map .ok ++ [.error error] ∧ run.1 = .error error
  left : run.2 = (Pass.last passes around.push).pop
  scope : natives.UseScopes → ∀ pass ∈ passes, pass.start.depth = around.depth + 1 ∧
    ∀ i other, pass.start.Binds (i + 1) other ↔ around.Binds i other

/-! ## 1. Scopes -/

section

variable {natives : Natives}

theorem Chain.Surrounds.composes (written : String → Prop) :
    Composes (Chain.Surrounds written) where
  refl := Chain.Surrounds.refl written
  trans _ _ _ := Chain.Surrounds.trans

/-- An evaluation leaves the scopes that it found, and in those around the current one no name is
added. -/
theorem evaluate_surrounds (hnatives : natives.UseScopes) (node : Node) :
    (node.evaluate natives).Respects (Chain.Surrounds fun _ => True) := by
  have hcomposes := Chain.Surrounds.composes fun _ => True
  induction node using Node.children_induction with
  | inherit node ih =>
    refine hcomposes.node (fun identity args chain => ?_) ?_ (fun hkind => ?_) ?_
    · obtain ⟨operations, hbalanced, hrun⟩ := hnatives identity args chain
      rw [hrun]
      exact (Chain.Surrounds.run hbalanced chain).mono fun _ _ => trivial
    · exact fun name value _ chain result => Chain.Surrounds.set result trivial
    · cases node with
      | loop target iterable body =>
        refine hcomposes.loop hcomposes (fun hinner chain => ?_) ?_ ?_ ?_
        · exact Chain.Surrounds.pop (hinner chain.push)
        · exact fun name _ chain value => Chain.Surrounds.set value trivial
        · exact ih iterable (by simp [Node.children])
        · exact fun statement hstatement => ih statement (by simp [Node.children, hstatement])
      | _ => cases hkind
    · exact fun step part hpart _ => ih part (Node.mem_children_iff.mpr ⟨step, hpart⟩)

theorem evaluateBlock_surrounds (hnatives : natives.UseScopes) (body : List Node) :
    (evaluateBlock natives body).Respects (Chain.Surrounds fun _ => True) :=
  (Chain.Surrounds.composes _).evaluateBlock fun statement _ =>
    evaluate_surrounds hnatives statement

/-- The ready-made functions work on scopes by their operations. -/
theorem Helper.natives_useScopes (helpers : List (Helper × String)) :
    (Helper.natives helpers).UseScopes := by
  intro identity args chain
  unfold Helper.natives
  cases helpers[identity]? with
  | none => exact ⟨[], .nil, rfl⟩
  | some entry =>
    obtain ⟨helper, name⟩ := entry
    simp only [Helper.run]
    cases helper.host? with
    | some function => exact ⟨[], .nil, rfl⟩
    | none =>
      simp only [Helper.onScope]
      split
      · exact ⟨[], .nil, rfl⟩
      · next target values => exact ⟨[.set target (values.headD .null)], .step nofun nofun .nil, rfl⟩
      · next target values =>
        refine ⟨[.declare target (values.headD .null)], .step nofun nofun .nil, ?_⟩
        have hget : (get : Evaluation Chain).start chain = (.ok chain, chain) := rfl
        rw [Evaluation.start_bind, hget]
        simp only
        rw [Evaluation.start_bind]
        show _ = chain.perform (.declare target (values.headD .null))
        rw [Chain.perform]
        cases chain.declare target (values.headD .null) with
        | ok after => rfl
        | error error => rfl
      · exact ⟨[], .nil, rfl⟩
      · exact ⟨[], .nil, rfl⟩
      · exact ⟨[], .nil, rfl⟩
      · exact ⟨[], .nil, rfl⟩

end

/-! ## 2. The start of a pass -/

/-- What `loop` holds, the fields in the order of their names. -/
theorem loopState_eq (index length : Nat) :
    loopState index length = .object [
      ("first", .boolean (decide (index = 0))),
      ("index", .numeric (Number.ofNat (index + 1))),
      ("index0", .numeric (Number.ofNat index)),
      ("last", .boolean (decide (index + 1 = length))),
      ("length", .numeric (Number.ofNat length))] := by
  simp only [loopState, Value.record, Fields.ofList, Fields.insertAll, List.foldl_cons,
    List.foldl_nil, Fields.insert, String.reduceLT, String.reduceEq, ↓reduceIte]

namespace Passes

variable {natives : Natives} {name : String} {body : List Node} {length index : Nat}
  {items : List Value} {chain : Chain} {passes : List Pass}

/-- A pass starts after `loop` and the loop variable have been set, in whatever chain the passes
before it have left. -/
theorem start_eq (h : Passes natives name body length index items chain passes) {i : Nat}
    {pass : Pass} (hpass : passes[i]? = some pass) :
    ∃ (before : Chain) (item : Value), items[i]? = some item ∧
      pass.start = (before.set "loop" (loopState (index + i) length)).set name item := by
  induction h generalizing i with
  | done => cases hpass
  | @next index item rest chain _ _ _ _ hstart _ _ ih =>
    cases i with
    | zero =>
      cases hpass
      exact ⟨chain, item, rfl, hstart⟩
    | succ i =>
      obtain ⟨before, other, hitem, hother⟩ := ih hpass
      rw [Nat.add_assoc, Nat.add_comm 1] at hother
      exact ⟨before, other, hitem, hother⟩
  | @fails index item rest chain _ _ _ hstart _ =>
    cases i with
    | zero =>
      cases hpass
      exact ⟨chain, item, rfl, hstart⟩
    | succ i => cases hpass

/-- When a pass starts, the loop variable is its item. -/
theorem item (h : Passes natives name body length index items chain passes) {i : Nat}
    {pass : Pass} (hpass : passes[i]? = some pass) :
    items[i]? = some (pass.start.lookup name) := by
  obtain ⟨before, item, hitem, hstart⟩ := h.start_eq hpass
  rw [hstart, Chain.lookup_set, if_pos rfl]
  exact hitem

/-- When a pass starts, `loop` says which pass it is. -/
theorem state (h : Passes natives name body length index items chain passes)
    (hname : name ≠ "loop") {i : Nat} {pass : Pass} (hpass : passes[i]? = some pass) :
    pass.start.lookup "loop" = loopState (index + i) length := by
  obtain ⟨before, item, -, hstart⟩ := h.start_eq hpass
  rw [hstart, Chain.lookup_set, if_neg hname.symm, Chain.lookup_set, if_pos rfl]

/-- Every pass starts with the scopes in which the loop runs. -/
theorem surrounds (h : Passes natives name body length index items chain passes)
    (hnatives : natives.UseScopes) {pass : Pass} (hpass : pass ∈ passes) :
    Chain.Surrounds (fun _ => True) chain pass.start := by
  have hset : ∀ {chain start : Chain} {index : Nat} {item : Value},
      start = (chain.set "loop" (loopState index length)).set name item →
      Chain.Surrounds (fun _ => True) chain start := by
    rintro chain start index item rfl
    exact (Chain.Surrounds.set _ trivial).trans (Chain.Surrounds.set item trivial)
  induction h with
  | done => cases hpass
  | @next _ _ _ chain start after _ _ hstart hbody _ ih =>
    rcases List.mem_cons.mp hpass with rfl | hrest
    · exact hset hstart
    · have hafter := evaluateBlock_surrounds hnatives body start
      rw [hbody] at hafter
      exact ((hset hstart).trans hafter).trans (ih hrest)
  | fails hstart _ =>
    obtain rfl := List.mem_singleton.mp hpass
    exact hset hstart

/-! ## 3. The passes of a loop -/

/-- What a loop gives and leaves, said of its passes: all of them give texts, one for each item, or
the last one fails. -/
theorem run (h : Passes natives name body length index items chain passes) :
    let run := (loopPasses name (evaluateBlock natives body) length index items).start chain
    run.2 = Pass.last passes chain ∧
      ((∃ texts : List String, passes.length = items.length ∧
          passes.map Pass.result = texts.map .ok ∧ run.1 = .ok (String.join texts)) ∨
        ∃ (texts : List String) (error : RuntimeError),
          passes.map Pass.result = texts.map .ok ++ [.error error] ∧ run.1 = .error error) := by
  induction h with
  | done => exact ⟨rfl, Or.inl ⟨[], rfl, rfl, String.join_nil.symm ▸ rfl⟩⟩
  | @next index item rest chain start after text passes hstart hbody _ ih =>
    have hlast : Pass.last (⟨start, .ok text, after⟩ :: passes) chain = Pass.last passes after := by
      cases passes with
      | nil => rfl
      | cons pass passes => rfl
    rw [loopPasses, Evaluation.start_bind, start_loopPass, ← hstart, hbody, hlast]
    simp only [Evaluation.start_bind]
    generalize (loopPasses name (evaluateBlock natives body) length (index + 1) rest).start after =
      run at ih ⊢
    obtain ⟨result, last⟩ := run
    obtain ⟨hleft, ⟨texts, hlength, hresults, hresult⟩ | ⟨texts, error, hresults, hresult⟩⟩ := ih
    · obtain rfl : result = .ok (String.join texts) := hresult
      refine ⟨hleft, Or.inl ⟨text :: texts, ?_, ?_, ?_⟩⟩
      · rw [List.length_cons, List.length_cons, hlength]
      · rw [List.map_cons, List.map_cons, hresults]
      · rw [String.join_cons]
        rfl
    · obtain rfl : result = .error error := hresult
      refine ⟨hleft, Or.inr ⟨text :: texts, error, ?_, rfl⟩⟩
      rw [List.map_cons, List.map_cons, hresults, List.cons_append]
  | @fails index item rest chain start after error hstart hbody =>
    rw [loopPasses, Evaluation.start_bind, start_loopPass, ← hstart, hbody]
    exact ⟨rfl, Or.inr ⟨[], error, rfl, rfl⟩⟩

end Passes

/-- A loop makes passes, whatever its items are. -/
theorem exists_passes (natives : Natives) (name : String) (body : List Node) (length index : Nat)
    (items : List Value) (chain : Chain) :
    ∃ passes, Passes natives name body length index items chain passes := by
  induction items generalizing index chain with
  | nil => exact ⟨[], .done⟩
  | cons item rest ih =>
    cases hbody : (evaluateBlock natives body).start
        ((chain.set "loop" (loopState index length)).set name item) with
    | mk result after =>
      cases result with
      | ok text =>
        obtain ⟨passes, hpasses⟩ := ih (index + 1) after
        exact ⟨_, .next rfl hbody hpasses⟩
      | error error => exact ⟨_, .fails rfl hbody⟩

/-! ## 4. A loop -/

/-- A loop makes its passes in a new scope, which it leaves at the end, if its iterable is an
array. -/
theorem start_loop_eq (natives : Natives) (name : String) (iterable : Node) (body : List Node)
    (chain : Chain) :
    ((Node.loop (.identifier name) iterable body).evaluate natives).start chain =
      match (iterable.evaluate natives).start chain with
      | (.ok (.array items), around) =>
        let run :=
          (loopPasses name (evaluateBlock natives body) items.length 0 items).start around.push
        (run.1.map .string, run.2.pop)
      | (.ok value, around) => (.error (.typeMismatch .iterable value.kind), around)
      | (.error error, around) => (.error error, around) := by
  rw [Node.evaluate, Evaluation.start_bind]
  show (iterable.evaluate natives >>= _).start chain = _
  rw [Evaluation.start_bind]
  obtain ⟨result, around⟩ := (iterable.evaluate natives).start chain
  cases result with
  | error error => rfl
  | ok value =>
    cases value with
    | array items =>
      simp only
      rw [Evaluation.start_bind, Evaluation.start_inChild]
      generalize (loopPasses name (evaluateBlock natives body) items.length 0 items).start
        around.push = run
      obtain ⟨result, after⟩ := run
      cases result with
      | ok text => rfl
      | error error => rfl
    | _ => rfl

/-- A loop over an array makes its passes in a new scope. -/
theorem start_loop {natives : Natives} {name : String} {iterable : Node} {body : List Node}
    {chain around : Chain} {items : List Value}
    (h : (iterable.evaluate natives).start chain = (.ok (.array items), around)) :
    ((Node.loop (.identifier name) iterable body).evaluate natives).start chain =
      let run := (loopPasses name (evaluateBlock natives body) items.length 0 items).start around.push
      (run.1.map .string, run.2.pop) := by
  rw [start_loop_eq, h]

/-- A loop over an array makes one pass after the other in a scope of its own, in the order of the
items, until one fails. Each pass starts with its item and with the state of the loop, wherever
these are bound and whatever has been assigned before. -/
theorem evaluate_loop_passes (natives : Natives) {name : String} {iterable : Node}
    {body : List Node} {chain around : Chain} {items : List Value}
    (h : (iterable.evaluate natives).start chain = (.ok (.array items), around)) :
    ∃ passes, LoopLaws natives name body items around passes
      (((Node.loop (.identifier name) iterable body).evaluate natives).start chain) := by
  obtain ⟨passes, hpasses⟩ := exists_passes natives name body items.length 0 items around.push
  obtain ⟨hleft, houtcome⟩ := hpasses.run
  rw [start_loop h]
  refine ⟨passes, hpasses, fun i pass hpass => hpasses.item hpass, fun i pass hpass hname => ?_, ?_,
    congrArg Chain.pop hleft, fun hnatives pass hpass => ?_⟩
  · rw [hpasses.state hname hpass, Nat.zero_add, loopState_eq]
  · refine houtcome.imp ?_ ?_
    · rintro ⟨texts, hlength, hresults, hresult⟩
      exact ⟨texts, hlength, hresults, congrArg (Except.map Value.string) hresult⟩
    · rintro ⟨texts, error, hresults, hresult⟩
      exact ⟨texts, error, hresults, congrArg (Except.map Value.string) hresult⟩
  · have hsurrounds := hpasses.surrounds hnatives hpass
    exact ⟨hsurrounds.depth, hsurrounds.names⟩

/-- The loop variable moves from the global scope into that of the loop, the iterated variable and
`loop` are overwritten, and the second of three passes fails. -/
theorem evaluate_loop_passes_moving :
    let natives := Helper.natives [(.declare, "declare")]
    let body := [
      Node.identifier "row",
      .member (.identifier "loop") (.identifier "first") false,
      .set (.identifier "rows") (.string "gone"),
      .set (.identifier "loop") (.identifier "row"),
      .call (.identifier "declare") [.string "row", .string "moved"]]
    let items := [Value.string "a", .string "b", .string "c"]
    let chain : Chain :=
      ⟨[("declare", .native "declare" 0), ("row", .null), ("rows", .array items)], []⟩
    let loop := Node.loop (.identifier "row") (.identifier "rows") body
    let run := (loop.evaluate natives).start chain
    natives.UseScopes ∧ (∃ passes, LoopLaws natives "row" body items chain passes run) ∧
      run.1 = .error (.duplicateDeclaration "row") ∧ run.2.lookup "row" = .string "a" := by
  intro natives body items chain loop run
  have hiterable : ((Node.identifier "rows").evaluate natives).start chain =
      (.ok (.array items), chain) := by
    simp only [natives, chain, items]
    rfl
  refine ⟨Helper.natives_useScopes _, evaluate_loop_passes natives hiterable, ?_, ?_⟩
  · simp only [run, loop, natives, body, chain, items]
    rfl
  · simp only [run, loop, natives, body, chain, items]
    rfl

end Templating
