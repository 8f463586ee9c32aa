import Mathlib.Data.List.Nodup
import Mathlib.Logic.Equiv.Basic
import Templating.Proofs.Evaluation.Lockstep
import Templating.Proofs.Renderer.Globals

/-!
# What a rendering depends on

A renderer declares all of its bindings, but a program can only tell those apart whose names it
mentions. A global named `loop` is no exception: where a program does not mention `loop`, it cannot
tell whether its loops write to that global or to a binding of their own.

Results:
1. `globals_agree`: the global scopes of two renderers agree where their bindings do.
2. `render_rename`: renderers that agree on what a program mentions render it alike, also under a
   renaming.
3. `render_eq_of_mentioned`: neither the order of the bindings nor the bindings that a program does
   not mention matter.
4. `render_renamed`: no program can tell what its variables are called, apart from `loop`.
-/

namespace Templating.Renderer

variable (first second : Renderer)

/-! ## 1. Global scopes -/

/-- The global scopes of two renderers agree on the names that are bound to the same values. -/
theorem globals_agree {r : String → String} {relevant : String → Prop} (hfirst : first.names.Nodup)
    (hsecond : second.names.Nodup) (h : ∀ name, relevant name →
      Fields.find? second.bindings (r name) = Fields.find? first.bindings name) :
    ∃ left right, first.globals = .ok left ∧ second.globals = .ok right ∧
      Chain.Agree r relevant left right := by
  obtain ⟨left, hleft, hleftDepth, hleftBinding⟩ := first.globals_of_nodup hfirst
  obtain ⟨right, hright, hrightDepth, hrightBinding⟩ := second.globals_of_nodup hsecond
  refine ⟨left, right, hleft, hright, hrightDepth.trans hleftDepth.symm, fun i name hname => ?_⟩
  rw [hleftBinding, hrightBinding, h name hname]

/-! ## 2. Renamed programs -/

/-- A program and the renamed program are rendered alike if the names that the program mentions are
bound to the same values. -/
theorem render_rename {r : String → String} (hr : Function.Injective r) (hloop : r "loop" = "loop")
    (functions : Nat → String × HostFunction) {program : Node} (hfirst : first.names.Nodup)
    (hsecond : second.names.Nodup) (h : ∀ name, program.Mentions name →
      Fields.find? second.bindings (r name) = Fields.find? first.bindings name) :
    second.render (Natives.ofHost functions) (program.rename r) =
      first.render (Natives.ofHost functions) program := by
  obtain ⟨left, right, hleft, hright, hagree⟩ := globals_agree first second hfirst hsecond h
  have hprogram := evaluate_lockstep hr hloop functions program fun _ hname => hname
  have hrender : (program.render (Natives.ofHost functions)).Lockstep
      (Chain.Agree r program.Mentions) ((program.rename r).render (Natives.ofHost functions)) :=
    hprogram.bind fun value => .pure value.print
  rw [render, render, hleft, hright]
  exact (hrender left right hagree).1

/-! ## 3. Order and unmentioned names -/

theorem find?_congr {bindings others : List (String × Value)}
    (hbindings : (bindings.map Prod.fst).Nodup) (hothers : (others.map Prod.fst).Nodup)
    {name : String} (h : ∀ value, (name, value) ∈ others ↔ (name, value) ∈ bindings) :
    Fields.find? others name = Fields.find? bindings name := by
  refine Option.ext fun value => ?_
  rw [Fields.find?_eq_some_iff hothers, Fields.find?_eq_some_iff hbindings]
  exact h value

/-- If the bindings of a renderer have distinct names, then their order does not matter to any
program, and neither does it matter which further names are bound that the program does not
mention. The text is the same, or else the error. -/
theorem render_eq_of_mentioned (functions : Nat → String × HostFunction) (program : Node)
    {bindings : List (String × Value)} (hdistinct : (bindings.map Prod.fst).Nodup) :
    (∀ others : List (String × Value), others.Perm bindings →
      (Renderer.mk others).render (Natives.ofHost functions) program =
        (Renderer.mk bindings).render (Natives.ofHost functions) program) ∧
    (∀ others : List (String × Value), (others.map Prod.fst).Nodup →
      (∀ name value, program.Mentions name →
        ((name, value) ∈ others ↔ (name, value) ∈ bindings)) →
      (Renderer.mk others).render (Natives.ofHost functions) program =
        (Renderer.mk bindings).render (Natives.ofHost functions) program) := by
  have hrenders : ∀ others : List (String × Value), (others.map Prod.fst).Nodup →
      (∀ name value, program.Mentions name →
        ((name, value) ∈ others ↔ (name, value) ∈ bindings)) →
      (Renderer.mk others).render (Natives.ofHost functions) program =
        (Renderer.mk bindings).render (Natives.ofHost functions) program := by
    intro others hothers hsame
    have hfind : ∀ name, program.Mentions name →
        Fields.find? others (id name) = Fields.find? bindings name :=
      fun name hname => find?_congr hdistinct hothers fun value => hsame name value hname
    have hrename := render_rename ⟨bindings⟩ ⟨others⟩
      Function.injective_id rfl functions hdistinct hothers hfind
    rw [Node.rename_id] at hrename
    exact hrename
  refine ⟨fun others hperm => ?_, hrenders⟩
  refine hrenders others ?_ fun name value _ => hperm.mem_iff
  exact ((hperm.map Prod.fst).nodup_iff).mpr hdistinct

/-- A global named `loop` below a loop that does not mention it: the loop overwrites the global in
one rendering and binds a name of its own in the other, to the same effect. -/
theorem render_eq_of_mentioned_global_loop :
    let program := Node.program [
      .loop (.identifier "item") (.identifier "items") [
        .set (.identifier "last") (.identifier "item"), .identifier "last"],
      .identifier "item"]
    let items : Value := .array [.string "a", .boolean true]
    let bindings := [("loop", .string "mine"), ("items", items)]
    let others := [("items", items), ("unused", .null)]
    let none := Natives.ofHost fun _ => ("none", fun _ => .ok .none)
    (bindings.map Prod.fst).Nodup ∧ ¬ program.Mentions "loop" ∧
      (Renderer.mk others).render none program = (Renderer.mk bindings).render none program := by
  intro program items bindings others none
  have hdistinct : (bindings.map Prod.fst).Nodup := by decide
  have hloop : ¬ program.Mentions "loop" := by
    rw [Node.Mentions, ← Node.mem_subtrees_iff]
    simp [program, Node.subtrees_eq, Node.children]
  have hunused : ¬ program.Mentions "unused" := by
    rw [Node.Mentions, ← Node.mem_subtrees_iff]
    simp [program, Node.subtrees_eq, Node.children]
  obtain ⟨-, hrenders⟩ := render_eq_of_mentioned (fun _ => ("none", fun _ => .ok .none)) program
    hdistinct
  refine ⟨hdistinct, hloop, hrenders others (by decide) fun name value hname => ?_⟩
  have hneLoop : name ≠ "loop" := fun hsame => hloop (hsame ▸ hname)
  have hneUnused : name ≠ "unused" := fun hsame => hunused (hsame ▸ hname)
  simp [bindings, others, hneLoop, hneUnused]

/-! ## 4. Names of variables -/

/-- The renderer with other names for its bindings. The values stay the same, so a function keeps
the name that it was made with. -/
def rename (r : String → String) (renderer : Renderer) : Renderer :=
  ⟨renderer.bindings.map fun field => (r field.1, field.2)⟩

theorem names_rename (r : String → String) (renderer : Renderer) :
    (renderer.rename r).names = renderer.names.map r := by
  rw [names, names, rename, List.map_map, List.map_map]
  rfl

theorem find?_rename {r : String → String} (hr : Function.Injective r) (renderer : Renderer)
    (name : String) :
    Fields.find? (renderer.rename r).bindings (r name) = Fields.find? renderer.bindings name := by
  obtain ⟨bindings⟩ := renderer
  rw [rename]
  induction bindings with
  | nil => rfl
  | cons field rest ih =>
    rw [List.map_cons, Fields.find?_cons, Fields.find?_cons, ih]
    simp only [hr.eq_iff]

/-- What the bindings of a renderer and the variables of a program are called does not matter, apart
from `loop`, which loops bind: if both are renamed one to one and `loop` is kept, the text is the
same, or else the error. A property that is not computed is no variable and keeps its name. -/
theorem render_renamed {r : String → String} (hr : Function.Bijective r)
    (hloop : r "loop" = "loop") (functions : Nat → String × HostFunction) (program : Node)
    {renderer : Renderer} (hdistinct : renderer.names.Nodup) :
    (renderer.rename r).render (Natives.ofHost functions) (program.rename r) =
      renderer.render (Natives.ofHost functions) program := by
  have hrenamed : (renderer.rename r).names.Nodup := by
    rw [names_rename]
    exact List.Nodup.map hr.injective hdistinct
  exact render_rename renderer (renderer.rename r) hr.injective hloop functions hdistinct hrenamed
    fun name _ => find?_rename hr.injective renderer name

/-- A loop variable and a global change names with each other. The property of the member is
neither, although it is spelled like the global. -/
theorem render_renamed_swap :
    let r : String → String := Equiv.swap "item" "total"
    let program := Node.program [
      .loop (.identifier "item") (.identifier "items") [
        .set (.identifier "total")
          (.binary .add (.field (.identifier "item") "total") (.identifier "total"))],
      .identifier "total", .call (.identifier "echo") [.identifier "item"]]
    let record : Value := .object [("total", .string "a")]
    let renderer := Renderer.mk
      [("items", .array [record, record]), ("total", .string "-"), ("echo", .native "echo" 0)]
    let echo := Natives.ofHost fun _ => ("echo", fun args => .ok (some (.array args)))
    Function.Bijective r ∧ r "loop" = "loop" ∧ renderer.names.Nodup ∧
      (renderer.rename r).render echo (program.rename r) = .ok "aa-" := by
  intro r program record renderer echo
  have hbijective : Function.Bijective r := (Equiv.swap "item" "total").bijective
  have hloop : r "loop" = "loop" := Equiv.swap_apply_of_ne_of_ne (by decide) (by decide)
  have hdistinct : renderer.names.Nodup := by decide
  have hrender : renderer.render echo program = .ok "aa-" := by
    simp only [renderer, echo, program, record]
    rfl
  refine ⟨hbijective, hloop, hdistinct, ?_⟩
  exact (render_renamed hbijective hloop
    (fun _ => ("echo", fun args => .ok (some (.array args)))) program hdistinct).trans hrender

end Templating.Renderer
