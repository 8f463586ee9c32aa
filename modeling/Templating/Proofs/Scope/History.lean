import Mathlib.Data.List.Nodup
import Templating.Proofs.Scope.Binding

/-!
# Runs of operations on a chain

A history is what a run of operations has done to a chain: it numbers the scopes in the order in
which they were entered and lists the writes that succeeded. Nothing is ever taken out of it, so
what a scope binds a name to is the value of the latest write to this binding.

* `Chain.run` performs operations one after the other, `History.run` records them.
* `Operation.Balanced` are the runs that leave every scope that they enter and no other one.
* `StoreLaws` is what a chain keeps to whose history is given.

Results:
1. `latest?_write`, `latest?_eq_none_of_unwritten`: the latest write to a binding.
2. `binding_declare`: a declaration that is not refused adds a binding to the current scope.
3. `Recorded.perform`, `recorded_run`: each operation keeps the chain as its history says.
4. `Surrounds.run`: a balanced run changes no scope around the current one but for the values of
   names that it sets.
5. `run_storeLaws`: what a chain keeps to after any run.
-/

namespace Templating

/-! ## Definitions -/

/-- One operation on a chain. -/
inductive Operation where
  | push
  | pop
  | declare (name : String) (value : Value)
  | set (name : String) (value : Value)
  | lookup (name : String)

namespace Chain

/-- The chain after an operation. A declaration that is refused leaves it as it is. -/
def perform (chain : Chain) : Operation → Chain
  | .push => chain.push
  | .pop => chain.pop
  | .declare name value =>
    match chain.declare name value with
    | .ok after => after
    | .error _ => chain
  | .set name value => chain.set name value
  | .lookup _ => chain

def run (chain : Chain) (operations : List Operation) : Chain := operations.foldl perform chain

end Chain

/-- The operations leave every scope that they enter and no other one. -/
inductive Operation.Balanced : List Operation → Prop
  | nil : Balanced []
  | step {operation : Operation} {rest : List Operation} : operation ≠ .push → operation ≠ .pop →
      Balanced rest → Balanced (operation :: rest)
  | scope {inner rest : List Operation} : Balanced inner → Balanced rest →
      Balanced (.push :: inner ++ .pop :: rest)

/-- A write that succeeded, to the binding of a name in the scope with a number. -/
structure Write where
  scope : Nat
  name : String
  value : Value

/-- What has been done to a chain. Scopes have numbers in the order in which they were entered,
beginning with zero for the global scope. -/
structure History where
  current : Nat
  /-- The scopes around the current one, the nearest first. -/
  around : List Nat
  /-- How many scopes have been entered, the global one among them. -/
  entered : Nat
  /-- The latest write comes first. -/
  writes : List Write

namespace History

def start : History := ⟨0, [], 1, []⟩

/-- The scopes that have not been left, the current one first. -/
def live (history : History) : List Nat := history.current :: history.around

/-- Some write bound the name in the scope. -/
def Binds (history : History) (scope : Nat) (name : String) : Prop :=
  ∃ write ∈ history.writes, write.scope = scope ∧ write.name = name

instance (history : History) (scope : Nat) (name : String) :
    Decidable (history.Binds scope name) :=
  inferInstanceAs (Decidable (∃ write ∈ history.writes, write.scope = scope ∧ write.name = name))

/-- The value of the latest write to the binding of a name in a scope. -/
def latest? (history : History) (scope : Nat) (name : String) : Option Value :=
  (history.writes.find? fun write => write.scope = scope ∧ write.name = name).map Write.value

/-- The innermost live scope that binds a name. -/
def innermost? (history : History) (name : String) : Option Nat :=
  history.live.find? fun scope => history.Binds scope name

def write (history : History) (scope : Nat) (name : String) (value : Value) : History :=
  { history with writes := ⟨scope, name, value⟩ :: history.writes }

/-- The history with one more operation. -/
def perform (history : History) : Operation → History
  | .push => ⟨history.entered, history.live, history.entered + 1, history.writes⟩
  | .pop =>
    match history.around with
    | [] => history
    | scope :: around => { history with current := scope, around := around }
  | .declare name value =>
    if history.Binds history.current name then history
    else history.write history.current name value
  | .set name value => history.write ((history.innermost? name).getD history.current) name value
  | .lookup _ => history

def run (operations : List Operation) : History := operations.foldl perform start

end History

/-- What a chain with the given history keeps to. The scope with the index `i` is the live scope
that stands in this place of the history.

* `bindings`: every live scope binds what was written to it, with the latest value.
* `found`, `null`: looking a name up gives the latest value of its innermost binding, and null just
  where there is no such binding or this value is null.
* `refused`, `unchanged`, `declared`: a declaration is refused just where the current scope binds
  the name, which changes nothing, and adds one binding to the current scope otherwise.
* `set`: an assignment changes one binding, which is the innermost one of its name or else a new one
  in the current scope.
* `segment`: entering a scope, a balanced run in it and leaving it changes nothing but values of
  names that the run sets. -/
structure StoreLaws (chain : Chain) (history : History) : Prop where
  scopes : chain.depth = history.live.length
  bindings : ∀ i scope name, history.live[i]? = some scope →
    chain.binding i name = history.latest? scope name
  found : ∀ name scope, history.innermost? name = some scope →
    history.latest? scope name = some (chain.lookup name)
  null : ∀ name, chain.lookup name = .null ↔
    (∀ scope ∈ history.live, ¬ history.Binds scope name) ∨
      ∃ scope, history.innermost? name = some scope ∧ history.latest? scope name = some .null
  refused : ∀ name value error, chain.declare name value = .error error ↔
    history.Binds history.current name ∧ error = .duplicateDeclaration name
  unchanged : ∀ name value error, chain.declare name value = .error error →
    chain.perform (.declare name value) = chain
  declared : ∀ name value after, chain.declare name value = .ok after →
    after.depth = chain.depth ∧ ∀ i other, after.binding i other =
      if i = 0 ∧ other = name then some value else chain.binding i other
  set : ∀ name value, (chain.set name value).depth = chain.depth ∧
    ∃ home, (chain.Binds home name ∧ (∀ i < home, ¬ chain.Binds i name) ∨
        home = 0 ∧ ∀ i, ¬ chain.Binds i name) ∧
      ∀ i other, (chain.set name value).binding i other =
        if i = home ∧ other = name then some value else chain.binding i other
  segment : ∀ inner, Operation.Balanced inner →
    let after := chain.run (.push :: inner ++ [.pop])
    after.depth = chain.depth ∧ (∀ i name, after.Binds i name ↔ chain.Binds i name) ∧
      ∀ i name, (∀ value, .set name value ∉ inner) → after.binding i name = chain.binding i name

/-! ## 1. Writes -/

namespace History

variable {history : History} {scope : Nat} {name : String}

theorem binds_iff_isSome : history.Binds scope name ↔ (history.latest? scope name).isSome := by
  rw [Binds, latest?, Option.isSome_map, List.find?_isSome]
  simp only [decide_eq_true_eq]

/-- The innermost scope of a name is live and binds it, and no nearer one does. -/
theorem place_of_innermost? (h : history.innermost? name = some scope) :
    history.Binds scope name ∧ ∃ i, history.live[i]? = some scope ∧
      ∀ (j other : Nat), j < i → history.live[j]? = some other → ¬ history.Binds other name := by
  obtain ⟨hbinds, i, hi, hscope, hnearer⟩ := List.find?_eq_some_iff_getElem.mp h
  refine ⟨of_decide_eq_true hbinds, i, List.getElem?_eq_some_iff.mpr ⟨hi, hscope⟩, ?_⟩
  intro j other hj hother
  obtain ⟨-, rfl⟩ := List.getElem?_eq_some_iff.mp hother
  simpa using hnearer j hj

theorem innermost?_eq_none_iff :
    history.innermost? name = none ↔ ∀ scope ∈ history.live, ¬ history.Binds scope name := by
  rw [innermost?, List.find?_eq_none]
  simp

theorem latest?_eq_none_of_unwritten (h : ∀ write ∈ history.writes, write.scope ≠ scope)
    (name : String) : history.latest? scope name = none := by
  rw [← Option.not_isSome_iff_eq_none, ← binds_iff_isSome]
  rintro ⟨write, hwrite, hscope, -⟩
  exact h write hwrite hscope

/-- A write changes the latest value of its own binding. -/
theorem latest?_write (history : History) (scope other : Nat) (name key : String) (value : Value) :
    (history.write scope name value).latest? other key =
      if other = scope ∧ key = name then some value else history.latest? other key := by
  rw [latest?, write, List.find?_cons]
  by_cases hsame : other = scope ∧ key = name
  · rw [if_pos hsame, hsame.1, hsame.2]
    simp
  · rw [if_neg hsame]
    have hother : decide (scope = other ∧ name = key) = false :=
      decide_eq_false fun h => hsame ⟨h.1.symm, h.2.symm⟩
    simp only [hother]
    rfl

end History

/-! ## 2. Declarations -/

namespace Chain

theorem declare_eq_error_iff {chain : Chain} {name : String} {value : Value}
    {error : RuntimeError} :
    chain.declare name value = .error error ↔
      chain.Binds 0 name ∧ error = .duplicateDeclaration name := by
  have hbinds : chain.Binds 0 name ↔ chain.current.binds name = true := Iff.rfl
  rw [declare, hbinds]
  split
  next h => simp [h, eq_comm]
  next h => simp [h]

/-- A declaration that is not refused adds a binding to the current scope. -/
theorem binding_declare {chain after : Chain} {name : String} {value : Value}
    (h : chain.declare name value = .ok after) :
    after.depth = chain.depth ∧ ∀ i other, after.binding i other =
      if i = 0 ∧ other = name then some value else chain.binding i other := by
  unfold declare at h
  split at h
  next => cases h
  next =>
    cases h
    refine ⟨rfl, fun i other => ?_⟩
    cases i with
    | zero =>
      have hbind := Scope.find?_bind chain.current name other value
      simpa [binding, scopes] using hbind
    | succ i => rfl

theorem perform_declare (chain : Chain) (name : String) (value : Value) :
    (chain.Binds 0 name ∧ chain.perform (.declare name value) = chain) ∨
      (¬ chain.Binds 0 name ∧
        chain.declare name value = .ok (chain.perform (.declare name value))) := by
  rw [perform]
  cases h : chain.declare name value with
  | error error => exact Or.inl ⟨(declare_eq_error_iff.mp h).1, rfl⟩
  | ok after =>
    refine Or.inr ⟨fun hbinds => ?_, rfl⟩
    rw [declare_eq_error_iff.mpr ⟨hbinds, rfl⟩] at h
    cases h

end Chain

/-! ## 3. Histories -/

/-- The chain is as its history says. The last two conditions make scopes that are entered later
new ones. -/
structure Recorded (chain : Chain) (history : History) : Prop where
  scopes : chain.depth = history.live.length
  bindings : ∀ i scope name, history.live[i]? = some scope →
    chain.binding i name = history.latest? scope name
  distinct : history.live.Nodup
  entered : ∀ scope ∈ history.live, scope < history.entered
  written : ∀ write ∈ history.writes, write.scope < history.entered

namespace Recorded

variable {chain : Chain} {history : History}

theorem binds_iff (h : Recorded chain history) {i scope : Nat}
    (hscope : history.live[i]? = some scope) (name : String) :
    chain.Binds i name ↔ history.Binds scope name := by
  rw [Chain.Binds, h.bindings i scope name hscope, History.binds_iff_isSome]

/-- No scope binds a name where no live scope of the history does. -/
theorem free (h : Recorded chain history) {name : String}
    (hnone : ∀ scope ∈ history.live, ¬ history.Binds scope name) (i : Nat) :
    ¬ chain.Binds i name := by
  intro hbinds
  have hi : i < history.live.length := by
    obtain ⟨value, hvalue⟩ := Option.isSome_iff_exists.mp hbinds
    obtain ⟨scope, hscope, -⟩ := Option.bind_eq_some_iff.mp hvalue
    rw [← h.scopes]
    exact (List.getElem?_eq_some_iff.mp hscope).1
  have hscope := List.getElem?_eq_getElem hi
  exact hnone _ (List.getElem_mem hi) ((h.binds_iff hscope name).mp hbinds)

/-- The home of a name is its innermost live scope, the current one where there is none. -/
theorem home (h : Recorded chain history) (name : String) :
    history.live[chain.home name]? =
      some ((history.innermost? name).getD history.current) := by
  cases hinnermost : history.innermost? name with
  | none =>
    have hnone := History.innermost?_eq_none_iff.mp hinnermost
    have hfree : chain.home name = 0 :=
      Decidable.byContradiction fun hne => h.free hnone _ (Chain.binds_home hne)
    rw [hfree]
    rfl
  | some scope =>
    obtain ⟨hbinds, i, hi, hnearer⟩ := History.place_of_innermost? hinnermost
    obtain ⟨hhome, hle⟩ := Chain.home_of_binds ((h.binds_iff hi name).mpr hbinds)
    have hsame : chain.home name = i := by
      apply Nat.le_antisymm hle
      apply Nat.le_of_not_lt
      intro hlt
      have hlength := (List.getElem?_eq_some_iff.mp hi).1
      have hother := List.getElem?_eq_getElem (Nat.lt_trans hlt hlength)
      exact hnearer _ _ hlt hother ((h.binds_iff hother name).mp hhome)
    rw [hsame]
    exact hi

/-- A write to a live scope of the history is a write to the chain, if only the binding with this
place is another one afterwards. -/
theorem write (h : Recorded chain history) {after : Chain} {home scope : Nat} {name : String}
    {value : Value} (hhome : history.live[home]? = some scope)
    (hdepth : after.depth = chain.depth)
    (hafter : ∀ i other, after.binding i other =
      if i = home ∧ other = name then some value else chain.binding i other) :
    Recorded after (history.write scope name value) where
  scopes := hdepth.trans h.scopes
  bindings i other key hother := by
    rw [hafter, History.latest?_write]
    have hplace : i = home ↔ other = scope := by
      constructor
      · rintro rfl
        exact Option.some.inj (hother.symm.trans hhome)
      · rintro rfl
        obtain ⟨hi, hi'⟩ := List.getElem?_eq_some_iff.mp hother
        obtain ⟨hj, hj'⟩ := List.getElem?_eq_some_iff.mp hhome
        exact (List.Nodup.getElem_inj_iff h.distinct).mp (hi'.trans hj'.symm)
    simp only [hplace, h.bindings i other key hother]
  distinct := h.distinct
  entered := h.entered
  written := by
    refine List.forall_mem_cons.mpr ⟨?_, h.written⟩
    exact h.entered scope (List.mem_of_getElem? hhome)

/-- Each operation keeps the chain as its history says. -/
theorem perform (h : Recorded chain history) (operation : Operation) :
    Recorded (chain.perform operation) (history.perform operation) := by
  cases operation with
  | push =>
    refine ⟨congrArg Nat.succ h.scopes, fun i scope name hscope => ?_, ?_, ?_, ?_⟩
    · rw [Chain.perform, Chain.binding_push]
      cases i with
      | zero =>
        cases hscope
        refine (History.latest?_eq_none_of_unwritten (fun write hwrite => ?_) name).symm
        exact Nat.ne_of_lt (h.written write hwrite)
      | succ i => exact h.bindings i scope name hscope
    · refine List.nodup_cons.mpr ⟨fun hmem => ?_, h.distinct⟩
      exact Nat.lt_irrefl _ (h.entered _ hmem)
    · refine List.forall_mem_cons.mpr ⟨Nat.lt_succ_self _, fun scope hscope => ?_⟩
      exact Nat.lt_succ_of_lt (h.entered scope hscope)
    · exact fun write hwrite => Nat.lt_succ_of_lt (h.written write hwrite)
  | pop =>
    obtain ⟨current, outer⟩ := chain
    obtain ⟨number, around, entered, writes⟩ := history
    have hlength : outer.length = around.length := Nat.succ.inj h.scopes
    cases outer with
    | nil =>
      obtain rfl := List.length_eq_zero_iff.mp hlength.symm
      exact h
    | cons scope outer =>
      cases around with
      | nil => cases hlength
      | cons next around =>
        refine ⟨hlength, fun i => h.bindings (i + 1), (List.nodup_cons.mp h.distinct).2, ?_,
          h.written⟩
        exact fun scope hscope => h.entered scope (List.mem_cons_of_mem _ hscope)
  | declare name value =>
    have hcurrent := h.binds_iff (i := 0) rfl name
    rw [History.perform]
    rcases chain.perform_declare name value with ⟨hbinds, hsame⟩ | ⟨hfree, hdeclare⟩
    · rw [if_pos (hcurrent.mp hbinds), hsame]
      exact h
    · rw [if_neg (mt hcurrent.mpr hfree)]
      obtain ⟨hdepth, hbinding⟩ := Chain.binding_declare hdeclare
      exact h.write rfl hdepth hbinding
  | set name value =>
    exact h.write (h.home name) (Chain.depth_set chain name value)
      fun i other => Chain.binding_set chain name other value i
  | lookup name => exact h

/-- A run keeps the chain as its history says. -/
theorem run (h : Recorded chain history) (operations : List Operation) :
    Recorded (chain.run operations) (operations.foldl History.perform history) := by
  induction operations generalizing chain history with
  | nil => exact h
  | cons operation rest ih => exact ih (h.perform operation)

end Recorded

theorem recorded_run (operations : List Operation) :
    Recorded (Chain.empty.run operations) (History.run operations) := by
  have hstart : Recorded Chain.empty History.start := by
    refine ⟨rfl, fun i scope name hscope => ?_, List.nodup_singleton 0, ?_, List.forall_mem_nil _⟩
    · cases i with
      | zero => rfl
      | succ i => cases hscope
    · exact List.forall_mem_singleton.mpr Nat.zero_lt_one
  exact hstart.run operations

/-! ## 4. Balanced runs -/

namespace Chain

/-- The scopes around the current one are the same before and after, but for the values of names
that were `written`. -/
structure Surrounds (written : String → Prop) (before after : Chain) : Prop where
  depth : after.depth = before.depth
  names : ∀ i name, after.Binds (i + 1) name ↔ before.Binds (i + 1) name
  values : ∀ i name, ¬ written name → after.binding (i + 1) name = before.binding (i + 1) name

namespace Surrounds

variable {written : String → Prop} {chain before after : Chain}

theorem refl (written : String → Prop) (chain : Chain) : Surrounds written chain chain where
  depth := rfl
  names _ _ := Iff.rfl
  values _ _ _ := rfl

theorem trans {middle : Chain} (first : Surrounds written before middle)
    (second : Surrounds written middle after) : Surrounds written before after where
  depth := second.depth.trans first.depth
  names i name := (second.names i name).trans (first.names i name)
  values i name h := (second.values i name h).trans (first.values i name h)

theorem mono {written' : String → Prop} (h : Surrounds written before after)
    (hwritten : ∀ name, written name → written' name) : Surrounds written' before after where
  depth := h.depth
  names := h.names
  values i name hname := h.values i name (mt (hwritten name) hname)

/-- An assignment does not bind a name in a scope around the current one that does not bind it
already. -/
theorem set {name : String} (value : Value) (h : written name) :
    Surrounds written chain (chain.set name value) where
  depth := depth_set chain name value
  names i other := by
    rw [Binds, binding_set]
    split
    next hset =>
      obtain ⟨hi, rfl⟩ := hset
      refine ⟨fun _ => ?_, fun _ => rfl⟩
      rw [hi]
      exact binds_home (by omega)
    next => exact Iff.rfl
  values i other hother := by
    rw [binding_set, if_neg]
    rintro ⟨-, rfl⟩
    exact hother h

/-- Entering and leaving a scope, what happens in it keeps all scopes as it keeps those around
it. -/
theorem leave (h : Surrounds written chain.push after) :
    after.pop.depth = chain.depth ∧ (∀ i name, after.pop.Binds i name ↔ chain.Binds i name) ∧
      ∀ i name, ¬ written name → after.pop.binding i name = chain.binding i name := by
  have hafter : after.depth = chain.depth + 1 := h.depth
  have hdepth : 1 < after.depth := by
    have hscope : 0 < chain.depth := Nat.succ_pos _
    omega
  refine ⟨?_, fun i name => ?_, fun i name hname => ?_⟩
  · rw [depth_pop hdepth, hafter, Nat.add_sub_cancel]
  · rw [Binds, binding_pop hdepth]
    exact h.names i name
  · rw [binding_pop hdepth]
    exact h.values i name hname

theorem pop (h : Surrounds written chain.push after) : Surrounds written chain after.pop :=
  have ⟨hdepth, hnames, hvalues⟩ := h.leave
  ⟨hdepth, fun i => hnames (i + 1), fun i => hvalues (i + 1)⟩

/-- Nothing but entering and leaving scopes binds names in scopes around the current one. -/
theorem perform {operation : Operation} (hpush : operation ≠ .push) (hpop : operation ≠ .pop)
    (h : ∀ name value, operation = .set name value → written name) :
    Surrounds written chain (chain.perform operation) := by
  cases operation with
  | push => exact absurd rfl hpush
  | pop => exact absurd rfl hpop
  | declare name value =>
    rcases chain.perform_declare name value with ⟨-, hsame⟩ | ⟨-, hdeclare⟩
    · rw [hsame]
      exact refl written chain
    · obtain ⟨hdepth, hbinding⟩ := binding_declare hdeclare
      have houter : ∀ i other, (chain.perform (.declare name value)).binding (i + 1) other =
          chain.binding (i + 1) other := fun i other => by
        rw [hbinding, if_neg fun h => Nat.succ_ne_zero i h.1]
      exact ⟨hdepth, fun i other => by rw [Binds, houter, Binds], fun i other _ => houter i other⟩
  | set name value => exact set value (h name value rfl)
  | lookup name => exact refl written chain

/-- A balanced run changes no scope around the current one but for the values of names that it
sets. -/
theorem run {operations : List Operation} (h : Operation.Balanced operations) (chain : Chain) :
    Surrounds (fun name => ∃ value, .set name value ∈ operations) chain (chain.run operations) := by
  induction h generalizing chain with
  | nil => exact refl _ chain
  | @step operation rest hpush hpop _ ih =>
    have hfirst : Surrounds (fun name => ∃ value, .set name value ∈ operation :: rest) chain
        (chain.perform operation) :=
      perform hpush hpop fun name value heq => ⟨value, heq ▸ List.mem_cons_self⟩
    refine hfirst.trans ((ih (chain.perform operation)).mono ?_)
    rintro name ⟨value, hmem⟩
    exact ⟨value, List.mem_cons_of_mem _ hmem⟩
  | @scope inner rest _ _ ihInner ihRest =>
    have hrun : chain.run (.push :: inner ++ .pop :: rest) =
        ((chain.push.run inner).pop).run rest := by
      rw [Chain.run, List.foldl_append]
      rfl
    rw [hrun]
    refine ((ihInner chain.push).pop.mono ?_).trans ((ihRest _).mono ?_)
    · rintro name ⟨value, hmem⟩
      exact ⟨value, List.mem_append_left _ (List.mem_cons_of_mem _ hmem)⟩
    · rintro name ⟨value, hmem⟩
      exact ⟨value, List.mem_append_right _ (List.mem_cons_of_mem _ hmem)⟩

end Surrounds

end Chain

/-! ## 5. All runs -/

namespace Recorded

variable {chain : Chain} {history : History}

/-- The innermost binding of a name has a latest value, which looking the name up gives. -/
theorem found (h : Recorded chain history) {name : String} {scope : Nat}
    (hscope : history.innermost? name = some scope) :
    history.latest? scope name = some (chain.lookup name) := by
  have hhome := h.home name
  rw [hscope] at hhome
  have hbinds := (History.place_of_innermost? hscope).1
  obtain ⟨value, hvalue⟩ := Option.isSome_iff_exists.mp (History.binds_iff_isSome.mp hbinds)
  rw [Chain.lookup_eq, h.bindings _ _ name hhome, Option.getD_some, hvalue]
  rfl

/-- A name without a binding is null, and any other name only if null was written to it. -/
theorem lookup_eq_null_iff (h : Recorded chain history) (name : String) :
    chain.lookup name = .null ↔
      (∀ scope ∈ history.live, ¬ history.Binds scope name) ∨
        ∃ scope, history.innermost? name = some scope ∧
          history.latest? scope name = some .null := by
  cases hinnermost : history.innermost? name with
  | none =>
    have hnone := History.innermost?_eq_none_iff.mp hinnermost
    have hunbound : chain.binding (chain.home name) name = none :=
      Option.not_isSome_iff_eq_none.mp (h.free hnone _)
    rw [Chain.lookup_eq, hunbound]
    exact ⟨fun _ => Or.inl hnone, fun _ => rfl⟩
  | some scope =>
    have hfound := h.found hinnermost
    rw [← History.innermost?_eq_none_iff, hinnermost]
    simp [hfound]

end Recorded

/-- What a chain keeps to after any run. -/
theorem run_storeLaws (operations : List Operation) :
    StoreLaws (Chain.empty.run operations) (History.run operations) := by
  have h := recorded_run operations
  generalize Chain.empty.run operations = chain at h
  generalize History.run operations = history at h
  refine ⟨h.scopes, h.bindings, fun name scope => h.found, h.lookup_eq_null_iff,
    fun name value error => ?_, fun name value error herror => ?_,
    fun name value after => Chain.binding_declare, fun name value => ?_, fun inner hinner => ?_⟩
  · rw [Chain.declare_eq_error_iff, h.binds_iff (i := 0) rfl name]
  · rw [Chain.perform, herror]
  · refine ⟨Chain.depth_set chain name value, chain.home name, ?_,
      fun i other => Chain.binding_set chain name other value i⟩
    by_cases hbound : ∃ i, chain.Binds i name
    · obtain ⟨i, hi⟩ := hbound
      exact Or.inl ⟨(Chain.home_of_binds hi).1, fun j hj => Chain.not_binds_of_lt_home hj⟩
    · rw [not_exists] at hbound
      exact Or.inr ⟨Decidable.byContradiction fun hne => hbound _ (Chain.binds_home hne), hbound⟩
  · obtain ⟨hdepth, hnames, hvalues⟩ := (Chain.Surrounds.run hinner chain.push).leave
    have hrun : chain.run (.push :: inner ++ [.pop]) = (chain.push.run inner).pop := by
      rw [Chain.run, List.foldl_append]
      rfl
    rw [hrun]
    exact ⟨hdepth, hnames, fun i name hname => hvalues i name (not_exists.mpr hname)⟩

/-- What was set inside a scope stays, what was declared there does not. -/
example :
    (Chain.empty.run [.declare "x" .null, .push, .set "x" (.boolean true), .declare "x" .null,
      .pop]).lookup "x" = .boolean true := rfl

end Templating
