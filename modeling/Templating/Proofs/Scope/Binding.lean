import Templating.Proofs.Fields
import Templating.Scope

/-!
# Bindings of a chain, counted from the current scope

`Chain.binding` is what the scope with a given index binds a name to, where the current scope has
the index zero. Every operation on chains is described by what it does to the bindings.

Results:
1. `binding_set`: an assignment changes one binding, the one in the `Chain.home` of its name, which
   is the nearest scope that binds the name and the current one where there is none.
2. `binding_push`, `binding_pop`: a new scope is empty and moves the others one further out;
   leaving it moves them back.
3. `lookup_eq`: looking a name up gives its nearest binding; `lookup_set` is what it gives after an
   assignment.
4. `Holds.set`, `Holds.pop`, `Holds.lookup`: what is true of all values that a chain binds.
5. `Effect.refl`, `Effect.trans`, `Effect.set`, `Effect.pop`: what a run of such operations may do
   to a chain, from one step to many.
-/

namespace Templating.Chain

/-! ## Definitions -/

/-- What the scope with the given index binds a name to. -/
def binding (chain : Chain) (i : Nat) (name : String) : Option Value :=
  chain.scopes[i]?.bind (·.find? name)

/-- The scope with the given index binds a name. -/
def Binds (chain : Chain) (i : Nat) (name : String) : Prop := (chain.binding i name).isSome

/-- The index of the scope that an assignment to a name writes to. -/
def home (chain : Chain) (name : String) : Nat := chain.scopes.findIdx? (·.binds name) |>.getD 0

/-- Every value that some scope binds a name to is admitted. -/
def Holds (admits : Value → Prop) (chain : Chain) : Prop :=
  ∀ i name value, chain.binding i name = some value → admits value

/-- The names in the scope with the given index, if there is one, stand in ascending order. -/
def SortedAt (chain : Chain) (i : Nat) : Prop := ∀ scope ∈ chain.scopes[i]?, Fields.Sorted scope

/-- What evaluating a tree may do to a chain, if it binds only `fresh` names that were not bound in
the current scope and changes only bindings of `written` names.

* `keeps`: no binding disappears.
* `outer`: no outer scope gets a new binding.
* `unhiding`: a name that gets a new binding was bound in no scope, so the binding hides nothing.
* `sorted`: scopes that are sorted stay so.
* `shadowed`: a binding that a nearer scope hides is not changed. -/
structure Effect (fresh written : String → Prop) (before after : Chain) : Prop where
  depth : after.depth = before.depth
  keeps : ∀ i name, before.Binds i name → after.Binds i name
  outer : ∀ i name, after.Binds (i + 1) name → before.Binds (i + 1) name
  current : ∀ name, after.Binds 0 name → before.Binds 0 name ∨ fresh name
  unhiding : ∀ name, after.Binds 0 name → before.Binds 0 name ∨ ∀ i, ¬ before.Binds i name
  sorted : ∀ i, before.SortedAt i → after.SortedAt i
  unwritten : ∀ i name, ¬ written name → after.binding i name = before.binding i name
  shadowed : ∀ i j name, j < i → before.Binds j name →
    after.binding i name = before.binding i name

/-! ## Operations -/

theorem binds_iff {scope : Scope} {name : String} :
    scope.binds name = true ↔ ∃ value, scope.find? name = some value := by
  rw [Scope.binds, Option.isSome_iff_exists]

theorem length_overwrite (name : String) (value : Value) (scopes : List Scope) :
    (overwrite name value scopes).length = scopes.length := by
  induction scopes with
  | nil => rfl
  | cons scope outer ih =>
    rw [overwrite]
    split
    · rfl
    · rw [List.length_cons, List.length_cons, ih]

/-- Overwriting changes the first scope that binds the name and no other. -/
theorem getElem?_overwrite (name : String) (value : Value) (scopes : List Scope) (i : Nat) :
    (overwrite name value scopes)[i]? =
      if scopes.findIdx? (·.binds name) = some i then scopes[i]?.map (·.bind name value)
      else scopes[i]? := by
  induction scopes generalizing i with
  | nil => rfl
  | cons scope outer ih =>
    rw [overwrite, List.findIdx?_cons]
    by_cases hbinds : scope.binds name
    · rw [if_pos hbinds, if_pos hbinds]
      cases i with
      | zero => rfl
      | succ i => rfl
    · rw [if_neg hbinds, if_neg hbinds]
      cases i with
      | zero => simp
      | succ i => simp [ih]

/-- The scopes after an assignment: the home of the name binds it, all others are as before. -/
theorem scopes_set (chain : Chain) (name : String) (value : Value) (i : Nat) :
    (chain.set name value).scopes[i]? =
      if i = chain.home name then chain.scopes[i]?.map (·.bind name value)
      else chain.scopes[i]? := by
  obtain ⟨current, outer⟩ := chain
  simp only [set, home, scopes, List.findIdx?_cons]
  by_cases hcurrent : current.binds name
  · simp only [hcurrent, Bool.true_or, if_true, Option.getD_some]
    cases i <;> simp
  · by_cases houter : outer.any (·.binds name)
    · obtain ⟨j, hj⟩ : ∃ j, outer.findIdx? (·.binds name) = some j := by
        rw [← Option.isSome_iff_exists, List.findIdx?_isSome]
        exact houter
      simp only [hcurrent, houter, hj]
      cases i with
      | zero => simp
      | succ i => simp [getElem?_overwrite, hj, eq_comm]
    · have hnone : outer.findIdx? (·.binds name) = none := by
        rw [← Option.isNone_iff_eq_none, List.findIdx?_isNone]
        simpa using houter
      simp only [hcurrent, houter, hnone]
      cases i <;> simp

/-- An assignment changes the binding of its name in the home of the name and no other. -/
theorem binding_set (chain : Chain) (name other : String) (value : Value) (i : Nat) :
    (chain.set name value).binding i other =
      if i = chain.home name ∧ other = name then some value else chain.binding i other := by
  rw [binding, scopes_set]
  by_cases hi : i = chain.home name
  · have hscope : ∃ scope, chain.scopes[i]? = some scope := by
      subst hi
      rw [home]
      cases hfound : chain.scopes.findIdx? (·.binds name) with
      | none => exact ⟨chain.current, rfl⟩
      | some j =>
        obtain ⟨hj, -⟩ := List.findIdx?_eq_some_iff_getElem.mp hfound
        exact ⟨_, List.getElem?_eq_getElem hj⟩
    obtain ⟨scope, hscope⟩ := hscope
    rw [if_pos hi, binding, hscope, Option.map_some, Option.bind_some, Scope.find?_bind,
      Option.bind_some]
    simp [hi]
  · rw [if_neg hi, binding]
    simp [hi]

/-- No scope nearer than the home of a name binds it. -/
theorem not_binds_of_lt_home {chain : Chain} {name : String} {i : Nat} (h : i < chain.home name) :
    ¬ chain.Binds i name := by
  rw [home] at h
  cases hfound : chain.scopes.findIdx? (·.binds name) with
  | none => simp [hfound] at h
  | some j =>
    obtain ⟨hj, -, hnearer⟩ := List.findIdx?_eq_some_iff_getElem.mp hfound
    rw [hfound, Option.getD_some] at h
    have hi : i < chain.scopes.length := Nat.lt_trans h hj
    have hfree := hnearer i h
    rw [Binds, binding, List.getElem?_eq_getElem hi]
    simpa [Scope.binds] using hfree

theorem binds_of_findIdx? {chain : Chain} {name : String} {i : Nat}
    (h : chain.scopes.findIdx? (·.binds name) = some i) : chain.Binds i name := by
  obtain ⟨hi, hbinds, -⟩ := List.findIdx?_eq_some_iff_getElem.mp h
  rw [Binds, binding, List.getElem?_eq_getElem hi]
  exact hbinds

/-- A home other than the current scope binds its name. -/
theorem binds_home {chain : Chain} {name : String} (h : chain.home name ≠ 0) :
    chain.Binds (chain.home name) name := by
  rw [home] at h ⊢
  cases hfound : chain.scopes.findIdx? (·.binds name) with
  | none => simp [hfound] at h
  | some j => exact binds_of_findIdx? hfound

/-- The home of a name that some scope binds is the nearest such scope. -/
theorem home_of_binds {chain : Chain} {name : String} {i : Nat} (h : chain.Binds i name) :
    chain.Binds (chain.home name) name ∧ chain.home name ≤ i := by
  refine ⟨?_, Nat.le_of_not_lt fun hlt => not_binds_of_lt_home hlt h⟩
  cases hfound : chain.scopes.findIdx? (·.binds name) with
  | none =>
    rw [List.findIdx?_eq_none_iff] at hfound
    obtain ⟨value, hvalue⟩ := Option.isSome_iff_exists.mp h
    obtain ⟨scope, hscope, hfind⟩ := Option.bind_eq_some_iff.mp hvalue
    have hfree := hfound scope (List.mem_of_getElem? hscope)
    rw [binds_iff.mpr ⟨value, hfind⟩] at hfree
    cases hfree
  | some j =>
    rw [home, hfound]
    exact binds_of_findIdx? hfound

/-- The home of a name only depends on which scopes bind it. -/
theorem home_congr {first second : Chain} {name other : String}
    (h : ∀ i, second.binding i other = first.binding i name) :
    second.home other = first.home name := by
  have hbinds : ∀ i, second.Binds i other ↔ first.Binds i name := fun i => by
    rw [Binds, Binds, h]
  -- If some scope binds the name, each home is bound in the other chain and so not further out
  -- than the home there. If none does, both homes are the current scope.
  by_cases hbound : ∃ i, first.Binds i name
  · obtain ⟨i, hi⟩ := hbound
    have hfirst := (home_of_binds hi).1
    have hsecond := (home_of_binds ((hbinds i).mpr hi)).1
    apply Nat.le_antisymm
    · exact (home_of_binds ((hbinds _).mpr hfirst)).2
    · exact (home_of_binds ((hbinds _).mp hsecond)).2
  · have hfirst : first.home name = 0 :=
      Decidable.byContradiction fun hne => hbound ⟨_, binds_home hne⟩
    have hsecond : second.home other = 0 :=
      Decidable.byContradiction fun hne => hbound ⟨_, (hbinds _).mp (binds_home hne)⟩
    rw [hfirst, hsecond]

@[simp] theorem depth_set (chain : Chain) (name : String) (value : Value) :
    (chain.set name value).depth = chain.depth := by
  rw [set]
  split
  · rfl
  · simp [depth, scopes, length_overwrite]

/-- A new scope binds nothing and moves the others one further out. -/
theorem binding_push (chain : Chain) (i : Nat) (name : String) :
    chain.push.binding i name = match i with | 0 => none | i + 1 => chain.binding i name := by
  cases i <;> rfl

@[simp] theorem depth_push (chain : Chain) : chain.push.depth = chain.depth + 1 := rfl

/-- Leaving a scope that is not the global one leaves the scopes around it. -/
theorem scopes_pop {chain : Chain} (h : 1 < chain.depth) : chain.pop.scopes = chain.outer := by
  obtain ⟨current, outer⟩ := chain
  cases outer with
  | nil => exact absurd h (Nat.lt_irrefl 1)
  | cons scope outer => rfl

theorem binding_pop {chain : Chain} (h : 1 < chain.depth) (i : Nat) (name : String) :
    chain.pop.binding i name = chain.binding (i + 1) name := by
  rw [binding, scopes_pop h]
  rfl

theorem depth_pop {chain : Chain} (h : 1 < chain.depth) : chain.pop.depth = chain.depth - 1 := by
  rw [depth, scopes_pop h]
  rfl

/-- Looking a name up gives its nearest binding, null where there is none. -/
theorem lookup_eq (chain : Chain) (name : String) :
    chain.lookup name = (chain.binding (chain.home name) name).getD .null := by
  have hlookup : ∀ scopes : List Scope, lookupIn name scopes =
      ((scopes[(scopes.findIdx? (·.binds name)).getD 0]?).bind (·.find? name)).getD .null := by
    intro scopes
    induction scopes with
    | nil => rfl
    | cons scope outer ih =>
      rw [lookupIn, List.findIdx?_cons]
      by_cases hbinds : scope.binds name
      · obtain ⟨value, hvalue⟩ := binds_iff.mp hbinds
        simp [hbinds, hvalue]
      · have hnone : scope.find? name = none := by
          simpa [Scope.binds] using hbinds
        rw [hnone, ih, if_neg hbinds]
        cases hfound : outer.findIdx? (·.binds name) with
        | some j => simp
        | none =>
          simp only [Option.map_none, Option.getD_none, List.getElem?_cons_zero, Option.bind_some,
            hnone]
          cases outer with
          | nil => rfl
          | cons next outer =>
            have hnext : next.binds name = false := by
              have hfree := List.findIdx?_eq_none_iff.mp hfound next List.mem_cons_self
              exact hfree
            have hfind : next.find? name = none := by simpa [Scope.binds] using hnext
            simp [hfind]
  exact hlookup chain.scopes

/-- An assignment does not change in which scope a name has its home. -/
theorem home_set (chain : Chain) (name other : String) (value : Value) :
    (chain.set name value).home other = chain.home other := by
  by_cases hother : other = name
  · subst hother
    have hbinds : (chain.set other value).Binds (chain.home other) other := by
      rw [Binds, binding_set, if_pos ⟨rfl, rfl⟩]
      rfl
    obtain ⟨hhome, hle⟩ := home_of_binds hbinds
    refine Nat.le_antisymm hle (Nat.le_of_not_lt fun hlt => not_binds_of_lt_home hlt ?_)
    rw [Binds, binding_set, if_neg fun h => Nat.ne_of_lt hlt h.1] at hhome
    exact hhome
  · refine home_congr fun i => ?_
    rw [binding_set, if_neg fun h => hother h.2]

/-- After an assignment the name has the value that was assigned, wherever it is bound, and every
other name has the value that it had. -/
theorem lookup_set (chain : Chain) (name other : String) (value : Value) :
    (chain.set name value).lookup other = if other = name then value else chain.lookup other := by
  rw [lookup_eq, home_set, binding_set, lookup_eq]
  by_cases hother : other = name
  · rw [if_pos hother, hother, if_pos ⟨rfl, rfl⟩, Option.getD_some]
  · rw [if_neg hother, if_neg fun h => hother h.2]

/-! ## Values -/

namespace Holds

variable {admits : Value → Prop} {chain : Chain}

theorem of_mem (h : ∀ scope ∈ chain.scopes, ∀ field ∈ scope, admits field.2) :
    chain.Holds admits := by
  intro i name value hvalue
  obtain ⟨scope, hscope, hfind⟩ := Option.bind_eq_some_iff.mp hvalue
  exact h scope (List.mem_of_getElem? hscope) _ (Fields.mem_of_find? hfind)

theorem set (h : chain.Holds admits) (name : String) {value : Value} (hvalue : admits value) :
    (chain.set name value).Holds admits := by
  intro i other found hfound
  rw [binding_set] at hfound
  split at hfound
  next =>
    obtain rfl := Option.some.inj hfound
    exact hvalue
  next => exact h i other found hfound

theorem push (h : chain.Holds admits) : chain.push.Holds admits := by
  intro i name value hvalue
  cases i with
  | zero => cases hvalue
  | succ i => exact h i name value hvalue

theorem pop (h : chain.Holds admits) : chain.pop.Holds admits := by
  obtain ⟨current, outer⟩ := chain
  cases outer with
  | nil => exact h
  | cons scope outer => exact fun i name value hvalue => h (i + 1) name value hvalue

theorem lookup (h : chain.Holds admits) (hnull : admits .null) (name : String) :
    admits (chain.lookup name) := by
  rw [lookup_eq]
  cases hvalue : chain.binding (chain.home name) name with
  | none => exact hnull
  | some value => exact h _ name value hvalue

end Holds

/-! ## Effects -/

namespace Effect

variable {fresh written : String → Prop} {chain before after : Chain}

theorem refl (fresh written : String → Prop) (chain : Chain) :
    Effect fresh written chain chain where
  depth := rfl
  keeps _ _ h := h
  outer _ _ h := h
  current _ h := Or.inl h
  unhiding _ h := Or.inl h
  sorted _ h := h
  unwritten _ _ _ := rfl
  shadowed _ _ _ _ _ := rfl

theorem trans {middle : Chain} (first : Effect fresh written before middle)
    (second : Effect fresh written middle after) : Effect fresh written before after where
  depth := second.depth.trans first.depth
  keeps i name h := second.keeps i name (first.keeps i name h)
  outer i name h := first.outer i name (second.outer i name h)
  current name h := by
    rcases second.current name h with h | h
    · exact first.current name h
    · exact Or.inr h
  unhiding name h := by
    rcases second.unhiding name h with h | h
    · exact first.unhiding name h
    · exact Or.inr fun i hi => h i (first.keeps i name hi)
  sorted i h := second.sorted i (first.sorted i h)
  unwritten i name h := (second.unwritten i name h).trans (first.unwritten i name h)
  shadowed i j name hij h := by
    rw [second.shadowed i j name hij (first.keeps j name h), first.shadowed i j name hij h]

theorem mono {fresh' written' : String → Prop} (h : Effect fresh written before after)
    (hfresh : ∀ name, fresh name → fresh' name) (hwritten : ∀ name, written name → written' name) :
    Effect fresh' written' before after where
  depth := h.depth
  keeps := h.keeps
  outer := h.outer
  current name hname := (h.current name hname).imp_right (hfresh name)
  unhiding := h.unhiding
  sorted := h.sorted
  unwritten i name hname := h.unwritten i name (fun hw => hname (hwritten name hw))
  shadowed := h.shadowed

/-- An assignment binds and writes its own name only. -/
theorem set {name : String} (value : Value) (hfresh : fresh name) (hwritten : written name) :
    Effect fresh written chain (chain.set name value) where
  depth := depth_set chain name value
  keeps i other h := by
    rw [Binds, binding_set]
    split
    · rfl
    · exact h
  outer i other h := by
    rw [Binds, binding_set] at h
    split at h
    next hset =>
      obtain ⟨hi, rfl⟩ := hset
      rw [hi]
      exact binds_home (by omega)
    next => exact h
  current other h := by
    rw [Binds, binding_set] at h
    split at h
    next hset => exact Or.inr (hset.2 ▸ hfresh)
    next => exact Or.inl h
  unhiding other h := by
    rw [Binds, binding_set] at h
    split at h
    next hset =>
      obtain ⟨hhome, rfl⟩ := hset
      by_cases hbound : ∃ i, chain.Binds i other
      · obtain ⟨i, hi⟩ := hbound
        exact Or.inl (hhome ▸ (home_of_binds hi).1)
      · exact Or.inr (not_exists.mp hbound)
    next => exact Or.inl h
  sorted i h scope hscope := by
    rw [scopes_set] at hscope
    split at hscope
    next =>
      obtain ⟨old, hold, rfl⟩ := Option.map_eq_some_iff.mp hscope
      exact (h old hold).insert name value
    next => exact h scope hscope
  unwritten i other h := by
    rw [binding_set, if_neg]
    rintro ⟨-, rfl⟩
    exact h hwritten
  shadowed i j other hij h := by
    rw [binding_set, if_neg]
    rintro ⟨rfl, rfl⟩
    exact not_binds_of_lt_home hij h

/-- Whatever is bound in a new scope is gone when the scope is left. -/
theorem pop {local' : String → Prop} (h : Effect local' written chain.push after) :
    Effect fresh written chain after.pop := by
  have hafter : after.depth = chain.depth + 1 := h.depth
  have hdepth : 1 < after.depth := by
    have hscope : 0 < chain.depth := Nat.succ_pos _
    omega
  have hbinds : ∀ i name, after.pop.Binds i name ↔ after.Binds (i + 1) name := by
    intro i name
    rw [Binds, Binds, binding_pop hdepth]
  have houter : ∀ i name, after.pop.Binds i name → chain.Binds i name := by
    intro i name hi
    exact h.outer i name ((hbinds i name).mp hi)
  refine ⟨?_, ?_, ?_, ?_, ?_, ?_, ?_, ?_⟩
  · rw [depth_pop hdepth, hafter, Nat.add_sub_cancel]
  · intro i name hi
    exact (hbinds i name).mpr (h.keeps (i + 1) name hi)
  · intro i name hi
    exact houter (i + 1) name hi
  · intro name hname
    exact Or.inl (houter 0 name hname)
  · intro name hname
    exact Or.inl (houter 0 name hname)
  · intro i hi scope hscope
    rw [scopes_pop hdepth] at hscope
    exact h.sorted (i + 1) hi scope hscope
  · intro i name hname
    rw [binding_pop hdepth]
    exact h.unwritten (i + 1) name hname
  · intro i j name hij hj
    rw [binding_pop hdepth]
    exact h.shadowed (i + 1) (j + 1) name (Nat.succ_lt_succ hij) hj

end Effect

end Templating.Chain
