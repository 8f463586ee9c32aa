import Templating.Proofs.Value.Equality
import Templating.Proofs.Value.Json

/-!
# From values to JSON and back

A value that has a JSON form comes back from it as it was, with zero for minus zero. The two are
equal and have the same text. A function of the host therefore sees all of its arguments, and it is
called only if each of them has a JSON form.

* `Value.Sorted` says that the fields of the objects in a value stand in the order of their names.
* `Value.unsigned` is the value without signs of zero.

Results:
1. `ofJson_of_toJson`: what comes back.
2. `print_unsigned`, `equals_unsigned`: it has the same text and is equal.
3. `HostFunction.run_of_toJsonItems`: a call of a function of the host.
4. `toJson_roundTrip`: all of this for a value and for the arguments of a call.
-/

namespace Templating

namespace Value

/-! ## Definitions -/

/-- The fields of every object in the value stand in the order of their names. -/
def Sorted (value : Value) : Prop := ∀ fields, value.Contains (object fields) → Fields.Sorted fields

mutual

/-- The value with zero in place of minus zero, at any depth of arrays and objects. -/
def unsigned : Value → Value
  | numeric x => numeric (Number.unsignZero x)
  | array items => array (unsignedItems items)
  | object fields => object (unsignedFields fields)
  | value => value

def unsignedItems : List Value → List Value
  | [] => []
  | item :: rest => item.unsigned :: unsignedItems rest

def unsignedFields : List (String × Value) → List (String × Value)
  | [] => []
  | (name, value) :: rest => (name, value.unsigned) :: unsignedFields rest

end

/-! ## 1. What comes back -/

theorem Sorted.item {items : List Value} {item : Value} (h : (array items).Sorted)
    (hitem : item ∈ items) : item.Sorted :=
  fun fields hfields => h fields (.item hitem hfields)

theorem Sorted.field {fields : List (String × Value)} {field : String × Value}
    (h : (object fields).Sorted) (hfield : field ∈ fields) : field.2.Sorted :=
  fun others hothers => h others (.field hfield hothers)

theorem sorted_of_leaf {value : Value} (h : value.IsLeaf) : value.Sorted := by
  intro fields hfields
  rw [← hfields.eq_of_leaf h] at h
  exact h.elim

theorem sorted_array {items : List Value} (h : ∀ item ∈ items, item.Sorted) :
    (array items).Sorted := by
  intro fields hfields
  cases hfields with
  | item hitem hfields => exact h _ hitem fields hfields

theorem sorted_object {fields : List (String × Value)} (hnames : Fields.Sorted fields)
    (h : ∀ field ∈ fields, field.2.Sorted) : (object fields).Sorted := by
  intro others hothers
  cases hothers with
  | self => exact hnames
  | field hfield hothers => exact h _ hfield others hothers

theorem names_unsignedFields (fields : List (String × Value)) :
    (unsignedFields fields).map Prod.fst = fields.map Prod.fst := by
  induction fields with
  | nil => rfl
  | cons field rest ih => rw [unsignedFields, List.map_cons, List.map_cons, ih]

theorem ofJson_of_numberToJson {x : Float} {json : Json} (h : numberToJson x = .ok json) :
    ofJson json = numeric (Number.unsignZero x) := by
  rw [numberToJson] at h
  split at h
  next n hn =>
    split at h
    next =>
      cases h
      rw [ofJson, Number.ofInt_of_toInt? hn]
    next hlarge =>
      cases h
      have hzero : Number.toInt? x ≠ some 0 := by
        intro hzero
        obtain rfl := Option.some.inj (hn.symm.trans hzero)
        exact hlarge (Nat.zero_le _)
      rw [ofJson, Number.unsignZero_of_toInt? hzero]
  next hnone =>
    split at h
    next =>
      cases h
      have hzero : Number.toInt? x ≠ some 0 := by
        rw [hnone]
        exact (Option.some_ne_none 0).symm
      rw [ofJson, Number.unsignZero_of_toInt? hzero]
    next => cases h

mutual

/-- A value comes back from its JSON form but for the signs of zero. -/
theorem ofJson_of_toJson : ∀ (value : Value) (json : Json), value.Sorted →
    value.toJson = .ok json → ofJson json = value.unsigned
  | null, json, _, h | boolean _, json, _, h | string _, json, _, h => by
    cases h
    rfl
  | native _ _, json, _, h | bound _ _, json, _, h => by cases h
  | numeric x, json, _, h => ofJson_of_numberToJson h
  | array items, json, hsorted, h => by
    obtain ⟨jsons, hjsons, hjson⟩ := bind_eq_ok.mp h
    cases hjson
    rw [ofJson, unsigned,
      ofJsonItems_of_toJsonItems items jsons (fun item hitem => hsorted.item hitem) hjsons]
  | object fields, json, hsorted, h => by
    obtain ⟨members, hmembers, hjson⟩ := bind_eq_ok.mp h
    cases hjson
    have hfields : Fields.Sorted (unsignedFields fields) := by
      rw [Fields.Sorted, names_unsignedFields]
      exact hsorted fields (.self _)
    rw [ofJson, record, ofJsonMembers_of_toJsonFields fields members
      (fun field hfield => hsorted.field hfield) hmembers, hfields.ofList_eq, unsigned]

theorem ofJsonItems_of_toJsonItems : ∀ (items : List Value) (jsons : List Json),
    (∀ item ∈ items, item.Sorted) → toJsonItems items = .ok jsons →
      ofJsonItems jsons = unsignedItems items
  | [], jsons, _, h => by
    cases h
    rfl
  | item :: rest, jsons, hsorted, h => by
    obtain ⟨json, hjson, h⟩ := bind_eq_ok.mp h
    obtain ⟨others, hothers, h⟩ := bind_eq_ok.mp h
    cases h
    rw [ofJsonItems, unsignedItems,
      ofJson_of_toJson item json (hsorted item List.mem_cons_self) hjson,
      ofJsonItems_of_toJsonItems rest others
        (fun other hother => hsorted other (List.mem_cons_of_mem _ hother)) hothers]

theorem ofJsonMembers_of_toJsonFields :
    ∀ (fields : List (String × Value)) (members : List (String × Json)),
      (∀ field ∈ fields, field.2.Sorted) → toJsonFields fields = .ok members →
        ofJsonMembers members = unsignedFields fields
  | [], members, _, h => by
    cases h
    rfl
  | (name, value) :: rest, members, hsorted, h => by
    obtain ⟨json, hjson, h⟩ := bind_eq_ok.mp h
    obtain ⟨others, hothers, h⟩ := bind_eq_ok.mp h
    cases h
    rw [ofJsonMembers, unsignedFields,
      ofJson_of_toJson value json (hsorted (name, value) List.mem_cons_self) hjson,
      ofJsonMembers_of_toJsonFields rest others
        (fun other hother => hsorted other (List.mem_cons_of_mem _ hother)) hothers]

end

/-! ## 2. Texts and comparisons -/

mutual

theorem print_unsigned : ∀ value : Value, value.unsigned.print = value.print
  | numeric x => Number.format_unsignZero x
  | array items => printItems_unsignedItems items
  | boolean true | boolean false => rfl
  | null | string _ | object _ | native _ _ | bound _ _ => rfl

theorem printItems_unsignedItems :
    ∀ items : List Value, printItems (unsignedItems items) = printItems items
  | [] => rfl
  | [item] => print_unsigned item
  | item :: other :: rest => by
    have hrest := printItems_unsignedItems (other :: rest)
    simp only [unsignedItems] at hrest
    simp only [unsignedItems, printItems, print_unsigned item, hrest]

end

mutual

/-- Comparisons do not see signs of zero. -/
theorem form_unsigned (names : Nat → String) : ∀ value : Value,
    value.unsigned.form names = value.form names
  | numeric x => congrArg numeric (Number.unsignZero_unsignZero x)
  | array items => congrArg array (formItems_unsignedItems names items)
  | object fields => congrArg object (formFields_unsignedFields names fields)
  | null | boolean _ | string _ | native _ _ | bound _ _ => rfl

theorem formItems_unsignedItems (names : Nat → String) : ∀ items : List Value,
    formItems names (unsignedItems items) = formItems names items
  | [] => rfl
  | item :: rest => by
    rw [unsignedItems, formItems, formItems, form_unsigned names item,
      formItems_unsignedItems names rest]

theorem formFields_unsignedFields (names : Nat → String) : ∀ fields : List (String × Value),
    formFields names (unsignedFields fields) = formFields names fields
  | [] => rfl
  | (name, value) :: rest => by
    rw [unsignedFields, formFields, formFields, form_unsigned names value,
      formFields_unsignedFields names rest]

end

theorem nanFree_of_atoms {value : Value} (h : ∀ atom ∈ value.atoms, atom.refusal? = none) :
    value.NanFree :=
  fun x hx => Number.isNaN_of_isFinite ((convertible_iff.mpr h).2 x hx)

theorem equals_unsigned (value : Value) (h : ∀ atom ∈ value.atoms, atom.refusal? = none) :
    value.unsigned.equals value = true := by
  have hform := form_unsigned (fun _ => "") value
  rw [equals_iff fun _ => "", ← nanFree_form_iff fun _ => "", hform, nanFree_form_iff]
  exact ⟨nanFree_of_atoms h, rfl⟩

theorem equalItems_unsignedItems (items : List Value)
    (h : ∀ atom ∈ atomsOfItems items, atom.refusal? = none) :
    equalItems (unsignedItems items) items = true :=
  equals_unsigned (array items) h

/-! ## 3. Arguments -/

theorem forall_convertible_iff {args : List Value} :
    (∀ arg ∈ args, arg.Convertible) ↔ ∀ atom ∈ atomsOfItems args, atom.refusal? = none := by
  simp only [convertible_iff, atomsOfItems_eq_flatMap, List.forall_mem_flatMap]

theorem forall₂_of_toJsonItems {args : List Value} {jsons : List Json}
    (h : toJsonItems args = .ok jsons) :
    List.Forall₂ (fun arg json => arg.toJson = .ok json) args jsons := by
  induction args generalizing jsons with
  | nil =>
    cases h
    exact .nil
  | cons arg rest ih =>
    obtain ⟨json, hjson, h⟩ := bind_eq_ok.mp h
    obtain ⟨others, hothers, h⟩ := bind_eq_ok.mp h
    cases h
    exact .cons hjson (ih hothers)

end Value

namespace HostFunction

variable {function : HostFunction} {name : String} {args : List Value}

/-- What a function of the host makes of the JSON forms of its arguments. -/
theorem run_of_toJsonItems {jsons : List Json} (h : Value.toJsonItems args = .ok jsons) :
    function.run name args =
      match function jsons with
      | .ok (some json) => .ok (Value.ofJson json)
      | .ok none => .ok .null
      | .error message => .error (.hostCall name message) := by
  rw [run, h]
  rfl

/-- Without the JSON forms of all arguments it does not matter what the function is. -/
theorem run_of_toJsonItems_error {error : RuntimeError} (h : Value.toJsonItems args = .error error) :
    function.run name args = .error error := by
  rw [run, h]
  rfl

end HostFunction

namespace Value

/-- A value has a JSON form exactly if there is neither a function nor a number that is not finite in
it. It comes back from this form but for the signs of zero, equal and with the same text. A
conversion fails with the first atom that has no JSON form. A function of the host is called, with
the JSON forms of its arguments, exactly if all of them are convertible, and the one that gives its
arguments back gives an array that is equal to them. -/
theorem toJson_roundTrip {value : Value} (hsorted : value.Sorted) {args : List Value}
    (hargs : (array args).Sorted) (name : String) :
    ((∃ json, value.toJson = .ok json) ↔ value.Convertible) ∧
    (∀ json, value.toJson = .ok json →
      ofJson json = value.unsigned ∧ (ofJson json).equals value = true ∧
        (ofJson json).print = value.print) ∧
    (∀ error, value.toJson = .error error ↔
      ∃ cause, value.atoms.findSome? refusal? = some cause ∧ error = .conversion cause) ∧
    ((∀ arg ∈ args, arg.Convertible) →
      ∃ jsons, List.Forall₂ (fun arg json => arg.toJson = .ok json) args jsons ∧
        (∀ function : HostFunction, function.run name args =
          match function jsons with
          | .ok (some json) => .ok (ofJson json)
          | .ok none => .ok null
          | .error message => .error (.hostCall name message)) ∧
        ∃ items, HostFunction.run (fun jsons => .ok (some (.array jsons))) name args =
            .ok (array items) ∧ (array items).equals (array args) = true) ∧
    ((∃ arg ∈ args, ¬ arg.Convertible) →
      ∃ cause, (args.flatMap atoms).findSome? refusal? = some cause ∧
        ∀ function : HostFunction, function.run name args = .error (.conversion cause)) := by
  refine ⟨?converted, ?back, failsAs_toJson value, ?called, ?refused⟩
  case converted => rw [(failsAs_toJson value).exists_ok_iff, convertible_iff]
  case back =>
    intro json hjson
    have hatoms := (failsAs_toJson value).exists_ok_iff.mp ⟨json, hjson⟩
    rw [ofJson_of_toJson value json hsorted hjson]
    exact ⟨rfl, equals_unsigned value hatoms, print_unsigned value⟩
  case called =>
    intro hconvertible
    have hatoms := forall_convertible_iff.mp hconvertible
    obtain ⟨jsons, hjsons⟩ := (failsAs_toJsonItems args).exists_ok_iff.mpr hatoms
    refine ⟨jsons, forall₂_of_toJsonItems hjsons,
      fun function => HostFunction.run_of_toJsonItems hjsons, unsignedItems args, ?_, ?_⟩
    · rw [HostFunction.run_of_toJsonItems hjsons,
        ← ofJsonItems_of_toJsonItems args jsons (fun arg harg => hargs.item harg) hjsons]
      rfl
    · rw [equals]
      exact equalItems_unsignedItems args hatoms
  case refused =>
    rintro ⟨arg, harg, hrefused⟩
    cases hresult : toJsonItems args with
    | ok jsons =>
      have hatoms := (failsAs_toJsonItems args).exists_ok_iff.mp ⟨jsons, hresult⟩
      exact absurd (forall_convertible_iff.mpr hatoms arg harg) hrefused
    | error error =>
      obtain ⟨cause, hcause, rfl⟩ := (failsAs_toJsonItems args error).mp hresult
      rw [atomsOfItems_eq_flatMap] at hcause
      exact ⟨cause, hcause, fun function => HostFunction.run_of_toJsonItems_error hresult⟩

/-- An object with minus zero in it goes through JSON, and a call with a function among its
arguments fails at that function, not at the number after it. -/
theorem toJson_roundTrip_minusZero :
    let value := object [("items", array [numeric (Number.ofWord true 0), null]), ("text", string "x")]
    let json := Json.object [("items", .array [.integer 0, .null]), ("text", .string "x")]
    let args := [value, array [native "first" 0, numeric Number.nan]]
    value.Sorted ∧ (array args).Sorted ∧ value.toJson = .ok json ∧
      (ofJson json).equals value = true ∧ (ofJson json).print = value.print ∧
      ∀ function : HostFunction,
        function.run "echo" args = .error (.conversion (.functionToHost "first")) := by
  intro value json args
  have hsorted : value.Sorted := by
    refine sorted_object (by decide) (List.forall_mem_cons.mpr ⟨sorted_array ?_, ?_⟩)
    · exact List.forall_mem_cons.mpr ⟨sorted_of_leaf trivial,
        List.forall_mem_singleton.mpr (sorted_of_leaf trivial)⟩
    · exact List.forall_mem_singleton.mpr (sorted_of_leaf trivial)
  have hargs : (array args).Sorted := by
    refine sorted_array (List.forall_mem_cons.mpr ⟨hsorted, ?_⟩)
    refine List.forall_mem_singleton.mpr (sorted_array ?_)
    exact List.forall_mem_cons.mpr ⟨sorted_of_leaf trivial,
      List.forall_mem_singleton.mpr (sorted_of_leaf trivial)⟩
  have hjson : value.toJson = .ok json := by
    simp [value, json, toJson, toJsonFields, toJsonItems, numberToJson, Number.toInt?_minusZero, bind, Except.bind]
  have hrefused : ¬ (array [native "first" 0, numeric Number.nan]).Convertible :=
    fun h => h.1 (native "first" 0) (.item List.mem_cons_self (.self _)) rfl
  obtain ⟨-, hback, -, -, hcall⟩ := toJson_roundTrip hsorted hargs "echo"
  obtain ⟨cause, hcause, hrun⟩ :=
    hcall ⟨_, List.mem_cons_of_mem _ List.mem_cons_self, hrefused⟩
  have hfirst : cause = .functionToHost "first" := by
    have hfinite : (Number.ofWord true 0).isFinite = true := by decide +kernel
    simpa [args, value, atoms, atomsOfItems, atomsOfFields, List.findSome?_cons, refusal?, hfinite,
      eq_comm] using hcause
  rw [hfirst] at hrun
  exact ⟨hsorted, hargs, hjson, (hback json hjson).2.1, (hback json hjson).2.2, hrun⟩

end Value

end Templating
