import UriTemplate.Proofs.Expansion.Agreement
import UriTemplate.Proofs.Resolution.Lookup

/-!
# Records and maps

A record answers for single names and lists its names; a map has entries. `recordMap` is the map of
what a record lists and has. As the value of a variable a record counts for what it lists, so it can
always be replaced by its map. As a context it counts for what it answers, listed or not, so there
the two agree if the record answers only for names that it lists.
-/

namespace UriTemplate
set_option autoImplicit false

/-- The map of the names that a record lists, in their order, with their properties; names without
a property are left out. -/
def recordMap (names : List Text) (property? : Text → Option Value) : Value :=
  .map (names.filterMap fun name => (property? name).map fun value => (name, value))

/-- Contexts that no name and no template can tell apart: the shapes, the expansions and all errors
are the same. -/
def Interchangeable (context context' : Value) : Prop :=
  (∀ name, context.resolve name = context'.resolve name) ∧
    ∀ t : Template, t.expand context = t.expand context'

theorem interchangeable_of_resolve {context context' : Value}
    (h : ∀ name, context.resolve name = context'.resolve name) :
    Interchangeable context context' :=
  ⟨h, fun _ => Template.expand_congr fun spec _ => h spec.name⟩

section Record

variable {names : List Text} {property? : Text → Option Value}

/-! ## A record as a context -/

theorem lookup?_recordMap_eq_none {name : Text} (h : name ∈ names → property? name = none) :
    (recordMap names property?).lookup? name = none := by
  show ((names.filterMap _).find? _).map _ = _
  rw [Option.map_eq_none_iff, List.find?_eq_none]
  intro e he
  obtain ⟨listed, hlisted, hname⟩ := List.mem_filterMap.1 he
  obtain ⟨value, hvalue, rfl⟩ := Option.map_eq_some_iff.1 hname
  have hne : listed ≠ name := by
    rintro rfl
    rw [h hlisted] at hvalue
    cases hvalue
  simpa using hne

theorem lookup?_recordMap_of_some {name : Text} {value : Value} (hmem : name ∈ names)
    (hvalue : property? name = some value) :
    (recordMap names property?).lookup? name = some value := by
  show ((names.filterMap _).find? _).map _ = _
  induction names with
  | nil => cases hmem
  | cons listed names ih =>
    by_cases hlisted : listed = name
    · subst hlisted
      rw [List.filterMap_cons_some (by rw [hvalue]; rfl), List.find?_cons_of_pos (by simp)]
      rfl
    · have hmem' : name ∈ names := (List.mem_cons.1 hmem).resolve_left (Ne.symm hlisted)
      cases hproperty : property? listed with
      | none =>
        rw [List.filterMap_cons_none (by rw [hproperty]; rfl)]
        exact ih hmem'
      | some other =>
        rw [List.filterMap_cons_some (by rw [hproperty]; rfl),
          List.find?_cons_of_neg (by simpa using hlisted)]
        exact ih hmem'

/-- A record that answers only for names that it lists has the values of its map, however often it
lists a name. -/
theorem lookup?_recordMap (hlisted : ∀ name value, property? name = some value → name ∈ names)
    (name : Text) :
    (Value.record names property?).lookup? name = (recordMap names property?).lookup? name := by
  show property? name = _
  cases hvalue : property? name with
  | none => exact (lookup?_recordMap_eq_none fun _ => hvalue).symm
  | some value => exact (lookup?_recordMap_of_some (hlisted name value hvalue) hvalue).symm

/-! ## A record as a value -/

/-- A value in place of another one: the same, or the map of the record that it was. -/
inductive Replaced : Value → Value → Prop
  | same (value : Value) : Replaced value value
  | record (names : List Text) (property? : Text → Option Value) :
    Replaced (.record names property?) (recordMap names property?)

theorem shape_eq_of_replaced {value value' : Value} (h : Replaced value value') :
    value.shape = value'.shape := by
  cases h with
  | same => rfl
  | record names property? => rfl

/-- Contexts whose variables have the same values up to replacement resolve alike. -/
theorem resolve_eq_of_replaced {context context' : Value} {name : Text}
    (h : Option.Rel Replaced (context.lookup? name) (context'.lookup? name)) :
    context.resolve name = context'.resolve name :=
  resolve_eq_of_rel (fun _ _ => shape_eq_of_replaced) h

theorem option_rel_replaced (value : Option Value) : Option.Rel Replaced value value := by
  cases value with
  | none => exact .none
  | some value => exact .some (.same value)

theorem interchangeable_entry (front : List (Text × Value)) (key : Text)
    (back : List (Text × Value)) :
    Interchangeable (.map (front ++ (key, .record names property?) :: back))
      (.map (front ++ (key, recordMap names property?) :: back)) := by
  refine interchangeable_of_resolve fun name => resolve_eq_of_replaced ?_
  rw [lookup?_map_append, lookup?_map_append, lookup?_map_cons, lookup?_map_cons]
  cases (Value.map front).lookup? name with
  | some value => exact .some (.same value)
  | none =>
    rw [Option.none_or, Option.none_or]
    split
    · exact .some (.record names property?)
    · exact option_rel_replaced _

theorem interchangeable_property {names' : List Text} {property?' : Text → Option Value}
    {key : Text} (hkey : property?' key = some (.record names property?)) :
    Interchangeable (.record names' property?')
      (.record names' fun name =>
        if name = key then some (recordMap names property?) else property?' name) := by
  refine interchangeable_of_resolve fun name => resolve_eq_of_replaced ?_
  show Option.Rel Replaced (property?' name) (if name = key then _ else property?' name)
  split
  · rename_i hname
    rw [hname, hkey]
    exact .some (.record names property?)
  · exact option_rel_replaced _

end Record

/-! ## Main statement -/

/-- **Records and their maps can be interchanged**: as a context, if the record answers only for
names that it lists; and, without any condition, as an entry of a map or as a property of a record
that is the context. -/
theorem record_interchangeable_with_map (names : List Text) (property? : Text → Option Value) :
    ((∀ name value, property? name = some value → name ∈ names) →
      Interchangeable (.record names property?) (recordMap names property?)) ∧
    (∀ front key back,
      Interchangeable (.map (front ++ (key, .record names property?) :: back))
        (.map (front ++ (key, recordMap names property?) :: back))) ∧
    ∀ names' property?' key, property?' key = some (.record names property?) →
      Interchangeable (.record names' property?')
        (.record names' fun name =>
          if name = key then some (recordMap names property?) else property?' name) := by
  refine ⟨fun hlisted => ?_, fun front key back => interchangeable_entry front key back,
    fun names' property?' key hkey => interchangeable_property hkey⟩
  refine interchangeable_of_resolve fun name => resolve_eq_of_replaced ?_
  rw [lookup?_recordMap hlisted]
  exact option_rel_replaced _

/-- A record that lists one name twice and another one that it does not have, as a context, and as
the property of another record, where its nested entry is an error. -/
theorem record_and_map_sample :
    let names := ["a".toList, "b".toList, "a".toList]
    let property? : Text → Option Value := fun name =>
      if name = "a".toList then some (.map [("k".toList, .ofText "v".toList)]) else none
    let outer : Text → Option Value := fun name =>
      if name = "r".toList then some (.record names property?) else none
    let t : Template := ⟨[.expression ⟨.query, [.withExplode (.plain "a".toList)]⟩]⟩
    (∀ name value, property? name = some value → name ∈ names) ∧
      t.expand (recordMap names property?) = .ok "?k=v".toList ∧
      (Value.record [] fun name =>
        if name = "r".toList then some (recordMap names property?) else outer name).resolve
          "r".toList = .error ⟨"r".toList, .nestedEntry "a".toList .map⟩ := by
  intro names property? outer t
  have hlisted : ∀ name value, property? name = some value → name ∈ names := by
    intro name value h
    simp only [property?] at h
    split at h
    · rename_i hname
      rw [hname]
      exact List.mem_cons_self
    · cases h
  have houter : outer "r".toList = some (.record names property?) := rfl
  obtain ⟨hcontext, -, hproperty⟩ := record_interchangeable_with_map names property?
  obtain ⟨-, hexpand⟩ := hcontext hlisted
  obtain ⟨hresolve, -⟩ := hproperty [] outer "r".toList houter
  refine ⟨hlisted, ?_, ?_⟩
  · rw [← hexpand t]
    rfl
  · rw [← hresolve "r".toList]
    rfl

end UriTemplate
