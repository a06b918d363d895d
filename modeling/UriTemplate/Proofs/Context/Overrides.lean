import UriTemplate.Context
import UriTemplate.Proofs.Resolution.Lookup

/-!
# Variables behind overrides

Overrides are put into the entries of a context one after the other, each at the place that an
earlier one may have made, so the last value of a name is the one that counts, while look-up takes
the first entry. `lookup?_applyOverrides` says what comes of both: a name has the last value that
the overrides give it, and without one the value that it had.
-/

namespace UriTemplate
set_option autoImplicit false

/-- The last value that overrides give to a name. -/
def lastValue? (overrides : List (Text × Text)) (name : Text) : Option Text :=
  ((overrides.filter fun o => o.1 = name).getLast?).map fun o => o.2

theorem lastValue?_cons (o : Text × Text) (overrides : List (Text × Text)) (name : Text) :
    lastValue? (o :: overrides) name =
      (lastValue? overrides name).or (if o.1 = name then some o.2 else none) := by
  unfold lastValue?
  by_cases h : o.1 = name
  · rw [List.filter_cons_of_pos (by simpa using h), List.getLast?_cons]
    cases (overrides.filter fun o => o.1 = name).getLast? <;> simp [h]
  · rw [List.filter_cons_of_neg (by simpa using h)]
    simp [h]

/-- Only the name that is put gets another value. -/
theorem lookup?_putEntry (key : Text) (value : Value) (entries : List (Text × Value))
    (name : Text) : (Value.map (putEntry key value entries)).lookup? name =
      if key = name then some value else (Value.map entries).lookup? name := by
  induction entries with
  | nil => exact lookup?_map_cons key value [] name
  | cons e entries ih =>
    obtain ⟨k, v⟩ := e
    by_cases hk : k = key
    · subst hk
      rw [putEntry, if_pos rfl, lookup?_map_cons, lookup?_map_cons]
      split <;> rfl
    · rw [putEntry, if_neg hk, lookup?_map_cons, lookup?_map_cons, ih]
      by_cases hname : k = name
      · subst hname
        rw [if_pos rfl, if_pos rfl, if_neg (Ne.symm hk)]
      · rw [if_neg hname, if_neg hname]

/-- One override after the other: the entries change, and what was put first is put over. -/
theorem lookup?_foldl_putEntry (overrides : List (Text × Text)) (entries : List (Text × Value))
    (name : Text) :
    (Value.map (overrides.foldl (fun entries o => putEntry o.1 (.ofText o.2) entries)
      entries)).lookup? name =
      ((lastValue? overrides name).map Value.ofText).or ((Value.map entries).lookup? name) := by
  induction overrides generalizing entries with
  | nil => rfl
  | cons o overrides ih =>
    rw [List.foldl_cons, ih, lookup?_putEntry, lastValue?_cons]
    cases lastValue? overrides name with
    | some value => rfl
    | none => by_cases h : o.1 = name <;> simp [h]

/-- **Look-up behind overrides.** -/
theorem lookup?_applyOverrides (context : Value) (overrides : List (Text × Text)) (name : Text) :
    (applyOverrides context overrides).lookup? name =
      ((lastValue? overrides name).map Value.ofText).or
        ((Value.map context.entries).lookup? name) :=
  lookup?_foldl_putEntry overrides context.entries name

end UriTemplate
