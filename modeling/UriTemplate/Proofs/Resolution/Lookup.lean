import UriTemplate.Resolution

/-!
# Look-up in maps

The first entry with a name gives its value. So entries count in their order, and entries whose
names differ from the one that is looked up do not count at all. A context resolves a name by the
shape of its value, so values of one shape can replace each other (`resolve_eq_of_rel`).
-/

namespace UriTemplate
set_option autoImplicit false

theorem lookup?_map_cons (key : Text) (value : Value) (entries : List (Text × Value))
    (name : Text) : (Value.map ((key, value) :: entries)).lookup? name =
      if key = name then some value else (Value.map entries).lookup? name := by
  by_cases h : key = name <;> simp [Value.lookup?, h]

theorem lookup?_map_append (front back : List (Text × Value)) (name : Text) :
    (Value.map (front ++ back)).lookup? name =
      ((Value.map front).lookup? name).or ((Value.map back).lookup? name) := by
  induction front with
  | nil => rfl
  | cons e front ih =>
    rw [List.cons_append, lookup?_map_cons, lookup?_map_cons, ih]
    split <;> rfl

theorem lookup?_filter {entries : List (Text × Value)} {keep : Text × Value → Bool} {name : Text}
    (h : ∀ e ∈ entries, e.1 = name → keep e = true) :
    (Value.map (entries.filter keep)).lookup? name = (Value.map entries).lookup? name := by
  induction entries with
  | nil => rfl
  | cons e entries ih =>
    obtain ⟨he, hentries⟩ := List.forall_mem_cons.1 h
    by_cases hkeep : keep e = true
    · rw [List.filter_cons_of_pos hkeep, lookup?_map_cons, lookup?_map_cons, ih hentries]
    · have hname : e.1 ≠ name := fun hname => hkeep (he hname)
      rw [List.filter_cons_of_neg hkeep, lookup?_map_cons, if_neg hname, ih hentries]

/-- Contexts whose variables have values of the same shapes resolve alike, errors included, since an
error names the variable and the fault of the value. -/
theorem resolve_eq_of_rel {related : Value → Value → Prop}
    (hshape : ∀ value value', related value value' → value.shape = value'.shape)
    {context context' : Value} {name : Text}
    (h : Option.Rel related (context.lookup? name) (context'.lookup? name)) :
    context.resolve name = context'.resolve name := by
  unfold Value.resolve
  generalize context.lookup? name = value?, context'.lookup? name = value?' at h
  cases h with
  | none => rfl
  | some hvalue =>
    show Except.mapError _ _ = Except.mapError _ _
    rw [hshape _ _ hvalue]

end UriTemplate
