import UriTemplate.Proofs.Context.Overrides
import UriTemplate.Proofs.Value.Putting

/-!
# Laws of overrides

Overrides are entries put over the entries of a context (`applyOverrides_eq`). So the entries that
nobody overrides stay in their places, and with a repeated key only the first place changes, which
is the one that look-up finds; new names follow in the order in which they are first mentioned;
overrides can be applied all at once, in parts or one at a time; and repeating them changes nothing.
-/

namespace UriTemplate
set_option autoImplicit false

theorem applyOverrides_eq (context : Value) (overrides : List (Text × Text)) :
    applyOverrides context overrides =
      .map (putEntries context.entries (overrides.map fun o => (o.1, Value.ofText o.2))) := by
  unfold applyOverrides putEntries
  rw [List.foldl_map]

theorem keys_overrides (overrides : List (Text × Text)) :
    (overrides.map fun o => (o.1, Value.ofText o.2)).map Prod.fst = overrides.map Prod.fst := by
  simp

/-- Contexts that are no maps have no entries to override. -/
theorem applyOverrides_of_form {context : Value} (h : context.form ≠ .map)
    (overrides : List (Text × Text)) :
    applyOverrides context overrides = applyOverrides emptyContext overrides := by
  have hentries : context.entries = [] := by
    cases context <;> simp_all [Value.form, Value.entries]
  rw [applyOverrides_eq, applyOverrides_eq, hentries]
  rfl

/-- The last value that is given to a name goes before what the context has for it. -/
theorem resolve_applyOverrides (entries : List (Text × Value)) (overrides : List (Text × Text))
    (name : Text) : (applyOverrides (.map entries) overrides).resolve name =
      match lastValue? overrides name with
      | some text => .ok (.scalar text)
      | none => (Value.map entries).resolve name := by
  have hlookup := lookup?_applyOverrides (.map entries) overrides name
  unfold Value.resolve
  rw [hlookup]
  cases lastValue? overrides name <;> rfl

theorem applyOverrides_append (context : Value) (a b : List (Text × Text)) :
    applyOverrides (applyOverrides context a) b = applyOverrides context (a ++ b) := by
  rw [applyOverrides_eq context a, applyOverrides_eq, applyOverrides_eq context, List.map_append,
    putEntries_append]
  rfl

theorem foldl_applyOverrides (entries : List (Text × Value)) (overrides : List (Text × Text)) :
    overrides.foldl (fun context o => applyOverrides context [o]) (.map entries) =
      applyOverrides (.map entries) overrides := by
  induction overrides generalizing entries with
  | nil => rfl
  | cons o overrides ih =>
    rw [List.foldl_cons, applyOverrides_eq, ih, ← applyOverrides_eq, applyOverrides_append]
    rfl

theorem applyOverrides_self (context : Value) (overrides : List (Text × Text)) :
    applyOverrides (applyOverrides context overrides) overrides =
      applyOverrides context overrides := by
  rw [applyOverrides_eq context, applyOverrides_eq]
  exact congrArg Value.map (putEntries_putEntries_self _ _)

/-! ## Main statement -/

/-- **Laws of overrides.** A name that is overridden resolves to the last text that it is given, and
any other as before. Keys keep their places, new ones follow in the order of first mention, and keys
that are distinct stay so; entries whose key is not overridden, or has a place in front, stay as
they are. Overrides that follow overrides are applied as one list, which may be applied one at a
time and more than once. -/
theorem applyOverrides_laws (entries : List (Text × Value)) (a b : List (Text × Text)) :
    (∀ context : Value, context.form ≠ .map →
      applyOverrides context a = applyOverrides emptyContext a) ∧
    (∀ name, (applyOverrides (.map entries) a).resolve name =
      match lastValue? a name with
      | some text => .ok (.scalar text)
      | none => (Value.map entries).resolve name) ∧
    (∃ entries', applyOverrides (.map entries) a = .map entries' ∧
      entries'.map Prod.fst = entries.map Prod.fst ++
        ((a.map Prod.fst).filter fun name => name ∉ entries.map Prod.fst).eraseDups ∧
      (∀ i e, entries[i]? = some e →
        e.1 ∉ a.map Prod.fst ∨ e.1 ∈ (entries.take i).map Prod.fst → entries'[i]? = some e) ∧
      ((entries.map Prod.fst).Nodup → (entries'.map Prod.fst).Nodup)) ∧
    applyOverrides (applyOverrides (.map entries) a) b = applyOverrides (.map entries) (a ++ b) ∧
    a.foldl (fun context o => applyOverrides context [o]) (.map entries) =
      applyOverrides (.map entries) a ∧
    applyOverrides (applyOverrides (.map entries) a) a = applyOverrides (.map entries) a := by
  refine ⟨fun context h => applyOverrides_of_form h a, resolve_applyOverrides entries a, ?_,
    applyOverrides_append _ a b, foldl_applyOverrides entries a, applyOverrides_self _ a⟩
  refine ⟨_, applyOverrides_eq _ a, ?_, fun i e he h => ?_, nodup_keys_putEntries⟩
  · rw [keys_putEntries, keys_overrides]
    rfl
  · rw [← keys_overrides] at h
    exact getElem?_putEntries he h

/-- A map with one name twice and overrides with two names twice, one of them new: the second place
of the name in the map stays, as its keys do. A list has no entries, and the keys of a map with
distinct ones are distinct behind the overrides as well. -/
theorem overrides_sample :
    let entries : List (Text × Value) := [("x".toList, .null), ("y".toList, .ofText "1".toList),
      ("x".toList, .ofTexts ["2".toList])]
    let a : List (Text × Text) := [("z".toList, "3".toList), ("x".toList, "4".toList),
      ("z".toList, "5".toList), ("x".toList, "6".toList)]
    (applyOverrides (.map entries) a).resolve "x".toList = .ok (.scalar "6".toList) ∧
      (∃ entries', applyOverrides (.map entries) a = .map entries' ∧
        entries'.map Prod.fst = ["x".toList, "y".toList, "x".toList, "z".toList] ∧
        entries'[2]? = some ("x".toList, .ofTexts ["2".toList])) ∧
      (∃ entries', applyOverrides (.map (entries.take 2)) a = .map entries' ∧
        (entries'.map Prod.fst).Nodup) ∧
      applyOverrides (.ofTexts ["2".toList]) a = applyOverrides emptyContext a := by
  intro entries a
  have hnodup : ((entries.take 2).map Prod.fst).Nodup := by decide
  obtain ⟨hother, hresolve, ⟨entries', hentries', hkeys, hplaces, -⟩, -⟩ :=
    applyOverrides_laws entries a []
  obtain ⟨-, -, ⟨distinct, hdistinct, -, -, hdistinctKeys⟩, -⟩ :=
    applyOverrides_laws (entries.take 2) a []
  refine ⟨(hresolve _).trans (by rfl), ⟨entries', hentries', hkeys.trans (by decide), ?_⟩,
    ⟨distinct, hdistinct, hdistinctKeys hnodup⟩, hother _ (by simp [Value.ofTexts, Value.form])⟩
  exact hplaces 2 _ rfl (.inr (by decide))

end UriTemplate
