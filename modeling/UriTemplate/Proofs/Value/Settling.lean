import UriTemplate.Proofs.Value.Putting

/-!
# Repeated keys

Entries may be written with repeated keys; what is kept of them has each key once, in the place of
its first occurrence and with the value of its last (`Settles`). Putting one more entry keeps up
with writing one more (`Settles.put`), so putting all entries settles them.
-/

namespace UriTemplate
set_option autoImplicit false

variable {α β : Type} {key : Text} {value : α} {written kept : List (Text × α)}

/-- The entries that are kept of those that are written. -/
structure Settles (written kept : List (Text × α)) : Prop where
  /-- No key is kept twice. -/
  distinct : (kept.map Prod.fst).Nodup
  /-- The keys are in the order of their first occurrence. -/
  order : kept.map Prod.fst = (written.map Prod.fst).eraseDups
  /-- Each key has the value of its last occurrence. -/
  last : ∀ e ∈ kept, (written.filter fun w => w.1 = e.1).getLast? = some e

theorem settles_nil : Settles ([] : List (Text × α)) [] :=
  ⟨List.nodup_nil, rfl, by simp⟩

theorem Settles.mem_keys (h : Settles written kept) {name : Text} :
    name ∈ kept.map Prod.fst ↔ name ∈ written.map Prod.fst := by
  rw [h.order, List.mem_eraseDups]

/-- Nothing is kept that is not written. -/
theorem Settles.subset (h : Settles written kept) : kept ⊆ written := by
  intro e he
  exact (List.mem_filter.1 (List.mem_of_getLast? (h.last e he))).1

/-- With distinct keys, the entry that was there for a key goes when another one is put. -/
theorem mem_putEntry (hkeys : (kept.map Prod.fst).Nodup) {e : Text × α}
    (he : e ∈ putEntry key value kept) : e = (key, value) ∨ (e ∈ kept ∧ e.1 ≠ key) := by
  induction kept with
  | nil => exact .inl (List.mem_singleton.1 he)
  | cons first kept ih =>
    obtain ⟨hfirst, hkeys⟩ := List.nodup_cons.1 hkeys
    by_cases h : first.1 = key
    · rw [putEntry, if_pos h, h] at he
      rcases List.mem_cons.1 he with rfl | hmem
      · exact .inl rfl
      · refine .inr ⟨List.mem_cons_of_mem _ hmem, fun hkey => hfirst ?_⟩
        rw [h, ← hkey]
        exact List.mem_map_of_mem hmem
    · rw [putEntry, if_neg h] at he
      rcases List.mem_cons.1 he with rfl | hmem
      · exact .inr ⟨List.mem_cons_self, h⟩
      · exact (ih hkeys hmem).imp_right fun hkept => ⟨List.mem_cons_of_mem _ hkept.1, hkept.2⟩

/-- One more entry is written, and one more is put. -/
theorem Settles.put (h : Settles written kept) (key : Text) (value : α) :
    Settles (written ++ [(key, value)]) (putEntry key value kept) := by
  refine ⟨nodup_keys_putEntry h.distinct, ?_, fun e he => ?_⟩
  · rw [keys_putEntry, List.map_append, List.map_singleton, List.eraseDups_append, ← h.order]
    by_cases hkey : key ∈ written.map Prod.fst
    · rw [if_pos (h.mem_keys.2 hkey)]
      simp [List.removeAll, hkey]
    · rw [if_neg (mt h.mem_keys.1 hkey)]
      simp [List.removeAll, hkey, List.eraseDups_cons]
  · rw [List.filter_append, List.getLast?_append]
    rcases mem_putEntry h.distinct he with rfl | ⟨he, hne⟩
    · simp
    · simp [h.last e he, Ne.symm hne]

theorem Settles.putEntries (h : Settles written kept) (new : List (Text × α)) :
    Settles (written ++ new) (putEntries kept new) := by
  induction new generalizing written kept with
  | nil => rwa [List.append_nil]
  | cons e new ih =>
    rw [List.append_cons]
    exact ih (h.put e.1 e.2)

theorem settles_distinctEntries (written : List (Text × α)) :
    Settles written (distinctEntries written) :=
  settles_nil.putEntries written

/-- Values that are written another way are kept all the same. -/
theorem Settles.map (h : Settles written kept) (f : α → β) :
    Settles (written.map fun e => (e.1, f e.2)) (kept.map fun e => (e.1, f e.2)) := by
  have hkeys : ∀ entries : List (Text × α),
      (entries.map fun e => (e.1, f e.2)).map Prod.fst = entries.map Prod.fst := by simp
  refine ⟨by rw [hkeys]; exact h.distinct, by rw [hkeys, hkeys, h.order], fun e he => ?_⟩
  obtain ⟨original, horiginal, rfl⟩ := List.mem_map.1 he
  rw [List.filter_map, List.getLast?_map]
  exact congrArg (Option.map _) (h.last original horiginal)

end UriTemplate
