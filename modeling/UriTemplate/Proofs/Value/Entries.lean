import UriTemplate.Value

/-!
# Entries with distinct keys

A key that is not there yet is put at the end, so entries whose keys are distinct are put one
behind the other, and nothing of them is lost (`distinctEntries_of_nodup`).
-/

namespace UriTemplate
set_option autoImplicit false

variable {α : Type}

theorem putEntry_of_not_mem {key : Text} {entries : List (Text × α)}
    (h : key ∉ entries.map Prod.fst) (value : α) :
    putEntry key value entries = entries ++ [(key, value)] := by
  induction entries with
  | nil => rfl
  | cons e entries ih =>
    rw [List.map_cons, List.mem_cons, not_or] at h
    rw [putEntry, if_neg (Ne.symm h.1), ih h.2, List.cons_append]

/-- The induction carries what has been put before: its keys are distinct from those to come. -/
theorem foldl_putEntry_of_nodup {entries entries' : List (Text × α)}
    (h : ((entries ++ entries').map Prod.fst).Nodup) :
    entries'.foldl (fun acc e => putEntry e.1 e.2 acc) entries = entries ++ entries' := by
  induction entries' generalizing entries with
  | nil => rw [List.foldl_nil, List.append_nil]
  | cons e entries' ih =>
    have hnew : e.1 ∉ entries.map Prod.fst := by
      rw [List.map_append, List.nodup_append] at h
      intro hmem
      exact h.2.2 e.1 hmem e.1 (by simp) rfl
    have hshift : entries ++ e :: entries' = entries ++ [e] ++ entries' := by simp
    rw [hshift] at h ⊢
    rw [List.foldl_cons, putEntry_of_not_mem hnew, ih h]

theorem distinctEntries_of_nodup {entries : List (Text × α)}
    (h : (entries.map Prod.fst).Nodup) : distinctEntries entries = entries :=
  @foldl_putEntry_of_nodup α [] entries h

end UriTemplate
