import Mathlib.Data.List.Induction
import UriTemplate.Value

/-!
# Entries put over entries

An entry that is put takes the place that its key has, or a new one at the end. So the keys that are
there keep their places, and new keys follow in the order in which they are first put
(`keys_putEntries`); behind the first place of a key nothing changes (`getElem?_putEntries`). Two
puts to one key leave the second, and puts to different keys change places if one of the keys is
there already (`putEntry_comm`). Hence what is put twice is put once (`putEntries_putEntries_self`).
-/

namespace UriTemplate
set_option autoImplicit false

variable {α : Type} {key key' : Text} {value value' : α} {entries new : List (Text × α)}

/-- Puts entries over others, one after the other. -/
def putEntries (entries new : List (Text × α)) : List (Text × α) :=
  new.foldl (fun acc e => putEntry e.1 e.2 acc) entries

/-! ## One entry -/

theorem keys_putEntry (key : Text) (value : α) (entries : List (Text × α)) :
    (putEntry key value entries).map Prod.fst =
      if key ∈ entries.map Prod.fst then entries.map Prod.fst
      else entries.map Prod.fst ++ [key] := by
  induction entries with
  | nil => rfl
  | cons e entries ih =>
    by_cases h : e.1 = key
    · simp [putEntry, h]
    · have hmem : key ∈ (e :: entries).map Prod.fst ↔ key ∈ entries.map Prod.fst := by
        rw [List.map_cons, List.mem_cons, or_iff_right (Ne.symm h)]
      rw [putEntry, if_neg h, List.map_cons, ih]
      simp only [hmem]
      split <;> rfl

theorem mem_keys_putEntry {name : Text} :
    name ∈ (putEntry key value entries).map Prod.fst ↔
      name ∈ entries.map Prod.fst ∨ name = key := by
  rw [keys_putEntry]
  split
  · rename_i h
    constructor
    · exact .inl
    · rintro (hname | rfl)
      · exact hname
      · exact h
  · rw [List.mem_append, List.mem_singleton]

theorem nodup_keys_putEntry (h : (entries.map Prod.fst).Nodup) :
    ((putEntry key value entries).map Prod.fst).Nodup := by
  rw [keys_putEntry]
  split
  · exact h
  · rename_i hkey
    refine List.nodup_append.2 ⟨h, by simp, ?_⟩
    intro name hname name' hname'
    rw [List.mem_singleton.1 hname']
    rintro rfl
    exact hkey hname

/-- An entry stays where it is if its key is not the one that is put or has a place in front. -/
theorem getElem?_putEntry {i : Nat} {e : Text × α} (he : entries[i]? = some e)
    (h : e.1 ≠ key ∨ e.1 ∈ (entries.take i).map Prod.fst) :
    (putEntry key value entries)[i]? = some e := by
  induction entries generalizing i with
  | nil => simp at he
  | cons first entries ih =>
    by_cases hfirst : first.1 = key
    · rw [putEntry, if_pos hfirst]
      cases i with
      | zero =>
        obtain rfl : first = e := by simpa using he
        simp [hfirst] at h
      | succ i => simpa using he
    · rw [putEntry, if_neg hfirst]
      cases i with
      | zero => simpa using he
      | succ i =>
        rw [List.getElem?_cons_succ] at he ⊢
        refine ih he ?_
        by_cases hkey : e.1 = key
        · refine .inr ?_
          simpa [hkey, Ne.symm hfirst] using h
        · exact .inl hkey

theorem putEntry_putEntry_self (key : Text) (value value' : α) (entries : List (Text × α)) :
    putEntry key value (putEntry key value' entries) = putEntry key value entries := by
  induction entries with
  | nil => simp [putEntry]
  | cons e entries ih => by_cases h : e.1 = key <;> simp [putEntry, h, ih]

/-- Of two keys one of which is there already, only the other one may take a place at the end. -/
theorem putEntry_comm (hne : key ≠ key') (hkey : key ∈ entries.map Prod.fst) :
    putEntry key value (putEntry key' value' entries) =
      putEntry key' value' (putEntry key value entries) := by
  induction entries with
  | nil => simp at hkey
  | cons e entries ih =>
    by_cases h : e.1 = key
    · simp [putEntry, h, hne]
    · have hkey' : key ∈ entries.map Prod.fst := by
        simpa [Ne.symm h] using hkey
      by_cases h' : e.1 = key'
      · simp [putEntry, h', Ne.symm hne]
      · simp [putEntry, h, h', ih hkey']

/-! ## Several entries -/

theorem putEntries_append (entries new new' : List (Text × α)) :
    putEntries entries (new ++ new') = putEntries (putEntries entries new) new' :=
  List.foldl_append ..

theorem mem_keys_putEntries {name : Text} : name ∈ (putEntries entries new).map Prod.fst ↔
    name ∈ entries.map Prod.fst ∨ name ∈ new.map Prod.fst := by
  induction new generalizing entries with
  | nil => simp [putEntries]
  | cons e new ih =>
    show name ∈ (putEntries (putEntry e.1 e.2 entries) new).map Prod.fst ↔ _
    rw [ih, mem_keys_putEntry, List.map_cons, List.mem_cons, or_assoc]

/-- The induction takes the first new key to those that are there, so that it is not new again. -/
theorem keys_putEntries (entries new : List (Text × α)) :
    (putEntries entries new).map Prod.fst = entries.map Prod.fst ++
      ((new.map Prod.fst).filter fun name => name ∉ entries.map Prod.fst).eraseDups := by
  induction new generalizing entries with
  | nil => simp [putEntries]
  | cons e new ih =>
    show (putEntries (putEntry e.1 e.2 entries) new).map Prod.fst = _
    rw [ih, keys_putEntry, List.map_cons]
    by_cases h : e.1 ∈ entries.map Prod.fst
    · rw [if_pos h, List.filter_cons_of_neg (by simpa using h)]
    · have hfilter : (new.map Prod.fst).filter
            (fun name => name ∉ entries.map Prod.fst ++ [e.1]) =
          ((new.map Prod.fst).filter fun name => name ∉ entries.map Prod.fst).filter
            fun name => !name == e.1 := by
        rw [List.filter_filter]
        refine List.filter_congr fun name _ => ?_
        rw [Bool.eq_iff_iff]
        simp [and_comm]
      rw [if_neg h, List.filter_cons_of_pos (by simpa using h), List.eraseDups_cons, hfilter,
        List.append_assoc, List.singleton_append]

theorem nodup_keys_putEntries (h : (entries.map Prod.fst).Nodup) :
    ((putEntries entries new).map Prod.fst).Nodup := by
  induction new generalizing entries with
  | nil => exact h
  | cons e new ih => exact ih (nodup_keys_putEntry h)

/-- Entries whose keys are not put, or have a place in front, stay where they are. The keys in front
of a place stay as well, so each put finds the place as the one before did. -/
theorem getElem?_putEntries {i : Nat} {e : Text × α} (he : entries[i]? = some e)
    (h : e.1 ∉ new.map Prod.fst ∨ e.1 ∈ (entries.take i).map Prod.fst) :
    (putEntries entries new)[i]? = some e := by
  induction new generalizing entries with
  | nil => exact he
  | cons e' new ih =>
    have hstay : (putEntry e'.1 e'.2 entries)[i]? = some e := by
      refine getElem?_putEntry he (h.imp_left fun hnot hkey => hnot ?_)
      rw [hkey]
      exact List.mem_cons_self
    refine ih hstay ?_
    rcases h with hnot | hfront
    · exact .inl fun hmem => hnot (List.mem_cons_of_mem _ hmem)
    · refine .inr ?_
      have hi : i < (entries.map Prod.fst).length := by
        obtain ⟨hi, -⟩ := List.getElem?_eq_some_iff.1 he
        simpa using hi
      rw [List.map_take, keys_putEntry]
      rw [List.map_take] at hfront
      split
      · exact hfront
      · rwa [List.take_append_of_le_length (Nat.le_of_lt hi)]

/-- A put counts for nothing if a later one goes to the same key and those between find their
places. -/
theorem putEntry_putEntries_putEntry (hnew : ∀ e ∈ new, e.1 ∈ entries.map Prod.fst) :
    putEntry key value (putEntries (putEntry key value' entries) new) =
      putEntry key value (putEntries entries new) := by
  induction new generalizing entries with
  | nil => exact putEntry_putEntry_self key value value' entries
  | cons e new ih =>
    obtain ⟨he, hnew⟩ := List.forall_mem_cons.1 hnew
    show putEntry key value (putEntries (putEntry e.1 e.2 (putEntry key value' entries)) new) =
      putEntry key value (putEntries (putEntry e.1 e.2 entries) new)
    by_cases h : e.1 = key
    · rw [h, putEntry_putEntry_self]
    · rw [putEntry_comm h he]
      exact ih fun e' he' => mem_keys_putEntry.2 (.inl (hnew e' he'))

/-- **Putting twice is putting once.** The induction takes the last entry off: the second time
around it comes over what it has put the first time. -/
theorem putEntries_putEntries_self (entries new : List (Text × α)) :
    putEntries (putEntries entries new) new = putEntries entries new := by
  induction new using List.reverseRecOn with
  | nil => rfl
  | append_singleton new e ih =>
    have hplaces : ∀ e' ∈ new, e'.1 ∈ (putEntries entries new).map Prod.fst := fun e' he' =>
      mem_keys_putEntries.2 (.inr (List.mem_map_of_mem he'))
    rw [putEntries_append entries, putEntries_append _ new]
    show putEntry e.1 e.2 (putEntries (putEntry e.1 e.2 (putEntries entries new)) new) =
      putEntry e.1 e.2 (putEntries entries new)
    rw [putEntry_putEntries_putEntry hplaces, ih]

end UriTemplate
