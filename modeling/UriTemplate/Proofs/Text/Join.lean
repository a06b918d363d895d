import UriTemplate.Text

/-!
# Joining and splitting texts

Facts about `List.intercalate`: the join of an appended list, and that texts joined group by group
are the texts joined at once, as long as no group is empty. A text is split at its first separator
into what was put before and behind it (`splitFirst?_append`).
-/

namespace UriTemplate
set_option autoImplicit false

variable {α : Type} {sep : List α}

theorem intercalate_append {xs ys : List (List α)} (hx : xs ≠ []) (hy : ys ≠ []) :
    sep.intercalate (xs ++ ys) = sep.intercalate xs ++ sep ++ sep.intercalate ys := by
  induction xs with
  | nil => exact absurd rfl hx
  | cons x xs ih =>
    by_cases h : xs = []
    · subst h
      rw [List.singleton_append, List.intercalate_cons_of_ne_nil hy, List.intercalate_singleton]
    · rw [List.cons_append, List.intercalate_cons_of_ne_nil (by simp [h]), ih h,
        List.intercalate_cons_of_ne_nil h]
      simp

/-- A group put in front of texts joins with them as its members do. -/
theorem intercalate_group {group units pieces : List (List α)} (hg : group ≠ [])
    (hempty : units = [] ↔ pieces = []) (hjoin : sep.intercalate units = sep.intercalate pieces) :
    sep.intercalate (sep.intercalate group :: units) = sep.intercalate (group ++ pieces) := by
  by_cases h : units = []
  · have h' := hempty.1 h
    subst h h'
    rw [List.append_nil, List.intercalate_singleton]
  · rw [List.intercalate_cons_of_ne_nil h, intercalate_append hg (mt hempty.2 h), hjoin]

theorem not_mem_intercalate {c d : α} {xs : List (List α)} (hne : c ≠ d) (h : ∀ x ∈ xs, c ∉ x) :
    c ∉ List.intercalate [d] xs := by
  induction xs with
  | nil => simp
  | cons x xs ih =>
    have hx := h x (by simp)
    have hxs := ih fun y hy => h y (by simp [hy])
    by_cases hnil : xs = []
    · subst hnil
      rwa [List.intercalate_singleton]
    · rw [List.intercalate_cons_of_ne_nil hnil]
      simp [hx, hxs, hne]

theorem decide_eq_false_of_not_mem {c : Char} {a : Text} (h : c ∉ a) :
    ∀ x ∈ a, decide (x = c) = false := by
  intro x hx
  rw [decide_eq_false_iff_not]
  rintro rfl
  exact h hx

theorem splitFirst?_append {p : Char → Bool} {a : Text} {c : Char} (ha : ∀ x ∈ a, p x = false)
    (hc : p c = true) (b : Text) : splitFirst? p (a ++ c :: b) = some (a, b) := by
  induction a with
  | nil => simp [splitFirst?, hc]
  | cons x a ih =>
    have hx := ha x (by simp)
    simp [splitFirst?, hx, ih fun y hy => ha y (by simp [hy])]

theorem splitFirst?_eq_none {p : Char → Bool} {a : Text} (ha : ∀ x ∈ a, p x = false) :
    splitFirst? p a = none := by
  induction a with
  | nil => rfl
  | cons x a ih =>
    have hx := ha x (by simp)
    simp [splitFirst?, hx, ih fun y hy => ha y (by simp [hy])]

end UriTemplate
