import UriTemplate.CommandLine
import UriTemplate.Proofs.Context.Overrides
import UriTemplate.Proofs.Text.Join

/-!
# Assignments on the command line

A text assigns a value to a name if it has an equals sign that is not its first character: the name
stands before the first equals sign, the value behind it. Texts are read in order up to the first
that assigns nothing; if all of them assign, what they give to a name is the value of the last one
with that name (`assigned?`).
-/

namespace UriTemplate
set_option autoImplicit false

/-- The part of a text before its first equals sign. -/
def assignmentName (text : Text) : Text := text.takeWhile (· ≠ '=')

/-- The part of a text behind its first equals sign. -/
def assignmentValue (text : Text) : Text := (text.dropWhile (· ≠ '=')).tail

/-- A text with an equals sign that is not its first character. -/
def IsAssignment (text : Text) : Prop := '=' ∈ text ∧ text.head? ≠ some '='

instance (text : Text) : Decidable (IsAssignment text) := inferInstanceAs (Decidable (_ ∧ _))

/-- The value of the last of some assignments to a name. -/
def assigned? (assignments : List Text) (name : Text) : Option Text :=
  ((assignments.filter fun text => assignmentName text = name).getLast?).map assignmentValue

theorem splitFirst?_of_mem {text : Text} (h : '=' ∈ text) :
    splitFirst? (· = '=') text = some (assignmentName text, assignmentValue text) := by
  induction text with
  | nil => cases h
  | cons c text ih =>
    by_cases hc : c = '='
    · subst hc
      rfl
    · have hmem : '=' ∈ text := (List.mem_cons.1 h).resolve_left (Ne.symm hc)
      simp [splitFirst?, hc, ih hmem, assignmentName, assignmentValue]

theorem splitFirst?_of_not_mem {text : Text} (h : '=' ∉ text) :
    splitFirst? (· = '=') text = none :=
  splitFirst?_eq_none (decide_eq_false_of_not_mem h)

theorem assignmentName_eq_nil_iff {text : Text} (h : '=' ∈ text) :
    assignmentName text = [] ↔ text.head? = some '=' := by
  cases text with
  | nil => cases h
  | cons c text => by_cases hc : c = '=' <;> simp [assignmentName, hc]

theorem parseAssignment_of_isAssignment {text : Text} (h : IsAssignment text) :
    parseAssignment text = .ok (assignmentName text, assignmentValue text) := by
  have hname : assignmentName text ≠ [] := mt (assignmentName_eq_nil_iff h.1).1 h.2
  unfold parseAssignment
  rw [splitFirst?_of_mem h.1]
  exact if_neg hname

theorem parseAssignment_of_not_isAssignment {text : Text} (h : ¬IsAssignment text) :
    parseAssignment text = .error ⟨text⟩ := by
  unfold parseAssignment
  by_cases hmem : '=' ∈ text
  · have hname : assignmentName text = [] := by
      rw [assignmentName_eq_nil_iff hmem]
      exact Decidable.not_not.1 fun hhead => h ⟨hmem, hhead⟩
    rw [splitFirst?_of_mem hmem]
    exact if_pos hname
  · rw [splitFirst?_of_not_mem hmem]

theorem parseAssignments_append {front : List Text} (hfront : ∀ text ∈ front, IsAssignment text)
    (texts : List Text) : parseAssignments (front ++ texts) =
      (parseAssignments texts).map
        (front.map (fun text => (assignmentName text, assignmentValue text)) ++ ·) := by
  induction front with
  | nil => cases h : parseAssignments texts <;> simp [h, Except.map]
  | cons text front ih =>
    obtain ⟨htext, hfront⟩ := List.forall_mem_cons.1 hfront
    rw [List.cons_append, parseAssignments, parseAssignment_of_isAssignment htext, ih hfront]
    cases parseAssignments texts <;> rfl

theorem parseAssignments_of_forall {texts : List Text} (h : ∀ text ∈ texts, IsAssignment text) :
    parseAssignments texts =
      .ok (texts.map fun text => (assignmentName text, assignmentValue text)) := by
  have happend := parseAssignments_append h []
  rw [List.append_nil] at happend
  rw [happend]
  show Except.ok (_ ++ []) = _
  rw [List.append_nil]

/-- The first text that assigns nothing is the one that is reported. -/
theorem parseAssignments_of_bad {front : List Text} {bad : Text}
    (hfront : ∀ text ∈ front, IsAssignment text) (hbad : ¬IsAssignment bad) (back : List Text) :
    parseAssignments (front ++ bad :: back) = .error ⟨bad⟩ := by
  rw [parseAssignments_append hfront, parseAssignments, parseAssignment_of_not_isAssignment hbad]
  rfl

theorem lastValue?_assignments (texts : List Text) (name : Text) :
    lastValue? (texts.map fun text => (assignmentName text, assignmentValue text)) name =
      assigned? texts name := by
  unfold lastValue? assigned?
  rw [List.filter_map, List.getLast?_map, Option.map_map]
  rfl

end UriTemplate
