import UriTemplate.Proofs.Expansion.Splitting
import UriTemplate.Proofs.Percent.Units

/-!
# Limits of length in expansions

A limit keeps the first units of a text, the text is encoded unit by unit, and a name in front of a
value stays in front whatever the value is. So the expansions of a variable with growing limits are
growing first parts of its expansion without a limit, and reach it with the number of units.
-/

namespace UriTemplate
set_option autoImplicit false
open Percent

variable {op : Operator} {context : Value} {name text v w : Text}

/-- The expansion of one variable. -/
def expandSingle (op : Operator) (context : Value) (spec : VarSpec) : Except ShapeError Text :=
  Expression.expand context ⟨op, [spec]⟩

/-- The mark of an empty value is how a value starts behind its name. -/
theorem nameIfWanted_front (op : Operator) (name : Text) (h : v <+: w) :
    nameIfWanted op name v <+: nameIfWanted op name w := by
  unfold nameIfWanted
  split
  · unfold named
    have hmark : ∀ value, op.ifEmpty <+: '=' :: value := by
      cases op <;> simp [Operator.ifEmpty]
    by_cases hv : v = []
    · rw [if_pos hv]
      by_cases hw : w = []
      · simp only [if_pos hw, List.prefix_refl]
      · rw [if_neg hw]
        exact (List.prefix_append_right_inj name).2 (hmark w)
    · have hw : w ≠ [] := by
        rintro rfl
        exact hv (List.prefix_nil.1 h)
      rw [if_neg hv, if_neg hw]
      exact (List.prefix_append_right_inj name).2 ((List.prefix_cons_inj '=').2 h)
  · exact h

theorem expandSingle_of_undefined (h : context.resolve name = .ok .undefined)
    (modifier : Option Modifier) : expandSingle op context ⟨name, modifier⟩ = .ok [] := by
  have hunit : VarSpec.unit? op context ⟨name, modifier⟩ = .ok none := by
    unfold VarSpec.unit?
    rw [h]
    rfl
  exact expand_eq_ok_iff.2 ⟨[], by rw [unitsOf, hunit]; rfl, rfl⟩

theorem expandSingle_of_scalar (h : context.resolve name = .ok (.scalar text))
    (modifier : Option Modifier) : expandSingle op context ⟨name, modifier⟩ =
      .ok (op.first ++ VarSpec.scalarUnit op ⟨name, modifier⟩ text) := by
  have hunit : VarSpec.unit? op context ⟨name, modifier⟩ =
      .ok (some (VarSpec.scalarUnit op ⟨name, modifier⟩ text)) := by
    unfold VarSpec.unit?
    rw [h]
    rfl
  refine expand_eq_ok_iff.2 ⟨[VarSpec.scalarUnit op ⟨name, modifier⟩ text], ?_, ?_⟩
  · rw [unitsOf, hunit]
    rfl
  · simp [joinUnits]

/-- What a variable with this text, or with what is kept of it, gives. -/
def expandedText (op : Operator) (name kept : Text) : Text :=
  op.first ++ nameIfWanted op name (encode op.allowsReserved kept)

theorem expandedText_truncate_front (op : Operator) (name : Text) (n : Nat) (text : Text) :
    expandedText op name (truncate op.allowsReserved n text) <+: expandedText op name text :=
  (List.prefix_append_right_inj op.first).2
    (nameIfWanted_front op name (encode_truncate_front op.allowsReserved n text))

/-! ## Main statement -/

/-- **Limits and encoding cut a text in the same places.** A limit keeps the first units of a text,
and what is behind it are the other units; the two parts are encoded each on its own; and of two
limits the smaller one counts. So a variable that is expanded with a limit gives a first part of
what it gives with a greater limit or without one, and the whole if no unit is beyond the limit. -/
theorem truncate_cuts_units (reserved : Bool) (s : Text) (n m : Nat) :
    (units reserved s).flatten = s ∧
    truncate reserved n s = ((units reserved s).take (min n (units reserved s).length)).flatten ∧
    (∃ rest, s = truncate reserved n s ++ rest ∧
      units reserved s = units reserved (truncate reserved n s) ++ units reserved rest ∧
      encode reserved s = encode reserved (truncate reserved n s) ++ encode reserved rest) ∧
    truncate reserved n (truncate reserved m s) = truncate reserved (min n m) s ∧
    ∀ op context name,
      (context.resolve name = .ok .undefined →
        expandSingle op context (.plain name) = .ok [] ∧
        ∀ k, expandSingle op context ((VarSpec.plain name).withMaxLength k) = .ok []) ∧
      ∀ text, context.resolve name = .ok (.scalar text) → ∃ (whole : Text) (limited : Nat → Text),
        expandSingle op context (.plain name) = .ok whole ∧
        (∀ k, expandSingle op context ((VarSpec.plain name).withMaxLength k) = .ok (limited k)) ∧
        (∀ k l, k ≤ l → limited k <+: limited l) ∧
        (∀ k, limited k <+: whole) ∧
        ∀ k, (units op.allowsReserved text).length ≤ k → limited k = whole := by
  refine ⟨flatten_units reserved s, ?_, ?_, truncate_truncate reserved n m s,
    fun op context name => ⟨fun h => ?_, fun text h => ?_⟩⟩
  · rw [truncate_eq_flatten_take, ← List.take_eq_take_min]
  · obtain ⟨rest, hrest⟩ := truncate_isPrefix reserved n s
    exact ⟨rest, hrest.symm, units_eq_append hrest.symm, encode_eq_append hrest.symm⟩
  · exact ⟨expandSingle_of_undefined h none, fun k => expandSingle_of_undefined h _⟩
  · refine ⟨expandedText op name text, fun k => expandedText op name (truncate op.allowsReserved k text),
      expandSingle_of_scalar h none, fun k => expandSingle_of_scalar h _, fun k l hle => ?_,
      fun k => expandedText_truncate_front op name k text, fun k hlength => ?_⟩
    · have hkept := expandedText_truncate_front op name k (truncate op.allowsReserved l text)
      rwa [truncate_truncate, Nat.min_eq_left hle] at hkept
    · exact congrArg (expandedText op name) (truncate_of_length_le hlength)

/-- A triplet in the middle, which a limit of two keeps whole; a lone percent sign behind it. -/
theorem limits_sample :
    let s := "a%2F%é".toList
    let context : Value := .map [("x".toList, .ofText s)]
    truncate true 2 s = "a%2F".toList ∧ units true s = ["a", "%2F", "%", "é"].map String.toList ∧
      (∃ (whole : Text) (limited : Nat → Text),
        expandSingle .fragment context (.plain "x".toList) = .ok whole ∧
        (∀ n, expandSingle .fragment context ((VarSpec.plain "x".toList).withMaxLength n) =
          .ok (limited n)) ∧
        limited 2 <+: limited 3 ∧ limited 4 = whole) ∧
      expandSingle .fragment context (.plain "y".toList) = .ok [] := by
  intro s context
  have hx : context.resolve "x".toList = .ok (.scalar s) := rfl
  have hy : context.resolve "y".toList = .ok .undefined := rfl
  obtain ⟨-, hkept, -, -, hexpand⟩ := truncate_cuts_units true s 2 0
  obtain ⟨whole, limited, hwhole, hlimited, hgrow, -, hreach⟩ :=
    (hexpand .fragment context "x".toList).2 s hx
  exact ⟨hkept.trans (by decide), by decide,
    ⟨whole, limited, hwhole, hlimited, hgrow 2 3 (by decide), hreach 4 (by decide)⟩,
    ((hexpand .fragment context "y".toList).1 hy).1⟩

end UriTemplate
