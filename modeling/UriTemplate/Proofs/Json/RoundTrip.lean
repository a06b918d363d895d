import UriTemplate.Json.Read
import UriTemplate.Proofs.Json.Tokens
import UriTemplate.Proofs.Value.Entries

/-!
# Reading written JSON

The reader takes the tokens of a value wherever a value may start, hands the value to what is open
around it and goes on behind the tokens (`Json.Plain.delivers`). So a value that is written down is
read as the same value, unless more arrays and objects are open in it than the reader allows.
-/

namespace UriTemplate
set_option autoImplicit false
open JsonProgress

namespace JsonProgress

/-- Reads tokens, one after the other. -/
def run (progress : JsonProgress) (tokens : List JsonToken) : Option JsonProgress :=
  tokens.foldlM step progress

theorem run_cons (progress : JsonProgress) (token : JsonToken) (tokens : List JsonToken) :
    progress.run (token :: tokens) = (progress.step token).bind fun next => next.run tokens :=
  List.foldlM_cons

theorem run_of_step {progress next : JsonProgress} {token : JsonToken}
    (h : progress.step token = some next) (tokens : List JsonToken) :
    progress.run (token :: tokens) = next.run tokens := by
  rw [run_cons, h, Option.bind_some]

end JsonProgress

/-- Wherever a value may start and `n` more arrays and objects may be opened, the tokens of the
value hand it to what is open, and the reader goes on behind them. -/
def Delivers (n : Nat) (j : Json) : Prop :=
  ∀ stack tokens, stack.length + n ≤ maxDepth →
    (value stack).run (j.tokens ++ tokens) = (deliver j stack).bind fun next => next.run tokens

variable {n : Nat} {stack : List OpenJson}

theorem opened_of_room (h : stack.length + (n + 1) ≤ maxDepth) (inner : OpenJson)
    (progress : List OpenJson → JsonProgress) :
    opened stack inner progress = some (progress (inner :: stack)) := by
  have hopen : stack.length < maxDepth := by omega
  exact if_pos hopen

theorem run_openArray (h : stack.length + (n + 1) ≤ maxDepth) (tokens : List JsonToken) :
    (value stack).run (.openArray :: tokens) = (firstItem (.array [] :: stack)).run tokens := by
  apply run_of_step
  exact opened_of_room h _ _

theorem run_openObject (h : stack.length + (n + 1) ≤ maxDepth) (tokens : List JsonToken) :
    (value stack).run (.openObject :: tokens) = (firstKey (.object [] :: stack)).run tokens := by
  apply run_of_step
  exact opened_of_room h _ _

theorem run_closeArray (items : List Json) (tokens : List JsonToken) :
    (next (.array items.reverse :: stack)).run (.closeArray :: tokens) =
      (deliver (.array items) stack).bind fun next => next.run tokens := by
  have hstep : (next (.array items.reverse :: stack)).step .closeArray =
      deliver (.array items.reverse.reverse) stack := rfl
  rw [run_cons, hstep, List.reverse_reverse]

theorem run_closeObject {fields : List (Text × Json)} (hkeys : (fields.map Prod.fst).Nodup)
    (tokens : List JsonToken) :
    (next (.object fields.reverse :: stack)).run (.closeObject :: tokens) =
      (deliver (.object fields) stack).bind fun next => next.run tokens := by
  have hstep : (next (.object fields.reverse :: stack)).step .closeObject =
      deliver (.object (distinctEntries fields.reverse.reverse)) stack := rfl
  rw [run_cons, hstep, List.reverse_reverse, distinctEntries_of_nodup hkeys]

/-- No value starts with the end of an array. -/
theorem Json.exists_tokens_eq_cons (j : Json) :
    ∃ token tokens, j.tokens = token :: tokens ∧ token ≠ .closeArray := by
  match j with
  | .null | .bool _ | .number _ | .string _ => exact ⟨_, _, rfl, by nofun⟩
  | .array [] | .array (_ :: _) => exact ⟨_, _, rfl, by nofun⟩
  | .object [] | .object ((_, _) :: _) => exact ⟨_, _, rfl, by nofun⟩

theorem run_firstItem (j : Json) (stack : List OpenJson) (tokens : List JsonToken) :
    (firstItem stack).run (j.tokens ++ tokens) = (value stack).run (j.tokens ++ tokens) := by
  obtain ⟨token, tokens', heq, hne⟩ := j.exists_tokens_eq_cons
  have hstep : (firstItem stack).step token = (value stack).step token := if_neg hne
  rw [heq, List.cons_append, run_cons, run_cons, hstep]

/-! ## Items and fields -/

theorem Delivers.item {j : Json} (h : Delivers n j) (hroom : stack.length + (n + 1) ≤ maxDepth)
    (items : List Json) (tokens : List JsonToken) :
    (value (.array items :: stack)).run (j.tokens ++ tokens) =
      (next (.array (j :: items) :: stack)).run tokens :=
  h (.array items :: stack) tokens (by rw [List.length_cons]; omega)

theorem Delivers.field {j : Json} (h : Delivers n j) (hroom : stack.length + (n + 1) ≤ maxDepth)
    (fields : List (Text × Json)) (key : Text) (tokens : List JsonToken) :
    (colon (.field fields key :: stack)).run (.colon :: (j.tokens ++ tokens)) =
      (next (.object ((key, j) :: fields) :: stack)).run tokens := by
  rw [run_of_step rfl]
  exact h (.field fields key :: stack) tokens (by rw [List.length_cons]; omega)

/-- The induction carries the items that have been read, the latest first. -/
theorem run_itemTokens {items : List Json} (h : ∀ item ∈ items, Delivers n item)
    (hroom : stack.length + (n + 1) ≤ maxDepth) (items' : List Json) (tokens : List JsonToken) :
    (next (.array items' :: stack)).run (Json.itemTokens items ++ tokens) =
      (next (.array (items.reverse ++ items') :: stack)).run tokens := by
  induction items generalizing items' with
  | nil => rfl
  | cons item items ih =>
    obtain ⟨hitem, hitems⟩ := List.forall_mem_cons.1 h
    rw [Json.itemTokens, List.cons_append, List.append_assoc, run_of_step rfl, hitem.item hroom,
      ih hitems, List.reverse_cons, List.append_assoc, List.singleton_append]

theorem run_fieldTokens {fields : List (Text × Json)} (h : ∀ field ∈ fields, Delivers n field.2)
    (hroom : stack.length + (n + 1) ≤ maxDepth) (fields' : List (Text × Json))
    (tokens : List JsonToken) :
    (next (.object fields' :: stack)).run (Json.fieldTokens fields ++ tokens) =
      (next (.object (fields.reverse ++ fields') :: stack)).run tokens := by
  induction fields generalizing fields' with
  | nil => rfl
  | cons field fields ih =>
    obtain ⟨key, item⟩ := field
    obtain ⟨hitem, hfields⟩ := List.forall_mem_cons.1 h
    rw [Json.fieldTokens]
    simp only [List.cons_append, List.append_assoc]
    rw [run_of_step rfl, run_of_step rfl, hitem.field hroom, ih hfields, List.reverse_cons,
      List.append_assoc, List.singleton_append]

/-! ## Values -/

theorem delivers_array {items : List Json} (h : ∀ item ∈ items, Delivers n item) :
    Delivers (n + 1) (.array items) := by
  intro stack tokens hroom
  cases items with
  | nil =>
    rw [Json.tokens, List.cons_append, run_openArray hroom]
    exact run_cons _ _ _
  | cons item items =>
    obtain ⟨hitem, hitems⟩ := List.forall_mem_cons.1 h
    rw [Json.tokens]
    simp only [List.cons_append, List.append_assoc]
    rw [run_openArray hroom, run_firstItem, hitem.item hroom, run_itemTokens hitems hroom,
      ← List.reverse_cons]
    exact run_closeArray (item :: items) tokens

theorem delivers_object {fields : List (Text × Json)} (hkeys : (fields.map Prod.fst).Nodup)
    (h : ∀ field ∈ fields, Delivers n field.2) : Delivers (n + 1) (.object fields) := by
  intro stack tokens hroom
  cases fields with
  | nil =>
    rw [Json.tokens, List.cons_append, run_openObject hroom]
    exact run_cons _ _ _
  | cons field fields =>
    obtain ⟨key, item⟩ := field
    obtain ⟨hitem, hfields⟩ := List.forall_mem_cons.1 h
    rw [Json.tokens]
    simp only [List.cons_append, List.append_assoc]
    rw [run_openObject hroom, run_of_step rfl, hitem.field hroom, run_fieldTokens hfields hroom,
      ← List.reverse_cons]
    exact run_closeObject hkeys tokens

theorem Json.Plain.delivers {n : Nat} {j : Json} (hj : j.Plain n) : Delivers n j := by
  induction hj with
  | null | bool | number | string =>
    intro stack tokens _
    exact run_cons _ _ _
  | array _ ih => exact delivers_array ih
  | object hkeys _ ih => exact delivers_object hkeys ih

/-- **A written value** is read as the same value. -/
theorem Json.parse?_pretty {j : Json} (h : j.Plain maxDepth) : Json.parse? j.pretty = some j := by
  have hrun := h.delivers [] [] (Nat.le_of_eq (Nat.zero_add maxDepth))
  rw [List.append_nil] at hrun
  unfold Json.parse?
  rw [tokens?_pretty h, Option.bind_some]
  show ((value []).run j.tokens).bind result? = some j
  rw [hrun]
  rfl

end UriTemplate
