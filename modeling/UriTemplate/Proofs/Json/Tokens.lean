import UriTemplate.Proofs.Json.Numbers
import UriTemplate.Proofs.Json.Strings

/-!
# The tokens of written JSON

A JSON value has a list of tokens (`Json.tokens`), and its text is cut into just these, however
deep it is indented (`Json.Plain.cutsAt`): what the printer adds are blanks, and no token goes on
into what follows it. Numbers are restricted to words without sign.
-/

namespace UriTemplate
set_option autoImplicit false
open JsonToken

/-- JSON values with at most `n` arrays and objects inside each other, whose numbers are words
without sign and whose objects have distinct keys. -/
inductive Json.Plain : Nat → Json → Prop
  | null {n : Nat} : Plain n .null
  | bool {n : Nat} (value : Bool) : Plain n (.bool value)
  | number {n : Nat} (value : UInt64) : Plain n (.number (.natural value))
  | string {n : Nat} (text : Text) : Plain n (.string text)
  | array {n : Nat} {items : List Json} : (∀ item ∈ items, Plain n item) →
    Plain (n + 1) (.array items)
  | object {n : Nat} {fields : List (Text × Json)} : (fields.map Prod.fst).Nodup →
    (∀ field ∈ fields, Plain n field.2) → Plain (n + 1) (.object fields)

namespace Json

mutual

/-- The tokens of a value. -/
def tokens : Json → List JsonToken
  | null => [.null]
  | bool b => [.bool b]
  | number n => [.number n]
  | string s => [.string s]
  | array [] => [.openArray, .closeArray]
  | array (item :: items) =>
    .openArray :: (item.tokens ++ (itemTokens items ++ [.closeArray]))
  | object [] => [.openObject, .closeObject]
  | object ((key, item) :: fields) =>
    .openObject :: .string key :: .colon ::
      (item.tokens ++ (fieldTokens fields ++ [.closeObject]))

/-- The tokens of further items, each behind a comma. -/
def itemTokens : List Json → List JsonToken
  | [] => []
  | item :: items => .comma :: (item.tokens ++ itemTokens items)

/-- The tokens of further fields, each behind a comma. -/
def fieldTokens : List (Text × Json) → List JsonToken
  | [] => []
  | (key, item) :: fields =>
    .comma :: .string key :: .colon :: (item.tokens ++ fieldTokens fields)

end

end Json

/-! ## Cutting -/

/-- The text is cut into these tokens, with any fuel that is enough. -/
def TokensOf (s : Text) (tokens : List JsonToken) : Prop :=
  ∀ fuel, s.length ≤ fuel → tokens?.go fuel s = some tokens

variable {s rest : Text} {tokens : List JsonToken}

theorem tokens?_of_tokensOf (h : TokensOf s tokens) : tokens? s = some tokens :=
  h s.length (Nat.le_refl _)

theorem tokensOf_nil : TokensOf [] [] := by
  intro fuel _
  cases fuel <;> rfl

theorem TokensOf.blank {c : Char} (h : TokensOf s tokens) (hc : isBlank c = true) :
    TokensOf (c :: s) tokens := by
  intro fuel hfuel
  cases fuel with
  | zero => cases hfuel
  | succ fuel =>
    rw [tokens?.go, if_pos hc]
    exact h fuel (Nat.le_of_succ_le_succ hfuel)

theorem TokensOf.token {c : Char} {token : JsonToken} (h : TokensOf rest tokens)
    (hc : isBlank c = false) (hread : read? c s = some (token, rest))
    (hrest : rest <:+ s) : TokensOf (c :: s) (token :: tokens) := by
  intro fuel hfuel
  cases fuel with
  | zero => cases hfuel
  | succ fuel =>
    rw [List.length_cons] at hfuel
    have hlength := hrest.length_le
    rw [tokens?.go, hc, hread]
    simp only [Bool.false_eq_true, if_false, Option.bind_some]
    rw [h fuel (by omega)]
    rfl

/-- A token of one character. -/
theorem TokensOf.mark {c : Char} {token : JsonToken} (h : TokensOf s tokens)
    (hc : isBlank c = false) (hread : read? c s = some (token, s)) :
    TokensOf (c :: s) (token :: tokens) :=
  h.token hc hread (List.suffix_refl s)

theorem TokensOf.newLine (h : TokensOf s tokens) (depth : Nat) :
    TokensOf (Json.newLine depth ++ s) tokens := by
  have hspaces : ∀ n, TokensOf (List.replicate n ' ' ++ s) tokens := by
    intro n
    induction n with
    | zero => exact h
    | succ n ih =>
      rw [List.replicate_succ, List.cons_append]
      exact ih.blank rfl
  exact (hspaces (2 * depth)).blank rfl

theorem TokensOf.string (h : TokensOf rest tokens) (text : Text) :
    TokensOf (jsonString text ++ rest) (.string text :: tokens) := by
  have hshape : jsonString text ++ rest =
      '"' :: ((text.flatMap jsonChar ++ ['"']) ++ rest) := by simp [jsonString]
  have hread : read? '"' ((text.flatMap jsonChar ++ ['"']) ++ rest) =
      some (.string text, rest) := by
    show (readString _).map _ = _
    rw [List.append_assoc, List.singleton_append, readString_flatMap]
    rfl
  rw [hshape]
  exact h.token rfl hread (List.suffix_append _ _)

theorem TokensOf.number (h : TokensOf rest tokens) (hrest : StopsAt continuesNumber rest)
    (n : UInt64) : TokensOf (numeral n.toNat ++ rest) (.number (.natural n) :: tokens) := by
  have hread := readNumber?_numeral n hrest
  cases hdigits : numeral n.toNat with
  | nil => exact absurd hdigits (numeral_ne_nil _)
  | cons c w =>
    have hc : c.isDigit = true := isDigit_of_mem_numeral (n := n.toNat) (by simp [hdigits])
    have hblank : isBlank c = false := by
      rw [Bool.eq_false_iff]
      intro hblank
      simp only [isBlank, Bool.or_eq_true, decide_eq_true_eq] at hblank
      rcases hblank with ((rfl | rfl) | rfl) | rfl <;> cases hc
    rw [hdigits] at hread
    exact h.token hblank ((read?_digit hc _).trans hread) (List.suffix_append _ _)

/-! ## Values -/

/-- The text of a value at a depth is cut into the value's tokens, in front of anything that does
not go on with a number. -/
def CutsAt (depth : Nat) (j : Json) : Prop :=
  ∀ rest tokens, StopsAt continuesNumber rest → TokensOf rest tokens →
    TokensOf (j.prettyAt depth ++ rest) (j.tokens ++ tokens)

theorem stopsAt_newLine (depth : Nat) (s : Text) :
    StopsAt continuesNumber (Json.newLine depth ++ s) :=
  stopsAt_cons.2 (by decide)

theorem stopsAt_prettyItems {items : List Json} {depth : Nat}
    (h : StopsAt continuesNumber rest) :
    StopsAt continuesNumber (Json.prettyItems depth items ++ rest) := by
  cases items with
  | nil => exact h
  | cons item items => exact stopsAt_cons.2 (by decide)

theorem stopsAt_prettyFields {fields : List (Text × Json)} {depth : Nat}
    (h : StopsAt continuesNumber rest) :
    StopsAt continuesNumber (Json.prettyFields depth fields ++ rest) := by
  cases fields with
  | nil => exact h
  | cons field fields => exact stopsAt_cons.2 (by decide)

/-- A key with its colon. -/
theorem TokensOf.key (h : TokensOf rest tokens) (key : Text) :
    TokensOf (jsonString key ++ (": ".toList ++ rest)) (.string key :: .colon :: tokens) := by
  have hcolon : TokensOf (": ".toList ++ rest) (.colon :: tokens) := (h.blank rfl).mark rfl rfl
  exact hcolon.string key

theorem TokensOf.items {items : List Json} {depth : Nat}
    (hitems : ∀ item ∈ items, CutsAt depth item) (hrest : StopsAt continuesNumber rest)
    (h : TokensOf rest tokens) :
    TokensOf (Json.prettyItems depth items ++ rest) (Json.itemTokens items ++ tokens) := by
  induction items with
  | nil => exact h
  | cons item items ih =>
    obtain ⟨hitem, hitems⟩ := List.forall_mem_cons.1 hitems
    have hvalue := hitem _ _ (stopsAt_prettyItems hrest) (ih hitems)
    have hcomma := (hvalue.newLine depth).mark (c := ',') rfl rfl
    simpa [Json.prettyItems, Json.itemTokens] using hcomma

theorem TokensOf.fields {fields : List (Text × Json)} {depth : Nat}
    (hfields : ∀ field ∈ fields, CutsAt depth field.2) (hrest : StopsAt continuesNumber rest)
    (h : TokensOf rest tokens) :
    TokensOf (Json.prettyFields depth fields ++ rest) (Json.fieldTokens fields ++ tokens) := by
  induction fields with
  | nil => exact h
  | cons field fields ih =>
    obtain ⟨key, item⟩ := field
    obtain ⟨hitem, hfields⟩ := List.forall_mem_cons.1 hfields
    have hvalue := hitem _ _ (stopsAt_prettyFields hrest) (ih hfields)
    have hcomma := ((hvalue.key key).newLine depth).mark (c := ',') rfl rfl
    simpa [Json.prettyFields, Json.fieldTokens] using hcomma

theorem cutsAt_array {items : List Json} {depth : Nat}
    (hitems : ∀ item ∈ items, CutsAt (depth + 1) item) : CutsAt depth (.array items) := by
  intro rest tokens hrest h
  have hclose : TokensOf (']' :: rest) (.closeArray :: tokens) := h.mark rfl rfl
  cases items with
  | nil => exact hclose.mark rfl rfl
  | cons item items =>
    obtain ⟨hitem, hitems⟩ := List.forall_mem_cons.1 hitems
    have hline := stopsAt_newLine depth (']' :: rest)
    have hmore := TokensOf.items hitems hline (hclose.newLine depth)
    have hvalue := hitem _ _ (stopsAt_prettyItems hline) hmore
    have hopen := (hvalue.newLine (depth + 1)).mark (c := '[') rfl rfl
    simpa [Json.prettyAt, Json.tokens] using hopen

theorem cutsAt_object {fields : List (Text × Json)} {depth : Nat}
    (hfields : ∀ field ∈ fields, CutsAt (depth + 1) field.2) : CutsAt depth (.object fields) := by
  intro rest tokens hrest h
  have hclose : TokensOf ('}' :: rest) (.closeObject :: tokens) := h.mark rfl rfl
  cases fields with
  | nil => exact hclose.mark rfl rfl
  | cons field fields =>
    obtain ⟨key, item⟩ := field
    obtain ⟨hitem, hfields⟩ := List.forall_mem_cons.1 hfields
    have hline := stopsAt_newLine depth ('}' :: rest)
    have hmore := TokensOf.fields hfields hline (hclose.newLine depth)
    have hvalue := hitem _ _ (stopsAt_prettyFields hline) hmore
    have hopen := ((hvalue.key key).newLine (depth + 1)).mark (c := '{') rfl rfl
    simpa [Json.prettyAt, Json.tokens] using hopen

theorem Json.Plain.cutsAt {n : Nat} {j : Json} (hj : j.Plain n) :
    ∀ depth, CutsAt depth j := by
  induction hj with
  | null =>
    intro depth rest tokens _ h
    exact h.token rfl rfl (List.suffix_append "ull".toList rest)
  | bool value =>
    intro depth rest tokens _ h
    cases value
    · exact h.token rfl rfl (List.suffix_append "alse".toList rest)
    · exact h.token rfl rfl (List.suffix_append "rue".toList rest)
  | number value =>
    intro depth rest tokens hrest h
    exact h.number hrest value
  | string text =>
    intro depth rest tokens _ h
    exact h.string text
  | array _ ih =>
    intro depth
    apply cutsAt_array
    intro item hitem
    exact ih item hitem (depth + 1)
  | object _ _ ih =>
    intro depth
    apply cutsAt_object
    intro field hfield
    exact ih field hfield (depth + 1)

/-- **A written value** is cut into the tokens of the value. -/
theorem tokens?_pretty {n : Nat} {j : Json} (h : j.Plain n) : tokens? j.pretty = some j.tokens := by
  have hcut := h.cutsAt 0 [] [] (stopsAt_nil _) tokensOf_nil
  rw [List.append_nil, List.append_nil] at hcut
  exact tokens?_of_tokensOf hcut

end UriTemplate
