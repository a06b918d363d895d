import UriTemplate.Proofs.Json.Meaning
import UriTemplate.Proofs.Json.RoundTrip

/-!
# Documents in JSON text

A JSON text that is read has the tokens of a document, and what is read is that document settled
(`exists_document_of_parse?`). The reader settles each object when it ends, so on the way there its
state is that of a reader that settles nothing, and that one has read what it holds: the tokens in
front of the place where the next value belongs (`tokensBefore`). One step keeps this up
(`Reads.step`), and so does a run.
-/

namespace UriTemplate
set_option autoImplicit false
open JsonProgress

/-! ## Tokens of what is open -/

/-- The tokens of an item, with a comma. -/
def itemWithComma (item : Json) : List JsonToken := item.tokens ++ [.comma]

/-- The tokens of a field, with a comma. -/
def fieldWithComma (f : Text × Json) : List JsonToken :=
  .string f.1 :: .colon :: (f.2.tokens ++ [.comma])

/-- The tokens in front of the place of the next item, key or value. -/
def tokensBefore : List OpenJson → List JsonToken
  | [] => []
  | .array items :: stack =>
    tokensBefore stack ++ .openArray :: items.reverse.flatMap itemWithComma
  | .object fields :: stack =>
    tokensBefore stack ++ .openObject :: fields.reverse.flatMap fieldWithComma
  | .field fields name :: stack =>
    tokensBefore stack ++
      .openObject :: (fields.reverse.flatMap fieldWithComma ++ [.string name, .colon])

theorem comma_flatMap_itemWithComma (items : List Json) :
    .comma :: items.flatMap itemWithComma = Json.itemTokens items ++ [.comma] := by
  induction items with
  | nil => rfl
  | cons item items ih =>
    rw [List.flatMap_cons, itemWithComma, List.append_assoc, List.singleton_append, ih,
      Json.itemTokens, List.cons_append, List.append_assoc]

theorem comma_flatMap_fieldWithComma (fields : List (Text × Json)) :
    .comma :: fields.flatMap fieldWithComma = Json.fieldTokens fields ++ [.comma] := by
  induction fields with
  | nil => rfl
  | cons f fields ih =>
    rw [List.flatMap_cons, fieldWithComma, List.cons_append, List.cons_append, List.append_assoc,
      List.singleton_append, ih]
    simp only [Json.fieldTokens, List.cons_append, List.append_assoc]

variable {tokens front : List JsonToken} {stack : List OpenJson} {p : JsonProgress}

/-- An array with an item that could go on with a comma can end instead. -/
theorem closeArray_tokens {items : List Json}
    (h : tokens ++ [.comma] = front ++ .openArray :: items.flatMap itemWithComma) :
    tokens ++ [.closeArray] = front ++ (Json.array items).tokens := by
  cases items with
  | nil => cases (List.append_inj' h rfl).2
  | cons item items =>
    have hitems := comma_flatMap_itemWithComma items
    have hcomma : tokens ++ [.comma] =
        front ++ .openArray :: (item.tokens ++ Json.itemTokens items) ++ [.comma] := by
      rw [h, List.flatMap_cons, itemWithComma, List.append_assoc, List.singleton_append, hitems]
      simp only [List.append_assoc, List.cons_append]
    rw [List.append_cancel_right hcomma, Json.tokens]
    simp only [List.append_assoc, List.cons_append]

/-- An object with a field that could go on with a comma can end instead. -/
theorem closeObject_tokens {fields : List (Text × Json)}
    (h : tokens ++ [.comma] = front ++ .openObject :: fields.flatMap fieldWithComma) :
    tokens ++ [.closeObject] = front ++ (Json.object fields).tokens := by
  cases fields with
  | nil => cases (List.append_inj' h rfl).2
  | cons f fields =>
    have hfields := comma_flatMap_fieldWithComma fields
    have hcomma : tokens ++ [.comma] = front ++ .openObject :: .string f.1 :: .colon ::
        (f.2.tokens ++ Json.fieldTokens fields) ++ [.comma] := by
      rw [h, List.flatMap_cons, fieldWithComma, List.cons_append, List.cons_append,
        List.append_assoc, List.singleton_append, hfields]
      simp only [List.append_assoc, List.cons_append]
    rw [List.append_cancel_right hcomma, Json.tokens]
    simp only [List.append_assoc, List.cons_append]

/-! ## States of the reader -/

/-- What is open, with what it holds settled. -/
def OpenJson.settle : OpenJson → OpenJson
  | array items => array (items.map Json.settle)
  | object fields => object (fields.map fun f => (f.1, f.2.settle))
  | field fields name => field (fields.map fun f => (f.1, f.2.settle)) name

/-- A reader that settles nothing is in the state `p` behind these tokens. -/
def ReadsTo (tokens : List JsonToken) : JsonProgress → Prop
  | value stack => tokens = tokensBefore stack
  | firstItem stack => ∃ outer, stack = .array [] :: outer ∧ tokens = tokensBefore stack
  | firstKey stack => ∃ outer, stack = .object [] :: outer ∧ tokens = tokensBefore stack
  | key stack => tokens = tokensBefore stack
  | colon stack => tokens ++ [.colon] = tokensBefore stack
  | next stack => tokens ++ [.comma] = tokensBefore stack
  | complete j => tokens = j.tokens

/-- The state with everything settled. -/
def JsonProgress.settle : JsonProgress → JsonProgress
  | value stack => value (stack.map OpenJson.settle)
  | firstItem stack => firstItem (stack.map OpenJson.settle)
  | firstKey stack => firstKey (stack.map OpenJson.settle)
  | key stack => key (stack.map OpenJson.settle)
  | colon stack => colon (stack.map OpenJson.settle)
  | next stack => next (stack.map OpenJson.settle)
  | complete j => complete j.settle

/-- The reader is in the state `p` behind these tokens, up to what has been settled. -/
def Reads (tokens : List JsonToken) (p : JsonProgress) : Prop :=
  ∃ raw : JsonProgress, raw.settle = p ∧ ReadsTo tokens raw

/-! ## One step -/

theorem deliver_settle (j : Json) (stack : List OpenJson) :
    deliver j.settle (stack.map OpenJson.settle) = (deliver j stack).map JsonProgress.settle := by
  cases stack with
  | nil => rfl
  | cons inner stack => cases inner <;> rfl

/-- A value is handed to what is open around it. -/
theorem readsTo_deliver {j : Json} (h : deliver j stack = some p) :
    ReadsTo (tokensBefore stack ++ j.tokens) p := by
  unfold deliver at h
  split at h
  · cases h
    rfl
  · cases h
    simp [ReadsTo, tokensBefore, itemWithComma]
  · cases h
    simp [ReadsTo, tokensBefore, fieldWithComma]
  · cases h

theorem reads_deliver {j : Json} (h : deliver j.settle (stack.map OpenJson.settle) = some p) :
    Reads (tokensBefore stack ++ j.tokens) p := by
  rw [deliver_settle] at h
  obtain ⟨raw, hraw, rfl⟩ := Option.map_eq_some_iff.1 h
  exact ⟨raw, rfl, readsTo_deliver hraw⟩

theorem eq_of_opened {inner : OpenJson} {progress : List OpenJson → JsonProgress}
    (h : opened stack inner progress = some p) : progress (inner :: stack) = p := by
  unfold opened at h
  split at h
  · exact Option.some.inj h
  · cases h

theorem reads_startValue {token : JsonToken}
    (h : startValue (stack.map OpenJson.settle) token = some p) :
    Reads (tokensBefore stack ++ [token]) p := by
  cases token with
  | null => exact reads_deliver (j := .null) h
  | bool b => exact reads_deliver (j := .bool b) h
  | number n => exact reads_deliver (j := .number n) h
  | string s => exact reads_deliver (j := .string s) h
  | openArray =>
    exact ⟨firstItem (.array [] :: stack), eq_of_opened h, stack, rfl, rfl⟩
  | openObject =>
    exact ⟨firstKey (.object [] :: stack), eq_of_opened h, stack, rfl, rfl⟩
  | closeArray | closeObject | comma | colon => cases h

theorem reads_startField {token : JsonToken}
    (h : startField token (stack.map OpenJson.settle) = some p) :
    Reads (tokensBefore stack ++ [token]) p := by
  cases stack with
  | nil => cases h
  | cons inner stack =>
    cases inner with
    | array items => cases h
    | field fields name => cases h
    | object fields =>
      cases token with
      | string name =>
        refine ⟨colon (.field fields name :: stack), Option.some.inj h, ?_⟩
        simp [ReadsTo, tokensBefore]
      | _ => cases h

/-- What is innermost ends where a comma could stand. -/
theorem reads_close {token : JsonToken} (hcomma : tokens ++ [.comma] = tokensBefore stack)
    (h : close token (stack.map OpenJson.settle) = some p) : Reads (tokens ++ [token]) p := by
  cases stack with
  | nil => cases token <;> cases h
  | cons inner stack =>
    cases inner with
    | field fields name => cases token <;> cases h
    | array items =>
      cases token with
      | closeArray =>
        have hsettle : Json.settle (.array items.reverse) =
            .array (items.map Json.settle).reverse := by
          rw [Json.settle, Json.settleItems_eq_map, List.map_reverse]
        rw [closeArray_tokens hcomma]
        exact reads_deliver (hsettle ▸ h)
      | _ => cases h
    | object fields =>
      cases token with
      | closeObject =>
        have hsettle : Json.settle (.object fields.reverse) =
            .object (distinctEntries (fields.map fun f => (f.1, f.2.settle)).reverse) := by
          rw [Json.settle, Json.settleFields_eq_map, List.map_reverse]
        rw [closeObject_tokens hcomma]
        exact reads_deliver (hsettle ▸ h)
      | _ => cases h

theorem reads_closeEmptyArray (h : close .closeArray (.array [] :: stack.map OpenJson.settle) =
    some p) : Reads (tokensBefore (.array [] :: stack) ++ [.closeArray]) p := by
  have hread : Reads (tokensBefore stack ++ Json.tokens (.array [])) p := reads_deliver h
  simpa [tokensBefore, Json.tokens] using hread

theorem reads_closeEmptyObject (h : close .closeObject (.object [] :: stack.map OpenJson.settle) =
    some p) : Reads (tokensBefore (.object [] :: stack) ++ [.closeObject]) p := by
  have hread : Reads (tokensBefore stack ++ Json.tokens (.object [])) p := reads_deliver h
  simpa [tokensBefore, Json.tokens] using hread

theorem step_next_of_ne {token : JsonToken} (h : token ≠ .comma) (stack : List OpenJson) :
    (next stack).step token = close token stack := by
  cases token with
  | comma => exact absurd rfl h
  | _ => rfl

theorem reads_next {token : JsonToken} (hcomma : tokens ++ [.comma] = tokensBefore stack)
    (h : (next (stack.map OpenJson.settle)).step token = some p) :
    Reads (tokens ++ [token]) p := by
  by_cases htoken : token = .comma
  · subst htoken
    rw [hcomma]
    cases stack with
    | nil => cases h
    | cons inner stack =>
      cases inner with
      | array items => exact ⟨value (.array items :: stack), Option.some.inj h, rfl⟩
      | object fields => exact ⟨key (.object fields :: stack), Option.some.inj h, rfl⟩
      | field fields name => cases h
  · rw [step_next_of_ne htoken] at h
    exact reads_close hcomma h

/-- **One token** is read, and it is one more of those that have been read. -/
theorem Reads.step {token : JsonToken} {p' : JsonProgress} (h : Reads tokens p)
    (hstep : p.step token = some p') : Reads (tokens ++ [token]) p' := by
  obtain ⟨raw, rfl, hraw⟩ := h
  cases raw with
  | value stack =>
    rw [show tokens = tokensBefore stack from hraw]
    exact reads_startValue hstep
  | firstItem stack =>
    obtain ⟨outer, rfl, rfl⟩ := hraw
    change (if token = .closeArray then _ else _) = _ at hstep
    split at hstep
    · rename_i htoken
      subst htoken
      exact reads_closeEmptyArray hstep
    · exact reads_startValue hstep
  | firstKey stack =>
    obtain ⟨outer, rfl, rfl⟩ := hraw
    change (if token = .closeObject then _ else _) = _ at hstep
    split at hstep
    · rename_i htoken
      subst htoken
      exact reads_closeEmptyObject hstep
    · exact reads_startField hstep
  | key stack =>
    rw [show tokens = tokensBefore stack from hraw]
    exact reads_startField hstep
  | colon stack =>
    change (if token = .colon then _ else _) = _ at hstep
    split at hstep
    · rename_i htoken
      subst htoken
      exact ⟨value stack, Option.some.inj hstep, hraw⟩
    · cases hstep
  | next stack => exact reads_next hraw hstep
  | complete j => cases hstep

theorem Reads.run {more : List JsonToken} {p' : JsonProgress} (h : Reads tokens p)
    (hrun : p.run more = some p') : Reads (tokens ++ more) p' := by
  induction more generalizing tokens p with
  | nil =>
    obtain rfl := Option.some.inj hrun
    rwa [List.append_nil]
  | cons token more ih =>
    rw [run_cons] at hrun
    obtain ⟨q, hstep, hrest⟩ := Option.bind_eq_some_iff.1 hrun
    rw [List.append_cons]
    exact ih (h.step hstep) hrest

/-- **What is read is a document of the text, settled.** -/
theorem exists_document_of_parse? {s : Text} {j : Json} (h : Json.parse? s = some j) :
    ∃ document : Json, JsonToken.tokens? s = some document.tokens ∧ document.settle = j := by
  obtain ⟨tokens, htokens, hread⟩ := Option.bind_eq_some_iff.1 h
  obtain ⟨p, hrun, hresult⟩ := Option.bind_eq_some_iff.1 hread
  have hstart : Reads [] (value []) := ⟨value [], rfl, rfl⟩
  obtain ⟨raw, rfl, hraw⟩ := hstart.run hrun
  cases raw with
  | complete document =>
    refine ⟨document, ?_, Option.some.inj hresult⟩
    rw [htokens]
    exact congrArg some hraw
  | _ => cases hresult

end UriTemplate
