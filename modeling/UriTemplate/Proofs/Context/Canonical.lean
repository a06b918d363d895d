import UriTemplate.Proofs.Context.Documents
import UriTemplate.Proofs.Context.Overlay
import UriTemplate.Proofs.Json.Documents
import UriTemplate.Proofs.Json.Finiteness
import UriTemplate.Proofs.Yaml.Documents

/-!
# Contexts that are read are canonical

A text of either format writes entries, perhaps with repeated keys, and perhaps with repeated keys
in the maps inside them. The context that is read of it has each key once at every depth, at its
first place and with its last value, and overrides are entries that are written behind those of the
text: they are settled with them.
-/

namespace UriTemplate
set_option autoImplicit false

/-- The document that a text of a format writes, with all fields of its objects in the order of the
text: it has the tokens of a JSON text, and stands for the tree of a YAML text. -/
inductive Document : ContextFormat → Text → Json → Prop
  | json {text : Text} {j : Json} : JsonToken.tokens? text = some j.tokens → Document .json text j
  | yaml {text : Text} {root : Yaml.Node} {j : Json} : root.IsTreeOf text →
      root.Denotes root.targets j → Document .yaml text j

/-- The entries that a text writes at its top level, repeated keys included; each value is what is
meant by what is written there. -/
def WritesEntries (format : ContextFormat) (text : Text) (written : List (Text × Value)) : Prop :=
  ((text.isBlank = true ∨ Document format text .null) ∧ written = []) ∨
  ∃ fields, Document format text (.object fields) ∧ FieldsMean fields written

variable {format : ContextFormat} {text : Text} {context : Value}

/-- What is read is the document of the text, settled, and its numbers are finite. -/
theorem exists_document_of_readDocument {j : Json} (h : readDocument format text = .ok j) :
    ∃ document : Json, Document format text document ∧ document.Finite ∧ document.settle = j := by
  cases format with
  | json =>
    change (Json.parse? text).elim _ _ = _ at h
    cases hparse : Json.parse? text with
    | none =>
      rw [hparse] at h
      cases h
    | some found =>
      rw [hparse] at h
      cases h
      obtain ⟨document, htokens, hsettle⟩ := exists_document_of_parse? hparse
      exact ⟨document, .json htokens, finite_of_tokens? htokens, hsettle⟩
  | yaml =>
    change (Yaml.parse? text).elim _ _ = _ at h
    cases hparse : Yaml.parse? text with
    | none =>
      rw [hparse] at h
      cases h
    | some found =>
      rw [hparse] at h
      cases h
      obtain ⟨root, document, hroot, hdenotes, hsettle⟩ := Yaml.exists_document_of_parse? hparse
      exact ⟨document, .yaml hroot hdenotes, hdenotes.finite, hsettle⟩

/-- The entries of a context that is read are those of the text, settled. -/
theorem exists_written_of_parseContext (h : parseContext format text = .ok context) :
    ∃ written entries, context = .map entries ∧ WritesEntries format text written ∧
      Settles written entries ∧ ∀ e ∈ written, e.2.Canonical := by
  unfold parseContext at h
  split at h
  · rename_i hblank
    cases h
    exact ⟨[], [], rfl, .inl ⟨.inl hblank, rfl⟩, settles_nil, List.forall_mem_nil _⟩
  cases hread : readDocument format text with
  | error e =>
    rw [hread] at h
    cases h
  | ok j =>
    rw [hread] at h
    obtain ⟨document, hdocument, hfinite, hsettle⟩ := exists_document_of_readDocument hread
    have hmeans := means_settle document
    rw [hsettle] at hmeans
    cases j with
    | null =>
      cases h
      cases hmeans
      exact ⟨[], [], rfl, .inl ⟨.inr hdocument, rfl⟩, settles_nil, List.forall_mem_nil _⟩
    | object fields =>
      cases h
      cases hmeans with
      | object hfields hsettles =>
        cases hfinite with
        | object hfinite =>
          exact ⟨_, _, rfl, .inr ⟨_, hdocument, hfields⟩, hsettles, hfields.canonical hfinite⟩
    | bool | number | string | array => cases h

/-! ## Overrides -/

/-- The entries that overrides write. -/
def overrideEntries (overrides : List (Text × Text)) : List (Text × Value) :=
  overrides.map fun o => (o.1, .ofText o.2)

theorem canonical_overrideEntries (overrides : List (Text × Text)) :
    ∀ e ∈ overrideEntries overrides, e.2.Canonical := by
  intro e he
  obtain ⟨o, -, rfl⟩ := List.mem_map.1 he
  exact .string o.2

theorem foldl_applyOverrides_batches (entries : List (Text × Value))
    (batches : List (List (Text × Text))) :
    batches.foldl applyOverrides (.map entries) = applyOverrides (.map entries) batches.flatten := by
  induction batches generalizing entries with
  | nil => rfl
  | cons batch batches ih =>
    rw [List.foldl_cons, applyOverrides_eq, ih, ← applyOverrides_eq, applyOverrides_append,
      List.flatten_cons]

/-- Overrides are settled with the entries in front of them. -/
theorem settles_applyOverrides {written entries : List (Text × Value)}
    (h : Settles written entries) (overrides : List (Text × Text)) :
    ∃ entries', applyOverrides (.map entries) overrides = .map entries' ∧
      Settles (written ++ overrideEntries overrides) entries' :=
  ⟨_, applyOverrides_eq _ _, h.putEntries _⟩

/-! ## Main statement -/

/-- **A context that is read is canonical**, and stays so with overrides. It is a map that at every
depth has distinct keys, in the order of their first occurrence in the text and each with the value
of its last; overrides that follow, in any number of batches, count as entries written behind those
of the text. -/
theorem parseContext_canonical (h : parseContext format text = .ok context) :
    ∃ written, WritesEntries format text written ∧
      (∃ entries, context = .map entries ∧ context.Canonical ∧ Settles written entries) ∧
      ∀ batches : List (List (Text × Text)), ∃ entries,
        batches.foldl applyOverrides context = .map entries ∧
        (Value.map entries).Canonical ∧
        Settles (written ++ overrideEntries batches.flatten) entries := by
  obtain ⟨written, entries, rfl, hwritten, hsettles, hcanonical⟩ := exists_written_of_parseContext h
  refine ⟨written, hwritten, ⟨entries, rfl, hsettles.canonical hcanonical, hsettles⟩,
    fun batches => ?_⟩
  obtain ⟨entries', hentries', hsettles'⟩ := settles_applyOverrides hsettles batches.flatten
  refine ⟨entries', (foldl_applyOverrides_batches entries batches).trans hentries',
    hsettles'.canonical ?_, hsettles'⟩
  exact List.forall_mem_append.2 ⟨hcanonical, canonical_overrideEntries _⟩

/-! ## Repeated keys in both formats -/

/-- A text with keys that are repeated at two depths, and with a number that no word with a sign can
hold. -/
def repeatedKeysJson : Text :=
  "\x7b\"b\":true,\"a\":\x7b\"k\":1,\"l\":[18446744073709551615],\"k\":\"é\"\x7d,\"b\":\"x\"\x7d".toList

/-- The same entries in the other format. -/
def repeatedKeysYaml : Text :=
  "b: true\na: \x7bk: 1, l: [18446744073709551615], k: é\x7d\nb: x\n".toList

/-- The map inside, with the key that is repeated at its first place. -/
def innerValue : Value :=
  .map [("k".toList, .ofText "é".toList),
    ("l".toList, .list [.scalar (.uint 18446744073709551615)])]

/-- The entries of both texts, settled. -/
def settledEntries : List (Text × Value) :=
  [("b".toList, .ofText "x".toList), ("a".toList, innerValue)]

/-- The document of both texts, settled. -/
def settledFields : List (Text × Json) :=
  [("b".toList, .string "x".toList), ("a".toList, .object [("k".toList, .string "é".toList),
    ("l".toList, .array [.number (.natural 18446744073709551615)])])]

theorem parseContext_repeatedKeysJson :
    parseContext .json repeatedKeysJson = .ok (.map settledEntries) := by
  have htokens : JsonToken.tokens? repeatedKeysJson =
      some [.openObject, .string "b".toList, .colon, .bool true, .comma, .string "a".toList, .colon,
        .openObject, .string "k".toList, .colon, .number (.natural 1), .comma, .string "l".toList,
        .colon, .openArray, .number (.natural 18446744073709551615), .closeArray, .comma,
        .string "k".toList, .colon, .string "é".toList, .closeObject, .comma, .string "b".toList,
        .colon, .string "x".toList, .closeObject] := by
    decide +kernel
  have hparse : Json.parse? repeatedKeysJson = some (.object settledFields) := by
    unfold Json.parse?
    rw [htokens]
    rfl
  exact parseContext_json (by decide +kernel) hparse

theorem parseContext_repeatedKeysYaml :
    parseContext .yaml repeatedKeysYaml = .ok (.map settledEntries) := by
  have htokens : Yaml.tokens? repeatedKeysYaml =
      some [.blockMappingStart, .key, .scalar "b".toList true, .value, .scalar "true".toList true,
        .key, .scalar "a".toList true, .value, .flowMappingStart, .key, .scalar "k".toList true,
        .value, .scalar "1".toList true, .flowEntry, .key, .scalar "l".toList true, .value,
        .flowSequenceStart, .scalar "18446744073709551615".toList true, .flowSequenceEnd,
        .flowEntry, .key, .scalar "k".toList true, .value, .scalar "é".toList true,
        .flowMappingEnd, .key, .scalar "b".toList true, .value, .scalar "x".toList true, .blockEnd,
        .streamEnd] := by
    decide +kernel
  have hparse : Yaml.parse? repeatedKeysYaml = some (.object settledFields) := by
    unfold Yaml.parse? Yaml.Node.parse?
    rw [htokens]
    rfl
  exact parseContext_yaml (by decide +kernel) hparse

/-- Texts of both formats with repeated keys are read as the context of the entries that are left;
overrides of a new key and of one that is there are settled with what the text writes. -/
theorem canonical_repeated_keys :
    let batches : List (List (Text × Text)) :=
      [[("c".toList, "1".toList)], [("b".toList, "2".toList)]]
    let overridden : List (Text × Value) := [("b".toList, .ofText "2".toList),
      ("a".toList, innerValue), ("c".toList, .ofText "1".toList)]
    parseContext .json repeatedKeysJson = .ok (.map settledEntries) ∧
      parseContext .yaml repeatedKeysYaml = .ok (.map settledEntries) ∧
      batches.foldl applyOverrides (.map settledEntries) = .map overridden ∧
      (∃ written, WritesEntries .json repeatedKeysJson written ∧
        (Value.map settledEntries).Canonical ∧ Settles written settledEntries) ∧
      ∃ written, WritesEntries .yaml repeatedKeysYaml written ∧ (Value.map overridden).Canonical ∧
        Settles (written ++ overrideEntries batches.flatten) overridden := by
  intro batches overridden
  have hjson := parseContext_repeatedKeysJson
  have hyaml := parseContext_repeatedKeysYaml
  have hoverridden : batches.foldl applyOverrides (.map settledEntries) = .map overridden := rfl
  obtain ⟨written, hwritten, ⟨_, hentries, hcanonical, hsettles⟩, -⟩ := parseContext_canonical hjson
  obtain ⟨written', hwritten', -, hoverrides⟩ := parseContext_canonical hyaml
  obtain ⟨_, hbatches, hcanonical', hsettles'⟩ := hoverrides batches
  cases hentries
  cases hoverridden.symm.trans hbatches
  exact ⟨hjson, hyaml, hoverridden, ⟨written, hwritten, hcanonical, hsettles⟩,
    written', hwritten', hcanonical', hsettles'⟩

end UriTemplate
