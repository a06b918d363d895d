import UriTemplate.Context

/-!
# Contexts that are read

What `parseContext` answers, by what the text is: a context that is read is always a map, and the
map of a JSON object is the object field by field.
-/

namespace UriTemplate
set_option autoImplicit false

/-- A context that is read is a map. -/
theorem exists_entries_of_parseContext {format : ContextFormat} {text : Text} {context : Value}
    (h : parseContext format text = .ok context) : ∃ entries, context = .map entries := by
  unfold parseContext at h
  split at h
  · cases h
    exact ⟨[], rfl⟩
  split at h
  · cases h
  · cases h
    exact ⟨[], rfl⟩
  · rename_i fields _
    cases h
    exact ⟨Json.toEntries fields, rfl⟩
  · cases h

theorem parseContext_object {format : ContextFormat} {text : Text} {fields : List (Text × Json)}
    (hblank : text.isBlank = false) (h : readDocument format text = .ok (.object fields)) :
    parseContext format text = .ok (.map (Json.toEntries fields)) := by
  unfold parseContext
  rw [hblank, h]
  rfl

theorem parseContext_json {text : Text} {fields : List (Text × Json)}
    (hblank : text.isBlank = false) (h : Json.parse? text = some (.object fields)) :
    parseContext .json text = .ok (.map (Json.toEntries fields)) := by
  apply parseContext_object hblank
  show (Json.parse? text).elim _ _ = _
  rw [h]
  rfl

theorem parseContext_yaml {text : Text} {fields : List (Text × Json)}
    (hblank : text.isBlank = false) (h : Yaml.parse? text = some (.object fields)) :
    parseContext .yaml text = .ok (.map (Json.toEntries fields)) := by
  apply parseContext_object hblank
  show (Yaml.parse? text).elim _ _ = _
  rw [h]
  rfl

end UriTemplate
