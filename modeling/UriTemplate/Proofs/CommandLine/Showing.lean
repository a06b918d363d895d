import UriTemplate.CommandLine
import UriTemplate.Proofs.Context.Documents
import UriTemplate.Proofs.Except
import UriTemplate.Proofs.Template.Rendering
import UriTemplate.Proofs.Template.RoundTrip

/-!
# Showing a template

`parse TEMPLATE` shows a template as JSON. Read as a context, the JSON is the value of the
template, whatever characters its literals hold, and the text of the template can be told from it
(`rebuild?`); so no two templates are shown alike.
-/

namespace UriTemplate
set_option autoImplicit false

/-- The text of the template that is shown as the given JSON text. -/
def rebuild? (output : Text) : Option Text :=
  match parseContext .json output with
  | .ok context => (Template.ofValue? context).map Template.toText
  | .error _ => none

theorem isBlank_pretty_toJson (t : Template) : t.toJson.pretty.isBlank = false := rfl

theorem parseContext_pretty_toJson {t : Template} (h : t.WellFormed) :
    parseContext .json t.toJson.pretty = .ok t.toValue := by
  have hparse := Json.parse?_pretty t.plain_toJson
  have hvalue := Template.toValue_toJson h
  rw [parseContext_json (isBlank_pretty_toJson t) hparse]
  exact congrArg Except.ok hvalue

theorem rebuild?_pretty_toJson {source : Text} {t : Template}
    (h : Template.parse source = .ok t) : rebuild? t.toJson.pretty = some source := by
  obtain ⟨htext, hnormal⟩ := isNormal_of_parse h
  unfold rebuild?
  rw [parseContext_pretty_toJson hnormal.wellFormed]
  simp only
  rw [Template.ofValue?_toValue hnormal.wellFormed, Option.map_some, htext]

theorem run_parse_eq_ok_iff {fileBytes? : Text → Option ByteArray} {source output : Text} :
    (Command.parse source).run fileBytes? = .ok output ↔
      ∃ t, Template.parse source = .ok t ∧ t.toJson.pretty = output := by
  show ((Template.parse source).mapError CommandFailure.malformed).bind _ = _ ↔ _
  rw [bind_eq_ok_iff]
  constructor
  · rintro ⟨t, hparse, houtput⟩
    exact ⟨t, mapError_eq_ok_iff.1 hparse, Except.ok.inj houtput⟩
  · rintro ⟨t, hparse, rfl⟩
    exact ⟨t, mapError_eq_ok_iff.2 hparse, rfl⟩

/-- **What is shown is faithful**: a template that can be read is shown as a JSON text that is read
as the value of the template, and from which its text is rebuilt; no other text is shown alike. -/
theorem run_parse_faithful (fileBytes? : Text → Option ByteArray) {source : Text} {t : Template}
    (h : Template.parse source = .ok t) :
    ∃ output, (Command.parse source).run fileBytes? = .ok output ∧
      parseContext .json output = .ok t.toValue ∧ rebuild? output = some source ∧
      ∀ source', (Command.parse source').run fileBytes? = .ok output → source' = source := by
  have hwf := (isNormal_of_parse h).2.wellFormed
  have hrebuild := rebuild?_pretty_toJson h
  refine ⟨t.toJson.pretty, ?_, parseContext_pretty_toJson hwf, hrebuild, ?_⟩
  · exact run_parse_eq_ok_iff.2 ⟨t, h, rfl⟩
  · intro source' hrun
    obtain ⟨t', hparse, houtput⟩ := run_parse_eq_ok_iff.1 hrun
    have hrebuild' := rebuild?_pretty_toJson hparse
    rw [houtput, hrebuild] at hrebuild'
    exact (Option.some.inj hrebuild').symm

/-- A quote, a backslash, a new line, a control character, a separator of lines and a character
beyond sixteen bits, in front of an expression with both modifiers. -/
theorem run_parse_sample :
    let literal : Text :=
      ['"', '\\', '\n', Char.ofNat 1, Char.ofNat 0x2028, Char.ofNat 0x1D11E]
    let source := literal ++ "{?x:9999,y*,z}".toList
    ∃ output, (Command.parse source).run (fun _ => none) = .ok output ∧
      parseContext .json output = .ok (.map [("sections".toList, .list [
        .map [("kind".toList, .ofText "literal".toList), ("value".toList, .ofText literal)],
        .map [("kind".toList, .ofText "expression".toList), ("value".toList, .map [
          ("operator".toList, .ofText "question".toList),
          ("var_specs".toList, .list [
            .map [("name".toList, .ofText ['x']),
              ("modifier".toList, .map [("prefix".toList, .scalar (.int 9999))])],
            .map [("name".toList, .ofText ['y']), ("modifier".toList, .ofText "explode".toList)],
            .map [("name".toList, .ofText ['z']), ("modifier".toList, .null)]])])]])]) ∧
      rebuild? output = some source := by
  intro literal source
  have hparse : Template.parse source = .ok ⟨[.literal literal, .expression ⟨.query,
      [⟨['x'], some (.maxLength 9999)⟩, ⟨['y'], some .explode⟩, ⟨['z'], none⟩]⟩]⟩ := by
    decide +kernel
  obtain ⟨output, hrun, hcontext, hrebuild, -⟩ := run_parse_faithful (fun _ => none) hparse
  exact ⟨output, hrun, hcontext, hrebuild⟩

end UriTemplate
