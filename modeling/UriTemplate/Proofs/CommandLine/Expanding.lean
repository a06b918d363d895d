import Mathlib.Data.List.Basic
import UriTemplate.Proofs.CommandLine.Assignments
import UriTemplate.Proofs.Context.Documents
import UriTemplate.Proofs.Except
import UriTemplate.Proofs.Expansion.Agreement

/-!
# Expanding from the command line

The command passes four stages: the template is read, then the context file, then the assignments,
and then the template is expanded; the first stage that fails gives the failure. Behind the first
three, all that counts is what assignments and context file together ask for each name that the
template mentions (`requested?`): every context that gives these values gives the result
(`run_expand_by_stages`). Hence the changes to a command line that ask for the same make no
difference; `NeedlessChange` lists them.
-/

namespace UriTemplate
set_option autoImplicit false
open Template

/-- Whether a template has a variable with a name. -/
def Template.Mentions (t : Template) (name : Text) : Prop := ∃ spec ∈ t.varSpecs, spec.name = name

/-- The context in front of assignments: that of the context file, and without one the empty
context. -/
def readContext (fileBytes? : Text → Option ByteArray) (file : Option Text) :
    Except CommandFailure Value :=
  file.elim (.ok emptyContext) (loadContext fileBytes?)

/-- The value that a name is to have: the text of its last assignment, if there is one, and its
value in the context file otherwise. -/
def requested? (assignments : List Text) (entries : List (Text × Value)) (name : Text) :
    Option Value :=
  ((assigned? assignments name).map Value.ofText).or ((Value.map entries).lookup? name)

/-- Changes to the assignments and to the entries of the context file that are of no account to a
template. -/
inductive NeedlessChange (t : Template) :
    List Text → List (Text × Value) → List Text → List (Text × Value) → Prop
  /-- Assignments change places, but not those to the same name. -/
  | reorder {assignments assignments' : List Text} {entries : List (Text × Value)} :
    (∀ name, (assignments'.filter fun text => assignmentName text = name) =
      assignments.filter fun text => assignmentName text = name) →
    NeedlessChange t assignments entries assignments' entries
  /-- An assignment goes that is followed by another one to the same name. -/
  | dropRepeated {front middle back : List Text} {text later : Text}
    {entries : List (Text × Value)} : assignmentName text = assignmentName later →
    NeedlessChange t (front ++ text :: (middle ++ later :: back)) entries
      (front ++ (middle ++ later :: back)) entries
  /-- Entries go whose names are assigned. -/
  | dropOverridden {assignments : List Text} {entries : List (Text × Value)}
    {keep : Text × Value → Bool} :
    (∀ e ∈ entries, keep e = false → ∃ text ∈ assignments, assignmentName text = e.1) →
    NeedlessChange t assignments entries assignments (entries.filter keep)
  /-- Assignments come to names that the template does not mention. -/
  | addAssignments {front added back : List Text} {entries : List (Text × Value)} :
    (∀ text ∈ added, IsAssignment text ∧ ¬t.Mentions (assignmentName text)) →
    NeedlessChange t (front ++ back) entries (front ++ added ++ back) entries
  /-- Entries come whose names the template does not mention. -/
  | addEntries {assignments : List Text} {entries : List (Text × Value)}
    {keep : Text × Value → Bool} : (∀ e ∈ entries, keep e = false → ¬t.Mentions e.1) →
    NeedlessChange t assignments (entries.filter keep) assignments entries

/-! ## What is requested -/

theorem assigned?_append (assignments assignments' : List Text) (name : Text) :
    assigned? (assignments ++ assignments') name =
      (assigned? assignments' name).or (assigned? assignments name) := by
  unfold assigned?
  rw [List.filter_append, List.getLast?_append, Option.map_or]

theorem assigned?_eq_none_iff {assignments : List Text} {name : Text} :
    assigned? assignments name = none ↔ ∀ text ∈ assignments, assignmentName text ≠ name := by
  unfold assigned?
  rw [Option.map_eq_none_iff, List.getLast?_eq_none_iff, List.filter_eq_nil_iff]
  simp

section Change

variable {t : Template} {assignments assignments' : List Text}
  {entries entries' : List (Text × Value)}

/-- A needless change leaves assignments assignments. -/
theorem NeedlessChange.isAssignment (h : NeedlessChange t assignments entries assignments' entries')
    (hgood : ∀ text ∈ assignments, IsAssignment text) :
    ∀ text ∈ assignments', IsAssignment text := by
  intro text htext
  cases h with
  | reorder hsame =>
    have hmem :
        text ∈ assignments'.filter fun text' => assignmentName text' = assignmentName text :=
      List.mem_filter.2 ⟨htext, by simp⟩
    rw [hsame] at hmem
    exact hgood text (List.mem_filter.1 hmem).1
  | dropRepeated hname =>
    refine hgood text ?_
    rcases List.mem_append.1 htext with htext | htext
    · exact List.mem_append_left _ htext
    · exact List.mem_append_right _ (List.mem_cons_of_mem _ htext)
  | dropOverridden => exact hgood text htext
  | addAssignments hadded =>
    rcases List.mem_append.1 htext with htext | htext
    · rcases List.mem_append.1 htext with htext | htext
      · exact hgood text (List.mem_append_left _ htext)
      · exact (hadded text htext).1
    · exact hgood text (List.mem_append_right _ htext)
  | addEntries => exact hgood text htext

/-- A needless change leaves what is requested for the names of the template. -/
theorem NeedlessChange.requested?_eq
    (h : NeedlessChange t assignments entries assignments' entries') {name : Text}
    (hname : t.Mentions name) :
    requested? assignments' entries' name = requested? assignments entries name := by
  unfold requested?
  cases h with
  | reorder hsame =>
    unfold assigned?
    rw [hsame]
  | @dropRepeated front middle back text later _ hrepeated =>
    have hassigned : assigned? (text :: (middle ++ later :: back)) name =
        assigned? (middle ++ later :: back) name := by
      have hcons := assigned?_append [text] (middle ++ later :: back) name
      rw [List.singleton_append] at hcons
      rw [hcons]
      cases hlater : assigned? (middle ++ later :: back) name with
      | some value => rfl
      | none =>
        -- the later text would be found if the dropped one had the name
        have hne : assignmentName later ≠ name :=
          assigned?_eq_none_iff.1 hlater later (by simp)
        rw [Option.none_or, assigned?_eq_none_iff]
        intro text' htext'
        rw [List.mem_singleton.1 htext', hrepeated]
        exact hne
    rw [assigned?_append front, assigned?_append front, hassigned]
  | dropOverridden hdropped =>
    cases hassigned : assigned? assignments name with
    | some value => rfl
    | none =>
      rw [lookup?_filter]
      intro e he hkey
      refine Bool.of_not_eq_false fun hkeep => ?_
      obtain ⟨text, htext, hsame⟩ := hdropped e he hkeep
      exact assigned?_eq_none_iff.1 hassigned text htext (hsame.trans hkey)
  | @addAssignments front added back _ hadded =>
    have hnone : assigned? added name = none := by
      rw [assigned?_eq_none_iff]
      intro text htext hsame
      exact (hadded text htext).2 (hsame ▸ hname)
    rw [List.append_assoc, assigned?_append, assigned?_append, assigned?_append, hnone,
      Option.or_none]
  | addEntries hadded =>
    rw [lookup?_filter]
    intro e he hkey
    exact Bool.of_not_eq_false fun hkeep => hadded e he hkeep (hkey ▸ hname)

end Change

/-! ## The stages -/

theorem exists_entries_of_readContext {fileBytes? : Text → Option ByteArray} {file : Option Text}
    {context : Value} (h : readContext fileBytes? file = .ok context) :
    ∃ entries, context = .map entries := by
  cases file with
  | none =>
    cases h
    exact ⟨[], rfl⟩
  | some path =>
    have hload : loadContext fileBytes? path = .ok context := h
    unfold loadContext at hload
    split at hload
    · cases hload
    · exact exists_entries_of_parseContext (mapError_eq_ok_iff.1 hload)

theorem resolve_of_lookup? {context context' : Value} {name : Text}
    (h : context.lookup? name = context'.lookup? name) :
    context.resolve name = context'.resolve name := by
  unfold Value.resolve
  rw [h]

section Stages

variable {fileBytes? fileBytes?' : Text → Option ByteArray} {source : Text}
  {file file' : Option Text} {assignments assignments' : List Text} {t : Template}
  {entries entries' : List (Text × Value)}

theorem run_expand_eq : (Command.expand source file assignments).run fileBytes? =
    ((parse source).mapError .malformed).bind fun t =>
      (readContext fileBytes? file).bind fun context =>
        ((parseAssignments assignments).mapError .badAssignment).bind fun overrides =>
          (t.expand (applyOverrides context overrides)).mapError .unsupported := rfl

theorem run_of_parse_error {e : SyntaxError} (h : parse source = .error e) :
    (Command.expand source file assignments).run fileBytes? = .error (.malformed e) := by
  rw [run_expand_eq, h]
  rfl

theorem run_of_context_error {failure : CommandFailure} (hparse : parse source = .ok t)
    (h : readContext fileBytes? file = .error failure) :
    (Command.expand source file assignments).run fileBytes? = .error failure := by
  rw [run_expand_eq, hparse, h]
  rfl

theorem run_of_bad_assignment {front back : List Text} {bad : Text} (hparse : parse source = .ok t)
    (hcontext : readContext fileBytes? file = .ok (.map entries))
    (hfront : ∀ text ∈ front, IsAssignment text) (hbad : ¬IsAssignment bad) :
    (Command.expand source file (front ++ bad :: back)).run fileBytes? =
      .error (.badAssignment ⟨bad⟩) := by
  rw [run_expand_eq, hparse, hcontext, parseAssignments_of_bad hfront hbad]
  rfl

/-- Behind the first three stages, the names of the template decide. -/
theorem run_of_requested {context : Value} (hparse : parse source = .ok t)
    (hcontext : readContext fileBytes? file = .ok (.map entries))
    (hgood : ∀ text ∈ assignments, IsAssignment text)
    (h : ∀ name, t.Mentions name → context.lookup? name = requested? assignments entries name) :
    (Command.expand source file assignments).run fileBytes? =
      (t.expand context).mapError .unsupported := by
  have hagree : AgreeOn (applyOverrides (.map entries)
      (assignments.map fun text => (assignmentName text, assignmentValue text))) context
      t.varSpecs := by
    intro spec hspec
    apply resolve_of_lookup?
    rw [lookup?_applyOverrides, lastValue?_assignments, h spec.name ⟨spec, hspec, rfl⟩]
    rfl
  rw [run_expand_eq, hparse, hcontext, parseAssignments_of_forall hgood, ← expand_congr hagree]
  rfl

/-- Two command lines that request the same for the names of the template have the same result:
both have that of the context which the overrides of one of them make. -/
theorem run_eq_of_requested?_eq (hparse : parse source = .ok t)
    (hcontext : readContext fileBytes? file = .ok (.map entries))
    (hcontext' : readContext fileBytes?' file' = .ok (.map entries'))
    (hgood : ∀ text ∈ assignments, IsAssignment text)
    (hgood' : ∀ text ∈ assignments', IsAssignment text)
    (h : ∀ name, t.Mentions name →
      requested? assignments' entries' name = requested? assignments entries name) :
    (Command.expand source file' assignments').run fileBytes?' =
      (Command.expand source file assignments).run fileBytes? := by
  have hlookup : ∀ name, (applyOverrides (.map entries)
      (assignments.map fun text => (assignmentName text, assignmentValue text))).lookup? name =
        requested? assignments entries name := by
    intro name
    rw [lookup?_applyOverrides, lastValue?_assignments]
    rfl
  have hlookup' : ∀ name, t.Mentions name → (applyOverrides (.map entries)
      (assignments.map fun text => (assignmentName text, assignmentValue text))).lookup? name =
        requested? assignments' entries' name := by
    intro name hname
    rw [hlookup name, h name hname]
  rw [run_of_requested hparse hcontext hgood fun name _ => hlookup name,
    run_of_requested hparse hcontext' hgood' hlookup']

end Stages

/-! ## Main statement -/

/-- **Expanding from the command line.** The first of the stages that fails gives the failure: the
template, the context file, the leftmost text that assigns nothing, the expansion. If the first
three succeed, the result is the expansion in any context that gives the names of the template what
is requested for them, and a needless change of assignments and context file leaves it alone. -/
theorem run_expand_by_stages (fileBytes? : Text → Option ByteArray) (source : Text)
    (file : Option Text) (assignments : List Text) :
    (∀ e, parse source = .error e →
      (Command.expand source file assignments).run fileBytes? = .error (.malformed e)) ∧
    ∀ t, parse source = .ok t →
      (∀ failure, readContext fileBytes? file = .error failure →
        (Command.expand source file assignments).run fileBytes? = .error failure) ∧
      ∀ context, readContext fileBytes? file = .ok context → ∃ entries, context = .map entries ∧
        (∀ front bad back, assignments = front ++ bad :: back →
          (∀ text ∈ front, IsAssignment text) → ¬IsAssignment bad →
          (Command.expand source file assignments).run fileBytes? =
            .error (.badAssignment ⟨bad⟩)) ∧
        ((∀ text ∈ assignments, IsAssignment text) →
          (∀ context' : Value, (∀ name, t.Mentions name →
              context'.lookup? name = requested? assignments entries name) →
            (Command.expand source file assignments).run fileBytes? =
              (t.expand context').mapError .unsupported) ∧
          ∀ assignments' entries', NeedlessChange t assignments entries assignments' entries' →
            ∀ fileBytes?' file', readContext fileBytes?' file' = .ok (.map entries') →
              (Command.expand source file' assignments').run fileBytes?' =
                (Command.expand source file assignments).run fileBytes?) := by
  refine ⟨fun e h => run_of_parse_error h, fun t hparse =>
    ⟨fun failure h => run_of_context_error hparse h, fun context hcontext => ?_⟩⟩
  obtain ⟨entries, rfl⟩ := exists_entries_of_readContext hcontext
  refine ⟨entries, rfl, ?_, fun hgood => ⟨fun context' h => ?_, ?_⟩⟩
  · rintro front bad back rfl hfront hbad
    exact run_of_bad_assignment hparse hcontext hfront hbad
  · exact run_of_requested hparse hcontext hgood h
  · intro assignments' entries' hchange fileBytes?' file' hcontext'
    exact run_eq_of_requested?_eq hparse hcontext hcontext' hgood (hchange.isAssignment hgood)
      fun name hname => hchange.requested?_eq hname

/-- A name with a value in the file that is assigned twice, with an equals sign in the value, and a
name that only the file has; then a text that assigns nothing, a file that cannot be read, and a
text that is no template, each in front of the faults of later stages. -/
theorem run_expand_sample :
    let fileBytes? : Text → Option ByteArray := fun path =>
      if path = "c.json".toList then some "\x7b\"x\":\"1\",\"y\":\"2\"\x7d".toUTF8 else none
    let run := fun source file assignments =>
      (Command.expand source (some file) assignments).run fileBytes?
    run "{x}{?y}".toList "c.json".toList ["x=a".toList, "x=b=c".toList] =
        .ok "b%3Dc?y=2".toList ∧
      run "{x}{?y}".toList "c.json".toList ["x=b=c".toList] = .ok "b%3Dc?y=2".toList ∧
      run "{x}{?y}".toList "c.json".toList ["x=a".toList, "=b".toList, "c".toList] =
        .error (.badAssignment ⟨"=b".toList⟩) ∧
      run "{x}{?y}".toList "d.json".toList ["=b".toList] = .error (.unreadable "d.json".toList) ∧
      run "\x7bx".toList "d.json".toList ["=b".toList] =
        .error (.malformed ⟨0, .unterminatedExpression⟩) := by
  intro fileBytes? run
  let t : Template := ⟨[.expression ⟨.simple, [.plain "x".toList]⟩,
    .expression ⟨.query, [.plain "y".toList]⟩]⟩
  let entries : List (Text × Value) := [("x".toList, .ofText "1".toList),
    ("y".toList, .ofText "2".toList)]
  have hparse : parse "{x}{?y}".toList = .ok t := by decide +kernel
  have hmalformed : parse "\x7bx".toList = .error ⟨0, .unterminatedExpression⟩ := by decide +kernel
  have hcontext : readContext fileBytes? (some "c.json".toList) = .ok (.map entries) := by
    have hdecode : (fileBytes? "c.json".toList).bind decodeFile? =
        some "\x7b\"x\":\"1\",\"y\":\"2\"\x7d".toList := by decide +kernel
    have hformat : ContextFormat.ofPath "c.json".toList = .json := by decide +kernel
    have hdocument : Json.parse? "\x7b\"x\":\"1\",\"y\":\"2\"\x7d".toList = some (.object
        [("x".toList, .string "1".toList), ("y".toList, .string "2".toList)]) := rfl
    show loadContext fileBytes? "c.json".toList = _
    unfold loadContext
    rw [hdecode, hformat]
    simp only
    rw [parseContext_json (by decide +kernel) hdocument]
    rfl
  have hunreadable : readContext fileBytes? (some "d.json".toList) =
      .error (.unreadable "d.json".toList) := rfl
  -- a context that is not the one that is built, but gives both names what is requested
  let record : Value := .record [] fun name =>
    if name = "x".toList then some (.ofText "b=c".toList) else some (.ofText "2".toList)
  have hrequested : ∀ name, t.Mentions name → record.lookup? name =
      requested? ["x=a".toList, "x=b=c".toList] entries name := by
    rintro name ⟨spec, hspec, rfl⟩
    have hspec : spec ∈ [VarSpec.plain "x".toList, VarSpec.plain "y".toList] := hspec
    simp only [List.mem_cons, List.not_mem_nil, or_false] at hspec
    rcases hspec with rfl | rfl <;> rfl
  have hexpand : t.expand record = .ok "b%3Dc?y=2".toList := rfl
  have hgood : ∀ text ∈ ["x=a".toList, "x=b=c".toList], IsAssignment text := by decide
  obtain ⟨-, hstages⟩ := run_expand_by_stages fileBytes? "{x}{?y}".toList
    (some "c.json".toList) ["x=a".toList, "x=b=c".toList]
  obtain ⟨-, hread⟩ := hstages t hparse
  obtain ⟨entries', heq, -, hresult⟩ := hread _ hcontext
  cases heq
  obtain ⟨hcontexts, hneedless⟩ := hresult hgood
  have hrun := hcontexts record hrequested
  rw [hexpand] at hrun
  refine ⟨hrun, ?_, ?_, ?_, ?_⟩
  · have hdrop : NeedlessChange t ["x=a".toList, "x=b=c".toList] entries ["x=b=c".toList] entries :=
      @NeedlessChange.dropRepeated t [] [] [] "x=a".toList "x=b=c".toList entries rfl
    exact (hneedless _ _ hdrop fileBytes? (some "c.json".toList) hcontext).trans hrun
  · obtain ⟨-, hstages⟩ := run_expand_by_stages fileBytes? "{x}{?y}".toList
      (some "c.json".toList) ["x=a".toList, "=b".toList, "c".toList]
    obtain ⟨_, -, hbad, -⟩ := (hstages t hparse).2 _ hcontext
    exact hbad ["x=a".toList] "=b".toList ["c".toList] rfl (by decide) (by decide)
  · obtain ⟨-, hstages⟩ := run_expand_by_stages fileBytes? "{x}{?y}".toList
      (some "d.json".toList) ["=b".toList]
    exact (hstages t hparse).1 _ hunreadable
  · exact (run_expand_by_stages fileBytes? "\x7bx".toList (some "d.json".toList) ["=b".toList]).1 _
      hmalformed

end UriTemplate
