import Mathlib.Data.List.Basic
import UriTemplate.Proofs.Expansion.Pieces
import UriTemplate.Proofs.Percent.Encoding

/-!
# Expansion as a stream

The expansion algorithm of RFC 6570, appendix A: one pass over a template that only ever appends to
the output, steered by a table with a row for each operator and by one flag, whether the expression
at hand has written a value yet. A composite value without the explode modifier is written by a
loop with commas, an exploded one member by member as if each were a variable of its own.
`expand_eq_streaming` says that an expansion which succeeds is the output of that pass.

The pass asks for shapes, not for values: what has no shape never comes up, since then there is no
expansion to compare with.
-/

namespace UriTemplate.Streaming
set_option autoImplicit false

/-- A row of the operator table. -/
structure Row where
  first : Text
  separator : Text
  named : Bool
  ifEmpty : Text
  reserved : Bool

/-- The operator table. -/
def row : Operator → Row
  | .simple => ⟨"".toList, ",".toList, false, "".toList, false⟩
  | .reserved => ⟨"".toList, ",".toList, false, "".toList, true⟩
  | .fragment => ⟨"#".toList, ",".toList, false, "".toList, true⟩
  | .label => ⟨".".toList, ".".toList, false, "".toList, false⟩
  | .path => ⟨"/".toList, "/".toList, false, "".toList, false⟩
  | .parameter => ⟨";".toList, ";".toList, true, "".toList, false⟩
  | .query => ⟨"?".toList, "&".toList, true, "=".toList, false⟩
  | .continuation => ⟨"&".toList, "&".toList, true, "=".toList, false⟩

/-- The output so far, and whether the expression at hand has written a value. -/
structure State where
  output : Text
  started : Bool

namespace State

/-- Appends to the output. -/
def write (text : Text) (s : State) : State := { s with output := s.output ++ text }

/-- What stands in front of a value: the first string if it is the expression's first value, the
separator otherwise. -/
def openValue (r : Row) (s : State) : State :=
  { s.write (if s.started then r.separator else r.first) with started := true }

/-- Texts with commas between them. -/
def writeList : List Text → State → State
  | [], s => s
  | [text], s => s.write text
  | text :: texts, s => writeList texts ((s.write text).write [','])

end State

section Values

variable (r : Row) (spec : VarSpec)

/-- A text, cut if the variable has a length. -/
def writeScalar (text : Text) (s : State) : State :=
  let kept := match spec.maxLength? with
    | some length => Percent.truncate r.reserved length text
    | none => text
  let s := s.openValue r
  if r.named then
    if kept = [] then (s.write spec.name).write r.ifEmpty
    else ((s.write spec.name).write ['=']).write (Percent.encode r.reserved kept)
  else s.write (Percent.encode r.reserved kept)

/-- The members of a value that is not exploded; `empty` says whether it counts as empty. -/
def writeComposite (empty : Bool) (members : List Text) (s : State) : State :=
  let s := s.openValue r
  let encoded := members.map (Percent.encode r.reserved)
  if r.named then
    if empty then (s.write spec.name).write r.ifEmpty
    else State.writeList encoded ((s.write spec.name).write ['='])
  else State.writeList encoded s

/-- An item of an exploded list. -/
def writeItem (s : State) (item : Text) : State :=
  let s := s.openValue r
  if r.named then
    if item = [] then (s.write spec.name).write r.ifEmpty
    else ((s.write spec.name).write ['=']).write (Percent.encode r.reserved item)
  else s.write (Percent.encode r.reserved item)

/-- A pair of an exploded map. -/
def writeEntry (s : State) (entry : Text × Text) : State :=
  let s := (s.openValue r).write (Percent.encode r.reserved entry.1)
  if r.named ∧ entry.2 = [] then s.write r.ifEmpty
  else (s.write ['=']).write (Percent.encode r.reserved entry.2)

/-- A variable; undefined ones are skipped. The only composite value that counts as empty is the
list of just the empty text. -/
def writeValue : Shape → State → State
  | .undefined, s => s
  | .scalar text, s => writeScalar r spec text s
  | .list items, s =>
    if spec.isExploded then items.foldl (writeItem r spec) s
    else writeComposite r spec (items = [[]]) items s
  | .pairs entries, s =>
    if spec.isExploded then entries.foldl (writeEntry r) s
    else writeComposite r spec false (entries.flatMap fun e => [e.1, e.2]) s

end Values

/-- An expression: its variables from left to right. -/
def writeExpression (shapeOf : Text → Shape) (e : Expression) (output : Text) : Text :=
  (e.varSpecs.foldl (fun s spec => writeValue (row e.operator) spec (shapeOf spec.name) s)
    ⟨output, false⟩).output

/-- A section: a literal verbatim, or an expression. -/
def writeSection (shapeOf : Text → Shape) (output : Text) : Section → Text
  | .literal text => output ++ text
  | .expression e => writeExpression shapeOf e output

/-- A template: its sections in order, onto an empty output. -/
def run (shapeOf : Text → Shape) (t : Template) : Text :=
  t.sections.foldl (writeSection shapeOf) []

/-! ## The table -/

@[simp] theorem row_first (op : Operator) : (row op).first = op.first := by cases op <;> rfl

@[simp] theorem row_separator (op : Operator) : (row op).separator = [op.separator] := by
  cases op <;> rfl

@[simp] theorem row_named (op : Operator) : (row op).named = op.isNamed := by cases op <;> rfl

@[simp] theorem row_ifEmpty (op : Operator) : (row op).ifEmpty = op.ifEmpty := by cases op <;> rfl

@[simp] theorem row_reserved (op : Operator) : (row op).reserved = op.allowsReserved := by
  cases op <;> rfl

/-! ## A value is its pieces -/

/-- A piece of a value with what stands in front of it. -/
def State.emit (r : Row) (s : State) (piece : Text) : State := (s.openValue r).write piece

theorem State.write_write (s : State) (text text' : Text) :
    (s.write text).write text' = s.write (text ++ text') := by
  simp [State.write]

theorem State.writeList_eq (texts : List Text) (s : State) :
    State.writeList texts s = s.write (List.intercalate [','] texts) := by
  fun_induction State.writeList texts s with
  | case1 s => simp [State.write]
  | case2 text s => rw [List.intercalate_singleton]
  | case3 text texts s htexts ih =>
    rw [ih, State.write_write, State.write_write, List.intercalate_cons_of_ne_nil htexts,
      List.append_assoc]

/-- A label with the mark of an empty value, or with an equals sign and the value. -/
theorem write_named (op : Operator) (name : Text) {value : Text} (s : State) {p : Prop}
    [Decidable p] (hp : p ↔ value = []) :
    (if p then (s.write name).write op.ifEmpty else ((s.write name).write ['=']).write value) =
      s.write (named op name value) := by
  unfold named
  by_cases h : p
  · simp [h, hp.1 h, State.write_write]
  · simp [h, mt hp.2 h, State.write_write]

section Pieces

variable (op : Operator) (spec : VarSpec)

theorem writeScalar_eq (text : Text) (s : State) :
    writeScalar (row op) spec text s = s.emit (row op) (spec.scalarUnit op text) := by
  unfold writeScalar VarSpec.scalarUnit nameIfWanted State.emit
  simp only [row_named, row_reserved, row_ifEmpty]
  split
  · exact write_named op spec.name _ Percent.encode_eq_nil_iff.symm
  · rfl

theorem writeItem_eq (s : State) (item : Text) :
    writeItem (row op) spec s item =
      s.emit (row op) (nameIfWanted op spec.name (Percent.encode op.allowsReserved item)) := by
  unfold writeItem nameIfWanted State.emit
  simp only [row_named, row_reserved, row_ifEmpty]
  split
  · exact write_named op spec.name _ Percent.encode_eq_nil_iff.symm
  · rfl

theorem writeEntry_eq (s : State) (entry : Text × Text) :
    writeEntry (row op) s entry = s.emit (row op) (VarSpec.pairText op
      (Percent.encode op.allowsReserved entry.1) (Percent.encode op.allowsReserved entry.2)) := by
  unfold writeEntry VarSpec.pairText State.emit
  simp only [row_named, row_reserved, row_ifEmpty]
  by_cases hnamed : op.isNamed = true
  · simp only [hnamed, true_and, if_true]
    exact write_named op _ _ Percent.encode_eq_nil_iff.symm
  · simp [hnamed, State.write_write]

/-- The composite value is written as empty exactly if its members are joined to the empty text. -/
theorem writeComposite_eq {empty : Bool} {members : List Text} (s : State)
    (h : empty = true ↔
      List.intercalate [','] (members.map (Percent.encode op.allowsReserved)) = []) :
    writeComposite (row op) spec empty members s = s.emit (row op) (nameIfWanted op spec.name
      (List.intercalate [','] (members.map (Percent.encode op.allowsReserved)))) := by
  unfold writeComposite nameIfWanted State.emit
  simp only [row_named, row_reserved, row_ifEmpty, State.writeList_eq]
  split
  · exact write_named op spec.name _ h
  · rfl

theorem items_eq_iff {reserved : Bool} {items : List Text} (h : items ≠ []) :
    items = [[]] ↔ List.intercalate [','] (items.map (Percent.encode reserved)) = [] := by
  match items, h with
  | [item], _ => simp [Percent.encode_eq_nil_iff]
  | item :: item' :: items, _ =>
    rw [List.map_cons, List.intercalate_cons_of_ne_nil (by simp)]
    simp

theorem entries_ne_nil {reserved : Bool} {entries : List (Text × Text)} (h : entries ≠ []) :
    List.intercalate [',']
      ((entries.flatMap fun e => [e.1, e.2]).map (Percent.encode reserved)) ≠ [] := by
  match entries, h with
  | e :: entries, _ =>
    rw [List.flatMap_cons, List.cons_append, List.map_cons,
      List.intercalate_cons_of_ne_nil (by simp)]
    simp

theorem writeValue_eq {shape : Shape} (h : shape.HasMember) (s : State) :
    writeValue (row op) spec shape s = (spec.pieces op shape).foldl (State.emit (row op)) s := by
  cases shape with
  | undefined => rfl
  | scalar text => exact writeScalar_eq op spec text s
  | list items =>
    simp only [writeValue, VarSpec.pieces]
    split
    · rw [List.foldl_map]
      exact List.foldl_ext _ _ _ fun s item _ => writeItem_eq op spec s item
    · rename_i hexplode
      rw [writeComposite_eq op spec s (by simpa using items_eq_iff h)]
      simp [VarSpec.listUnit, hexplode]
  | pairs entries =>
    simp only [writeValue, VarSpec.pieces]
    split
    · rw [List.foldl_map]
      exact List.foldl_ext _ _ _ fun s entry _ => writeEntry_eq op s entry
    · rename_i hexplode
      rw [writeComposite_eq op spec s (by simpa using entries_ne_nil h)]
      simp [VarSpec.pairsUnit, hexplode, List.map_flatMap]

end Pieces

/-! ## The pass over a template -/

theorem foldl_emit (r : Row) {pieces : List Text} (h : pieces ≠ []) (s : State) :
    pieces.foldl (State.emit r) s =
      (s.openValue r).write (List.intercalate r.separator pieces) := by
  induction pieces generalizing s with
  | nil => exact absurd rfl h
  | cons piece pieces ih =>
    by_cases hnil : pieces = []
    · subst hnil
      rw [List.foldl_cons, List.foldl_nil, List.intercalate_singleton]
      rfl
    · rw [List.foldl_cons, ih hnil, List.intercalate_cons_of_ne_nil hnil]
      simp [State.emit, State.openValue, State.write]

theorem writeExpression_eq {context : Value} {e : Expression} {text : Text}
    (h : e.expand context = .ok text) (output : Text) :
    writeExpression context.shapeOf e output = output ++ text := by
  have hmember : ∀ spec ∈ e.varSpecs, (context.shapeOf spec.name).HasMember := by
    obtain ⟨units, hunits, -⟩ := bind_eq_ok_iff.1 h
    intro spec hspec
    exact Value.hasMember_of_resolve (resolve_of_unitsOf hunits spec hspec)
  have hfold : e.varSpecs.foldl (fun s spec =>
        writeValue (row e.operator) spec (context.shapeOf spec.name) s) ⟨output, false⟩ =
      (piecesOf e.operator context e.varSpecs).foldl (State.emit (row e.operator))
        ⟨output, false⟩ := by
    rw [piecesOf, List.foldl_flatMap]
    exact List.foldl_ext _ _ _ fun s spec hspec =>
      writeValue_eq e.operator spec (hmember spec hspec) s
  rw [writeExpression, hfold, expand_eq_pieces h]
  by_cases hnil : piecesOf e.operator context e.varSpecs = []
  · simp [hnil, joinUnits]
  · rw [foldl_emit _ hnil]
    simp [State.openValue, State.write, joinUnits, hnil]

theorem foldl_sections {context : Value} {sections : List Section} {text : Text}
    (h : expandSections context sections = .ok text) (output : Text) :
    sections.foldl (writeSection context.shapeOf) output = output ++ text := by
  induction sections generalizing text output with
  | nil =>
    cases h
    simp
  | cons s sections ih =>
    obtain ⟨head, hhead, h'⟩ := bind_eq_ok_iff.1 h
    obtain ⟨tail, htail, htext⟩ := bind_eq_ok_iff.1 h'
    cases htext
    rw [List.foldl_cons, ih htail]
    cases s with
    | literal text =>
      cases hhead
      simp [writeSection]
    | expression e => rw [writeSection, writeExpression_eq hhead, List.append_assoc]

/-- **The streaming algorithm**: an expansion that succeeds is its output. -/
theorem expand_eq_streaming {t : Template} {context : Value} {text : Text}
    (h : t.expand context = .ok text) : run context.shapeOf t = text := by
  rw [run, foldl_sections h, List.nil_append]

/-- An undefined variable, a text cut to nothing, the list of just the empty text, and exploded
pairs one of which is empty. -/
theorem streaming_sample :
    let context : Value := .map [("s".toList, .ofText "text".toList),
      ("l".toList, .ofTexts [[]]),
      ("m".toList, .map [("k".toList, .ofText []), ("&".toList, .ofText "é".toList)])]
    let t : Template := ⟨[.literal "a".toList, .expression ⟨.parameter,
      [.plain "none".toList, .withMaxLength (.plain "s".toList) 0, .plain "l".toList,
        .withExplode (.plain "m".toList)]⟩]⟩
    t.expand context = .ok "a;s;l;k;%26=%C3%A9".toList ∧
      run context.shapeOf t = "a;s;l;k;%26=%C3%A9".toList := by
  intro context t
  have h : t.expand context = .ok "a;s;l;k;%26=%C3%A9".toList := by decide +kernel
  exact ⟨h, expand_eq_streaming h⟩

end UriTemplate.Streaming
