import UriTemplate.Proofs.Json.Meaning
import UriTemplate.Proofs.Yaml.Order
import UriTemplate.Yaml.Content

/-!
# Documents in YAML text

A node of a YAML document stands for a document, entry by entry (`Node.Denotes`), with the entries of
mappings in order, also those whose keys are repeated, and with the nodes that references mean in
their places. What is read of a node is that document settled, however many references may be
followed and however deep the node may be (`readsDocuments_toJson?`). Its numbers are words, or
floating-point numbers that are finite, since others count as null.
-/

namespace UriTemplate.Yaml
set_option autoImplicit false

/-- The node that is meant: for a reference the one that has its anchor. -/
def Node.meant? (targets : List (Nat × Node)) : Node → Option Node
  | .reference number => (targets.find? fun t => t.1 = number).map (·.2)
  | node => some node

mutual

/-- The document that a node stands for. -/
inductive Node.Denotes (targets : List (Nat × Node)) : Node → Json → Prop
  | scalar {node : Node} {p : Properties} {text : Text} {isPlain : Bool} {j : Json} :
      node.meant? targets = some (.scalar p text isPlain) →
      scalarJson? p.tag text isPlain = some j → Node.Denotes targets node j
  | sequence {node : Node} {p : Properties} {items : List Node} {js : List Json} :
      node.meant? targets = some (.sequence p items) → ItemsDenote targets items js →
      Node.Denotes targets node (.array js)
  | mapping {node : Node} {p : Properties} {entries : List (Node × Node)}
      {fields : List (Text × Json)} : node.meant? targets = some (.mapping p entries) →
      EntriesDenote targets entries fields → Node.Denotes targets node (.object fields)

/-- The documents that items stand for. -/
inductive ItemsDenote (targets : List (Nat × Node)) : List Node → List Json → Prop
  | nil : ItemsDenote targets [] []
  | cons {item : Node} {items : List Node} {j : Json} {js : List Json} :
      item.Denotes targets j → ItemsDenote targets items js →
      ItemsDenote targets (item :: items) (j :: js)

/-- The fields that entries stand for, one for each entry. -/
inductive EntriesDenote (targets : List (Nat × Node)) :
    List (Node × Node) → List (Text × Json) → Prop
  | nil : EntriesDenote targets [] []
  | cons {key value : Node} {p : Properties} {name : Text} {isPlain : Bool} {j : Json}
      {entries : List (Node × Node)} {fields : List (Text × Json)} :
      key.meant? targets = some (.scalar p name isPlain) → value.Denotes targets j →
      EntriesDenote targets entries fields →
      EntriesDenote targets ((key, value) :: entries) ((name, j) :: fields)

end

/-! ## Scalars -/

/-- Neither an array nor an object, nor an infinite number. -/
def IsSimple : Json → Prop
  | .null | .bool _ | .string _ => True
  | .number n => n.IsFinite
  | .array _ | .object _ => False

theorem IsSimple.settle {j : Json} (h : IsSimple j) : j.settle = j := by
  cases j with
  | array items => exact h.elim
  | object fields => exact h.elim
  | _ => rfl

theorem IsSimple.finite {j : Json} (h : IsSimple j) : j.Finite := by
  cases j with
  | null => exact .null
  | bool b => exact .bool b
  | number n => exact .number h
  | string s => exact .string s
  | array items => exact h.elim
  | object fields => exact h.elim

theorem isSimple_ofFloat (x : Binary .double) : IsSimple (Json.ofFloat x) := by
  unfold Json.ofFloat
  split
  · rename_i hfinite
    exact hfinite
  · trivial

theorem isSimple_of_integerJson? {n : Int} {j : Json} (h : integerJson? n = some j) :
    IsSimple j := by
  obtain ⟨number, hnumber, rfl⟩ := Option.map_eq_some_iff.1 h
  unfold JsonNumber.ofInteger? at hnumber
  split at hnumber
  · cases hnumber
    trivial
  split at hnumber
  · cases hnumber
    trivial
  · cases hnumber

/-- A text that is no floating-point number stays a text. -/
theorem isSimple_floatOrText (text : Text) (x : Option (Binary .double)) :
    IsSimple (x.elim (.string text) Json.ofFloat) := by
  cases x with
  | none => trivial
  | some x => exact isSimple_ofFloat x

theorem isSimple_of_plainJson? {text : Text} {j : Json} (h : plainJson? text = some j) :
    IsSimple j := by
  unfold plainJson? at h
  split at h
  · cases h
    trivial
  split at h
  · cases h
    trivial
  split at h
  · split at h
    · exact isSimple_of_integerJson? h
    · cases h
      exact isSimple_floatOrText text _
  split at h
  · cases h
    trivial
  · cases h
    exact isSimple_floatOrText text _

theorem isSimple_of_scalarJson? {tag : Option Tag} {text : Text} {isPlain : Bool} {j : Json}
    (h : scalarJson? tag text isPlain = some j) : IsSimple j := by
  unfold scalarJson? at h
  split at h
  · split at h
    · exact isSimple_of_plainJson? h
    · cases h
      trivial
  split at h
  · cases h
  split at h
  · obtain ⟨b, -, rfl⟩ := Option.map_eq_some_iff.1 h
    trivial
  split at h
  · obtain ⟨n, -, hn⟩ := Option.bind_eq_some_iff.1 h
    exact isSimple_of_integerJson? hn
  split at h
  · obtain ⟨x, -, rfl⟩ := Option.map_eq_some_iff.1 h
    exact isSimple_ofFloat x
  split at h
  · split at h
    · cases h
      trivial
    · cases h
  split at h
  · exact isSimple_of_plainJson? h
  · cases h
    trivial

mutual

/-- The numbers of a document that a node stands for are finite. -/
theorem Node.Denotes.finite {targets : List (Nat × Node)} {node : Node} {j : Json} :
    node.Denotes targets j → j.Finite
  | .scalar _ hscalar => (isSimple_of_scalarJson? hscalar).finite
  | .sequence _ hitems => .array hitems.finite
  | .mapping _ hentries => .object hentries.finite

theorem ItemsDenote.finite {targets : List (Nat × Node)} {items : List Node} {js : List Json} :
    ItemsDenote targets items js → ∀ j ∈ js, j.Finite
  | .nil => List.forall_mem_nil _
  | .cons hitem hitems => List.forall_mem_cons.2 ⟨hitem.finite, hitems.finite⟩

theorem EntriesDenote.finite {targets : List (Nat × Node)} {entries : List (Node × Node)}
    {fields : List (Text × Json)} : EntriesDenote targets entries fields → ∀ f ∈ fields, f.2.Finite
  | .nil => List.forall_mem_nil _
  | .cons _ hvalue hentries => List.forall_mem_cons.2 ⟨hvalue.finite, hentries.finite⟩

end

/-! ## Reading nodes -/

variable {targets : List (Nat × Node)} {node : Node} {budget budget' : Nat} {j : Json}

/-- A reader of nodes reads the documents that they stand for, settled. -/
def ReadsDocuments (targets : List (Nat × Node)) (read : Node → Following Json) : Prop :=
  ∀ node budget j budget', read node budget = some (j, budget') →
    ∃ document : Json, node.Denotes targets document ∧ document.settle = j

theorem meant?_of_resolve? {target : Node}
    (h : node.resolve? targets budget = some (target, budget')) :
    node.meant? targets = some target := by
  cases node with
  | reference number =>
    change (if budget = 0 then none else _) = _ at h
    split at h
    · cases h
    · obtain ⟨t, ht, heq⟩ := Option.map_eq_some_iff.1 h
      cases heq
      exact Option.map_eq_some_iff.2 ⟨t, ht, rfl⟩
  | scalar p text isPlain => cases h; rfl
  | sequence p items => cases h; rfl
  | mapping p entries => cases h; rfl

variable {part : Node → Following Json}

theorem exists_documents_of_items (hpart : ReadsDocuments targets part) {items : List Node}
    {js : List Json} (h : Following.all part items budget = some (js, budget')) :
    ∃ documents, ItemsDenote targets items documents ∧ documents.map Json.settle = js := by
  induction items generalizing budget js with
  | nil =>
    cases h
    exact ⟨[], .nil, rfl⟩
  | cons item items ih =>
    simp only [Following.all, Option.bind_eq_bind, Option.bind_eq_some_iff] at h
    obtain ⟨⟨j, _⟩, hj, ⟨js', _⟩, hjs, heq⟩ := h
    cases heq
    obtain ⟨document, hdocument, rfl⟩ := hpart _ _ _ _ hj
    obtain ⟨documents, hdocuments, rfl⟩ := ih hjs
    exact ⟨document :: documents, .cons hdocument hdocuments, rfl⟩

theorem exists_document_of_field? (hpart : ReadsDocuments targets part) {entry : Node × Node}
    {field : Text × Json} (h : Node.field? targets part entry budget = some (field, budget')) :
    ∃ p isPlain document, entry.1.meant? targets = some (.scalar p field.1 isPlain) ∧
      entry.2.Denotes targets document ∧ document.settle = field.2 := by
  simp only [Node.field?, Node.key?, Option.bind_eq_bind, Option.bind_eq_some_iff] at h
  obtain ⟨⟨name, _⟩, ⟨⟨target, _⟩, hresolve, hname⟩, ⟨j, _⟩, hj, heq⟩ := h
  cases heq
  obtain ⟨document, hdocument, hsettle⟩ := hpart _ _ _ _ hj
  have hmeant := meant?_of_resolve? hresolve
  cases target with
  | scalar p text isPlain =>
    cases hname
    exact ⟨p, isPlain, document, hmeant, hdocument, hsettle⟩
  | _ => cases hname

theorem exists_documents_of_entries (hpart : ReadsDocuments targets part)
    {entries : List (Node × Node)} {fields : List (Text × Json)}
    (h : Following.all (Node.field? targets part) entries budget = some (fields, budget')) :
    ∃ documents, EntriesDenote targets entries documents ∧
      documents.map (fun f => (f.1, f.2.settle)) = fields := by
  induction entries generalizing budget fields with
  | nil =>
    cases h
    exact ⟨[], .nil, rfl⟩
  | cons entry entries ih =>
    simp only [Following.all, Option.bind_eq_bind, Option.bind_eq_some_iff] at h
    obtain ⟨⟨field, _⟩, hfield, ⟨fields', _⟩, hfields, heq⟩ := h
    cases heq
    obtain ⟨p, isPlain, document, hkey, hvalue, hsettle⟩ := exists_document_of_field? hpart hfield
    obtain ⟨documents, hdocuments, rfl⟩ := ih hfields
    refine ⟨(field.1, document) :: documents, .cons hkey hvalue hdocuments, ?_⟩
    rw [List.map_cons, hsettle]

/-- A node is read as its document if the nodes in it are. -/
theorem readsDocuments_value? {part : Option (Node → Following Json)}
    (hpart : ∀ read ∈ part, ReadsDocuments targets read) :
    ReadsDocuments targets (Node.value? targets part) := by
  intro node budget j budget' h
  simp only [Node.value?, Option.bind_eq_bind, Option.bind_eq_some_iff] at h
  obtain ⟨⟨target, rest⟩, hresolve, h⟩ := h
  have hmeant := meant?_of_resolve? hresolve
  split at h
  · rename_i heq
    cases heq
    obtain ⟨j', hscalar, heq⟩ := Option.map_eq_some_iff.1 h
    cases heq
    exact ⟨j, .scalar hmeant hscalar, (isSimple_of_scalarJson? hscalar).settle⟩
  · rename_i read heq
    cases heq
    split at h
    · obtain ⟨⟨js, _⟩, hall, heq⟩ := Option.map_eq_some_iff.1 h
      cases heq
      obtain ⟨documents, hdocuments, rfl⟩ := exists_documents_of_items (hpart read rfl) hall
      refine ⟨.array documents, .sequence hmeant hdocuments, ?_⟩
      rw [Json.settle, Json.settleItems_eq_map]
    · cases h
  · rename_i read heq
    cases heq
    split at h
    · obtain ⟨⟨fields, _⟩, hall, heq⟩ := Option.map_eq_some_iff.1 h
      cases heq
      obtain ⟨documents, hdocuments, rfl⟩ := exists_documents_of_entries (hpart read rfl) hall
      refine ⟨.object documents, .mapping hmeant hdocuments, ?_⟩
      rw [Json.settle, Json.settleFields_eq_map]
    · cases h
  · cases h

/-- The induction is on the levels of collections that may still be in the node. -/
theorem readsDocuments_toJson? (targets : List (Nat × Node)) (depth : Nat) :
    ReadsDocuments targets (Node.toJson? targets depth) := by
  induction depth with
  | zero => exact readsDocuments_value? nofun
  | succ depth ih =>
    refine readsDocuments_value? fun read hread => ?_
    cases hread
    exact ih

/-- The tree of a text, whose leaves are those of its tokens, in their order. -/
def Node.IsTreeOf (root : Node) (s : Text) : Prop :=
  ∃ tokens, tokens? s = some tokens ∧ Node.ofTokens? tokens = some root ∧
    root.leaves = tokens.flatMap Token.leaves

theorem isTreeOf_of_parse? {s : Text} {root : Node} (h : Node.parse? s = some root) :
    root.IsTreeOf s := by
  obtain ⟨tokens, htokens, hroot⟩ := Option.bind_eq_some_iff.1 h
  exact ⟨tokens, htokens, hroot, leaves_of_ofTokens? hroot⟩

/-- **What is read is the document of the text, settled.** -/
theorem exists_document_of_parse? {s : Text} (h : parse? s = some j) :
    ∃ (root : Node) (document : Json), root.IsTreeOf s ∧ root.Denotes root.targets document ∧
      document.settle = j := by
  simp only [parse?, Option.bind_eq_bind, Option.bind_eq_some_iff] at h
  obtain ⟨root, hroot, ⟨j', _⟩, hread, heq⟩ := h
  cases heq
  obtain ⟨document, hdocument, hsettle⟩ := readsDocuments_toJson? _ _ _ _ _ _ hread
  exact ⟨root, document, isTreeOf_of_parse? hroot, hdocument, hsettle⟩

end UriTemplate.Yaml
