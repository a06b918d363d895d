import UriTemplate.Proofs.Yaml.Leaves

/-!
# The order of nodes in YAML text

The tree of a YAML text has its scalars and references where the text has them: from left to right
they are those of the tokens (`leaves_of_ofTokens?`). Each reader of nodes keeps them if those that
it calls do, which may call one reader less (`KeepsLeaves`).
-/

namespace UriTemplate.Yaml
set_option autoImplicit false

namespace NodeReader
open Node

variable {r : NodeReader}

/-! ## Parts of entries -/

/-- Whether a value within a flow collection is missing at the token. -/
def endsFlowValue (closing : Token) (t : Token) : Bool := t = .flowEntry || t = closing

/-- Whether a key within a flow collection is missing at the token. -/
def endsFlowKey (closing : Token) (t : Token) : Bool := t = .value || endsFlowValue closing t

/-- Reads a part of an entry, which is missing if it ends at the first token. -/
def readPart? (ends : Token → Bool) (inBlock : Bool) (fuel : Nat) (r : NodeReader) :
    Option (Node × NodeReader) :=
  if ends r.peek then some (.missing, r) else readNode? inBlock inBlock fuel r

/-- Reads the value of an entry, which is missing without its indicator. -/
def readValue? (ends : Token → Bool) (inBlock : Bool) (fuel : Nat) (r : NodeReader) :
    Option (Node × NodeReader) :=
  if r.peek = .value then readPart? ends inBlock fuel r.next else some (.missing, r)

section

variable {α : Type} (ends : Token → Bool) (inBlock : Bool) (fuel : Nat) (r : NodeReader)
  (f : Node × NodeReader → Option α)

theorem bind_readPart? : (readPart? ends inBlock fuel r).bind f =
    if ends r.peek then f (.missing, r) else (readNode? inBlock inBlock fuel r).bind f := by
  unfold readPart?
  split <;> rfl

theorem bind_readValue? : (readValue? ends inBlock fuel r).bind f =
    if r.peek = .value then (readPart? ends inBlock fuel r.next).bind f else f (.missing, r) := by
  unfold readValue?
  split <;> rfl

end

theorem readEntries?_of_key (h : r.peek = .key) (fuel : Nat) :
    readEntries? (fuel + 1) r =
      (readPart? endsBlockEntry true fuel r.next).bind fun (key, r) =>
        (readValue? endsBlockEntry true fuel r).bind fun (value, r) =>
          (readEntries? fuel r).bind fun (entries, r) => some ((key, value) :: entries, r) := by
  simp only [readEntries?, h, bind_readPart?, bind_readValue?, Option.bind_eq_bind,
    Option.bind_some]

section

variable {α : Type} (t : Token) (a b : α)

theorem ite_endsFlowValue_sequence :
    (if endsFlowValue .flowSequenceEnd t then a else b) =
      match t with
      | .flowEntry | .flowSequenceEnd => a
      | _ => b := by
  cases t <;> rfl

theorem ite_endsFlowKey_sequence :
    (if endsFlowKey .flowSequenceEnd t then a else b) =
      match t with
      | .value | .flowEntry | .flowSequenceEnd => a
      | _ => b := by
  cases t <;> rfl

theorem ite_endsFlowValue_mapping :
    (if endsFlowValue .flowMappingEnd t then a else b) =
      match t with
      | .flowEntry | .flowMappingEnd => a
      | _ => b := by
  cases t <;> rfl

theorem ite_endsFlowKey_mapping :
    (if endsFlowKey .flowMappingEnd t then a else b) =
      match t with
      | .value | .flowEntry | .flowMappingEnd => a
      | _ => b := by
  cases t <;> rfl

end

theorem readSinglePair?_eq (fuel : Nat) (r : NodeReader) :
    readSinglePair? (fuel + 1) r =
      (if endsFlowKey .flowSequenceEnd r.peek then some (.missing, r.next)
        else readNode? false false fuel r).bind fun (key, r) =>
          (readValue? (endsFlowValue .flowSequenceEnd) false fuel r).bind fun (value, r) =>
            some (.mapping Properties.empty [(key, value)], r) := by
  rw [readSinglePair?, apply_ite (fun key => Option.bind key _), ite_endsFlowKey_sequence]
  conv =>
    rhs
    simp only [bind_readPart?, bind_readValue?, ite_endsFlowValue_sequence]
  rfl

theorem readFlowEntries?_eq (isFirst : Bool) (fuel : Nat) (r : NodeReader) :
    readFlowEntries? isFirst (fuel + 1) r =
      if r.peek = .flowMappingEnd then some ([], r.next)
      else if !isFirst && r.peek ≠ .flowEntry then none
      else
        let r := if isFirst then r else r.next
        match r.peek with
        | .flowMappingEnd => some ([], r.next)
        | .key =>
          (readPart? (endsFlowKey .flowMappingEnd) false fuel r.next).bind fun (key, r) =>
            (readValue? (endsFlowValue .flowMappingEnd) false fuel r).bind fun (value, r) =>
              (readFlowEntries? false fuel r).bind fun (entries, r) =>
                some ((key, value) :: entries, r)
        | _ =>
          (readNode? false false fuel r).bind fun (key, r) =>
            (readFlowEntries? false fuel r).bind fun (entries, r) =>
              some ((key, .missing) :: entries, r) := by
  rw [readFlowEntries?]
  conv =>
    rhs
    simp only [bind_readPart?, bind_readValue?, ite_endsFlowKey_mapping, ite_endsFlowValue_mapping]
  rfl

/-! ## One reader deeper -/

/-- The readers that may call `fuel` others keep the leaves and their order. -/
structure KeepsLeaves (fuel : Nat) : Prop where
  node (inBlock unindented : Bool) (r : NodeReader) :
    SplitsLeaves Node.leaves r.leaves (readNode? inBlock unindented fuel r)
  content (inBlock unindented : Bool) (p : Properties) (r : NodeReader) :
    SplitsLeaves Node.leaves r.leaves (readContent? inBlock unindented p fuel r)
  items (r : NodeReader) : SplitsLeaves itemLeaves r.leaves (readItems? fuel r)
  unindentedItems (r : NodeReader) : SplitsLeaves itemLeaves r.leaves (readUnindented? fuel r)
  entries (r : NodeReader) : SplitsLeaves entryLeaves r.leaves (readEntries? fuel r)
  flowItems (isFirst : Bool) (r : NodeReader) :
    SplitsLeaves itemLeaves r.leaves (readFlowItems? isFirst fuel r)
  singlePair (r : NodeReader) : SplitsLeaves Node.leaves r.leaves (readSinglePair? fuel r)
  flowEntries (isFirst : Bool) (r : NodeReader) :
    SplitsLeaves entryLeaves r.leaves (readFlowEntries? isFirst fuel r)

variable {fuel : Nat}

theorem splitsLeaves_readNode? (h : KeepsLeaves fuel) (inBlock unindented : Bool)
    (r : NodeReader) :
    SplitsLeaves Node.leaves r.leaves (readNode? inBlock unindented (fuel + 1) r) := by
  rw [readNode?]
  split
  · rename_i name hpeek
    intro node r' hread
    obtain ⟨number, -, heq⟩ := Option.map_eq_some_iff.1 hread
    cases heq
    exact leaves_of_peek hpeek
  · intro node r' hread
    obtain ⟨⟨p, r₁⟩, hproperties, hcontent⟩ := Option.bind_eq_some_iff.1 hread
    rw [← leaves_readProperties? hproperties]
    exact h.content inBlock unindented p r₁ node r' hcontent

/-- Only properties are written. -/
theorem splitsLeaves_emptyScalar (p : Properties) (r : NodeReader) :
    SplitsLeaves Node.leaves r.leaves (if p.present then some (.emptyScalar p, r) else none) := by
  split
  · exact splitsLeaves_some rfl
  · exact splitsLeaves_none

theorem splitsLeaves_readContent? (h : KeepsLeaves fuel) (inBlock unindented : Bool)
    (p : Properties) (r : NodeReader) :
    SplitsLeaves Node.leaves r.leaves (readContent? inBlock unindented p (fuel + 1) r) := by
  rw [readContent?]
  split
  case h_1 =>
    split
    · exact (h.unindentedItems r).map (leaves_sequence p)
    · exact splitsLeaves_emptyScalar p r
  case h_2 text isPlain hpeek =>
    refine splitsLeaves_some ?_
    rw [leaves_scalar]
    exact leaves_of_peek hpeek
  case h_3 hpeek =>
    rw [← leaves_of_peek hpeek]
    exact (h.flowItems true r.next).map (leaves_sequence p)
  case h_4 hpeek =>
    rw [← leaves_of_peek hpeek]
    exact (h.flowEntries true r.next).map (leaves_mapping p)
  case h_5 hpeek =>
    split
    · rw [← leaves_of_peek hpeek]
      exact (h.items r.next).map (leaves_sequence p)
    · exact splitsLeaves_emptyScalar p r
  case h_6 hpeek =>
    split
    · rw [← leaves_of_peek hpeek]
      exact (h.entries r.next).map (leaves_mapping p)
    · exact splitsLeaves_emptyScalar p r
  case h_7 => exact splitsLeaves_emptyScalar p r

/-- One more item is in front of the others. -/
theorem SplitsLeaves.consItem {total : List Leaf} {readItem : Option (Node × NodeReader)}
    {readItems : NodeReader → Option (List Node × NodeReader)}
    (hitem : SplitsLeaves Node.leaves total readItem)
    (hitems : ∀ r, SplitsLeaves itemLeaves r.leaves (readItems r)) :
    SplitsLeaves itemLeaves total
      (readItem.bind fun x => (readItems x.2).bind fun y => some (x.1 :: y.1, y.2)) := by
  refine hitem.bind fun item r₁ hr₁ => (hitems r₁).bind fun items r₂ hr₂ => splitsLeaves_some ?_
  rw [itemLeaves, List.flatMap_cons, List.append_assoc, ← hr₁, ← hr₂]
  rfl

/-- One more entry is in front of the others. -/
theorem SplitsLeaves.consEntry {total : List Leaf} {readKey : Option (Node × NodeReader)}
    {readValue : NodeReader → Option (Node × NodeReader)}
    {readEntries : NodeReader → Option (List (Node × Node) × NodeReader)}
    (hkey : SplitsLeaves Node.leaves total readKey)
    (hvalue : ∀ r, SplitsLeaves Node.leaves r.leaves (readValue r))
    (hentries : ∀ r, SplitsLeaves entryLeaves r.leaves (readEntries r)) :
    SplitsLeaves entryLeaves total
      (readKey.bind fun x => (readValue x.2).bind fun y => (readEntries y.2).bind fun z =>
        some ((x.1, y.1) :: z.1, z.2)) := by
  refine hkey.bind fun key r₁ hr₁ => (hvalue r₁).bind fun value r₂ hr₂ =>
    (hentries r₂).bind fun entries r₃ hr₃ => splitsLeaves_some ?_
  rw [entryLeaves, List.flatMap_cons, List.append_assoc, List.append_assoc, ← hr₁, ← hr₂, ← hr₃]
  rfl

theorem splitsLeaves_readItems? (h : KeepsLeaves fuel) (r : NodeReader) :
    SplitsLeaves itemLeaves r.leaves (readItems? (fuel + 1) r) := by
  rw [readItems?]
  split
  case h_1 hpeek => exact splitsLeaves_some (leaves_of_peek hpeek)
  case h_2 hpeek =>
    rw [← leaves_of_peek hpeek]
    split
    · exact SplitsLeaves.consItem (splitsLeaves_missing rfl) h.items
    · exact SplitsLeaves.consItem (splitsLeaves_missing rfl) h.items
    · exact (h.node true false r.next).consItem h.items
  case h_3 => exact splitsLeaves_none

theorem splitsLeaves_readUnindented? (h : KeepsLeaves fuel) (r : NodeReader) :
    SplitsLeaves itemLeaves r.leaves (readUnindented? (fuel + 1) r) := by
  rw [readUnindented?]
  split
  case h_1 hpeek =>
    rw [← leaves_of_peek hpeek]
    split
    · exact SplitsLeaves.consItem (splitsLeaves_missing rfl) h.unindentedItems
    · exact (h.node true false r.next).consItem h.unindentedItems
  case h_2 => exact splitsLeaves_some rfl

theorem splitsLeaves_readPart? (h : KeepsLeaves fuel) (ends : Token → Bool) (inBlock : Bool)
    (r : NodeReader) :
    SplitsLeaves Node.leaves r.leaves (readPart? ends inBlock fuel r) := by
  unfold readPart?
  split
  · exact splitsLeaves_missing rfl
  · exact h.node inBlock inBlock r

theorem splitsLeaves_readValue? (h : KeepsLeaves fuel) (ends : Token → Bool) (inBlock : Bool)
    (r : NodeReader) :
    SplitsLeaves Node.leaves r.leaves (readValue? ends inBlock fuel r) := by
  unfold readValue?
  split
  · rename_i hpeek
    rw [← leaves_of_peek hpeek]
    exact splitsLeaves_readPart? h ends inBlock r.next
  · exact splitsLeaves_missing rfl

theorem splitsLeaves_readEntries? (h : KeepsLeaves fuel) (r : NodeReader) :
    SplitsLeaves entryLeaves r.leaves (readEntries? (fuel + 1) r) := by
  by_cases hkey : r.peek = .key
  · rw [readEntries?_of_key hkey, ← leaves_of_peek hkey]
    exact (splitsLeaves_readPart? h endsBlockEntry true r.next).consEntry
      (splitsLeaves_readValue? h endsBlockEntry true) h.entries
  · rw [readEntries?]
    split
    case h_1 hpeek => exact splitsLeaves_some (leaves_of_peek hpeek)
    case h_2 hpeek => exact absurd hpeek hkey
    case h_3 => exact splitsLeaves_none

/-- The comma in front of an item that is not the first is no leaf. -/
theorem leaves_behindComma {isFirst : Bool}
    (h : ¬ (!isFirst && decide (r.peek ≠ .flowEntry)) = true) :
    (if isFirst then r else r.next).leaves = r.leaves := by
  cases isFirst with
  | true => rfl
  | false =>
    have hpeek : r.peek = .flowEntry := by simpa using h
    exact leaves_of_peek hpeek

theorem splitsLeaves_readFlowItems? (h : KeepsLeaves fuel) (isFirst : Bool) (r : NodeReader) :
    SplitsLeaves itemLeaves r.leaves (readFlowItems? isFirst (fuel + 1) r) := by
  rw [readFlowItems?]
  split
  · rename_i hpeek
    exact splitsLeaves_some (leaves_of_peek hpeek)
  split
  · exact splitsLeaves_none
  rename_i hcomma
  rw [← leaves_behindComma hcomma]
  generalize (if isFirst then r else r.next) = r₁
  dsimp only
  split
  case h_1 hpeek => exact splitsLeaves_some (leaves_of_peek hpeek)
  case h_2 hpeek =>
    rw [← leaves_of_peek hpeek]
    exact (h.singlePair r₁.next).consItem (h.flowItems false)
  case h_3 => exact (h.node false false r₁).consItem (h.flowItems false)

/-- An entry stands alone in its mapping. -/
theorem entryLeaves_singleton (key value : Node) :
    (Node.mapping Properties.empty [(key, value)]).leaves = key.leaves ++ value.leaves := by
  rw [leaves_mapping, entryLeaves, List.flatMap_singleton]

/-- The token that a pair without a key loses is no leaf. -/
theorem leaves_next_of_endsFlowKey (h : endsFlowKey .flowSequenceEnd r.peek = true) :
    r.next.leaves = r.leaves := by
  have hnone : ∀ t, endsFlowKey .flowSequenceEnd t = true → t.leaves = [] := by
    intro t ht
    cases t <;> first | rfl | cases ht
  rw [← r.peek_next_leaves, hnone _ h, List.nil_append]

theorem splitsLeaves_readSinglePair? (h : KeepsLeaves fuel) (r : NodeReader) :
    SplitsLeaves Node.leaves r.leaves (readSinglePair? (fuel + 1) r) := by
  have hkey : SplitsLeaves Node.leaves r.leaves
      (if endsFlowKey .flowSequenceEnd r.peek then some (.missing, r.next)
        else readNode? false false fuel r) := by
    split
    · rename_i hends
      exact splitsLeaves_missing (leaves_next_of_endsFlowKey hends)
    · exact h.node false false r
  rw [readSinglePair?_eq]
  refine hkey.bind fun key r₁ hr₁ =>
    (splitsLeaves_readValue? h (endsFlowValue .flowSequenceEnd) false r₁).bind
      fun value r₂ hr₂ => splitsLeaves_some ?_
  rw [entryLeaves_singleton, List.append_assoc, hr₂, hr₁]

theorem splitsLeaves_readFlowEntries? (h : KeepsLeaves fuel) (isFirst : Bool) (r : NodeReader) :
    SplitsLeaves entryLeaves r.leaves (readFlowEntries? isFirst (fuel + 1) r) := by
  rw [readFlowEntries?_eq]
  split
  · rename_i hpeek
    exact splitsLeaves_some (leaves_of_peek hpeek)
  split
  · exact splitsLeaves_none
  rename_i hcomma
  rw [← leaves_behindComma hcomma]
  generalize (if isFirst then r else r.next) = r₁
  dsimp only
  split
  case h_1 hpeek => exact splitsLeaves_some (leaves_of_peek hpeek)
  case h_2 hpeek =>
    rw [← leaves_of_peek hpeek]
    exact (splitsLeaves_readPart? h (endsFlowKey .flowMappingEnd) false r₁.next).consEntry
      (splitsLeaves_readValue? h (endsFlowValue .flowMappingEnd) false) (h.flowEntries false)
  case h_3 =>
    have hvalue : ∀ r : NodeReader, SplitsLeaves Node.leaves r.leaves (some (.missing, r)) :=
      fun _ => splitsLeaves_missing rfl
    exact (h.node false false r₁).consEntry hvalue (h.flowEntries false)

/-- The induction is on the number of readers that may be called. -/
theorem keepsLeaves (fuel : Nat) : KeepsLeaves fuel := by
  induction fuel with
  | zero =>
    exact
      { node := fun _ _ _ => splitsLeaves_none
        content := fun _ _ _ _ => splitsLeaves_none
        items := fun _ => splitsLeaves_none
        unindentedItems := fun _ => splitsLeaves_none
        entries := fun _ => splitsLeaves_none
        flowItems := fun _ _ => splitsLeaves_none
        singlePair := fun _ => splitsLeaves_none
        flowEntries := fun _ _ => splitsLeaves_none }
  | succ fuel ih =>
    exact
      { node := splitsLeaves_readNode? ih
        content := splitsLeaves_readContent? ih
        items := splitsLeaves_readItems? ih
        unindentedItems := splitsLeaves_readUnindented? ih
        entries := splitsLeaves_readEntries? ih
        flowItems := splitsLeaves_readFlowItems? ih
        singlePair := splitsLeaves_readSinglePair? ih
        flowEntries := splitsLeaves_readFlowEntries? ih }

/-! ## Documents -/

/-- Directives are no leaves. -/
theorem leaves_readDirectives? {versionGiven : Bool} {handles handles' : List (Text × Tag)}
    {tokens tokens' : List Token}
    (h : readDirectives? versionGiven handles tokens = some (handles', tokens')) :
    tokens'.flatMap Token.leaves = tokens.flatMap Token.leaves := by
  induction tokens generalizing versionGiven handles with
  | nil => cases h; rfl
  | cons t tokens ih =>
    unfold readDirectives? at h
    split at h
    case h_1 heq =>
      cases heq
      split at h
      · cases h
      · exact ih h
    case h_2 heq =>
      cases heq
      split at h
      · cases h
      · exact ih h
    case h_3 =>
      cases h
      rfl

/-- Marks of the end of a document are no leaves. -/
theorem leaves_dropWhile_documentEnd (tokens : List Token) :
    (tokens.dropWhile (· = .documentEnd)).flatMap Token.leaves = tokens.flatMap Token.leaves := by
  induction tokens with
  | nil => rfl
  | cons t tokens ih =>
    by_cases ht : t = .documentEnd
    · subst ht
      exact ih
    · rw [List.dropWhile_cons_of_neg (by simpa using ht)]

/-- Nothing but the end of the text is left behind the node of a document. -/
theorem leaves_of_single {total : List Leaf} {read : Option (Node × NodeReader)} {root : Node}
    (hread : SplitsLeaves Node.leaves total read)
    (h : (read.bind fun x =>
      if x.2.tokens.dropWhile (· = .documentEnd) = [.streamEnd] then some x.1 else none) =
        some root) :
    root.leaves = total := by
  obtain ⟨⟨node, r⟩, hnode, h⟩ := Option.bind_eq_some_iff.1 h
  dsimp only at h
  split at h
  · rename_i hend
    cases h
    have hrest : r.leaves = [] := by
      rw [leaves, ← leaves_dropWhile_documentEnd, hend]
      rfl
    rw [← hread _ r hnode, hrest, List.append_nil]
  · cases h

end NodeReader

open NodeReader in
/-- **The leaves of a document are those of its tokens**, in the same order. -/
theorem leaves_of_ofTokens? {tokens : List Token} {root : Node}
    (h : Node.ofTokens? tokens = some root) : root.leaves = tokens.flatMap Token.leaves := by
  have hread := (keepsLeaves (4 * tokens.length + 4)).node true false
  unfold Node.ofTokens? at h
  dsimp only at h
  split at h
  · cases h
    rfl
  split at h
  · obtain ⟨⟨handles, ts⟩, hdirectives, h⟩ := Option.bind_eq_some_iff.1 h
    rw [← leaves_readDirectives? hdirectives]
    dsimp only at h
    split at h
    · cases h
    rename_i hstart
    have hnext := leaves_of_peek (Decidable.not_not.1 hstart)
    split at h
    · exact leaves_of_single (splitsLeaves_missing hnext) h
    · exact (leaves_of_single (hread _) h).trans hnext
  · exact leaves_of_single (hread ⟨tokens, Tag.defaultHandles, []⟩) h

end UriTemplate.Yaml
