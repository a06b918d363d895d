import UriTemplate.Yaml.Reference

/-!
# Leaves of YAML trees

A leaf is a scalar or a reference; nodes that are missing are none. The leaves of a tree stand from
left to right, as those of tokens do. A reader of nodes keeps the leaves if those of what it reads,
and behind them those of what it leaves, are those that were there (`SplitsLeaves`); readers that
are called one after another keep them together.
-/

namespace UriTemplate.Yaml
set_option autoImplicit false

/-- What in a text becomes a node without parts. -/
inductive Leaf
  | reference
  | scalar (text : Text) (isPlain : Bool)

/-- The leaf that a scalar is, unless nothing is written there. -/
def scalarLeaves (text : Text) (isPlain : Bool) : List Leaf :=
  if isPlain && text = [] then [] else [.scalar text isPlain]

/-- The leaf that a token stands for, if any. -/
def Token.leaves : Token → List Leaf
  | reference _ => [.reference]
  | scalar text isPlain => scalarLeaves text isPlain
  | _ => []

namespace Node

/-- The leaf that a node is, if it has no parts. -/
def ownLeaves : Node → List Leaf
  | reference _ => [.reference]
  | scalar _ text isPlain => scalarLeaves text isPlain
  | sequence .. | mapping .. => []

/-- The leaves of a tree, from left to right. -/
def leaves (node : Node) : List Leaf := node.preorder.flatMap ownLeaves

/-- The leaves of items. -/
def itemLeaves (items : List Node) : List Leaf := items.flatMap leaves

/-- The leaves of entries, each key in front of its value. -/
def entryLeaves (entries : List (Node × Node)) : List Leaf :=
  entries.flatMap fun e => e.1.leaves ++ e.2.leaves

theorem leaves_scalar (p : Properties) (text : Text) (isPlain : Bool) :
    (scalar p text isPlain).leaves = scalarLeaves text isPlain :=
  List.append_nil _

theorem leaves_sequence (p : Properties) (items : List Node) :
    (sequence p items).leaves = itemLeaves items := by
  show (preorderItems items).flatMap ownLeaves = _
  induction items with
  | nil => rfl
  | cons item items ih => rw [preorderItems, List.flatMap_append, ih]; rfl

theorem leaves_mapping (p : Properties) (entries : List (Node × Node)) :
    (mapping p entries).leaves = entryLeaves entries := by
  show (preorderEntries entries).flatMap ownLeaves = _
  induction entries with
  | nil => rfl
  | cons e entries ih =>
    rw [preorderEntries, List.flatMap_append, List.flatMap_append, ih]
    rfl

end Node

namespace NodeReader
open Node

variable {r r' : NodeReader}

/-- The leaves of what is left to read. -/
def leaves (r : NodeReader) : List Leaf := r.tokens.flatMap Token.leaves

theorem peek_next_leaves (r : NodeReader) : r.peek.leaves ++ r.next.leaves = r.leaves := by
  obtain ⟨tokens, handles, anchors⟩ := r
  cases tokens <;> rfl

/-- A known token is in front of what is left. -/
theorem leaves_of_peek {t : Token} (h : r.peek = t) : t.leaves ++ r.next.leaves = r.leaves :=
  h ▸ r.peek_next_leaves

/-! ## Properties -/

theorem leaves_readTag? {tag : Option Tag} (h : r.readTag? = some (tag, r')) :
    r'.leaves = r.leaves := by
  unfold readTag? at h
  split at h
  · rename_i htoken
    obtain ⟨_, -, heq⟩ := Option.map_eq_some_iff.1 h
    cases heq
    exact leaves_of_peek htoken
  · cases h
    rfl

theorem leaves_readAnchor (r : NodeReader) : r.readAnchor.2.leaves = r.leaves := by
  unfold readAnchor
  split
  · rename_i htoken
    exact leaves_of_peek htoken
  · rfl

/-- Properties are no leaves. -/
theorem leaves_readProperties? {p : Properties} (h : r.readProperties? = some (p, r')) :
    r'.leaves = r.leaves := by
  have hanchor := leaves_readAnchor r
  unfold readProperties? at h
  split at h
  · rename_i r₁ heq
    rw [heq] at hanchor
    obtain ⟨⟨tag, r₂⟩, htag, heq⟩ := Option.bind_eq_some_iff.1 h
    cases heq
    exact (leaves_readTag? htag).trans hanchor
  · rename_i r₁ heq
    rw [heq] at hanchor
    obtain ⟨⟨tag, r₂⟩, htag, h⟩ := Option.bind_eq_some_iff.1 h
    have htag := (leaves_readTag? htag).trans hanchor
    dsimp only at h
    split at h
    · cases h
      exact (leaves_readAnchor r₂).trans htag
    · cases h
      exact htag

/-! ## What is read and what is left -/

/-- The leaves of what is read, and behind them those of what is left, are `total`. -/
def SplitsLeaves {α : Type} (leaves : α → List Leaf) (total : List Leaf)
    (read : Option (α × NodeReader)) : Prop :=
  ∀ a r, read = some (a, r) → leaves a ++ r.leaves = total

section

variable {α β : Type} {leavesOf : α → List Leaf} {leavesOf' : β → List Leaf}
  {total total' : List Leaf}

theorem splitsLeaves_none : SplitsLeaves leavesOf total none := nofun

theorem splitsLeaves_some {a : α} (h : leavesOf a ++ r.leaves = total) :
    SplitsLeaves leavesOf total (some (a, r)) := by
  intro _ _ heq
  cases heq
  exact h

/-- Nothing is written, and nothing is read. -/
theorem splitsLeaves_missing {r : NodeReader} (h : r.leaves = total) :
    SplitsLeaves Node.leaves total (some (.missing, r)) :=
  splitsLeaves_some h

theorem SplitsLeaves.bind {read : Option (α × NodeReader)}
    {f : α × NodeReader → Option (β × NodeReader)} (h : SplitsLeaves leavesOf total' read)
    (hf : ∀ a r, leavesOf a ++ r.leaves = total' → SplitsLeaves leavesOf' total (f (a, r))) :
    SplitsLeaves leavesOf' total (read.bind f) := by
  intro b r' hread
  obtain ⟨⟨a, r⟩, ha, hb⟩ := Option.bind_eq_some_iff.1 hread
  exact hf a r (h a r ha) b r' hb

theorem SplitsLeaves.map {read : Option (α × NodeReader)} {f : α → β}
    (h : SplitsLeaves leavesOf total read) (hf : ∀ a, leavesOf' (f a) = leavesOf a) :
    SplitsLeaves leavesOf' total (read.map fun x => (f x.1, x.2)) := by
  intro b r hread
  obtain ⟨⟨a, r⟩, ha, heq⟩ := Option.map_eq_some_iff.1 hread
  cases heq
  rw [hf]
  exact h a r ha

end

end NodeReader

end UriTemplate.Yaml
