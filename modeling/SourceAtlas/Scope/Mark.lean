import SourceAtlas.Scope.Graph
import SourceAtlas.Summary

/-!
# Marks

What the syntax tree of a file says about its scopes, the names bound in it and the names used in
it.

* `Span`: a range of bytes;
* `NameMark`, `ScopeMark`, `BindingMark`, `UseMark`, **`Marks`**;
* `BindingMark.merge`: one binding for each bound name;
* `Marks.realUses`, `UseMark.arrange`: one use for each used name.
-/

namespace SourceAtlas

/-- A range of bytes. -/
structure Span where
  start : Nat
  /-- The offset after the last byte. -/
  stop : Nat
deriving DecidableEq, Repr

namespace Span

/-- Does a span lie in another? -/
def contains (outer inner : Span) : Bool := outer.start ≤ inner.start && inner.stop ≤ outer.stop

/-- How many bytes a span covers. -/
def length (s : Span) : Nat := s.stop - s.start

end Span

/-- A name in a source. -/
structure NameMark where
  /-- The number of the node that holds the name. -/
  node : Nat
  span : Span
  text : String
  location : Location
deriving DecidableEq, Repr

/-- A region that is a scope. -/
structure ScopeMark where
  span : Span
  kind : ScopeKind
deriving DecidableEq, Repr

/-- A region that binds a name. -/
structure BindingMark where
  span : Span
  kind : DefinitionKind
  /-- The bound name; an import may leave it out. -/
  name : Option NameMark
  declaredType : Option String
  /-- What an import imports. -/
  path : Option String
  /-- The label of the binding node. -/
  statement : String
  location : Location
deriving DecidableEq, Repr

/-- A use of a name. -/
structure UseMark where
  name : NameMark
  member : Option NameMark
deriving DecidableEq, Repr

/-- The marks of a file. -/
structure Marks where
  scopes : List ScopeMark
  bindings : List BindingMark
  uses : List UseMark
deriving DecidableEq, Repr

namespace ScopeMark

/-- Outer regions come before inner ones, and earlier ones before later ones. -/
def before (a b : ScopeMark) : Bool :=
  a.span.start < b.span.start || (a.span.start == b.span.start && b.span.stop ≤ a.span.stop)

/-- The regions from the outside to the inside, each once. -/
def arrange (marks : List ScopeMark) : List ScopeMark := (marks.mergeSort before).eraseReps

end ScopeMark

namespace BindingMark

/-- What tells bindings apart: the node of the name, or else the region and what is imported. -/
def key (m : BindingMark) : Nat ⊕ (Span × Option String) :=
  match m.name with
  | some n => .inl n.node
  | none => .inr (m.span, m.path)

/-- Adds a binding. If its name is known already, a generic kind gives way to a specific one. -/
def merge (m : BindingMark) : List BindingMark → List BindingMark
  | [] => [m]
  | k :: ks =>
    if k.key = m.key then
      (if k.kind.isGeneric && !m.kind.isGeneric then { k with kind := m.kind } else k) :: ks
    else k :: merge m ks

/-- Bindings are ordered by where they are. -/
def before (a b : BindingMark) : Bool :=
  let p := a.location
  let q := b.location
  p.startLine.toNat < q.startLine.toNat ||
    (p.startLine == q.startLine && (p.startColumn.toNat < q.startColumn.toNat ||
      (p.startColumn == q.startColumn && a.span.start ≤ b.span.start)))

/-- One binding for each bound name, ordered by where they are. -/
def arrange (marks : List BindingMark) : List BindingMark :=
  (marks.foldl (fun kept m => merge m kept) []).mergeSort before

end BindingMark

namespace UseMark

/-- What tells uses apart. -/
def key (u : UseMark) : Nat × Option Nat := (u.name.node, u.member.map (·.node))

/-- Uses are ordered by where they are. -/
def before (a b : UseMark) : Bool :=
  a.name.span.start < b.name.span.start ||
    (a.name.span.start == b.name.span.start && a.name.span.stop ≤ b.name.span.stop)

/-- The nodes that are used as a name with a member, or as that member. -/
def dottedNodes (uses : List UseMark) : List Nat :=
  uses.flatMap fun u =>
    match u.member with
    | some m => [u.name.node, m.node]
    | none => []

/-- One use for each used name, ordered by where they are. A name used with a member is not used on
its own as well. -/
def arrange (uses : List UseMark) : List UseMark :=
  let dotted := dottedNodes uses
  (firstBy key (uses.filter fun u => u.member.isSome || !dotted.contains u.name.node)).mergeSort
    before

end UseMark

namespace Marks

/-- The nodes of the bound names. -/
def boundNodes (m : Marks) : List Nat := m.bindings.filterMap fun b => b.name.map (·.node)

/-- The uses, without the bound names. -/
def realUses (m : Marks) : List UseMark :=
  let bound := m.boundNodes
  m.uses.filter fun u => u.member.isSome || !bound.contains u.name.node

end Marks

end SourceAtlas
