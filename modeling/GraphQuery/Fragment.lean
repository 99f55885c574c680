import GraphQuery.Rendering.Statement
import GraphQuery.Rendering.Writer
import GraphQuery.Renaming
import GraphQuery.Sameness

/-!
# Fragments

A fragment is any part of a query that can be rendered by itself, from a single
expression to a whole statement.
-/

set_option autoImplicit false

namespace GraphQuery

/-- Parts of queries of every sort. -/
inductive Fragment where
  | expr (e : Expr)
  | node (n : NodePattern)
  | relationship (r : RelationshipPattern)
  | length (l : Length)
  | path (p : Path)
  | projection (p : Projection)
  | clause (c : Clause)
  | query (q : Query)
  | statement (s : Statement)

namespace Fragment

/-- Pieces of a fragment, and the supply after the names it draws. A conditional
clause by itself has no scope to keep. -/
def pieces (supply : NameSupply) : Fragment → List Piece × NameSupply
  | .expr e => (e.pieces, supply)
  | .node n => (n.pieces, supply)
  | .relationship r => (r.pieces, supply)
  | .length l => (l.pieces, supply)
  | .path p => (p.pieces, supply)
  | .projection p => (p.pieces, supply)
  | .clause c => c.pieces false supply
  | .query q => q.pieces supply
  | .statement s => s.pieces supply

/-- Text of a fragment in a layout, and the supply after the names it draws. -/
def render (layout : Layout) (supply : NameSupply) (f : Fragment) : Rendered × NameSupply :=
  let rendered := f.pieces supply
  (Rendered.ofPieces layout rendered.1, rendered.2)

/-- The writer behind the text of a fragment that is written step by step. -/
def emit (layout : Layout) (supply : NameSupply) (f : Fragment) : Writer :=
  Writer.empty.putAll layout (f.pieces supply).1

/-- Text of a fragment in the compact layout, with a supply of its own. -/
def text (f : Fragment) : String := (f.render .compact .fresh).1.text

/-- Placeholders of a fragment. -/
def placeholders : Fragment → List Placeholder
  | .expr e => e.placeholders
  | .node n => n.placeholders
  | .relationship r => r.placeholders
  | .length _ => []
  | .path p => p.placeholders
  | .projection p => p.placeholders
  | .clause c => c.placeholders
  | .query q => q.placeholders
  | .statement s => s.placeholders

/-- The fragment with every placeholder replaced. -/
def mapPlaceholders (f : Placeholder → Placeholder) : Fragment → Fragment
  | .expr e => .expr (e.mapPlaceholders f)
  | .node n => .node (n.mapPlaceholders f)
  | .relationship r => .relationship (r.mapPlaceholders f)
  | .length l => .length l
  | .path p => .path (p.mapPlaceholders f)
  | .projection p => .projection (p.mapPlaceholders f)
  | .clause c => .clause (c.mapPlaceholders f)
  | .query q => .query (q.mapPlaceholders f)
  | .statement s => .statement (s.mapPlaceholders f)

instance : Renameable Fragment where
  placeholders := placeholders
  mapPlaceholders := mapPlaceholders

/-- Sameness of fragments. Fragments of different sorts are never the same. -/
def same : Fragment → Fragment → Bool
  | .expr a, .expr b => a.same b
  | .node a, .node b => a.same b
  | .relationship a, .relationship b => a.same b
  | .length a, .length b => a == b
  | .path a, .path b => a.same b
  | .projection a, .projection b => a.same b
  | .clause a, .clause b => a.same b
  | .query a, .query b => a.same b
  | .statement a, .statement b => a.same b
  | _, _ => false

end Fragment

/-- The part with its placeholders renamed. -/
def Renaming.rename {β : Type} [Renameable β] (r : Renaming) (part : β) : β :=
  Renameable.mapPlaceholders r.applyTo part

end GraphQuery
