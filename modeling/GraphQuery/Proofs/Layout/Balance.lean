import GraphQuery.Proofs.Rendering.Spacing

/-!
# Balance of subquery bodies

The depth grows where a subquery body opens and shrinks where one closes. It would stop at
zero if more bodies closed than are open. In balanced pieces bodies open and close in pairs,
so the depth at which they are written comes back to where it was.

Main statements: `Balanced.append` and `Balanced.body`, from which balanced pieces are put
together, and `Covered.shift`, which places them at any depth.
-/

set_option autoImplicit false

namespace GraphQuery

namespace Piece

/-- The depth behind pieces that begin at the given depth. -/
def depthBehind (depth : Nat) (ps : List Piece) : Nat :=
  ps.foldl (fun depth p => p.depthAfter depth) depth

/-- The depth behind pieces is where the next ones begin. -/
theorem depthBehind_append (depth : Nat) (xs ys : List Piece) :
    depthBehind depth (xs ++ ys) = depthBehind (depthBehind depth xs) ys :=
  List.foldl_append

/-- The atoms of what stands behind some pieces are those at the depth behind them. -/
theorem atoms_append (layout : Layout) (depth : Nat) (xs ys : List Piece) :
    atoms layout depth (xs ++ ys) =
      atoms layout depth xs ++ atoms layout (depthBehind depth xs) ys := by
  induction xs generalizing depth with
  | nil => rfl
  | cons p rest ih =>
      rw [List.cons_append, atoms, atoms, ih, List.append_assoc]
      rfl

/-- What stands behind some pieces is written at the depth behind them. -/
theorem write_append (layout : Layout) (depth : Nat) (xs ys : List Piece) :
    write layout depth (xs ++ ys) =
      write layout depth xs ++ write layout (depthBehind depth xs) ys := by
  rw [← flatMap_write_atoms, atoms_append, List.flatMap_append, flatMap_write_atoms,
    flatMap_write_atoms]

/-- Pieces among others are written in one place, at the depth behind those before them. -/
theorem exists_write_of_infix {xs ps : List Piece} (h : xs <:+: ps) (layout : Layout) :
    ∃ depth before behind, write layout 0 ps = before ++ write layout depth xs ++ behind := by
  obtain ⟨front, rest, rfl⟩ := h
  refine ⟨depthBehind 0 front, write layout 0 front,
    write layout (depthBehind 0 (front ++ xs)) rest, ?_⟩
  rw [write_append, write_append]

/-- The end of a body stands at the depth of what is behind it. -/
theorem write_closeBody (layout : Layout) {before : List Piece} {outer : Nat}
    (h : depthBehind 0 before = outer + 1) (behind : List Piece) :
    write layout 0 (before ++ .closeBody :: behind) =
      write layout 0 before ++ (layout.lineBreak outer ++ '\x7d' :: write layout outer behind) := by
  rw [write_append, h]
  rfl

/-- Whether a body is open wherever one closes, if `depth` bodies are open before the
pieces. -/
def Covered : Nat → List Piece → Prop
  | _, [] => True
  | depth, p :: rest => (p = .closeBody → 0 < depth) ∧ Covered (p.depthAfter depth) rest

/-- Pieces that close the bodies which they open, and no others. -/
structure Balanced (ps : List Piece) : Prop where
  covered : Covered 0 ps
  settled : depthBehind 0 ps = 0

/-- Pieces are covered together if the later ones are at the depth which the earlier ones leave
behind. -/
theorem Covered.append {depth : Nat} {xs ys : List Piece} (hx : Covered depth xs)
    (hy : Covered (depthBehind depth xs) ys) : Covered depth (xs ++ ys) := by
  induction xs generalizing depth with
  | nil => exact hy
  | cons p rest ih => exact ⟨hx.1, ih hx.2 hy⟩

/-- The depth is positive before every piece that closes a body. -/
theorem Covered.depth_pos {depth : Nat} {before behind : List Piece}
    (h : Covered depth (before ++ .closeBody :: behind)) : 0 < depthBehind depth before := by
  induction before generalizing depth with
  | nil => exact h.1 rfl
  | cons p rest ih => exact ih h.2

/-- With more bodies open around them, pieces write at a greater depth throughout. -/
theorem Covered.shift {depth : Nat} {ps : List Piece} (h : Covered depth ps) (outer : Nat) :
    Covered (depth + outer) ps ∧ depthBehind (depth + outer) ps = depthBehind depth ps + outer := by
  induction ps generalizing depth with
  | nil => exact ⟨trivial, rfl⟩
  | cons p rest ih =>
      have hdepth : p.depthAfter (depth + outer) = p.depthAfter depth + outer := by
        cases p with
        | openBody => exact Nat.add_right_comm depth outer 1
        | closeBody =>
            -- a body is open here, so neither depth stops at zero
            have hpos := h.1 rfl
            simp only [depthAfter]
            omega
        | word _ | name _ | selector _ | quoted _ _ | placeholder _ | gap | lineBreak => rfl
      have hrest := ih h.2
      rw [← hdepth] at hrest
      exact ⟨⟨fun hp => Nat.add_pos_left (h.1 hp) outer, hrest.1⟩, hrest.2⟩

namespace Balanced

theorem nil : Balanced [] := ⟨trivial, rfl⟩

/-- Balanced pieces one after the other are balanced. -/
theorem append {xs ys : List Piece} (hx : Balanced xs) (hy : Balanced ys) :
    Balanced (xs ++ ys) := by
  constructor
  · refine hx.covered.append ?_
    rw [hx.settled]
    exact hy.covered
  · rw [depthBehind_append, hx.settled, hy.settled]

theorem lineBreak {rest : List Piece} (h : Balanced rest) : Balanced (.lineBreak :: rest) :=
  ⟨⟨by simp, h.covered⟩, h.settled⟩

/-- A piece that stays on its line opens and closes no body. -/
theorem inline_cons {p : Piece} {rest : List Piece} (hp : p.isInline = true)
    (h : Balanced rest) : Balanced (p :: rest) := by
  cases p with
  | lineBreak | openBody | closeBody => cases hp
  | word _ | name _ | selector _ | quoted _ _ | placeholder _ | gap =>
      exact ⟨⟨by simp, h.covered⟩, h.settled⟩

/-- Pieces on one line are balanced. -/
theorem of_inline {ps : List Piece} (h : ps.all isInline = true) : Balanced ps := by
  induction ps with
  | nil => exact nil
  | cons p rest ih =>
      rw [List.all_cons, Bool.and_eq_true] at h
      exact (ih h.2).inline_cons h.1

/-- The depth behind balanced pieces is that before them. -/
theorem depthBehind_eq {ps : List Piece} (h : Balanced ps) (depth : Nat) :
    depthBehind depth ps = depth := by
  have hshift := (h.covered.shift depth).2
  rwa [h.settled, Nat.zero_add] at hshift

/-- A balanced body between its two ends. -/
theorem body {inside : List Piece} (h : Balanced inside) :
    Balanced (.openBody :: inside ++ [.closeBody]) := by
  -- the inside is written one body deeper, which the end of the body makes up for
  have hcovered := (h.covered.shift 1).1
  constructor
  · refine ⟨by simp, hcovered.append ?_⟩
    rw [Nat.zero_add, h.depthBehind_eq]
    exact ⟨fun _ => Nat.one_pos, trivial⟩
  · show depthBehind 1 (inside ++ [.closeBody]) = 0
    rw [depthBehind_append, h.depthBehind_eq]
    rfl

end Balanced

end Piece

end GraphQuery
