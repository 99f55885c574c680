import GraphQuery.Proofs.Merging.Agreement
import GraphQuery.Proofs.Sameness.Placeholders

/-!
# Columns of statements that are the same

The columns of a statement are names and aliases, which sameness compares as they are. Only
the text in which an unnamed column is cited may differ, so errors are left aside.

Main statement: `Statement.columns_iff_of_same`.
-/

set_option autoImplicit false

namespace GraphQuery

/-- A variable is the same as itself only. -/
theorem Expr.eq_name_of_same {var : Identifier} {b : Expr} (h : (Expr.name var).same b = true) :
    b = .name var := by
  cases b with
  | name other =>
      simp only [Expr.same, beq_iff_eq] at h
      rw [h]
  | _ => cases Expr.ctorIdx_of_same h

/-- Columns that are the same have the same name or none. -/
theorem Column.name_of_same {a b : Column} (h : a.same b = true) :
    a.name.toOption = b.name.toOption := by
  obtain ⟨expr, alias?⟩ := a
  obtain ⟨other, alias?'⟩ := b
  simp only [Column.same, Bool.and_eq_true, beq_iff_eq] at h
  obtain ⟨hexpr, rfl⟩ := h
  cases alias? with
  | some id => rfl
  | none =>
      -- without an alias only a variable has a name, and the other one is then the same variable
      by_cases hname : ∃ var, expr = .name var
      · obtain ⟨var, rfl⟩ := hname
        rw [Expr.eq_name_of_same hexpr]
      · have hother : ¬∃ var, other = .name var := by
          rintro ⟨var, rfl⟩
          cases expr with
          | name own => exact hname ⟨own, rfl⟩
          | _ => cases Expr.ctorIdx_of_same hexpr
        rw [Column.name_of_not_named (by simpa [Column.Named] using hname),
          Column.name_of_not_named (by simpa [Column.Named] using hother)]
        rfl

theorem Column.names_of_same {as bs : List Column} (h : sameListBy Column.same as bs = true) :
    (Column.names as).toOption = (Column.names bs).toOption := by
  induction as generalizing bs with
  | nil =>
      cases bs with
      | nil => rfl
      | cons => cases h
  | cons a rest ih =>
      cases bs with
      | nil => cases h
      | cons b others =>
          obtain ⟨hb, hothers⟩ := (Bool.and_eq_true _ _).mp h
          rw [Column.names, Column.names]
          simp only [toOption_bind, Column.name_of_same hb, ih hothers]

/-- Projections that are the same have the same columns. -/
theorem Projection.columns_of_same {p q : Projection} (h : p.same q = true) :
    p.columns.toOption = q.columns.toOption := by
  have hitems := Projection.sameItems_of_same h
  obtain ⟨distinct, selection⟩ := p
  obtain ⟨distinct', selection'⟩ := q
  have hselection : selection.same selection' = true := ((Bool.and_eq_true _ _).mp h).2
  cases selection with
  | everything more =>
      cases selection' with
      | everything => rfl
      | items => cases hselection
  | items first more =>
      cases selection' with
      | everything => cases hselection
      | items => exact Column.names_of_same hitems

/-! ## The clause that decides -/

/-- Of two clauses that are the same, both only sort or cut or neither does. -/
theorem Clause.keepsColumns_of_same {c d : Clause} (h : c.same d = true) :
    c.keepsColumns = d.keepsColumns := by
  have hkind := Clause.ctorIdx_of_same h
  cases c <;> cases d <;> first | rfl | cases hkind

/-- Clauses that are the same, one by one. -/
theorem Clause.forall₂_of_sameList {cs ds : List Clause} (h : Clause.sameList cs ds = true) :
    List.Forall₂ (fun c d => Clause.same c d = true) cs ds := by
  induction cs generalizing ds with
  | nil =>
      cases ds with
      | nil => exact .nil
      | cons => simp [Clause.sameList] at h
  | cons c rest ih =>
      cases ds with
      | nil => simp [Clause.sameList] at h
      | cons d others =>
          simp only [Clause.sameList, Bool.and_eq_true] at h
          exact .cons h.1 (ih h.2)

/-- What is found first in one list corresponds to what is found first in the other. -/
theorem find?_of_forall₂ {α : Type} {r : α → α → Prop} {p : α → Bool} {as bs : List α}
    (h : List.Forall₂ r as bs) (hp : ∀ a b, r a b → p a = p b) :
    Option.Rel r (as.find? p) (bs.find? p) := by
  induction h with
  | nil => exact .none
  | @cons a b as bs hab _ ih =>
      rw [List.find?_cons, List.find?_cons, hp a b hab]
      split
      · exact .some hab
      · exact ih

/-- Queries that are the same have the same columns. -/
theorem Query.columns_of_same {q r : Query} (h : q.same r = true) :
    q.columns.toOption = r.columns.toOption := by
  obtain ⟨clauses⟩ := q
  obtain ⟨others⟩ := r
  simp only [Query.same] at h
  have hreverse := List.rel_reverse (Clause.forall₂_of_sameList h)
  have hfound := find?_of_forall₂ (p := fun clause => !clause.keepsColumns) hreverse
    fun c d hcd => congrArg not (Clause.keepsColumns_of_same hcd)
  rw [Query.columns, Query.columns]
  dsimp only
  generalize (clauses.reverse.find? fun clause => !clause.keepsColumns) = found at hfound ⊢
  generalize (others.reverse.find? fun clause => !clause.keepsColumns) = found' at hfound ⊢
  cases hfound with
  | none => rfl
  | @some c d hcd =>
      have hkind := Clause.ctorIdx_of_same hcd
      cases c with
      | returning p =>
          cases d with
          | returning q =>
              simp only [Clause.same] at hcd
              exact Projection.columns_of_same hcd
          | _ => cases hkind
      | choice arms =>
          cases d with
          | choice others =>
              obtain ⟨cases, fallback, columns⟩ := arms
              obtain ⟨cases', fallback', columns'⟩ := others
              simp only [Clause.same, Choice.same, Bool.and_eq_true, beq_iff_eq] at hcd
              rw [hcd.2]
          | _ => cases hkind
      | _ =>
          cases d with
          | returning => cases hkind
          | choice => cases hkind
          | _ => rfl

/-! ## Statements -/

theorem Query.requireColumns_of_same {expected : List Identifier} {qs rs : List Query}
    (h : Query.sameList qs rs = true) :
    (Query.requireColumns expected qs).toOption = (Query.requireColumns expected rs).toOption := by
  induction qs generalizing rs with
  | nil =>
      cases rs with
      | nil => rfl
      | cons => simp [Query.sameList] at h
  | cons q rest ih =>
      cases rs with
      | nil => simp [Query.sameList] at h
      | cons r others =>
          simp only [Query.sameList, Bool.and_eq_true] at h
          rw [Query.requireColumns, Query.requireColumns]
          simp only [toOption_bind, Query.columns_of_same h.1, ih h.2]

/-- Statements that are the same have the same columns, or none of them has any. -/
theorem Statement.columns_of_same {s t : Statement} (h : s.same t = true) :
    s.columns.toOption = t.columns.toOption := by
  obtain ⟨first, more, union⟩ := s
  obtain ⟨first', more', union'⟩ := t
  simp only [Statement.same, Bool.and_eq_true] at h
  rw [Statement.columns, Statement.columns]
  simp only [toOption_bind, Query.columns_of_same h.1.1, Query.requireColumns_of_same h.1.2]

/-- Statements that are the same return the same columns, or neither returns any. -/
theorem Statement.columns_iff_of_same {s t : Statement} (h : s.same t = true)
    (columns : List Identifier) : s.columns = .ok columns ↔ t.columns = .ok columns := by
  have hcolumns := Statement.columns_of_same h
  exact ⟨eq_ok_of_toOption hcolumns.symm, eq_ok_of_toOption hcolumns⟩

end GraphQuery
