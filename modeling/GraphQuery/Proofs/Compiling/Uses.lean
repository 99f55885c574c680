import GraphQuery.Proofs.Merging.Tables
import GraphQuery.Proofs.Rendering.Fragment
import GraphQuery.Template

/-!
# Checking uses

Compiling checks each use of a placeholder against the declarations and stops at the first
that they refuse: a name that is not declared, or one that is declared at a kind that does
not accept the use. Rendering keeps a record of the uses without repetitions, and checking
the record is checking the placeholders of the syntax.

Main statements: `Declarations.checkUses_error_iff`, the error is that of the first refused
use, and `Parametrized.result_compile`.
-/

set_option autoImplicit false

namespace GraphQuery

namespace Declarations

/-- Uses of names that are declared, at a kind that accepts the use. -/
def Takes (d : Declarations) (use : Placeholder) : Prop :=
  ∃ kind, d.get? use.name = some kind ∧ kind.accepts use.kind = true

/-- Uses that declarations refuse, with the error that says why. -/
inductive Refuses (d : Declarations) (use : Placeholder) : Error → Prop where
  | undeclared (h : d.get? use.name = none) : Refuses d use (.undeclaredParameter use.name)
  | conflict {kind : Kind} (h : d.get? use.name = some kind)
      (haccepts : kind.accepts use.kind = false) :
      Refuses d use (.kindConflict use.name kind use.kind)

section Checks

variable {d : Declarations} {use : Placeholder} {uses : List Placeholder} {e : Error}

/-- A use of a declared name is checked by its kind. -/
theorem checkUse_of_get? {kind : Kind} (h : d.get? use.name = some kind) :
    d.checkUse use = if kind.accepts use.kind then .ok ()
      else .error (.kindConflict use.name kind use.kind) := by
  rw [checkUse, h]

/-- A use is taken, or it is refused for a reason. -/
theorem takes_or_refuses (d : Declarations) (use : Placeholder) :
    (d.Takes use ∧ d.checkUse use = .ok ()) ∨
      ∃ e, d.Refuses use e ∧ d.checkUse use = .error e := by
  cases hkind : d.get? use.name with
  | none => exact .inr ⟨_, .undeclared hkind, by rw [checkUse, hkind]⟩
  | some kind =>
      rw [checkUse_of_get? hkind]
      cases haccepts : kind.accepts use.kind with
      | true => exact .inl ⟨⟨kind, hkind, haccepts⟩, rfl⟩
      | false => exact .inr ⟨_, .conflict hkind haccepts, rfl⟩

/-- No use is both taken and refused. -/
theorem Refuses.not_takes (h : d.Refuses use e) : ¬ d.Takes use := by
  rintro ⟨kind, hkind, haccepts⟩
  cases h with
  | undeclared hnone =>
      rw [hkind] at hnone
      cases hnone
  | conflict hother hrefused =>
      rw [hkind] at hother
      cases hother
      rw [haccepts] at hrefused
      cases hrefused

/-- The check of a use decides whether it is taken. -/
theorem checkUse_ok_iff : d.checkUse use = .ok () ↔ d.Takes use := by
  rcases takes_or_refuses d use with ⟨htakes, hok⟩ | ⟨e, hrefuses, herror⟩
  · exact ⟨fun _ => htakes, fun _ => hok⟩
  · rw [herror]
    constructor
    · rintro ⟨⟩
    · exact fun htakes => absurd htakes hrefuses.not_takes

/-- The error of a check is the reason of the refusal. -/
theorem checkUse_error_iff : d.checkUse use = .error e ↔ d.Refuses use e := by
  constructor
  · intro h
    rcases takes_or_refuses d use with ⟨-, hok⟩ | ⟨found, hrefuses, herror⟩
    · rw [hok] at h
      cases h
    · rw [herror] at h
      cases h
      exact hrefuses
  · intro h
    cases h with
    | undeclared hnone => rw [checkUse, hnone]
    | conflict hkind haccepts => rw [checkUse_of_get? hkind, haccepts]; rfl

theorem checkUses_cons (d : Declarations) (use : Placeholder) (rest : List Placeholder) :
    d.checkUses (use :: rest) = (d.checkUse use).bind fun _ => d.checkUses rest := rfl

/-- Checks run one after the other, and the first error ends them. -/
theorem checkUses_append (d : Declarations) (xs ys : List Placeholder) :
    d.checkUses (xs ++ ys) = (d.checkUses xs).bind fun _ => d.checkUses ys := by
  induction xs with
  | nil => rfl
  | cons x rest ih =>
      rw [List.cons_append, checkUses_cons, checkUses_cons, ih]
      cases d.checkUse x with
      | error e => rfl
      | ok _ => rfl

/-- All uses are taken, or the check ends with the error of the first that is not. -/
theorem checkUses_cases (d : Declarations) (uses : List Placeholder) :
    ((∀ use ∈ uses, d.Takes use) ∧ d.checkUses uses = .ok ()) ∨
      ∃ before use after e, uses = before ++ use :: after ∧ (∀ u ∈ before, d.Takes u) ∧
        d.Refuses use e ∧ d.checkUses uses = .error e := by
  induction uses with
  | nil => exact .inl ⟨fun use hmem => (List.not_mem_nil hmem).elim, rfl⟩
  | cons first rest ih =>
      rw [checkUses_cons]
      rcases takes_or_refuses d first with ⟨hfirst, hok⟩ | ⟨e, hrefuses, herror⟩
      · rw [hok]
        rcases ih with ⟨hall, hpass⟩ | ⟨before, use, after, e, hsplit, hbefore, hrefuses, hfail⟩
        · exact .inl ⟨List.forall_mem_cons.2 ⟨hfirst, hall⟩, hpass⟩
        · exact .inr ⟨first :: before, use, after, e, congrArg (first :: ·) hsplit,
            List.forall_mem_cons.2 ⟨hfirst, hbefore⟩, hrefuses, hfail⟩
      · rw [herror]
        exact .inr ⟨[], first, rest, e, rfl, fun u hu => (List.not_mem_nil hu).elim, hrefuses, rfl⟩

/-- Uses pass together if each of them is taken. -/
theorem checkUses_ok_iff : d.checkUses uses = .ok () ↔ ∀ use ∈ uses, d.Takes use := by
  rcases checkUses_cases d uses with ⟨hall, hok⟩ | ⟨before, use, after, e, rfl, -, hrefuses, herror⟩
  · exact ⟨fun _ => hall, fun _ => hok⟩
  · rw [herror]
    constructor
    · rintro ⟨⟩
    · intro hall
      exact absurd (hall use (by simp)) hrefuses.not_takes

/-- The error is that of the first use that is refused. -/
theorem checkUses_error_iff : d.checkUses uses = .error e ↔
    ∃ before use after, uses = before ++ use :: after ∧ (∀ u ∈ before, d.Takes u) ∧
      d.Refuses use e := by
  constructor
  · intro h
    rcases checkUses_cases d uses with
      ⟨-, hok⟩ | ⟨before, use, after, found, hsplit, hbefore, hrefuses, herror⟩
    · rw [hok] at h
      cases h
    · rw [herror] at h
      cases h
      exact ⟨before, use, after, hsplit, hbefore, hrefuses⟩
  · rintro ⟨before, use, after, rfl, hbefore, hrefuses⟩
    rw [checkUses_append, checkUses_ok_iff.2 hbefore]
    show d.checkUses (use :: after) = .error e
    rw [checkUses_cons, checkUse_error_iff.2 hrefuses]
    rfl

/-- A use that is repeated need not be checked again. -/
theorem checkUses_eraseDups (d : Declarations) (uses : List Placeholder) :
    d.checkUses uses.eraseDups = d.checkUses uses := by
  -- the first occurrence is the one that stays, so the last use is the one to split off
  induction uses using List.reverseRecOn with
  | nil => rfl
  | append_singleton uses use ih =>
      rw [eraseDups_concat]
      split
      · next hmem =>
          rw [ih, checkUses_append]
          cases huses : d.checkUses uses with
          | error e => rfl
          | ok _ =>
              have huse := checkUse_ok_iff.2 (checkUses_ok_iff.1 huses use hmem)
              rw [checkUses_cons, huse]
              rfl
      · rw [checkUses_append, ih, checkUses_append]

end Checks

end Declarations

/-- Compiling a fragment checks its placeholders, whatever the layout and the supply. -/
theorem Parametrized.result_compile (q : Parametrized Fragment) (layout : Layout)
    (supply : NameSupply) :
    (q.compile layout supply).1.result =
      (q.params.checkUses q.body.placeholders).map fun _ =>
        ⟨(q.body.render layout supply).1.text, q.params⟩ := by
  have huses : q.params.checkUses (q.body.render layout supply).1.uses =
      q.params.checkUses q.body.placeholders := by
    show q.params.checkUses (Piece.placeholders (q.body.pieces supply).1).eraseDups = _
    rw [q.body.placeholders_pieces, Declarations.checkUses_eraseDups]
  unfold compile
  dsimp only
  rw [huses]
  cases q.params.checkUses q.body.placeholders with
  | error e => rfl
  | ok _ => rfl

end GraphQuery
