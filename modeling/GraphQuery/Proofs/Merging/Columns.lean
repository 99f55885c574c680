import GraphQuery.Checked.Statement
import GraphQuery.Renaming

/-!
# Columns of renamed parts

The names of the columns that a statement returns do not depend on its placeholders, so a
conditional of renamed arms returns the columns on which the arms agree.

Main statements: `Statement.columns_mapPlaceholders` and `Choice.columns_of_build`.
-/

set_option autoImplicit false

namespace GraphQuery

/-! ## Columns and placeholders

An error may name the text of a column, in which placeholders do occur, so the lemmas
compare what is returned and leave errors aside. -/

/-- Leaving errors aside commutes with going on. -/
theorem toOption_bind {ε α β : Type} (x : Except ε α) (next : α → Except ε β) :
    (x >>= next).toOption = x.toOption.bind fun a => (next a).toOption := by
  cases x with
  | error e => rfl
  | ok a => rfl

theorem eq_ok_of_toOption {ε α : Type} {x y : Except ε α} {a : α}
    (h : x.toOption = y.toOption) (hy : y = .ok a) : x = .ok a := by
  rw [hy] at h
  cases x with
  | error e => cases h
  | ok b =>
      cases h
      rfl

variable (f : Placeholder → Placeholder)

/-- The name of a column does not depend on placeholders, but the error for one without a name
does. -/
theorem Column.name_mapPlaceholders (item : Column) :
    (item.mapPlaceholders f).name.toOption = item.name.toOption := by
  obtain ⟨e, alias?⟩ := item
  cases alias? with
  | some id => rfl
  | none => cases e <;> rfl

/-- Columns keep their names. -/
theorem Column.names_mapPlaceholders (items : List Column) :
    (Column.names (items.map (Column.mapPlaceholders f))).toOption =
      (Column.names items).toOption := by
  induction items with
  | nil => rfl
  | cons item rest ih =>
      rw [List.map_cons, Column.names, Column.names]
      simp only [toOption_bind, Column.name_mapPlaceholders f item, ih]

/-- A projection keeps its columns. -/
theorem Projection.columns_mapPlaceholders (p : Projection) :
    (p.mapPlaceholders f).columns.toOption = p.columns.toOption := by
  obtain ⟨distinct, selection⟩ := p
  cases selection with
  | everything more => rfl
  | items first more => exact Column.names_mapPlaceholders f (first :: more)

theorem Clause.mapList_eq_map (cs : List Clause) :
    Clause.mapList f cs = cs.map (Clause.mapPlaceholders f) := by
  induction cs with
  | nil => rfl
  | cons clause rest ih => rw [Clause.mapList, ih, List.map_cons]

theorem Query.mapList_eq_map (qs : List Query) :
    Query.mapList f qs = qs.map (Query.mapPlaceholders f) := by
  induction qs with
  | nil => rfl
  | cons query rest ih => rw [Query.mapList, ih, List.map_cons]

/-- A statement keeps the number and the order of its queries. -/
theorem Statement.queries_mapPlaceholders (s : Statement) :
    (s.mapPlaceholders f).queries = s.queries.map (Query.mapPlaceholders f) := by
  obtain ⟨first, more, union⟩ := s
  exact Query.mapList_eq_map f (first :: more)

/-- A clause that only sorts or cuts still does. -/
theorem Clause.keepsColumns_mapPlaceholders (c : Clause) :
    (c.mapPlaceholders f).keepsColumns = c.keepsColumns := by
  cases c <;> rfl

/-- The clause that decides about the columns stands where it stood. -/
theorem Clause.find?_mapPlaceholders (cs : List Clause) :
    ((cs.map (Clause.mapPlaceholders f)).reverse.find? fun clause => !clause.keepsColumns) =
      (cs.reverse.find? fun clause => !clause.keepsColumns).map (Clause.mapPlaceholders f) := by
  have hkeeps : (fun clause : Clause => !clause.keepsColumns) ∘ Clause.mapPlaceholders f =
      fun clause => !clause.keepsColumns :=
    funext fun clause => congrArg not (clause.keepsColumns_mapPlaceholders f)
  rw [← List.map_reverse, List.find?_map, hkeeps]

/-- A query keeps its columns. -/
theorem Query.columns_mapPlaceholders (q : Query) :
    (q.mapPlaceholders f).columns.toOption = q.columns.toOption := by
  obtain ⟨clauses⟩ := q
  rw [Query.mapPlaceholders, Clause.mapList_eq_map, Query.columns, Query.columns]
  dsimp only
  rw [Clause.find?_mapPlaceholders]
  -- the clause that decides returns the same columns, whichever clause it is
  cases clauses.reverse.find? fun clause => !clause.keepsColumns with
  | none => rfl
  | some clause =>
      cases clause with
      | returning projection => exact projection.columns_mapPlaceholders f
      | choice arms =>
          obtain ⟨cases, fallback, columns⟩ := arms
          rfl
      | matching _ _ _ _ | passing _ _ | unwind _ _ | create _ | setKey _ _ _ | delete _ _
      | orderBy _ | skip _ | limit _ | subquery _ => rfl

theorem Query.requireColumns_mapPlaceholders (expected : List Identifier) (qs : List Query) :
    (Query.requireColumns expected (qs.map (Query.mapPlaceholders f))).toOption =
      (Query.requireColumns expected qs).toOption := by
  induction qs with
  | nil => rfl
  | cons query rest ih =>
      rw [List.map_cons, Query.requireColumns, Query.requireColumns]
      simp only [toOption_bind, Query.columns_mapPlaceholders f query, ih]

/-- The columns of a statement do not depend on its placeholders. -/
theorem Statement.columns_mapPlaceholders (s : Statement) :
    (s.mapPlaceholders f).columns.toOption = s.columns.toOption := by
  obtain ⟨first, more, union⟩ := s
  rw [Statement.mapPlaceholders, Query.mapList_eq_map, Statement.columns, Statement.columns]
  simp only [toOption_bind, Query.columns_mapPlaceholders f first,
    Query.requireColumns_mapPlaceholders f]

/-- A statement has the columns that it has after replacing. -/
theorem Statement.columns_of_mapPlaceholders {s : Statement} {columns : List Identifier}
    (h : (s.mapPlaceholders f).columns = .ok columns) : s.columns = .ok columns :=
  eq_ok_of_toOption (s.columns_mapPlaceholders f).symm h

/-! ## Conditionals that could be built -/

/-- What succeeds in two steps succeeds in each. -/
theorem exists_of_bind_ok {ε α β : Type} {x : Except ε α} {next : α → Except ε β} {b : β}
    (h : (x >>= next) = .ok b) : ∃ a, x = .ok a ∧ next a = .ok b := by
  cases x with
  | error e => cases h
  | ok a => exact ⟨a, rfl, h⟩

/-- Columns that pass the comparison are those expected. -/
theorem eq_of_requireColumns {expected found : List Identifier}
    (h : requireColumns expected found = .ok ()) : expected = found := by
  unfold requireColumns at h
  split at h
  · next heq => exact heq
  · cases h

/-- Statements that pass the comparison return the columns expected. -/
theorem Statement.columns_of_requireColumns {expected : List Identifier} {ss : List Statement}
    (h : Statement.requireColumns expected ss = .ok ()) :
    ∀ s ∈ ss, s.columns = .ok expected := by
  induction ss with
  | nil => intro s hs; cases hs
  | cons first rest ih =>
      obtain ⟨found, hfound, hnext⟩ := exists_of_bind_ok h
      obtain ⟨_, hequal, hrest⟩ := exists_of_bind_ok hnext
      obtain rfl := eq_of_requireColumns hequal
      exact List.forall_mem_cons.2 ⟨hfound, ih hrest⟩

namespace Choice

theorem arms_of_cases {condition : Expr} {first : Statement} {rest : List (Expr × Statement)}
    {fallback : Statement} {columns : List Identifier} :
    (⟨(condition, first) :: rest, fallback, columns⟩ : Choice).arms =
      first :: (rest.map Prod.snd ++ [fallback]) := rfl

/-- The arms of a conditional that could be built keep equal rows apart and agree on the
columns. -/
theorem columns_of_build {cases : List (Expr × Statement)} {fallback : Statement}
    {choice : Choice} (h : Choice.build cases fallback = .ok choice) :
    (∀ arm ∈ choice.arms, arm.isDistinctUnion = false) ∧
      ∀ arm ∈ choice.arms, arm.columns = .ok choice.columns := by
  unfold Choice.build at h
  split at h
  · cases h
  · next condition first rest =>
      dsimp only at h
      split at h
      · cases h
      · next hunions =>
          obtain ⟨columns, hcommon, hchoice⟩ := exists_of_bind_ok h
          obtain ⟨expected, hfirst, hnext⟩ := exists_of_bind_ok hcommon
          obtain ⟨_, hmore, hexpected⟩ := exists_of_bind_ok hnext
          cases hexpected
          cases hchoice
          rw [arms_of_cases]
          constructor
          · intro arm harm
            simpa using List.findIdx?_eq_none_iff.1 hunions arm harm
          · exact List.forall_mem_cons.2 ⟨hfirst, Statement.columns_of_requireColumns hmore⟩

end Choice

end GraphQuery
