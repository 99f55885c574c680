import GraphQuery.Fragment
import GraphQuery.Proofs.Building.Nested

/-!
# Columns that agree

The arms of a conditional return the same named columns. Whether they do can be told from
the arms as they were written, before their placeholders are renamed: a renaming shows
only in the text of a column that has no name. Where they do not, the first query that is
at fault decides the error.

Main statement: `Statement.columns_rename_error_iff`.
-/

set_option autoImplicit false

namespace GraphQuery

/-! ## The first that is refused -/

/-- Elements pass one after the other until one is refused for the reason `e`. -/
inductive FirstRefused {α : Type} (passes : α → Prop) (refuses : α → Error → Prop) :
    List α → Error → Prop where
  | here {a : α} {rest : List α} {e : Error} (h : refuses a e) :
      FirstRefused passes refuses (a :: rest) e
  | there {a : α} {rest : List α} {e : Error} (h : passes a)
      (later : FirstRefused passes refuses rest e) : FirstRefused passes refuses (a :: rest) e

/-- The error without the text of a column that has no name. -/
def Error.textless : Error → Error
  | .unnamedColumn _ => .unnamedColumn ""
  | e => e

namespace FirstRefused

variable {α β : Type} {passes : α → Prop} {refuses refuses' : α → Error → Prop}
  {l l' : List α} {e : Error}

/-- The first refusal in two lists is in the first, or in the second if the first passes. -/
theorem append_iff : FirstRefused passes refuses (l ++ l') e ↔
    FirstRefused passes refuses l e ∨
      (∀ a ∈ l, passes a) ∧ FirstRefused passes refuses l' e := by
  induction l with
  | nil => simpa using fun h => nomatch h
  | cons a rest ih =>
      constructor
      · intro h
        cases h with
        | here h => exact Or.inl (.here h)
        | there h later =>
            rcases ih.1 later with hrest | ⟨hrest, hl'⟩
            · exact Or.inl (.there h hrest)
            · exact Or.inr ⟨List.forall_mem_cons.2 ⟨h, hrest⟩, hl'⟩
      · rintro (h | ⟨hall, hl'⟩)
        · cases h with
          | here h => exact .here h
          | there h later => exact .there h (ih.2 (Or.inl later))
        · obtain ⟨ha, hrest⟩ := List.forall_mem_cons.1 hall
          exact .there ha (ih.2 (Or.inr ⟨hrest, hl'⟩))

/-- In a list of one element that element is the first to be refused. -/
theorem singleton_iff {a : α} : FirstRefused passes refuses [a] e ↔ refuses a e := by
  constructor
  · intro h
    cases h with
    | here h => exact h
    | there _ later => cases later
  · exact .here

/-- A first refusal passes through a map. -/
theorem map_iff {f : β → α} {l : List β} : FirstRefused passes refuses (l.map f) e ↔
    FirstRefused (fun b => passes (f b)) (fun b => refuses (f b)) l e := by
  constructor
  · intro h
    induction l with
    | nil => cases h
    | cons b rest ih =>
        cases h with
        | here h => exact .here h
        | there h later => exact .there h (ih later)
  · intro h
    induction h with
    | here h => exact .here h
    | there h _ ih => exact .there h ih

/-- What stands before the element that is refused passes. -/
theorem split (h : FirstRefused passes refuses l e) :
    ∃ before a after, l = before ++ a :: after ∧ (∀ b ∈ before, passes b) ∧ refuses a e := by
  induction h with
  | here h => exact ⟨[], _, _, rfl, by simp, h⟩
  | there h _ ih =>
      obtain ⟨before, a, after, rfl, hbefore, ha⟩ := ih
      exact ⟨_ :: before, a, after, rfl, List.forall_mem_cons.2 ⟨h, hbefore⟩, ha⟩

/-- Either all elements pass or a first one is refused. -/
theorem total (h : ∀ a ∈ l, passes a ∨ ∃ e, refuses a e) :
    (∀ a ∈ l, passes a) ∨ ∃ e, FirstRefused passes refuses l e := by
  induction l with
  | nil => simp
  | cons a rest ih =>
      obtain ⟨ha, hrest⟩ := List.forall_mem_cons.1 h
      rcases ha with hpasses | ⟨e, he⟩
      · rcases ih hrest with hall | ⟨e, he⟩
        · exact Or.inl (List.forall_mem_cons.2 ⟨hpasses, hall⟩)
        · exact Or.inr ⟨e, .there hpasses he⟩
      · exact Or.inr ⟨e, .here he⟩

/-- Where reasons differ in texts only, so does the first. -/
theorem reword (hreword : ∀ a e, refuses a e → ∃ e', refuses' a e' ∧ e'.textless = e.textless)
    (h : FirstRefused passes refuses l e) :
    ∃ e', FirstRefused passes refuses' l e' ∧ e'.textless = e.textless := by
  induction h with
  | here h =>
      obtain ⟨e', he', htext⟩ := hreword _ _ h
      exact ⟨e', .here he', htext⟩
  | there h _ ih =>
      obtain ⟨e', he', htext⟩ := ih
      exact ⟨e', .there h he', htext⟩

/-- A check of elements in order fails with the error of the first that it refuses. -/
theorem forM_eq_error {f : α → β} {check : β → Except Error Unit}
    (hpasses : ∀ a, passes a → check (f a) = .ok ())
    (hrefuses : ∀ a e, refuses a e → check (f a) = .error e)
    (h : FirstRefused passes refuses l e) : forM (l.map f) check = .error e := by
  induction h with
  | here h =>
      rw [List.map_cons, List.forM_cons, hrefuses _ _ h]
      rfl
  | there h _ ih =>
      rw [List.map_cons, List.forM_cons, hpasses _ h]
      exact ih

end FirstRefused

/-- Checks that all pass are passed together. -/
theorem forM_eq_ok {α : Type} {check : α → Except Error Unit} {l : List α}
    (h : ∀ a ∈ l, check a = .ok ()) : forM l check = .ok () := by
  induction l with
  | nil => rfl
  | cons a rest ih =>
      obtain ⟨ha, hrest⟩ := List.forall_mem_cons.1 h
      rw [List.forM_cons, ha]
      exact ih hrest

/-! ## The first that deviates -/

section Deviation

variable {α : Type} (columns : α → Except Error (List Identifier)) (lacks : α → Error → Prop)

/-- Why an element does not return the expected columns: it lacks columns for a reason of its
own, or it has others. -/
inductive Deviates (expected : List Identifier) (a : α) : Error → Prop where
  | lacks {e : Error} (h : lacks a e) : Deviates expected a e
  | mismatch {found : List Identifier} (h : columns a = .ok found) (hne : expected ≠ found) :
      Deviates expected a (.columnMismatch expected found)

/-- The first element lacks columns, or it has some and a later one is the first to deviate
from them. -/
inductive FirstDeviates : List α → Error → Prop where
  | first {a : α} {rest : List α} {e : Error} (h : lacks a e) : FirstDeviates (a :: rest) e
  | later {a : α} {rest : List α} {e : Error} {expected : List Identifier}
      (h : columns a = .ok expected)
      (hrest : FirstRefused (fun b => columns b = .ok expected)
        (Deviates columns lacks expected) rest e) : FirstDeviates (a :: rest) e

variable {columns lacks} {lacks' : α → Error → Prop} {expected : List Identifier} {a : α}
  {l : List α} {e : Error}

/-- An element has the expected columns or deviates in one of two ways. -/
theorem deviates_or_eq (h : (∃ found, columns a = .ok found) ∨ ∃ e, lacks a e) :
    columns a = .ok expected ∨ ∃ e, Deviates columns lacks expected a e := by
  rcases h with ⟨found, hfound⟩ | ⟨e, he⟩
  · by_cases hequal : expected = found
    · rw [hequal]
      exact Or.inl hfound
    · exact Or.inr ⟨_, .mismatch hfound hequal⟩
  · exact Or.inr ⟨e, .lacks he⟩

/-- Either all elements have the same columns or a first one deviates. -/
theorem FirstDeviates.total
    (h : ∀ b ∈ l, (∃ found, columns b = .ok found) ∨ ∃ e, lacks b e) :
    (∃ expected, ∀ b ∈ l, columns b = .ok expected) ∨ ∃ e, FirstDeviates columns lacks l e := by
  cases l with
  | nil => exact Or.inl ⟨[], by simp⟩
  | cons a rest =>
      obtain ⟨ha, hrest⟩ := List.forall_mem_cons.1 h
      rcases ha with ⟨expected, hexpected⟩ | ⟨e, he⟩
      · rcases FirstRefused.total fun b hb => deviates_or_eq (hrest b hb) with hall | ⟨e, he⟩
        · exact Or.inl ⟨expected, List.forall_mem_cons.2 ⟨hexpected, hall⟩⟩
        · exact Or.inr ⟨e, .later hexpected he⟩
      · exact Or.inr ⟨e, .first he⟩

/-- Deviations are the same up to the texts in their errors. -/
theorem FirstDeviates.reword
    (hreword : ∀ a e, lacks a e → ∃ e', lacks' a e' ∧ e'.textless = e.textless)
    (h : FirstDeviates columns lacks l e) :
    ∃ e', FirstDeviates columns lacks' l e' ∧ e'.textless = e.textless := by
  cases h with
  | first h =>
      obtain ⟨e', he', htext⟩ := hreword _ _ h
      exact ⟨e', .first he', htext⟩
  | @later _ _ _ expected h hrest =>
      have hdeviates : ∀ b e, Deviates columns lacks expected b e →
          ∃ e', Deviates columns lacks' expected b e' ∧ e'.textless = e.textless := by
        intro b e hb
        cases hb with
        | lacks hb =>
            obtain ⟨e', he', htext⟩ := hreword _ _ hb
            exact ⟨e', .lacks he', htext⟩
        | mismatch hfound hne => exact ⟨_, .mismatch hfound hne, rfl⟩
      obtain ⟨e', he', htext⟩ := hrest.reword hdeviates
      exact ⟨e', .later h he', htext⟩

end Deviation

/-! ## The check

The queries of a statement and the arms of a conditional are compared in the same way. -/

/-- The columns of a first element, once those of the others have been compared with them. -/
def agreedColumns {β : Type} (columns : β → Except Error (List Identifier)) (first : β)
    (more : List β) : Except Error (List Identifier) := do
  let expected ← columns first
  forM more fun b => columns b >>= requireColumns expected
  return expected

/-- Columns agree with themselves. -/
theorem requireColumns_self (columns : List Identifier) : requireColumns columns columns = .ok () :=
  if_pos rfl

section Check

variable {α β : Type} {found : β → Except Error (List Identifier)}

/-- Elements that all find the same columns agree on them. -/
theorem agreedColumns_eq_ok {first : β} {more : List β} {expected : List Identifier}
    (h : ∀ b ∈ first :: more, found b = .ok expected) :
    agreedColumns found first more = .ok expected := by
  obtain ⟨hfirst, hmore⟩ := List.forall_mem_cons.1 h
  have hcheck : (forM more fun b => found b >>= requireColumns expected) = .ok () := by
    apply forM_eq_ok
    intro b hb
    rw [hmore b hb]
    exact requireColumns_self expected
  rw [agreedColumns, hfirst]
  exact congrArg (fun checked : Except Error Unit => checked.map fun _ => expected) hcheck

/-- The comparison fails with the error of the first element that deviates. What is compared
may be elements `f a` in place of `a` that have the same columns. -/
theorem FirstDeviates.agreedColumns_eq_error {columns : α → Except Error (List Identifier)}
    {lacks : α → Error → Prop} {f : α → β} {a : α} {rest : List α} {e : Error}
    (hcolumns : ∀ a names, columns a = .ok names → found (f a) = .ok names)
    (hlacks : ∀ a e, lacks a e → found (f a) = .error e)
    (h : FirstDeviates columns lacks (a :: rest) e) :
    agreedColumns found (f a) (rest.map f) = .error e := by
  cases h with
  | first h =>
      rw [agreedColumns, hlacks a e h]
      rfl
  | @later _ _ _ expected h hrest =>
      have hcheck : (forM (rest.map f) fun b => found b >>= requireColumns expected) =
          .error e := by
        apply hrest.forM_eq_error
        · intro b hb
          rw [hcolumns b expected hb]
          exact requireColumns_self expected
        · intro b e hb
          cases hb with
          | lacks hb =>
              rw [hlacks b e hb]
              rfl
          | mismatch hfound hne =>
              rw [hcolumns b _ hfound]
              exact if_neg hne
      rw [agreedColumns, hcolumns a expected h]
      exact congrArg (fun checked : Except Error Unit => checked.map fun _ => expected) hcheck

end Check

/-- What is refused for a reason is refused for no other. -/
theorem eq_error_iff_of_total {α : Type} {x : Except Error α} {refused : Error → Prop}
    (hrefused : ∀ e, refused e → x = .error e) (htotal : (∃ a, x = .ok a) ∨ ∃ e, refused e)
    {e : Error} : x = .error e ↔ refused e := by
  constructor
  · intro he
    rcases htotal with ⟨a, ha⟩ | ⟨e', he'⟩
    · rw [he] at ha
      cases ha
    · have heq := hrefused e' he'
      rw [he] at heq
      cases heq
      exact he'
  · exact hrefused e

/-! ## Columns of one query -/

/-- Columns that need no alias or have one. -/
def Column.Named (item : Column) : Prop :=
  item.alias?.isSome ∨ ∃ var, item.expr = .name var

/-- A column without a name is cited by its text. -/
def Column.Unnamed (r : Renaming) (item : Column) (e : Error) : Prop :=
  ¬item.Named ∧ e = .unnamedColumn (r.rename item.expr).text

namespace Query

/-- The clause behind which a query only sorts and cuts. -/
def EndsIn (q : Query) (c : Clause) : Prop :=
  ∃ before after, q.clauses = before ++ c :: after ∧ c.keepsColumns = false ∧
    ∀ d ∈ after, d.keepsColumns = true

/-- Why a query has no columns that could be named, once its placeholders are renamed. -/
inductive Nameless (r : Renaming) (q : Query) : Error → Prop where
  | missingReturn (h : ∀ projection, ¬q.EndsIn (.returning projection))
      (h' : ∀ arms, ¬q.EndsIn (.choice arms)) : Nameless r q .missingReturn
  | everything {distinct : Bool} {more : List Column}
      (h : q.EndsIn (.returning ⟨distinct, .everything more⟩)) :
      Nameless r q (.unnamedColumn "*")
  | unnamed {distinct : Bool} {first : Column} {more : List Column} {e : Error}
      (h : q.EndsIn (.returning ⟨distinct, .items first more⟩))
      (hitems : FirstRefused Column.Named (Column.Unnamed r) (first :: more) e) :
      Nameless r q e

end Query

/-- A column without a name is refused with its text. -/
theorem Column.name_of_not_named {item : Column} (h : ¬item.Named) :
    item.name = .error (.unnamedColumn item.expr.text) := by
  obtain ⟨expr, alias?⟩ := item
  cases alias? with
  | some id => exact absurd (Or.inl rfl) h
  | none =>
      cases expr with
      | name var => exact absurd (Or.inr ⟨var, rfl⟩) h
      | literal | placeholder | call | map | list | property | index | sliceFrom | sliceTo
      | slice | unary | binary | case => rfl

/-- Whether a column has a name does not depend on its placeholders. -/
theorem Column.named_mapPlaceholders {item : Column} {f : Placeholder → Placeholder} :
    (item.mapPlaceholders f).Named ↔ item.Named := by
  obtain ⟨expr, alias?⟩ := item
  refine or_congr Iff.rfl ?_
  cases expr <;> simp [Column.mapPlaceholders, Expr.mapPlaceholders]

theorem Column.exists_name {item : Column} (h : item.Named) : ∃ name, item.name = .ok name := by
  obtain ⟨expr, alias?⟩ := item
  rcases h with halias | ⟨var, rfl⟩
  · obtain ⟨id, rfl⟩ := Option.isSome_iff_exists.1 halias
    exact ⟨id, rfl⟩
  · cases alias? with
    | some id => exact ⟨id, rfl⟩
    | none => exact ⟨var, rfl⟩

/-- A column has a name, or there is an error that says so. -/
theorem Column.named_or_unnamed (r : Renaming) (item : Column) :
    item.Named ∨ ∃ e, item.Unnamed r e := by
  by_cases h : item.Named
  · exact Or.inl h
  · exact Or.inr ⟨_, h, rfl⟩

/-- The first column without a name decides the error of all, with its text as renamed. -/
theorem Column.names_rename_of_unnamed {r : Renaming} {items : List Column} {e : Error}
    (h : FirstRefused Column.Named (Column.Unnamed r) items e) :
    Column.names (items.map (Column.mapPlaceholders r.applyTo)) = .error e := by
  induction h with
  | @here item rest e h =>
      obtain ⟨hnamed, rfl⟩ := h
      rw [List.map_cons, Column.names,
        Column.name_of_not_named ((not_congr Column.named_mapPlaceholders).2 hnamed)]
      rfl
  | @there item rest e h _ ih =>
      obtain ⟨name, hname⟩ := Column.exists_name h
      rw [List.map_cons, Column.names, ih,
        eq_ok_of_toOption (item.name_mapPlaceholders r.applyTo) hname]
      rfl

/-- Columns that are all named have names. -/
theorem Column.exists_names {items : List Column} (h : ∀ item ∈ items, item.Named) :
    ∃ names, Column.names items = .ok names := by
  induction items with
  | nil => exact ⟨[], rfl⟩
  | cons item rest ih =>
      obtain ⟨hitem, hrest⟩ := List.forall_mem_cons.1 h
      obtain ⟨name, hname⟩ := Column.exists_name hitem
      obtain ⟨names, hnames⟩ := ih hrest
      rw [Column.names, hname, hnames]
      exact ⟨name :: names, rfl⟩

namespace Query

variable {q : Query} {c : Clause} {r : Renaming} {e : Error}

/-- A query ends in the last clause that does more than sort and cut. -/
theorem endsIn_iff : q.EndsIn c ↔
    (q.clauses.reverse.find? fun clause => !clause.keepsColumns) = some c := by
  rw [List.find?_eq_some_iff_append]
  constructor
  · rintro ⟨before, after, hclauses, hc, hafter⟩
    refine ⟨by simp [hc], after.reverse, before.reverse, by simp [hclauses], ?_⟩
    intro d hd
    simp [hafter d (List.mem_reverse.1 hd)]
  · rintro ⟨hc, after, before, hreverse, hafter⟩
    refine ⟨before.reverse, after.reverse, ?_, by simpa using hc, ?_⟩
    · rw [← List.reverse_reverse q.clauses, hreverse]
      simp
    · intro d hd
      simpa using hafter d (List.mem_reverse.1 hd)

/-- A renamed query ends in the renamed clause. -/
theorem endsIn_mapPlaceholders_iff {f : Placeholder → Placeholder} :
    (q.mapPlaceholders f).EndsIn c ↔ ∃ d, q.EndsIn d ∧ d.mapPlaceholders f = c := by
  simp only [endsIn_iff, q.clauses_mapPlaceholders, Clause.find?_mapPlaceholders,
    Option.map_eq_some_iff]

/-- A query that ends in a RETURN has the columns of its projection. -/
theorem columns_of_returning {projection : Projection} (h : q.EndsIn (.returning projection)) :
    q.columns = projection.columns := by
  rw [Query.columns, endsIn_iff.1 h]

/-- A query that ends in a conditional has the columns of that. -/
theorem columns_of_choice {arms : Choice} (h : q.EndsIn (.choice arms)) :
    q.columns = .ok arms.columns := by
  rw [Query.columns, endsIn_iff.1 h]

/-- A query that ends in neither returns nothing. -/
theorem columns_of_missing (h : ∀ projection, ¬q.EndsIn (.returning projection))
    (h' : ∀ arms, ¬q.EndsIn (.choice arms)) : q.columns = .error .missingReturn := by
  rw [Query.columns]
  cases hfind : q.clauses.reverse.find? fun clause => !clause.keepsColumns with
  | none => rfl
  | some c =>
      have hc := endsIn_iff.2 hfind
      cases c with
      | returning projection => exact absurd hc (h projection)
      | choice arms => exact absurd hc (h' arms)
      | matching | passing | unwind | create | setKey | delete | orderBy | skip | limit
      | subquery => rfl

/-- A query without named columns is refused with the reason, in its renamed text. -/
theorem columns_of_nameless (h : q.Nameless r e) :
    (q.mapPlaceholders r.applyTo).columns = .error e := by
  cases h with
  | missingReturn h h' =>
      -- renaming makes no RETURN or conditional out of another clause
      apply columns_of_missing
      · intro projection hends
        obtain ⟨d, hd, heq⟩ := endsIn_mapPlaceholders_iff.1 hends
        cases d with
        | returning written => exact h written hd
        | matching | passing | unwind | create | setKey | delete | orderBy | skip | limit
        | subquery | choice => simp [Clause.mapPlaceholders] at heq
      · intro arms hends
        obtain ⟨d, hd, heq⟩ := endsIn_mapPlaceholders_iff.1 hends
        cases d with
        | choice written => exact h' written hd
        | matching | passing | unwind | create | setKey | delete | returning | orderBy | skip
        | limit | subquery => simp [Clause.mapPlaceholders] at heq
  | everything h => rw [columns_of_returning (endsIn_mapPlaceholders_iff.2 ⟨_, h, rfl⟩)]; rfl
  | unnamed h hitems =>
      rw [columns_of_returning (endsIn_mapPlaceholders_iff.2 ⟨_, h, rfl⟩)]
      exact Column.names_rename_of_unnamed hitems

/-- A query has columns, or there is a reason why it has none. -/
theorem named_or_nameless (r : Renaming) (q : Query) :
    (∃ found, q.columns = .ok found) ∨ ∃ e, q.Nameless r e := by
  by_cases hreturning : ∃ projection, q.EndsIn (.returning projection)
  · obtain ⟨⟨distinct, selection⟩, hends⟩ := hreturning
    cases selection with
    | everything more => exact Or.inr ⟨_, .everything hends⟩
    | items first more =>
        have hitems (item : Column) (_ : item ∈ first :: more) := item.named_or_unnamed r
        rcases FirstRefused.total hitems with hnamed | ⟨e, he⟩
        · rw [columns_of_returning hends]
          exact Or.inl (Column.exists_names hnamed)
        · exact Or.inr ⟨e, .unnamed hends he⟩
  · by_cases harms : ∃ arms, q.EndsIn (.choice arms)
    · obtain ⟨arms, hends⟩ := harms
      exact Or.inl ⟨arms.columns, columns_of_choice hends⟩
    · exact Or.inr ⟨_, .missingReturn (not_exists.1 hreturning) (not_exists.1 harms)⟩

/-- The reason is the same for all renamings, up to the texts in it. -/
theorem Nameless.reword (r' : Renaming) (h : q.Nameless r e) :
    ∃ e', q.Nameless r' e' ∧ e'.textless = e.textless := by
  cases h with
  | missingReturn h h' => exact ⟨_, .missingReturn h h', rfl⟩
  | everything h => exact ⟨_, .everything h, rfl⟩
  | unnamed h hitems =>
      have hreword : ∀ item e, Column.Unnamed r item e →
          ∃ e', Column.Unnamed r' item e' ∧ e'.textless = e.textless := by
        rintro item e ⟨hnamed, rfl⟩
        exact ⟨_, ⟨hnamed, rfl⟩, rfl⟩
      obtain ⟨e', he', htext⟩ := hitems.reword hreword
      exact ⟨e', .unnamed h he', htext⟩

theorem requireColumns_eq_forM (expected : List Identifier) (qs : List Query) :
    Query.requireColumns expected qs =
      forM qs fun q => q.columns >>= GraphQuery.requireColumns expected := by
  induction qs with
  | nil => rfl
  | cons q rest ih =>
      rw [Query.requireColumns, ih, List.forM_cons, bind_assoc]

end Query

/-! ## Columns of a statement -/

namespace Statement

variable {s : Statement} {r : Renaming} {e : Error}

/-- The columns of a statement are those on which its queries agree. -/
theorem columns_eq_agreedColumns (s : Statement) :
    s.columns = agreedColumns Query.columns s.first s.more := by
  rw [Statement.columns, agreedColumns]
  simp only [Query.requireColumns_eq_forM]

/-- Why the queries of a statement do not agree on columns that all of them name, once its
placeholders are renamed. -/
def Disagrees (r : Renaming) (s : Statement) (e : Error) : Prop :=
  FirstDeviates Query.columns (Query.Nameless r) s.queries e

/-- A statement whose queries disagree is refused with the reason. -/
theorem columns_of_disagrees (h : s.Disagrees r e) : (r.rename s).columns = .error e := by
  obtain ⟨first, more, union⟩ := s
  have hcheck : agreedColumns Query.columns (first.mapPlaceholders r.applyTo)
      (more.map (Query.mapPlaceholders r.applyTo)) = .error e := by
    refine FirstDeviates.agreedColumns_eq_error ?_ ?_ h
    · intro q names hq
      exact eq_ok_of_toOption (q.columns_mapPlaceholders r.applyTo) hq
    · intro q e hq
      exact Query.columns_of_nameless hq
  rw [← Query.mapList_eq_map] at hcheck
  rw [columns_eq_agreedColumns]
  exact hcheck

/-- The queries of a statement agree, or there is a reason why they do not. -/
theorem agrees_or_disagrees (r : Renaming) (s : Statement) :
    (∃ columns, s.columns = .ok columns) ∨ ∃ e, s.Disagrees r e := by
  obtain ⟨first, more, union⟩ := s
  rcases FirstDeviates.total fun q (_ : q ∈ first :: more) => q.named_or_nameless r with
    ⟨expected, hall⟩ | hdisagrees
  · left
    rw [columns_eq_agreedColumns]
    exact ⟨expected, agreedColumns_eq_ok hall⟩
  · exact Or.inr hdisagrees

/-- The columns of a renamed statement fail for the reason that can be told from the
statement as it was written. -/
theorem columns_rename_error_iff : (r.rename s).columns = .error e ↔ s.Disagrees r e := by
  apply eq_error_iff_of_total
  · intro e he
    exact columns_of_disagrees he
  · rcases s.agrees_or_disagrees r with ⟨columns, hcolumns⟩ | hdisagrees
    · exact Or.inl ⟨columns, (s.columns_mapPlaceholders_ok_iff r.applyTo columns).2 hcolumns⟩
    · exact Or.inr hdisagrees

theorem Disagrees.reword (r' : Renaming) (h : s.Disagrees r e) :
    ∃ e', s.Disagrees r' e' ∧ e'.textless = e.textless :=
  FirstDeviates.reword (fun _ _ hq => hq.reword r') h

theorem requireColumns_eq_forM (expected : List Identifier) (ss : List Statement) :
    Statement.requireColumns expected ss =
      forM ss fun s => s.columns >>= GraphQuery.requireColumns expected := by
  induction ss with
  | nil => rfl
  | cons s rest ih =>
      rw [Statement.requireColumns, ih, List.forM_cons, bind_assoc]

/-- The columns of a conditional are those on which its arms agree. -/
theorem commonColumns_eq_agreedColumns (first : Statement) (more : List Statement) :
    commonColumns first more = agreedColumns Statement.columns first more := by
  rw [commonColumns, agreedColumns]
  simp only [requireColumns_eq_forM]

end Statement

end GraphQuery
