import GraphQuery.Proofs.Building.WellFormed
import GraphQuery.Proofs.Sameness.Keys

/-!
# Maps in what is built

A map literal and the properties of a pattern are made from a list of entries, of which the last
one counts for each key. From there on keys stay as they are: the constructors take parts in
whole, and renaming reaches the values of a map only.

Main statement: `Fragment.BuiltFrom.distinctKeys`.
-/

set_option autoImplicit false

namespace GraphQuery

/-! ## What is made of entries -/

/-- Expressions whose maps are made from entries. -/
inductive Expr.Made : Expr → Prop
  | literal (value : Literal) : Made (.literal value)
  | name (var : Identifier) : Made (.name var)
  | placeholder (p : Placeholder) : Made (.placeholder p)
  | call {function : String} {first : Expr} {rest : List Expr} (hfirst : Made first)
      (hrest : ∀ e ∈ rest, Made e) : Made (.call function first rest)
  | ofEntries {entries : List (String × Expr)} (h : ∀ e ∈ entries, Made e.2) :
      Made (.ofEntries entries)
  | list {items : List Expr} (h : ∀ e ∈ items, Made e) : Made (.list items)
  | property {subject : Expr} {key : String} (h : Made subject) : Made (.property subject key)
  | index {subject position : Expr} (hsubject : Made subject) (hposition : Made position) :
      Made (.index subject position)
  | sliceFrom {subject low : Expr} (hsubject : Made subject) (hlow : Made low) :
      Made (.sliceFrom subject low)
  | sliceTo {subject high : Expr} (hsubject : Made subject) (hhigh : Made high) :
      Made (.sliceTo subject high)
  | slice {subject low high : Expr} (hsubject : Made subject) (hlow : Made low)
      (hhigh : Made high) : Made (.slice subject low high)
  | unary {op : UnaryOp} {operand : Expr} (h : Made operand) : Made (.unary op operand)
  | binary {op : BinaryOp} {left right : Expr} (hleft : Made left) (hright : Made right) :
      Made (.binary op left right)
  | case {condition result : Expr} {more : List (Expr × Expr)} {fallback : Option Expr}
      (hcondition : Made condition) (hresult : Made result)
      (hconditions : ∀ arm ∈ more, Made arm.1) (hresults : ∀ arm ∈ more, Made arm.2)
      (hfallback : ∀ e ∈ fallback, Made e) : Made (.case condition result more fallback)

/-- Fragments without a statement in them, whose maps and properties are made from entries. -/
inductive Fragment.Made : Fragment → Prop
  | expr {e : Expr} (h : e.Made) : Made (.expr e)
  | node {var : Option Identifier} {labels : List String} {entries : List (String × Expr)}
      (h : ∀ e ∈ entries, e.2.Made) : Made (.node (.ofEntries var labels entries))
  | relationship {direction : Direction} {var : Option Identifier} {types : List String}
      {length : Option Length} {entries : List (String × Expr)} (h : ∀ e ∈ entries, e.2.Made) :
      Made (.relationship (.ofEntries direction var types length entries))
  | length (l : Length) : Made (.length l)
  | path {p : Path} (hstart : Made (.node p.start))
      (hrelationships : ∀ step ∈ p.steps, Made (.relationship step.1))
      (hnodes : ∀ step ∈ p.steps, Made (.node step.2)) : Made (.path p)
  | projection {p : Projection} (h : ∀ item ∈ p.items, item.expr.Made) : Made (.projection p)
  | matching {optional : Bool} {first : Path} {more : List Path} {filter : Option Expr}
      (hpaths : ∀ p ∈ first :: more, Made (.path p)) (hfilter : ∀ e ∈ filter, e.Made) :
      Made (.clause (.matching optional first more filter))
  | passing {p : Projection} {filter : Option Expr} (h : Made (.projection p))
      (hfilter : ∀ e ∈ filter, e.Made) : Made (.clause (.passing p filter))
  | unwind {list : Expr} {element : Identifier} (h : list.Made) :
      Made (.clause (.unwind list element))
  | create {p : Path} (h : Made (.path p)) : Made (.clause (.create p))
  | setKey {var : Identifier} {key : String} {value : Expr} (h : value.Made) :
      Made (.clause (.setKey var key value))
  | delete {detach : Bool} {subject : Expr} (h : subject.Made) :
      Made (.clause (.delete detach subject))
  | returning {p : Projection} (h : Made (.projection p)) : Made (.clause (.returning p))
  | orderBy {items : List SortKey} (h : ∀ item ∈ items, item.expr.Made) :
      Made (.clause (.orderBy items))
  | skip {count : Expr} (h : count.Made) : Made (.clause (.skip count))
  | limit {count : Expr} (h : count.Made) : Made (.clause (.limit count))

/-! ## Keys along lists -/

/-- Expressions have distinct keys together if each of them has. -/
theorem Expr.listDistinctKeys_iff {es : List Expr} :
    Expr.listDistinctKeys es = true ↔ ∀ e ∈ es, e.distinctKeys = true :=
  checkAll_iff rfl fun _ _ => rfl

theorem Expr.armsDistinctKeys_iff {arms : List (Expr × Expr)} :
    Expr.armsDistinctKeys arms = true ↔
      ∀ arm ∈ arms, arm.1.distinctKeys = true ∧ arm.2.distinctKeys = true := by
  simp only [← Bool.and_eq_true]
  exact checkAll_iff rfl fun _ _ => rfl

theorem Expr.fallbackDistinctKeys_iff {e : Option Expr} :
    Expr.fallbackDistinctKeys e = true ↔ ∀ a ∈ e, a.distinctKeys = true := by
  cases e <;> simp [Expr.fallbackDistinctKeys]

theorem Choice.casesDistinctKeys_iff {cases : List (Expr × Statement)} :
    Choice.casesDistinctKeys cases = true ↔
      ∀ case ∈ cases, case.1.distinctKeys = true ∧ case.2.distinctKeys = true := by
  simp only [← Bool.and_eq_true]
  exact checkAll_iff rfl fun _ _ => rfl

/-- A query has distinct keys if each of its clauses has. -/
theorem Query.distinctKeys_iff {q : Query} :
    q.distinctKeys = true ↔ ∀ c ∈ q.clauses, c.distinctKeys = true := by
  obtain ⟨clauses⟩ := q
  rw [Query.distinctKeys]
  exact checkAll_iff rfl fun _ _ => rfl

/-- A statement has distinct keys if each of its queries has. -/
theorem Statement.distinctKeys_iff {s : Statement} :
    s.distinctKeys = true ↔ ∀ q ∈ s.queries, q.distinctKeys = true := by
  obtain ⟨first, more, union⟩ := s
  have hmore : Query.listDistinctKeys more = true ↔ ∀ q ∈ more, q.distinctKeys = true :=
    checkAll_iff rfl fun _ _ => rfl
  rw [Statement.distinctKeys, Bool.and_eq_true, hmore, Statement.queries, List.forall_mem_cons]

/-- A conditional has distinct keys if its conditions and arms have. -/
theorem Choice.distinctKeys_iff {c : Choice} :
    c.distinctKeys = true ↔ (∀ e ∈ c.conditions, e.distinctKeys = true) ∧
      ∀ arm ∈ c.arms, arm.distinctKeys = true := by
  obtain ⟨cases, fallback, columns⟩ := c
  rw [Choice.distinctKeys, Bool.and_eq_true, Choice.casesDistinctKeys_iff]
  simp only [Choice.conditions, Choice.arms, List.forall_mem_append, List.forall_mem_map,
    List.forall_mem_singleton, forall_and, and_assoc]

/-- What a clause holds has distinct keys if the clause has. -/
theorem Clause.distinctKeys_bodies {c : Clause} (h : c.distinctKeys = true) :
    ∀ body ∈ c.bodies, body.distinctKeys = true := by
  cases c with
  | subquery body => exact List.forall_mem_singleton.2 h
  | choice arms => exact (Choice.distinctKeys_iff.1 h).2
  | matching _ _ _ _ | passing _ _ | unwind _ _ | create _ | setKey _ _ _ | delete _ _
  | returning _ | orderBy _ | skip _ | limit _ => exact List.forall_mem_nil _

/-! ## Keys of what is made -/

/-- A map takes each key of its entries in once, and the other constructors have no keys. -/
theorem Expr.Made.distinctKeys {e : Expr} (h : e.Made) : e.distinctKeys = true := by
  induction h with
  | literal _ | name _ | placeholder _ => rfl
  | call _ _ ihfirst ihrest =>
      rw [Expr.distinctKeys, ihfirst, Expr.listDistinctKeys_iff.2 ihrest]
      rfl
  | ofEntries _ ih => exact Expr.mapDistinctKeys_ofList ih
  | list _ ih => exact Expr.listDistinctKeys_iff.2 ih
  | property _ ih => exact ih
  | index _ _ ihsubject ihposition => simp [Expr.distinctKeys, ihsubject, ihposition]
  | sliceFrom _ _ ihsubject ihlow => simp [Expr.distinctKeys, ihsubject, ihlow]
  | sliceTo _ _ ihsubject ihhigh => simp [Expr.distinctKeys, ihsubject, ihhigh]
  | slice _ _ _ ihsubject ihlow ihhigh => simp [Expr.distinctKeys, ihsubject, ihlow, ihhigh]
  | unary _ ih => exact ih
  | binary _ _ ihleft ihright => simp [Expr.distinctKeys, ihleft, ihright]
  | case _ _ _ _ _ ihcondition ihresult ihconditions ihresults ihfallback =>
      have harms := Expr.armsDistinctKeys_iff.2 fun arm harm =>
        ⟨ihconditions arm harm, ihresults arm harm⟩
      have hfallback := Expr.fallbackDistinctKeys_iff.2 ihfallback
      simp [Expr.distinctKeys, ihcondition, ihresult, harms, hfallback]

theorem Expr.fallbackDistinctKeys_of_made {filter : Option Expr} (h : ∀ e ∈ filter, e.Made) :
    Expr.fallbackDistinctKeys filter = true :=
  Expr.fallbackDistinctKeys_iff.2 fun e he => (h e he).distinctKeys

/-- Properties of patterns are taken in like the entries of maps. -/
theorem Fragment.Made.distinctKeys {f : Fragment} (h : f.Made) : f.distinctKeys = true := by
  induction h with
  | expr h => exact h.distinctKeys
  | node h => exact Expr.mapDistinctKeys_ofList fun e he => (h e he).distinctKeys
  | relationship h => exact Expr.mapDistinctKeys_ofList fun e he => (h e he).distinctKeys
  | length _ => rfl
  | path _ _ _ ihstart ihrelationships ihnodes =>
      refine Bool.and_eq_true_iff.2 ⟨ihstart, List.all_eq_true.2 fun step hstep => ?_⟩
      exact Bool.and_eq_true_iff.2 ⟨ihrelationships step hstep, ihnodes step hstep⟩
  | projection h => exact List.all_eq_true.2 fun item hitem => (h item hitem).distinctKeys
  | matching _ hfilter ih =>
      exact Bool.and_eq_true_iff.2
        ⟨List.all_eq_true.2 ih, Expr.fallbackDistinctKeys_of_made hfilter⟩
  | passing _ hfilter ih =>
      exact Bool.and_eq_true_iff.2 ⟨ih, Expr.fallbackDistinctKeys_of_made hfilter⟩
  | orderBy h => exact List.all_eq_true.2 fun item hitem => (h item hitem).distinctKeys
  | create _ ih | returning _ ih => exact ih
  | unwind h | setKey h | delete h | skip h | limit h => exact h.distinctKeys

/-! ## Replacing placeholders -/

section Replacing

variable (f : Placeholder → Placeholder)

/-- Replacing placeholders reaches the values of a map and not its keys. -/
theorem Expr.keys_mapEntries (es : List (String × Expr)) :
    Entries.keys (Expr.mapEntries f es) = Entries.keys es := by
  induction es with
  | nil => rfl
  | cons e rest ih => exact congrArg (e.1 :: ·) ih

mutual

/-- Replacing placeholders leaves the keys of all maps alone. -/
theorem Expr.distinctKeys_mapPlaceholders : ∀ e : Expr,
    (e.mapPlaceholders f).distinctKeys = e.distinctKeys
  | .literal _ => rfl
  | .name _ => rfl
  | .placeholder _ => rfl
  | .call _ first rest => by
      simp [Expr.mapPlaceholders, Expr.distinctKeys, Expr.distinctKeys_mapPlaceholders first,
        Expr.listDistinctKeys_mapList rest]
  | .map entries => Expr.mapDistinctKeys_mapEntries entries
  | .list items => Expr.listDistinctKeys_mapList items
  | .property subject _ => Expr.distinctKeys_mapPlaceholders subject
  | .index subject position => by
      simp [Expr.mapPlaceholders, Expr.distinctKeys, Expr.distinctKeys_mapPlaceholders subject,
        Expr.distinctKeys_mapPlaceholders position]
  | .sliceFrom subject low => by
      simp [Expr.mapPlaceholders, Expr.distinctKeys, Expr.distinctKeys_mapPlaceholders subject,
        Expr.distinctKeys_mapPlaceholders low]
  | .sliceTo subject high => by
      simp [Expr.mapPlaceholders, Expr.distinctKeys, Expr.distinctKeys_mapPlaceholders subject,
        Expr.distinctKeys_mapPlaceholders high]
  | .slice subject low high => by
      simp [Expr.mapPlaceholders, Expr.distinctKeys, Expr.distinctKeys_mapPlaceholders subject,
        Expr.distinctKeys_mapPlaceholders low, Expr.distinctKeys_mapPlaceholders high]
  | .unary _ operand => Expr.distinctKeys_mapPlaceholders operand
  | .binary _ left right => by
      simp [Expr.mapPlaceholders, Expr.distinctKeys, Expr.distinctKeys_mapPlaceholders left,
        Expr.distinctKeys_mapPlaceholders right]
  | .case condition result more fallback => by
      simp [Expr.mapPlaceholders, Expr.distinctKeys, Expr.distinctKeys_mapPlaceholders condition,
        Expr.distinctKeys_mapPlaceholders result, Expr.armsDistinctKeys_mapArms more,
        Expr.fallbackDistinctKeys_mapFallback fallback]

theorem Expr.listDistinctKeys_mapList : ∀ es : List Expr,
    Expr.listDistinctKeys (Expr.mapList f es) = Expr.listDistinctKeys es
  | [] => rfl
  | e :: rest => by
      simp [Expr.mapList, Expr.listDistinctKeys, Expr.distinctKeys_mapPlaceholders e,
        Expr.listDistinctKeys_mapList rest]

/-- A map keeps its keys, and so do the maps in its values. -/
theorem Expr.mapDistinctKeys_mapEntries : ∀ es : List (String × Expr),
    Expr.mapDistinctKeys (Expr.mapEntries f es) = Expr.mapDistinctKeys es
  | es => by
      rw [Expr.mapDistinctKeys, Expr.keys_mapEntries, Expr.entriesDistinctKeys_mapEntries es,
        Expr.mapDistinctKeys]

theorem Expr.entriesDistinctKeys_mapEntries : ∀ es : List (String × Expr),
    Expr.entriesDistinctKeys (Expr.mapEntries f es) = Expr.entriesDistinctKeys es
  | [] => rfl
  | (_, e) :: rest => by
      simp [Expr.mapEntries, Expr.entriesDistinctKeys, Expr.distinctKeys_mapPlaceholders e,
        Expr.entriesDistinctKeys_mapEntries rest]

theorem Expr.armsDistinctKeys_mapArms : ∀ arms : List (Expr × Expr),
    Expr.armsDistinctKeys (Expr.mapArms f arms) = Expr.armsDistinctKeys arms
  | [] => rfl
  | (condition, result) :: rest => by
      simp [Expr.mapArms, Expr.armsDistinctKeys, Expr.distinctKeys_mapPlaceholders condition,
        Expr.distinctKeys_mapPlaceholders result, Expr.armsDistinctKeys_mapArms rest]

theorem Expr.fallbackDistinctKeys_mapFallback : ∀ e : Option Expr,
    Expr.fallbackDistinctKeys (Expr.mapFallback f e) = Expr.fallbackDistinctKeys e
  | none => rfl
  | some e => Expr.distinctKeys_mapPlaceholders e

end

/-- The properties along a path keep their keys. -/
theorem Path.distinctKeys_mapPlaceholders (p : Path) :
    (p.mapPlaceholders f).distinctKeys = p.distinctKeys := by
  simp [Path.distinctKeys, Path.mapPlaceholders, NodePattern.mapPlaceholders,
    RelationshipPattern.mapPlaceholders, Expr.mapDistinctKeys_mapEntries, List.all_map,
    Function.comp_def]

theorem Projection.distinctKeys_mapPlaceholders (p : Projection) :
    (p.mapPlaceholders f).distinctKeys = p.distinctKeys := by
  have hcolumn (item : Column) :
      (item.mapPlaceholders f).expr.distinctKeys = item.expr.distinctKeys :=
    item.expr.distinctKeys_mapPlaceholders f
  obtain ⟨distinct, selection⟩ := p
  cases selection <;>
    simp [Projection.distinctKeys, Projection.mapPlaceholders, Selection.mapPlaceholders,
      Projection.items, List.all_map, Function.comp_def, hcolumn]

mutual

/-- Replacing placeholders leaves the keys of all maps in a clause alone. -/
theorem Clause.distinctKeys_mapPlaceholders : ∀ c : Clause,
    (c.mapPlaceholders f).distinctKeys = c.distinctKeys
  | .matching _ first more filter => by
      simp [Clause.mapPlaceholders, Clause.distinctKeys, Path.distinctKeys_mapPlaceholders,
        Expr.fallbackDistinctKeys_mapFallback, List.all_map, Function.comp_def]
  | .passing projection filter => by
      simp [Clause.mapPlaceholders, Clause.distinctKeys, Projection.distinctKeys_mapPlaceholders,
        Expr.fallbackDistinctKeys_mapFallback]
  | .unwind list _ => list.distinctKeys_mapPlaceholders f
  | .create path => path.distinctKeys_mapPlaceholders f
  | .setKey _ _ value => value.distinctKeys_mapPlaceholders f
  | .delete _ subject => subject.distinctKeys_mapPlaceholders f
  | .returning projection => projection.distinctKeys_mapPlaceholders f
  | .orderBy items => by
      simp [Clause.mapPlaceholders, Clause.distinctKeys, SortKey.mapPlaceholders,
        Expr.distinctKeys_mapPlaceholders, List.all_map, Function.comp_def]
  | .skip count => count.distinctKeys_mapPlaceholders f
  | .limit count => count.distinctKeys_mapPlaceholders f
  | .subquery body => body.distinctKeys_mapPlaceholders
  | .choice arms => arms.distinctKeys_mapPlaceholders

theorem Choice.distinctKeys_mapPlaceholders : ∀ c : Choice,
    (c.mapPlaceholders f).distinctKeys = c.distinctKeys
  | ⟨cases, fallback, _⟩ => by
      simp [Choice.mapPlaceholders, Choice.distinctKeys, Choice.casesDistinctKeys_mapCases cases,
        fallback.distinctKeys_mapPlaceholders]

theorem Choice.casesDistinctKeys_mapCases : ∀ cases : List (Expr × Statement),
    Choice.casesDistinctKeys (Choice.mapCases f cases) = Choice.casesDistinctKeys cases
  | [] => rfl
  | (condition, arm) :: rest => by
      simp [Choice.mapCases, Choice.casesDistinctKeys, condition.distinctKeys_mapPlaceholders,
        arm.distinctKeys_mapPlaceholders, Choice.casesDistinctKeys_mapCases rest]

theorem Query.distinctKeys_mapPlaceholders : ∀ q : Query,
    (q.mapPlaceholders f).distinctKeys = q.distinctKeys
  | ⟨clauses⟩ => Clause.listDistinctKeys_mapList clauses

theorem Clause.listDistinctKeys_mapList : ∀ cs : List Clause,
    Clause.listDistinctKeys (Clause.mapList f cs) = Clause.listDistinctKeys cs
  | [] => rfl
  | clause :: rest => by
      simp [Clause.mapList, Clause.listDistinctKeys, clause.distinctKeys_mapPlaceholders,
        Clause.listDistinctKeys_mapList rest]

theorem Query.listDistinctKeys_mapList : ∀ qs : List Query,
    Query.listDistinctKeys (Query.mapList f qs) = Query.listDistinctKeys qs
  | [] => rfl
  | query :: rest => by
      simp [Query.mapList, Query.listDistinctKeys, query.distinctKeys_mapPlaceholders,
        Query.listDistinctKeys_mapList rest]

/-- Replacing placeholders leaves the keys of all maps in a statement alone, in its subqueries and
arms, too. -/
theorem Statement.distinctKeys_mapPlaceholders : ∀ s : Statement,
    (s.mapPlaceholders f).distinctKeys = s.distinctKeys
  | ⟨first, more, _⟩ => by
      simp [Statement.mapPlaceholders, Statement.distinctKeys, first.distinctKeys_mapPlaceholders,
        Query.listDistinctKeys_mapList more]

end

end Replacing

namespace Fragment

/-- Renaming leaves the keys of all maps alone. -/
theorem distinctKeys_rename (r : Renaming) (a : Fragment) :
    (r.rename a).distinctKeys = a.distinctKeys := by
  cases a with
  | expr e => exact e.distinctKeys_mapPlaceholders r.applyTo
  | node n => exact Expr.mapDistinctKeys_mapEntries r.applyTo n.properties
  | relationship p => exact Expr.mapDistinctKeys_mapEntries r.applyTo p.properties
  | length l => rfl
  | path p => exact p.distinctKeys_mapPlaceholders r.applyTo
  | projection p => exact p.distinctKeys_mapPlaceholders r.applyTo
  | clause c => exact c.distinctKeys_mapPlaceholders r.applyTo
  | query q => exact q.distinctKeys_mapPlaceholders r.applyTo
  | statement s => exact s.distinctKeys_mapPlaceholders r.applyTo

/-- Fragments that are built of parts whose maps are made from entries have no map with a key
twice, whatever they were renamed or merged to on the way. -/
theorem BuiltFrom.distinctKeys {a : Fragment} (h : a.BuiltFrom Made) :
    a.distinctKeys = true := by
  induction h with
  | leaf _ ha => exact ha.distinctKeys
  | subquery _ ih => exact ih
  | @choice cases fallback c _ _ _ hbuild ihconditions iharms ihlast =>
      obtain ⟨hcases, hfallback⟩ := Conditional.build_ok hbuild
      refine Choice.distinctKeys_iff.2 ⟨?_, ?_⟩
      · rw [Choice.conditions, hcases]
        exact List.forall_mem_map.2 ihconditions
      · rw [Choice.arms, hcases, hfallback]
        exact List.forall_mem_append.2
          ⟨List.forall_mem_map.2 iharms, List.forall_mem_singleton.2 ihlast⟩
  | empty => rfl
  | append _ _ ihq ihc =>
      exact Query.distinctKeys_iff.2 (List.forall_mem_append.2
        ⟨Query.distinctKeys_iff.1 ihq, List.forall_mem_singleton.2 ihc⟩)
  | @sortedBy q item _ _ ihq ihitem =>
      have hitem : item.expr.distinctKeys = true := ihitem
      have hclauses := Query.distinctKeys_iff.1 ihq
      refine Query.distinctKeys_iff.2 (Query.forall_mem_sortedBy hclauses ?_ ?_)
      · simp [Clause.distinctKeys, hitem]
      · intro items hitems
        rw [Clause.distinctKeys] at hitems ⊢
        rw [List.all_append, hitems]
        simp [hitem]
  | single _ hsingle ih =>
      refine Statement.distinctKeys_iff.2 ?_
      rw [(Statement.queries_of_single hsingle).1]
      exact List.forall_mem_singleton.2 ih
  | unite _ hunite ih =>
      refine Statement.distinctKeys_iff.2 ?_
      rw [(Statement.queries_of_unite hunite).1]
      exact ih
  | @merged cases fallback _ _ c _ _ _ hselect ihconditions iharms =>
      obtain ⟨choice, hbody, -, hconditions, harms⟩ := Conditional.choice_of_select hselect
      have hchoice : choice.distinctKeys = true := by
        refine Choice.distinctKeys_iff.2 ⟨?_, ?_⟩
        · rw [hconditions]
          exact Conditional.forall_mem_zipWith_rename fun part hpart r =>
            (distinctKeys_rename r (.expr part.body)).trans (ihconditions part hpart)
        · rw [harms]
          exact Conditional.forall_mem_zipWith_rename fun part hpart r =>
            (distinctKeys_rename r (.statement part.body)).trans (iharms part hpart)
      rw [hbody]
      exact Statement.distinctKeys_iff.2 (List.forall_mem_singleton.2
        (Query.distinctKeys_iff.2 (List.forall_mem_singleton.2 hchoice)))
  | renamed r _ ih => exact (distinctKeys_rename r _).trans ih
  | queryOf _ hq ih => exact Statement.distinctKeys_iff.1 ih _ hq
  | clauseOf _ hc ih => exact Query.distinctKeys_iff.1 ih _ hc
  | bodyOf _ hbody ih => exact Clause.distinctKeys_bodies ih _ hbody

end Fragment

end GraphQuery
