import GraphQuery.Proofs.Merging.Compiling
import GraphQuery.Proofs.Renaming.Text
import GraphQuery.Proofs.Rendering.Line

/-!
# The text of a merged conditional

A merged conditional is written on one line from the texts that its parts have by themselves.
In each of them the parameters are renamed as the merge has renamed those of the part, and
in each query of an arm the selectors are those drawn when the whole conditional is rendered.
Nothing else of a part changes, in quotes or outside.

Main statement: `Conditional.text_select`.
-/

set_option autoImplicit false

namespace GraphQuery

namespace Choice

/-- Queries of arms that keep equal rows are joined by one and the same words. -/
theorem joinedText_all (texts : List String) (text : String) :
    text ++ joinedText (texts.map fun text => (.all, text)) =
      " UNION ALL ".intercalate (text :: texts) := by
  induction texts generalizing text with
  | nil =>
      rw [String.intercalate_singleton]
      exact String.append_empty
  | cons second rest ih =>
      have hwords : " " ++ UnionMode.all.words ++ " " = " UNION ALL " := rfl
      rw [String.intercalate_cons_cons, ← ih second, List.map_cons, joinedText, hwords]
      simp only [String.append_assoc]

/-- So is the text of all of them. -/
theorem unionText_all (texts : List String) :
    unionText (texts.map fun text => (.all, text)) = " UNION ALL ".intercalate texts := by
  cases texts with
  | nil => rfl
  | cons text rest => exact joinedText_all rest text

end Choice

/-! ## Queries of renamed arms -/

/-- A query of an arm, with the number and the renaming of the arm. -/
structure PartQuery where
  number : Nat
  renames : Renaming
  query : Query

namespace PartQuery

/-- The queries of parts before they are renamed, each with its arm's number and renaming. The
arms are numbered from `number` on. -/
def ofArms (number : Nat) : List (Statement × Renaming) → List PartQuery
  | [] => []
  | (arm, renames) :: rest =>
      arm.queries.map (fun query => ⟨number, renames, query⟩) ++ ofArms (number + 1) rest

/-- The query as it stands in the merged statement. -/
def merged (q : PartQuery) : ArmQuery :=
  ⟨.all, q.number, q.query.mapPlaceholders q.renames.applyTo⟩

/-- Texts of queries, each behind the guard of its arm: the text that the query has by
itself, with its parameters renamed and its selectors taken from `names`. -/
def texts (selector : Identifier) (own names : NameSupply) : List PartQuery → List String
  | [] => []
  | q :: rest =>
      (Choice.guardText false selector q.number ++
          Text.renameParameters q.renames.applyText
            ((Fragment.query q.query).renumberedText .compact own names)) ::
        texts selector own (names.after q.query.choiceCount) rest

/-- The text of each merged query is that of the query alone, with its parameters renamed and its
selectors renumbered. -/
theorem guardedTexts_merged (selector : Identifier) (own names : NameSupply)
    (qs : List PartQuery) :
    Choice.guardedTexts (Choice.guardText false selector) names (qs.map merged) =
      (texts selector own names qs).map fun text => (.all, text) := by
  induction qs generalizing names with
  | nil => rfl
  | cons q rest ih =>
      have htext : Piece.line ((q.query.mapPlaceholders q.renames.applyTo).pieces names).1 =
          Text.renameParameters q.renames.applyText
            ((Fragment.query q.query).renumberedText .compact own names) := by
        rw [← Piece.ofList_write_compact 0]
        exact (Fragment.query q.query).text_mapPlaceholders q.renames.text_applyTo .compact own
          names
      have hcount : (q.query.mapPlaceholders q.renames.applyTo).choiceCount =
          q.query.choiceCount :=
        (Fragment.query q.query).choiceCount_mapPlaceholders q.renames.applyTo
      rw [List.map_cons, texts, List.map_cons, ← ih, merged, Choice.guardedTexts]
      dsimp only
      rw [htext, hcount]

/-- The queries of the merged arms are those of the arms, renamed. -/
theorem queriesFrom_merged (qs : List (Parametrized Statement)) (rs : List Renaming)
    (number : Nat)
    (h : ∀ arm ∈ List.zipWith (fun q r => Renaming.rename r q.body) qs rs,
      arm.isDistinctUnion = false) :
    Choice.queriesFrom number (List.zipWith (fun q r => Renaming.rename r q.body) qs rs) =
      (ofArms number ((qs.map Parametrized.body).zip rs)).map merged := by
  induction qs generalizing rs number with
  | nil => rfl
  | cons q rest ih =>
      cases rs with
      | nil => rfl
      | cons r others =>
          obtain ⟨hfirst, hrest⟩ := List.forall_mem_cons.1 h
          have harm : Statement.armQueries number (Renaming.rename r q.body) =
              (q.body.queries.map fun query => (⟨number, r, query⟩ : PartQuery)).map merged := by
            rw [Statement.armQueries_of_all hfirst, List.map_map]
            show ((q.body.mapPlaceholders r.applyTo).queries.map _) = _
            rw [Statement.queries_mapPlaceholders, List.map_map]
            rfl
          rw [List.zipWith_cons_cons, Choice.queriesFrom, ih others (number + 1) hrest, harm,
            List.map_cons, List.zip_cons_cons, ofArms, List.map_append]

end PartQuery

/-! ## The merged text -/

namespace Conditional

/-- Text of a conditional that stands by itself, from the texts of its parts. -/
def mergedText (selector : Identifier) (conditions arms : List String)
    (columns : List Identifier) : String :=
  Choice.writtenText (Choice.selectorText false selector conditions)
    (" UNION ALL ".intercalate arms) columns

example : mergedText ⟨"v", by decide⟩ ["$x", "$y"] ["R", "S", "T"] [⟨"a", by decide⟩] =
    "WITH CASE WHEN $x THEN 0 WHEN $y THEN 1 ELSE 2 END AS v CALL \x7b " ++
      "R UNION ALL S UNION ALL T \x7d RETURN a" := by
  decide +kernel

/-- The text of a template is that of the merged statement in the compact layout. -/
theorem text_of_compile {c : Conditional} {names : NameSupply} {t : Template}
    (h : (c.compile names).1.result = .ok t) :
    t.text = ((Fragment.statement c.query.body).render .compact names).1.text := by
  have hresult := Parametrized.result_compile ⟨c.query.params, .statement c.query.body⟩ .compact
    names
  have hcompile : (c.compile names).1.result = _ := hresult
  rw [h] at hcompile
  cases hchecked : c.query.params.checkUses (Fragment.statement c.query.body).placeholders with
  | error e => rw [hchecked] at hcompile; cases hcompile
  | ok _ => rw [hchecked] at hcompile; cases hcompile; rfl

/-- The text of a condition, renamed. -/
theorem text_rename_condition (q : Parametrized Expr) (r : Renaming) (own : NameSupply) :
    (Renaming.rename r q.body).text =
      Text.renameParameters r.applyText ((Fragment.expr q.body).render .compact own).1.text := by
  have htext := (Fragment.expr q.body).text_mapPlaceholders r.text_applyTo .compact own own
  rw [Fragment.renumberedText_self] at htext
  exact htext

/-- A statement of one conditional is written as the conditional. -/
theorem pieces_single (choice : Choice) (union : UnionMode) (names : NameSupply) :
    ((⟨⟨[.choice choice]⟩, [], union⟩ : Statement).pieces names).1 =
      (choice.pieces false names).1 := by
  show (choice.pieces false names).1 ++ [] ++ [] = _
  rw [List.append_nil, List.append_nil]

/-- Arms that agree on their columns agree on them before they are renamed. -/
theorem columns_of_renamed {qs : List (Parametrized Statement)} {rs : List Renaming}
    {columns : List Identifier} (hcount : rs.length = qs.length)
    (h : ∀ arm ∈ List.zipWith (fun q r => Renaming.rename r q.body) qs rs,
      arm.columns = .ok columns) :
    ∀ q ∈ qs, q.body.columns = .ok columns := by
  induction qs generalizing rs with
  | nil => intro q hq; cases hq
  | cons q rest ih =>
      cases rs with
      | nil => cases hcount
      | cons r others =>
          obtain ⟨hfirst, hrest⟩ := List.forall_mem_cons.1 h
          have hbody := Statement.columns_of_mapPlaceholders r.applyTo hfirst
          exact List.forall_mem_cons.2 ⟨hbody, ih (Nat.succ.inj hcount) hrest⟩

/-- The text of a merged conditional holds the text of each part, as the part has it by
itself, up to the names of parameters and selectors. -/
theorem text_select {cases : List (Parametrized Expr × Parametrized Statement)}
    {fallback : Parametrized Statement} {supply left : NameSupply} {c : Conditional}
    {events : List Event}
    (h : select cases (some fallback) supply = (⟨.ok c, events⟩, left))
    {names : NameSupply} {t : Template} (hcompile : (c.compile names).1.result = .ok t)
    (own : NameSupply) :
    c.conditionRenamings.length = cases.length ∧ c.armRenamings.length = cases.length + 1 ∧
    ∃ columns, (∀ q ∈ cases.map Prod.snd ++ [fallback], q.body.columns = .ok columns) ∧
      t.text = mergedText names.next
        (List.zipWith (fun q r => Text.renameParameters r.applyText
          ((Fragment.expr q.body).render .compact own).1.text)
          (cases.map Prod.fst) c.conditionRenamings)
        (PartQuery.texts names.next own names.advance (PartQuery.ofArms 0
          (((cases.map Prod.snd ++ [fallback]).map Parametrized.body).zip c.armRenamings)))
        columns := by
  obtain ⟨hconditionCount, harmCount, -⟩ := run_of_select h
  obtain ⟨choice, hbody, hbuild, hconditions, harms⟩ := choice_of_select h
  obtain ⟨hunions, hcolumns⟩ := Choice.columns_of_build hbuild
  rw [harms] at hunions hcolumns
  have hagree := columns_of_renamed (by simp [harmCount]) hcolumns
  refine ⟨hconditionCount, harmCount, choice.columns, hagree, ?_⟩
  have htexts : choice.conditions.map Expr.text = List.zipWith (fun q r =>
      Text.renameParameters r.applyText ((Fragment.expr q.body).render .compact own).1.text)
      (cases.map Prod.fst) c.conditionRenamings := by
    rw [hconditions, List.map_zipWith]
    simp only [text_rename_condition _ _ own]
  have hline : t.text = Piece.line (choice.pieces false names).1 := by
    rw [text_of_compile hcompile, hbody]
    show String.ofList (Piece.write .compact 0 (Statement.pieces names _).1) = _
    rw [Piece.ofList_write_compact, pieces_single]
  rw [hline, Choice.line_pieces, htexts, Choice.armQueries, harms,
    PartQuery.queriesFrom_merged _ _ 0 hunions, PartQuery.guardedTexts_merged _ own,
    Choice.unionText_all, mergedText]

namespace Sample

/-- An arm that is a conditional itself and returns a text with a dollar sign. -/
def nested : Parametrized Statement :=
  ⟨condition.params,
    ⟨⟨[.choice ⟨[(.placeholder ⟨x, .boolean⟩, returning x)],
      ⟨⟨[.returning ⟨false, .items ⟨.literal (.string "$x"), some x⟩ []⟩]⟩, [], .distinct⟩,
      [x]⟩]⟩, [], .distinct⟩⟩

end Sample

theorem nested_sample : ∃ c events left t,
    select [(Sample.condition, Sample.nested)] (some Sample.fallback) (.ofStem Sample.x) =
      (⟨.ok c, events⟩, left) ∧
    (c.compile left).1.result = .ok t :=
  ⟨_, _, _, _, rfl, rfl⟩

/-- The arm draws its selector behind that of the whole conditional, whatever it is named
when the arm is rendered by itself. -/
theorem text_select_nested : ∃ c events left t columns,
    select [(Sample.condition, Sample.nested)] (some Sample.fallback) (.ofStem Sample.x) =
      (⟨.ok c, events⟩, left) ∧
    (c.compile left).1.result = .ok t ∧
    Sample.nested.body.columns = .ok columns ∧
    t.text = mergedText left.next
      (List.zipWith (fun q r => Text.renameParameters r.applyText
        ((Fragment.expr q.body).render .compact .fresh).1.text)
        [Sample.condition] c.conditionRenamings)
      (PartQuery.texts left.next .fresh left.advance (PartQuery.ofArms 0
        ([Sample.nested.body, Sample.fallback.body].zip c.armRenamings)))
      columns := by
  obtain ⟨c, events, left, t, hselect, hcompile⟩ := nested_sample
  obtain ⟨-, -, columns, hcolumns, htext⟩ := text_select hselect hcompile .fresh
  exact ⟨c, events, left, t, columns, hselect, hcompile, hcolumns _ List.mem_cons_self, htext⟩

end Conditional

end GraphQuery
