import GraphQuery.Proofs.Binding.Matching
import GraphQuery.Proofs.Compiling.Declared
import GraphQuery.Proofs.Merging.Partition
import GraphQuery.Proofs.Naming.Claiming

/-!
# Reported events

What an operation reports tells its result apart: the event that stands for success comes
last and only with a result, and no warning is given for an operation that fails. Compiling
finds the unused parameters in the text that it rendered, and they are those that no
placeholder of the syntax names. Binding warns while it moves values, and might have to stop
with a warning already given; once the names match it does not stop.

Main statement: `Event.reports_exact`.
-/

set_option autoImplicit false

namespace GraphQuery

namespace Parametrized

/-- The declared names that no placeholder of the body has. -/
def idle (q : Parametrized Fragment) : List Identifier :=
  q.params.keys.filter fun name => name ∉ q.body.placeholders.map Placeholder.name

section Compile

variable {q : Parametrized Fragment} {layout : Layout} {supply : NameSupply}

/-- What is unused in the text is what is unused in the syntax. -/
theorem unused_render (q : Parametrized Fragment) (layout : Layout) (supply : NameSupply) :
    q.params.unused (q.body.render layout supply).1.names = q.idle := by
  obtain ⟨-, -, hnames, -⟩ := q.body.placeholders_render layout supply
  rw [hnames]
  exact List.filter_congr fun name _ => decide_eq_decide.2 (not_congr List.mem_eraseDups)

/-- A compilation that fails reports the text and nothing else. -/
theorem events_of_compile_error {e : Error} (h : (q.compile layout supply).1.result = .error e) :
    (q.compile layout supply).1.events = [.rendered (q.body.render layout supply).1.text] := by
  unfold compile at h ⊢
  dsimp only at h ⊢
  cases hcheck : q.params.checkUses (q.body.render layout supply).1.uses with
  | error found => rfl
  | ok _ =>
      rw [hcheck] at h
      cases h

/-- One that succeeds reports the text, then each unused parameter, then its own success. -/
theorem events_of_compile_ok {t : Template} (h : (q.compile layout supply).1.result = .ok t) :
    (q.compile layout supply).1.events =
      .rendered t.text :: q.idle.map .unusedParameter ++
        [.compiled t.text.utf8ByteSize q.params.size] := by
  obtain rfl := eq_of_compile h
  have hunused := q.unused_render layout supply
  unfold compile at h ⊢
  dsimp only at h ⊢
  cases hcheck : q.params.checkUses (q.body.render layout supply).1.uses with
  | error found =>
      rw [hcheck] at h
      cases h
  | ok _ => rw [hunused]

end Compile

end Parametrized

namespace Template

/-- The declared names whose value is not of the declared kind, each with both. -/
def misplaced (t : Template) (values : Bindings) : List (Identifier × Kind × Value) :=
  t.params.entries.filterMap fun (name, kind) =>
    (values.get? name.text).bind fun value =>
      if value.fits kind then none else some (name, kind, value)

/-- The misfits are reported in the order of the declarations, each with name, kind and value. -/
theorem misfits_eq (t : Template) (values : Bindings) :
    misfits values t.params.entries =
      (t.misplaced values).map fun (name, kind, value) => .misfit name kind value := by
  rw [misfits, misplaced, List.map_filterMap, List.filterMap_eq_flatMap_toList]
  refine List.flatMap_congr ?_
  rintro ⟨name, kind⟩ -
  dsimp only
  cases values.get? name.text with
  | none => rfl
  | some value =>
      rw [Option.elim_some, Option.bind_some, misfit]
      split
      · rfl
      · rfl

section Bind

variable {t : Template} {values : Bindings}

/-- A binding that fails reports nothing. -/
theorem events_of_bind_error {e : Error} (h : (t.bind values).result = .error e) :
    (t.bind values).events = [] := by
  by_cases hsupplies : values.Supplies t.params
  · rw [bind_eq_ok hsupplies] at h
    cases h
  · rw [bind_eq_error hsupplies]

/-- One that succeeds reports the misfits, then its own success. -/
theorem events_of_bind_ok {b : BoundStatement} (h : (t.bind values).result = .ok b) :
    (t.bind values).events =
      ((t.misplaced values).map fun (name, kind, value) => .misfit name kind value) ++
        [.bound t.params.size] := by
  have hsupplies := bind_ok_iff.1 ⟨b, h⟩
  obtain ⟨bound, hbound, -, hkeys, -⟩ := bind_of_supplies hsupplies
  rw [bind_eq_ok hsupplies] at hbound ⊢
  cases hbound
  rw [misfits_eq, ← Table.length_keys, hkeys, Table.length_keys]

end Bind

end Template

namespace Event

open Conditional (exists_fallback select_records select)

/-- The events of an operation are exact. A fragment that fails to compile has only been
rendered; one that compiles draws a warning for each declared name that none of its
placeholders has, in the order of declaration, and then the event of success, with the length
of the text in bytes and the number of parameters. A template that is not bound reports
nothing; one that is bound draws a warning for each value that does not fit, in the order of
declaration, and then the event of success. A merge that succeeds reports the replacements
that its renamings hold, those of the conditions first, and nothing else. -/
theorem reports_exact :
    (∀ (q : Parametrized Fragment) (layout : Layout) (supply : NameSupply),
      (∀ e, (q.compile layout supply).1.result = .error e →
        (q.compile layout supply).1.events = [.rendered (q.body.render layout supply).1.text]) ∧
      ∀ t, (q.compile layout supply).1.result = .ok t →
        (q.compile layout supply).1.events =
          .rendered t.text :: q.idle.map .unusedParameter ++
            [.compiled t.text.utf8ByteSize q.params.size] ∧
        (q.compile layout supply).1.events.map level =
          .trace :: List.replicate q.idle.length .warn ++ [.debug]) ∧
    (∀ (t : Template) (values : Bindings),
      (∀ e, (t.bind values).result = .error e → (t.bind values).events = []) ∧
      ∀ b, (t.bind values).result = .ok b →
        (t.bind values).events =
          ((t.misplaced values).map fun (name, kind, value) => .misfit name kind value) ++
            [.bound t.params.size] ∧
        (t.bind values).events.map level =
          List.replicate (t.misplaced values).length .warn ++ [.debug]) ∧
    ∀ (cases : List (Parametrized Expr × Parametrized Statement))
      (fallback : Option (Parametrized Statement)) (supply : NameSupply) (c : Conditional),
      (select cases fallback supply).1.result = .ok c →
        (select cases fallback supply).1.events.map replacement? =
          ((c.conditionRenamings ++ c.armRenamings).flatMap Table.entries).map some ∧
        ∀ event ∈ (select cases fallback supply).1.events, event.level = .debug := by
  refine ⟨fun q layout supply => ⟨fun e => Parametrized.events_of_compile_error, ?_⟩,
    fun t values => ⟨fun e => Template.events_of_bind_error, ?_⟩, ?_⟩
  · intro t ht
    have hevents := Parametrized.events_of_compile_ok ht
    refine ⟨hevents, ?_⟩
    rw [hevents, List.map_append, List.map_cons, List.map_map]
    have hwarnings : q.idle.map (level ∘ unusedParameter) = List.replicate q.idle.length .warn :=
      List.map_const'
    rw [hwarnings]
    rfl
  · intro b hb
    have hevents := Template.events_of_bind_ok hb
    refine ⟨hevents, ?_⟩
    rw [hevents, List.map_append, List.map_map]
    exact congrArg (· ++ [Level.debug]) List.map_const'
  · intro cases fallback supply c hc
    obtain ⟨last, events, left, rfl, hok⟩ := exists_fallback hc
    have hrecords := select_records hok
    rw [hok]
    refine ⟨hrecords, fun event hevent => ?_⟩
    -- an event that is a replacement was reported with the weight of one
    have hmem : event.replacement? ∈ events.map replacement? := List.mem_map_of_mem hevent
    rw [hrecords] at hmem
    obtain ⟨pair, -, hpair⟩ := List.mem_map.1 hmem
    cases event with
    | renamed source target => rfl
    | rendered _ => cases hpair
    | unusedParameter _ => cases hpair
    | compiled _ _ => cases hpair
    | misfit _ _ _ => cases hpair
    | bound _ => cases hpair

namespace Sample

/-- A fragment that declares a number and a name that it does not use. -/
def spare : Parametrized Fragment :=
  ⟨⟨[(Template.Sample.high, .any), (Parametrized.Sample.size, .integer)], by decide⟩,
    .expr (.placeholder ⟨Parametrized.Sample.size, .integer⟩)⟩

end Sample

/-- One fragment uses a parameter at another kind and one does not use it. Values are missing
or one is of another kind, and two parts of the merge give up a name. -/
theorem reports_exact_sample :
    (Parametrized.Sample.compared.compile .pretty .fresh).1.events =
      [.rendered "[$size, $size, $size]"] ∧
    (Sample.spare.compile .pretty .fresh).1.events =
      [.rendered "$size", .unusedParameter Template.Sample.high, .compiled 5 2] ∧
    (Template.Sample.template.bind Table.empty).events = [] ∧
    (Template.Sample.template.bind Template.Sample.values).events =
      [.misfit Template.Sample.low .integer (.string "one"), .bound 2] ∧
    (select [(Conditional.Sample.condition, Conditional.Sample.arm)]
        (some Conditional.Sample.fallback) .fresh).1.events.map replacement? =
      [some ("x", NameSupply.defaultStem.numbered 0),
        some ("x", NameSupply.defaultStem.numbered 1)] := by
  obtain ⟨hcompile, hbind, hselect⟩ := reports_exact
  refine ⟨(hcompile Parametrized.Sample.compared .pretty .fresh).1 _ rfl, ?_,
    (hbind Template.Sample.template Table.empty).1 _ rfl, ?_, ?_⟩
  · obtain ⟨hevents, -⟩ := (hcompile Sample.spare .pretty .fresh).2
      ⟨"$size", Sample.spare.params⟩ rfl
    exact hevents
  · obtain ⟨hevents, -⟩ := (hbind Template.Sample.template Template.Sample.values).2 _ rfl
    exact hevents
  · obtain ⟨hrecords, -⟩ := hselect [(Conditional.Sample.condition, Conditional.Sample.arm)]
      (some Conditional.Sample.fallback) .fresh _ rfl
    exact hrecords

end Event

end GraphQuery
