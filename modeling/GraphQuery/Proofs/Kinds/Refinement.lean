import GraphQuery.Proofs.Compiling.Declared

/-!
# Compatible kinds

The kind `any` stands for a kind that is not known. Two kinds are compatible if what is not known
of both can be filled in so that they agree: some kind without `any` refines the one and the
other. Compatibility is therefore symmetric, and knowing less of a kind never destroys it. It is
not transitive, since `any` is compatible with kinds that have no refinement in common.

Main statement: `Kind.accepts_common_refinement`.
-/

set_option autoImplicit false

namespace GraphQuery

namespace Kind

/-- Kinds in which `any` does not occur. -/
def isConcrete : Kind → Bool
  | .any => false
  | .list element => element.isConcrete
  | _ => true

/-- The kind with `filler` in the place of `any`. -/
def fill : Kind → Kind → Kind
  | .any, filler => filler
  | .list element, filler => .list (element.fill filler)
  | k, _ => k

/-- Concrete kinds that a kind becomes when something takes the place of `any`. -/
def Refines (c k : Kind) : Prop := c.isConcrete = true ∧ ∃ filler : Kind, k.fill filler = c

/-- A kind widens to the kinds that have `any` in the place of some of its parts. -/
inductive Widens : Kind → Kind → Prop where
  | any (k : Kind) : Widens k .any
  | list {k wider : Kind} (h : Widens k wider) : Widens (.list k) (.list wider)
  | same (k : Kind) : Widens k k

/-! ## Filling -/

section Filling

variable {a b c k wider filler : Kind}

/-- A concrete filler makes a kind concrete. -/
theorem isConcrete_fill (h : filler.isConcrete = true) : (k.fill filler).isConcrete = true := by
  induction k with
  | any => exact h
  | list element ih => exact ih
  | boolean | integer | float | string | map | node | relationship => rfl

/-- A concrete kind has no gap to fill. -/
theorem fill_of_isConcrete (h : k.isConcrete = true) (filler : Kind) : k.fill filler = k := by
  induction k with
  | any => cases h
  | list element ih => exact congrArg list (ih h)
  | boolean | integer | float | string | map | node | relationship => rfl

/-- With any concrete kind in the place of `any` there is a refinement. -/
theorem refines_fill (k : Kind) : (k.fill .boolean).Refines k :=
  ⟨isConcrete_fill rfl, .boolean, rfl⟩

/-- Every concrete kind refines the kind of all values. -/
theorem refines_any (h : c.isConcrete = true) : c.Refines .any := ⟨h, c, rfl⟩

/-- Refinement passes to lists. -/
theorem Refines.list (h : c.Refines k) : (Kind.list c).Refines (.list k) := by
  obtain ⟨hconcrete, filler, hfill⟩ := h
  exact ⟨hconcrete, filler, congrArg Kind.list hfill⟩

/-- What refines a kind refines the wider ones. -/
theorem Refines.widen (hw : k.Widens wider) (h : c.Refines k) : c.Refines wider := by
  induction hw generalizing c with
  | any k => exact refines_any h.1
  | same k => exact h
  | @list k wider _ ih =>
      obtain ⟨hconcrete, filler, rfl⟩ := h
      have helement : (k.fill filler).Refines k := ⟨hconcrete, filler, rfl⟩
      exact (ih helement).list

/-! ## Accepting -/

/-- A refinement of two compatible kinds is put together part by part. -/
theorem exists_refines_of_accepts (h : a.accepts b = true) :
    ∃ c : Kind, c.Refines a ∧ c.Refines b := by
  fun_induction accepts a b with
  | case1 b => exact ⟨b.fill .boolean, refines_any (refines_fill b).1, refines_fill b⟩
  | case2 a => exact ⟨a.fill .boolean, refines_fill a, refines_any (refines_fill a).1⟩
  | case3 a b ih =>
      obtain ⟨c, ha, hb⟩ := ih h
      exact ⟨.list c, ha.list, hb.list⟩
  | case4 a b =>
      obtain rfl : a = b := beq_iff_eq.1 h
      exact ⟨a.fill .boolean, refines_fill a, refines_fill a⟩

theorem fill_of_ne (hany : k ≠ .any) (hlist : ∀ element, k ≠ .list element) (filler : Kind) :
    k.fill filler = k := by
  cases k with
  | any => exact absurd rfl hany
  | list element => exact absurd rfl (hlist element)
  | boolean | integer | float | string | map | node | relationship => rfl

/-- Kinds that can be filled to one kind are compatible. -/
theorem accepts_of_fill_eq {filler' : Kind} (h : a.fill filler = b.fill filler') :
    a.accepts b = true := by
  fun_induction accepts a b with
  | case1 b => rfl
  | case2 a => rfl
  | case3 a b ih => exact ih (list.inj h)
  | case4 a b hany hany' hlists =>
      -- one of the two is neither unknown nor a list, so it is what both are filled to
      by_cases ha : ∃ element, a = .list element
      · obtain ⟨element, rfl⟩ := ha
        have hb := fill_of_ne hany' (fun e he => hlists element e rfl he) filler'
        exact absurd (hb.symm.trans h.symm) fun he => hlists element _ rfl he
      · have hfilled := fill_of_ne hany (fun e he => ha ⟨e, he⟩) filler
        rw [hfilled] at h
        have hb := fill_of_ne hany' (fun e he => ha ⟨e.fill filler', by rw [h, he]; rfl⟩) filler'
        exact beq_iff_eq.2 (h.trans hb)

/-- Compatible kinds are those with a refinement in common. -/
theorem accepts_iff_exists_refines :
    a.accepts b = true ↔ ∃ c : Kind, c.Refines a ∧ c.Refines b := by
  constructor
  · exact exists_refines_of_accepts
  · rintro ⟨c, ⟨-, filler, ha⟩, -, filler', hb⟩
    exact accepts_of_fill_eq (ha.trans hb.symm)

/-- Every kind accepts itself. -/
theorem accepts_self (k : Kind) : k.accepts k = true :=
  accepts_iff_exists_refines.2 ⟨_, refines_fill k, refines_fill k⟩

/-- Of two kinds, both accept each other or neither does. -/
theorem accepts_comm (a b : Kind) : a.accepts b = b.accepts a := by
  rw [Bool.eq_iff_iff, accepts_iff_exists_refines, accepts_iff_exists_refines]
  exact exists_congr fun c => and_comm

/-- Knowing less of kinds leaves them compatible. -/
theorem accepts_widen {wider' : Kind} (ha : a.Widens wider) (hb : b.Widens wider')
    (h : a.accepts b = true) : wider.accepts wider' = true := by
  obtain ⟨c, hca, hcb⟩ := accepts_iff_exists_refines.1 h
  exact accepts_iff_exists_refines.2 ⟨c, hca.widen ha, hcb.widen hb⟩

/-- A concrete kind has no refinement but itself. -/
theorem eq_of_refines (hk : k.isConcrete = true) (h : c.Refines k) : c = k := by
  obtain ⟨-, filler, rfl⟩ := h
  exact fill_of_isConcrete hk filler

/-- Concrete kinds accept themselves only. -/
theorem accepts_iff_eq (ha : a.isConcrete = true) (hb : b.isConcrete = true) :
    a.accepts b = true ↔ a = b := by
  constructor
  · intro h
    obtain ⟨c, hca, hcb⟩ := accepts_iff_exists_refines.1 h
    exact (eq_of_refines ha hca).symm.trans (eq_of_refines hb hcb)
  · rintro rfl
    exact accepts_self a

end Filling

end Kind

/-! ## Widened declarations -/

namespace Declarations

/-- The parameters of the one are declared in the other, at the same kinds or wider ones. -/
def WidensTo (d wider : Declarations) : Prop :=
  ∀ name kind, d.get? name = some kind →
    ∃ known : Kind, wider.get? name = some known ∧ kind.Widens known

variable {d wider : Declarations}

/-- Declaring one parameter at a wider kind. -/
theorem widensTo_insert {name : Identifier} {kind known : Kind} (h : d.get? name = some kind)
    (hk : kind.Widens known) : d.WidensTo (d.insert name known) := by
  intro other declared hother
  rw [Table.get?_insert]
  split
  · next hsame =>
      subst hsame
      rw [h] at hother
      cases hother
      exact ⟨known, rfl, hk⟩
  · exact ⟨declared, hother, .same declared⟩

/-- A use that declarations take is taken by wider ones, too. -/
theorem Takes.widen (hw : d.WidensTo wider) {use : Placeholder} (h : d.Takes use) :
    wider.Takes use := by
  obtain ⟨kind, hkind, haccepts⟩ := h
  obtain ⟨known, hknown, hwidens⟩ := hw use.name kind hkind
  exact ⟨known, hknown, Kind.accepts_widen hwidens (.same use.kind) haccepts⟩

end Declarations

/-- What compiles, compiles under wider declarations too, to the same text. -/
theorem Parametrized.compile_widen {q : Parametrized Fragment} {wider : Declarations}
    (hw : q.params.WidensTo wider) {layout : Layout} {supply : NameSupply} {t : Template}
    (h : (q.compile layout supply).1.result = .ok t) :
    ((⟨wider, q.body⟩ : Parametrized Fragment).compile layout supply).1.result =
      .ok ⟨t.text, wider⟩ := by
  have htakes : ∀ use ∈ q.body.placeholders, wider.Takes use :=
    fun use huse => (compile_ok_iff.1 ⟨t, h⟩ use huse).widen hw
  have hok : ∃ u, ((⟨wider, q.body⟩ : Parametrized Fragment).compile layout supply).1.result =
      .ok u := compile_ok_iff.2 htakes
  obtain ⟨u, hu⟩ := hok
  rw [hu, eq_of_compile hu, eq_of_compile h]

namespace Kind

/-- Kinds accept each other exactly if some concrete kind refines both. So they accept
themselves, the order of the two makes no difference, concrete kinds accept themselves only, and
kinds that are widened on either side go on accepting each other. A query that compiles still
does when its parameters are declared at wider kinds. -/
theorem accepts_common_refinement :
    (∀ a b : Kind, a.accepts b = true ↔ ∃ c : Kind, c.Refines a ∧ c.Refines b) ∧
    (∀ a : Kind, a.accepts a = true) ∧
    (∀ a b : Kind, a.accepts b = b.accepts a) ∧
    (∀ a b : Kind, a.isConcrete = true → b.isConcrete = true →
      (a.accepts b = true ↔ a = b)) ∧
    (∀ a b wider wider' : Kind, a.Widens wider → b.Widens wider' → a.accepts b = true →
      wider.accepts wider' = true) ∧
    ∀ (q : Parametrized Fragment) (wider : Declarations), q.params.WidensTo wider →
      ∀ layout supply t, (q.compile layout supply).1.result = .ok t →
        ((⟨wider, q.body⟩ : Parametrized Fragment).compile layout supply).1.result =
          .ok ⟨t.text, wider⟩ := by
  refine ⟨fun a b => accepts_iff_exists_refines, accepts_self, accepts_comm, ?_, ?_, ?_⟩
  · exact fun a b ha hb => accepts_iff_eq ha hb
  · exact fun a b wider wider' ha hb h => accepts_widen ha hb h
  · exact fun q wider hw layout supply t h => q.compile_widen hw h

namespace Sample

def sizes : Identifier := ⟨"sizes", by decide⟩

/-- A list of lists of numbers, declared as such. -/
def nested : Parametrized Fragment :=
  ⟨⟨[(sizes, .list (.list .integer))], by decide⟩,
    .expr (.placeholder ⟨sizes, .list (.list .integer)⟩)⟩

end Sample

/-- A list of numbers and a list of texts have no refinement in common, though both are
compatible with a list of which nothing is known. A parameter may be declared as the latter. -/
theorem accepts_common_refinement_nested :
    (¬ ∃ c : Kind, c.Refines (.list .integer) ∧ c.Refines (.list .string)) ∧
    (Kind.list .any).accepts (.list .string) = true ∧
    (((⟨Sample.nested.params.insert Sample.sizes (.list .any), Sample.nested.body⟩ :
      Parametrized Fragment).compile .compact .fresh).1.result.map Template.text) =
        .ok "$sizes" := by
  obtain ⟨hiff, hself, -, hconcrete, hwiden, hcompile⟩ := accepts_common_refinement
  refine ⟨?_, ?_, ?_⟩
  · rw [← hiff, hconcrete _ _ rfl rfl]
    rintro ⟨⟩
  · exact hwiden _ _ _ _ (.list (.any .string)) (.same _) (hself _)
  · have hsizes : Sample.nested.params.get? Sample.sizes = some (.list (.list .integer)) := rfl
    have hw := Declarations.widensTo_insert hsizes (.list (.any (.list .integer)))
    rw [hcompile Sample.nested _ hw .compact .fresh ⟨"$sizes", Sample.nested.params⟩ rfl]
    rfl

end Kind

end GraphQuery
