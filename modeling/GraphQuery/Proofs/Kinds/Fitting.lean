import GraphQuery.Proofs.Binding.Matching
import GraphQuery.Proofs.Kinds.Refinement
import Mathlib.Logic.Relation

/-!
# Fitting values

Three readings of kinds meet when a value is bound: the kind that the value has, the kinds that it
fits, and the kinds that accept its own. The rules of fitting are stated as a relation beside the
function that decides it. By induction on the rules the three agree: a value fits its own kind and
every wider one, and apart from whole numbers for floats it fits those kinds only that accept its
own. Nulls fit everywhere, so a null that gets a value can only make a value fit less.

Main statement: `Value.fits_consistent`.
-/

set_option autoImplicit false

namespace GraphQuery

/-- Whether the kind of floats occurs in a kind. -/
def Kind.mentionsFloat : Kind → Bool
  | .float => true
  | .list element => element.mentionsFloat
  | _ => false

namespace Value

/-- Whether a value is a list. -/
def isList : Value → Bool
  | .list _ => true
  | _ => false

/-- The rules by which values fit kinds. -/
inductive Fits : Value → Kind → Prop where
  | any (v : Value) : Fits v .any
  | null (k : Kind) : Fits .null k
  | whole (n : Int) : Fits (.int n) .float
  | list {items : List Value} {element : Kind} (h : ∀ v ∈ items, Fits v element) :
      Fits (.list items) (.list element)
  | own {v : Value} {k : Kind} (hv : v.isList = false) (hk : k = v.kind) : Fits v k

/-- One null in a value, at whatever depth, gives way to another value. -/
inductive FillsNull : Value → Value → Prop where
  | here (w : Value) : FillsNull .null w
  | item (before : List Value) {v w : Value} (after : List Value) (h : FillsNull v w) :
      FillsNull (.list (before ++ v :: after)) (.list (before ++ w :: after))
  | entry (before : List (String × Value)) (key : String) {v w : Value}
      (after : List (String × Value)) (h : FillsNull v w) :
      FillsNull (.map (before ++ (key, v) :: after)) (.map (before ++ (key, w) :: after))

/-! ## Deciding by the rules -/

/-- The items of a list fit a kind if each of them does. -/
theorem allFit_iff {items : List Value} {element : Kind} :
    allFit items element = true ↔ ∀ v ∈ items, v.fits element = true := by
  induction items with
  | nil => simp [allFit]
  | cons v rest ih => simp [allFit, ih]

/-- Every value fits the kind of all values. -/
theorem fits_any (v : Value) : v.fits .any = true := by
  cases v <;> rfl

/-- The check accepts whatever the rules allow. -/
theorem Fits.fits {v : Value} {k : Kind} (h : Fits v k) : v.fits k = true := by
  induction h with
  | any v => exact fits_any v
  | null k => cases k <;> rfl
  | whole n => rfl
  | list _ ih => exact allFit_iff.2 ih
  | @own v k hv hk =>
      subst hk
      cases v with
      | list items => cases hv
      | null | bool _ | int _ | double _ | string _ | map _ => rfl

/-- Of the values that are no lists, only whole numbers and null fit kinds that are not their
own. -/
theorem Fits.of_not_isList {v : Value} {k : Kind} (hv : v.isList = false)
    (h : v.fits k = true) : Fits v k := by
  cases v with
  | list items => cases hv
  | null => exact .null k
  | int n =>
      cases k with
      | any => exact .any _
      | float => exact .whole n
      | _ => exact .own rfl (beq_iff_eq.1 h)
  | bool _ | double _ | string _ | map _ =>
      cases k with
      | any => exact .any _
      | _ => exact .own rfl (beq_iff_eq.1 h)

mutual

/-- Whatever the check accepts is allowed by the rules. -/
theorem Fits.of_fits : ∀ (v : Value) {k : Kind}, v.fits k = true → Fits v k
  | .list items, k, h => by
      cases k with
      | any => exact .any _
      | list element => exact .list (Fits.of_allFit items h)
      | _ => cases h
  | .null, _, h | .bool _, _, h | .int _, _, h | .double _, _, h | .string _, _, h
  | .map _, _, h => .of_not_isList rfl h

theorem Fits.of_allFit : ∀ (items : List Value) {element : Kind}, allFit items element = true →
    ∀ v ∈ items, Fits v element
  | [], _, _ => List.forall_mem_nil _
  | v :: rest, _, h => by
      obtain ⟨hv, hrest⟩ := Bool.and_eq_true_iff.1 h
      exact List.forall_mem_cons.2 ⟨Fits.of_fits v hv, Fits.of_allFit rest hrest⟩

end

/-- The function decides by the rules. -/
theorem fits_iff {v : Value} {k : Kind} : v.fits k = true ↔ Fits v k :=
  ⟨Fits.of_fits v, Fits.fits⟩

/-! ## The kinds of elements -/

/-- The kinds of elements are those of the items that are not null. -/
theorem mem_elementKinds_iff {items : List Value} {k : Kind} :
    k ∈ elementKinds items ↔ ∃ v ∈ items, v.isNull = false ∧ v.kind = k := by
  induction items with
  | nil => simp [elementKinds]
  | cons v rest ih =>
      cases hv : v.isNull with
      | true => simp [elementKinds, hv, ih]
      | false =>
          have hcons : elementKinds (v :: rest) = v.kind :: elementKinds rest := by
            simp [elementKinds, hv]
          rw [hcons, List.mem_cons, ih, List.exists_mem_cons_iff, eq_comm]
          simp [hv]

/-- The kind of all elements is unknown, or all elements that are not null have it. -/
theorem commonKind_cases (kinds : List Kind) :
    commonKind kinds = .any ∨ commonKind kinds ∈ kinds ∧ ∀ k ∈ kinds, k = commonKind kinds := by
  cases kinds with
  | nil => exact .inl rfl
  | cons first rest =>
      rw [commonKind]
      split
      · next hall =>
          refine .inr ⟨List.mem_cons_self, List.forall_mem_cons.2 ⟨rfl, fun k hk => ?_⟩⟩
          exact beq_iff_eq.1 (List.all_eq_true.1 hall k hk)
      · exact .inl rfl

/-- Null is the only value that is null. -/
theorem eq_null_of_isNull {v : Value} (h : v.isNull = true) : v = .null := by
  cases v with
  | null => rfl
  | bool _ | int _ | double _ | string _ | list _ | map _ => cases h

/-- A list fits its own kind if its elements fit theirs. -/
theorem fits_kind_list {items : List Value} (h : ∀ v ∈ items, Fits v v.kind) :
    Fits (.list items) (Value.list items).kind := by
  refine .list fun v hv => ?_
  rcases commonKind_cases (elementKinds items) with hany | ⟨-, hall⟩
  · rw [hany]
    exact .any v
  · cases hnull : v.isNull with
    | true =>
        obtain rfl := eq_null_of_isNull hnull
        exact .null _
    | false =>
        have hkind := hall v.kind (mem_elementKinds_iff.2 ⟨v, hv, hnull, rfl⟩)
        rw [← hkind]
        exact h v hv

mutual

/-- A value fits the kind that is reported for it. -/
theorem fits_kind : ∀ v : Value, Fits v v.kind
  | .list items => fits_kind_list (fits_kind_of_mem items)
  | .null | .bool _ | .int _ | .double _ | .string _ | .map _ => .own rfl rfl

theorem fits_kind_of_mem : ∀ items : List Value, ∀ v ∈ items, Fits v v.kind
  | [] => List.forall_mem_nil _
  | v :: rest => List.forall_mem_cons.2 ⟨fits_kind v, fits_kind_of_mem rest⟩

end

/-! ## Wider kinds, own kinds and nulls -/

/-- What fits a kind fits the wider ones. -/
theorem Fits.widen {v : Value} {k wider : Kind} (h : Fits v k) (hw : k.Widens wider) :
    Fits v wider := by
  induction h generalizing wider with
  | any v =>
      cases hw with
      | any | same => exact .any v
  | null k => exact .null wider
  | whole n =>
      cases hw with
      | any => exact .any _
      | same => exact .whole n
  | list h ih =>
      cases hw with
      | any => exact .any _
      | same => exact .list h
      | list hw => exact .list fun v hv => ih v hv hw
  | @own v k hv hk =>
      cases hw with
      | any => exact .any v
      | same => exact .own hv hk
      | list hw =>
          cases v with
          | list items => cases hv
          | null | bool _ | int _ | double _ | string _ | map _ => cases hk

/-- Apart from whole numbers that stand for floats, what fits a kind has a kind that it
accepts. -/
theorem Fits.accepts_kind {v : Value} {k : Kind} (h : Fits v k) (hk : k.mentionsFloat = false) :
    k.accepts v.kind = true := by
  induction h with
  | any v => rfl
  | null k => exact (Kind.accepts_comm k .any).trans rfl
  | whole n => cases hk
  | @list items element _ ih =>
      show element.accepts (commonKind (elementKinds items)) = true
      rcases commonKind_cases (elementKinds items) with hany | ⟨hmem, -⟩
      · rw [hany]
        exact (Kind.accepts_comm element .any).trans rfl
      · -- some element has the kind of all
        obtain ⟨v, hv, -, hkind⟩ := mem_elementKinds_iff.1 hmem
        rw [← hkind]
        exact ih v hv hk
  | own _ hown =>
      rw [hown]
      exact Kind.accepts_self _

/-- A value in the place of a null makes nothing fit that did not fit before. -/
theorem Fits.of_fillsNull {v w : Value} (hf : FillsNull v w) {k : Kind} (h : Fits w k) :
    Fits v k := by
  induction hf generalizing k with
  | here w => exact .null k
  | item before after _ ih =>
      cases h with
      | any => exact .any _
      | own hlist => cases hlist
      | list h =>
          obtain ⟨hbefore, hrest⟩ := List.forall_mem_append.1 h
          obtain ⟨hw, hafter⟩ := List.forall_mem_cons.1 hrest
          exact .list (List.forall_mem_append.2
            ⟨hbefore, List.forall_mem_cons.2 ⟨ih hw, hafter⟩⟩)
  | entry before key after _ _ =>
      cases h with
      | any => exact .any _
      | own _ hk => exact .own rfl hk

end Value

/-! ## Bound values -/

namespace Template

variable {t : Template} {values : Bindings} {b : BoundStatement}

/-- Binding warns of every value that does not fit. -/
theorem fits_of_bind (hb : (t.bind values).result = .ok b) {name : Identifier} {kind : Kind}
    {value : Value} (hkind : t.params.get? name = some kind)
    (hvalue : b.values.get? name = some value)
    (hquiet : Event.misfit name kind value ∉ (t.bind values).events) :
    value.fits kind = true := by
  have hsupplies := bind_ok_iff.1 ⟨b, hb⟩
  obtain ⟨bound, hbound, -, -, hvalues⟩ := bind_of_supplies hsupplies
  obtain rfl : bound = b := by rwa [hbound, Except.ok.injEq] at hb
  have hsupplied : values.get? name.text = some value :=
    (hvalues name (Table.mem_keys_iff.2 ⟨kind, hkind⟩)).symm.trans hvalue
  cases hfits : value.fits kind with
  | true => rfl
  | false =>
      refine absurd ?_ hquiet
      rw [bind_eq_ok hsupplies]
      refine List.mem_append_left _ (List.mem_flatMap.2 ⟨_, Table.get?_eq_some_iff.1 hkind, ?_⟩)
      simp [hsupplied, misfit, hfits]

/-- A value that is bound without a warning has a kind at which its parameter could be used,
unless floats are declared. -/
theorem checkUse_of_bind (hb : (t.bind values).result = .ok b) {name : Identifier} {kind : Kind}
    {value : Value} (hkind : t.params.get? name = some kind)
    (hvalue : b.values.get? name = some value)
    (hquiet : Event.misfit name kind value ∉ (t.bind values).events)
    (hfloat : kind.mentionsFloat = false) : t.params.checkUse ⟨name, value.kind⟩ = .ok () := by
  have hfits := Value.fits_iff.1 (fits_of_bind hb hkind hvalue hquiet)
  exact Declarations.checkUse_ok_iff.2 ⟨kind, hkind, hfits.accepts_kind hfloat⟩

end Template

namespace Value

/-- A value fits its own kind, and with a kind all wider ones. Unless floats are mentioned, a
kind that a value fits accepts the kind of the value; so a value that is bound without a warning
has a kind at which its parameter could be used in a query. Nulls that get values make nothing
fit that did not fit before. -/
theorem fits_consistent :
    (∀ v : Value, v.fits v.kind = true) ∧
    (∀ (v : Value) (k wider : Kind), k.Widens wider → v.fits k = true → v.fits wider = true) ∧
    (∀ (v : Value) (k : Kind), k.mentionsFloat = false → v.fits k = true →
      k.accepts v.kind = true) ∧
    (∀ (v w : Value) (k : Kind), Relation.ReflTransGen FillsNull v w → w.fits k = true →
      v.fits k = true) ∧
    ∀ (t : Template) (values : Bindings) (b : BoundStatement) (name : Identifier) (kind : Kind)
      (value : Value), (t.bind values).result = .ok b → t.params.get? name = some kind →
        b.values.get? name = some value →
          Event.misfit name kind value ∉ (t.bind values).events → kind.mentionsFloat = false →
            t.params.checkUse ⟨name, value.kind⟩ = .ok () := by
  refine ⟨fun v => (fits_kind v).fits, ?_, ?_, ?_, ?_⟩
  · exact fun v k wider hw h => ((fits_iff.1 h).widen hw).fits
  · exact fun v k hk h => (fits_iff.1 h).accepts_kind hk
  · intro v w k hfilled h
    induction hfilled using Relation.ReflTransGen.head_induction_on with
    | refl => exact h
    | head hf _ ih => exact ((fits_iff.1 ih).of_fillsNull hf).fits
  · exact fun t values b name kind value hb hkind hvalue hquiet hfloat =>
      Template.checkUse_of_bind hb hkind hvalue hquiet hfloat

namespace Sample

/-- Two lists of numbers, a gap in one of them and a gap behind them. -/
def sparse : Value := .list [.list [.int 1, .null], .list [.int 2], .null]

/-- The same with a text in the inner gap. -/
def mixed : Value := .list [.list [.int 1, .string "two"], .list [.int 2], .null]

def rows : Identifier := ⟨"rows", by decide⟩

/-- A template that asks for lists in a list. -/
def template : Template := ⟨"RETURN $rows", ⟨[(rows, .list (.list .any))], by decide⟩⟩

def values : Bindings := ⟨[("rows", sparse)], by decide⟩

theorem fillsNull_sparse : FillsNull sparse mixed :=
  .item [] _ (.item [.int 1] [] (.here (.string "two")))

end Sample

/-- Gaps leave the kind of the numbers in sight, a text among them does not. The text fits where
lists of anything are declared, and there the gap fits as well. -/
theorem fits_consistent_sparse :
    Sample.sparse.kind = .list (.list .integer) ∧ Sample.mixed.kind = .list .any ∧
    Sample.sparse.fits (.list (.list .integer)) = true ∧
    Sample.sparse.fits (.list .any) = true ∧
    (Kind.list (.list .any)).accepts Sample.sparse.kind = true ∧
    Sample.sparse.fits (.list (.list .any)) = true ∧
    Sample.template.params.checkUse ⟨Sample.rows, Sample.sparse.kind⟩ = .ok () := by
  obtain ⟨hkind, hwiden, haccepts, hnull, hbind⟩ := fits_consistent
  have hown := hkind Sample.sparse
  have hmixed : Sample.mixed.fits (.list (.list .any)) = true := rfl
  have hsparse := hnull _ _ _ (.single Sample.fillsNull_sparse) hmixed
  have hevents : (Sample.template.bind Sample.values).events = [.bound 1] := rfl
  refine ⟨rfl, rfl, hown, hwiden _ _ _ (.list (.any (.list .integer))) hown,
    haccepts _ _ rfl hsparse, hsparse, ?_⟩
  refine hbind Sample.template Sample.values _ Sample.rows _ Sample.sparse rfl rfl rfl ?_ rfl
  rw [hevents, List.mem_singleton]
  rintro ⟨⟩

end Value

end GraphQuery
