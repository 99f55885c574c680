import GraphQuery.Proofs.Binding.Matching
import GraphQuery.Proofs.Building.Maps
import GraphQuery.Proofs.Compiling.Declared
import GraphQuery.Proofs.Sameness.Columns

/-!
# Sameness is a congruence

Parts that are the same are told apart by their texts at most. They use the same placeholders,
they compile both or neither, and what they compile to binds the same values both or neither.
The texts need not agree, so the argument goes along the syntax: what compiling and binding
look at are the placeholders and the tables of names, which agree but for the order.

Main statement: `Parametrized.congruence`.
-/

set_option autoImplicit false

namespace GraphQuery

/-! ## Tables -/

namespace Table

variable {κ α : Type} [DecidableEq κ] {same : α → α → Bool} {t u : Table κ α}

/-- Tables are the same if they have as many keys and the same values under them. -/
theorem sameBy_iff : t.sameBy same u = true ↔ t.size = u.size ∧
    ∀ key a, t.get? key = some a → ∃ b, u.get? key = some b ∧ same a b = true := by
  rw [sameBy, Entries.sameBy, Bool.and_eq_true, beq_iff_eq, List.all_eq_true]
  refine and_congr Iff.rfl ?_
  constructor
  · intro h key a hkey
    have hmatch := h (key, a) (get?_eq_some_iff.1 hkey)
    simpa [Option.any_eq_true, get?] using hmatch
  · rintro h ⟨key, a⟩ hmem
    have hmatch := h key a (get?_eq_some_iff.2 hmem)
    simpa [Option.any_eq_true, get?] using hmatch

/-- Tables that are the same have the same keys, perhaps in another order. -/
theorem keys_perm_of_sameBy (h : t.sameBy same u = true) : t.keys.Perm u.keys := by
  obtain ⟨hsize, hmatch⟩ := sameBy_iff.1 h
  have hsubset : t.keys ⊆ u.keys := by
    intro key hkey
    obtain ⟨a, ha⟩ := mem_keys_iff.1 hkey
    obtain ⟨b, hb, -⟩ := hmatch key a ha
    exact mem_keys_iff.2 ⟨b, hb⟩
  have hlength : u.keys.length ≤ t.keys.length := by
    simp only [keys, Entries.keys, List.length_map]
    exact hsize.ge
  exact (List.subperm_of_subset t.nodup hsubset).perm_of_length_le hlength

end Table

/-- Declarations that are the same declare the same names at the same kinds. -/
theorem Declarations.get?_of_same {d e : Declarations} (h : d.same e = true) (name : Identifier) :
    e.get? name = d.get? name := by
  obtain ⟨-, hmatch⟩ := Table.sameBy_iff.1 h
  cases hname : d.get? name with
  | none =>
      rw [Table.get?_eq_none_iff] at hname ⊢
      rwa [← (Table.keys_perm_of_sameBy h).mem_iff]
  | some kind =>
      obtain ⟨kind', hkind, hequal⟩ := hmatch name kind hname
      rw [hkind, beq_iff_eq.1 hequal]

/-- Declarations that are the same take the same uses. -/
theorem Declarations.takes_of_same {d e : Declarations} (h : d.same e = true)
    (use : Placeholder) : e.Takes use ↔ d.Takes use := by
  rw [Declarations.Takes, Declarations.Takes, Declarations.get?_of_same h]

/-- Bindings that are the same supply the same declarations. -/
theorem Bindings.supplies_of_same {b c : Bindings} {d e : Declarations}
    (hvalues : b.same c = true) (hparams : d.same e = true) : c.Supplies e ↔ b.Supplies d := by
  rw [Bindings.supplies_iff, Bindings.supplies_iff]
  refine forall_congr' fun name => ?_
  rw [(Table.keys_perm_of_sameBy hvalues).mem_iff,
    ((Table.keys_perm_of_sameBy hparams).map Identifier.text).mem_iff]

/-! ## Binding -/

/-- Templates with the same parameters take bindings that are the same both or neither, and
hold the same values. -/
theorem Template.bind_of_same {t u : Template} {b c : Bindings}
    (hparams : t.params.same u.params = true) (hvalues : b.same c = true) :
    (∃ bound other, (t.bind b).result = .ok bound ∧ (u.bind c).result = .ok other ∧
      bound.values.sameBy Value.same other.values = true) ∨
    ∃ e e', (t.bind b).result = .error e ∧ (u.bind c).result = .error e' := by
  -- whether values are taken is told by their names, so both are taken or neither
  by_cases hsupplies : b.Supplies t.params
  · left
    have hsupplies' := (Bindings.supplies_of_same hvalues hparams).2 hsupplies
    obtain ⟨bound, hbound, -, hkeys, hget⟩ := bind_of_supplies hsupplies
    obtain ⟨other, hother, -, hkeys', hget'⟩ := bind_of_supplies hsupplies'
    have hperm := Table.keys_perm_of_sameBy hparams
    obtain ⟨-, hmatch⟩ := Table.sameBy_iff.1 hvalues
    refine ⟨bound, other, hbound, hother, Table.sameBy_iff.2 ⟨?_, ?_⟩⟩
    · have hlength := hperm.length_eq
      rw [← hkeys, ← hkeys'] at hlength
      simpa [Table.keys, Entries.keys, Table.size] using hlength
    · intro name value hvalue
      have hname : name ∈ t.params.keys := by
        rw [← hkeys]
        exact Table.mem_keys_iff.2 ⟨value, hvalue⟩
      rw [hget name hname] at hvalue
      rw [hget' name (hperm.mem_iff.1 hname)]
      exact hmatch name.text value hvalue
  · right
    have hsupplies' := mt (Bindings.supplies_of_same hvalues hparams).1 hsupplies
    exact ⟨_, _, by rw [bind_eq_error hsupplies], by rw [bind_eq_error hsupplies']⟩

/-! ## Compiling -/

/-- The uses that a rendering records are those of the syntax, once each. -/
theorem Fragment.uses_render (f : Fragment) (layout : Layout) (supply : NameSupply) :
    (f.render layout supply).1.uses = f.placeholders.eraseDups := by
  rw [← f.placeholders_pieces supply]
  rfl

namespace Parametrized

/-- Parametrized fragments that are the same, with the same declarations, use the same
placeholders in every rendering, compile both or neither, and compile to templates that take
bindings that are the same both or neither, with the same values. Statements that are the
same return the same columns. No map has a key twice, as in what is built of entries
(`Fragment.BuiltFrom.distinctKeys`); that it is so in one of the two fragments is enough. -/
theorem congruence {q r : Parametrized Fragment} (hkeys : q.body.distinctKeys = true)
    (hparams : q.params.same r.params = true) (hbody : q.body.same r.body = true) :
    (∀ layout supply layout' supply', (q.body.render layout supply).1.uses.Perm
      (r.body.render layout' supply').1.uses) ∧
    (∀ layout supply layout' supply', (∃ t, (q.compile layout supply).1.result = .ok t) ↔
      ∃ u, (r.compile layout' supply').1.result = .ok u) ∧
    (∀ layout supply layout' supply' t u, (q.compile layout supply).1.result = .ok t →
      (r.compile layout' supply').1.result = .ok u → ∀ b c : Bindings, b.same c = true →
        (∃ bound other, (t.bind b).result = .ok bound ∧ (u.bind c).result = .ok other ∧
          bound.values.sameBy Value.same other.values = true) ∨
        ∃ e e', (t.bind b).result = .error e ∧ (u.bind c).result = .error e') ∧
    ∀ s t : Statement, s.same t = true →
      ∀ columns, s.columns = .ok columns ↔ t.columns = .ok columns := by
  have hperm := Fragment.placeholders_perm_of_same hkeys hbody
  refine ⟨?_, ?_, ?_, fun s t h => Statement.columns_iff_of_same h⟩
  · intro layout supply layout' supply'
    rw [Fragment.uses_render, Fragment.uses_render]
    -- a record of uses has no repetitions, so its members are all that counts
    refine (List.perm_ext_iff_of_nodup (nodup_eraseDups _) (nodup_eraseDups _)).2 fun use => ?_
    rw [List.mem_eraseDups, List.mem_eraseDups, hperm.mem_iff]
  · intro layout supply layout' supply'
    rw [compile_ok_iff, compile_ok_iff]
    refine forall_congr' fun use => ?_
    rw [hperm.mem_iff, Declarations.takes_of_same hparams]
  · intro layout supply layout' supply' t u ht hu b c hbc
    obtain rfl := eq_of_compile ht
    obtain rfl := eq_of_compile hu
    exact Template.bind_of_same hparams hbc

namespace Sample

def least : Identifier := ⟨"least", by decide⟩

def most : Identifier := ⟨"most", by decide⟩

/-- A map of two placeholders and a zero. -/
def bounds : Parametrized Fragment :=
  ⟨⟨[(least, .integer), (most, .integer)], by decide⟩,
    .expr (.map [("low", .placeholder ⟨least, .integer⟩), ("high", .placeholder ⟨most, .integer⟩),
      ("zero", .literal (.float ⟨⟨0⟩, by decide⟩))])⟩

/-- The same map with its entries in another order, and with the other zero. -/
def swapped : Parametrized Fragment :=
  ⟨⟨[(most, .integer), (least, .integer)], by decide⟩,
    .expr (.map [("zero", .literal (.float ⟨⟨0x8000000000000000⟩, by decide⟩)),
      ("high", .placeholder ⟨most, .integer⟩), ("low", .placeholder ⟨least, .integer⟩)])⟩

theorem built_bounds : bounds.body.BuiltFrom Fragment.Made := by
  have hmap : Expr.Made (.ofEntries [("low", .placeholder ⟨least, .integer⟩),
      ("high", .placeholder ⟨most, .integer⟩), ("zero", .literal (.float ⟨⟨0⟩, by decide⟩))]) :=
    .ofEntries (List.forall_mem_cons.2 ⟨.placeholder _, List.forall_mem_cons.2
      ⟨.placeholder _, List.forall_mem_singleton.2 (.literal _)⟩⟩)
  exact .leaf rfl (.expr hmap)

end Sample

/-- The two maps have the same entries, and the zeros are the same number. -/
theorem swapped_same : Sample.bounds.body.same Sample.swapped.body = true := by
  have hzero : Number.Binary64.sameNumber ⟨0⟩ ⟨0x8000000000000000⟩ = true := by decide
  simp [Sample.bounds, Sample.swapped, Fragment.same, Expr.same, Expr.sameEntries, Literal.same,
    Entries.lookup_cons, hzero]

/-- The texts differ and the placeholders do not. -/
theorem congruence_swapped :
    (Sample.bounds.body.render .compact .fresh).1.text ≠
      (Sample.swapped.body.render .compact .fresh).1.text ∧
    (Sample.bounds.body.render .compact .fresh).1.uses.Perm
      (Sample.swapped.body.render .compact .fresh).1.uses ∧
    ∃ u, (Sample.swapped.compile .compact .fresh).1.result = .ok u := by
  obtain ⟨huses, hcompile, -⟩ :=
    congruence (q := Sample.bounds) (r := Sample.swapped) Sample.built_bounds.distinctKeys
      (by decide) swapped_same
  refine ⟨by decide, huses _ _ _ _, ?_⟩
  exact (hcompile .compact .fresh .compact .fresh).1 ⟨_, rfl⟩

end Parametrized

end GraphQuery
