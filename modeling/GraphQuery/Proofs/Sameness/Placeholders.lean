import GraphQuery.Proofs.Sameness.Keys
import Mathlib.Data.List.Perm.Basic

/-!
# Placeholders of parts that are the same

The texts of two parts that are the same may differ, since the entries of their maps may
stand in another order. Their placeholders are the same, but for the order: the entries of
one map can be paired with those of the other, as long as no key occurs twice.

Main statement: `Fragment.placeholders_perm_of_same`.
-/

set_option autoImplicit false

namespace GraphQuery

namespace Entries

variable {κ α β : Type} [DecidableEq κ]

/-- Removing an entry takes its key away and leaves the others. -/
theorem lookup_remove {before after : List (κ × α)} {key k : κ} {a : α} (h : k ≠ key) :
    (before ++ (key, a) :: after).lookup k = (before ++ after).lookup k := by
  induction before with
  | nil => rw [List.nil_append, List.nil_append, lookup_cons, if_neg h]
  | cons e rest ih =>
      obtain ⟨k', a'⟩ := e
      rw [List.cons_append, List.cons_append, lookup_cons, lookup_cons, ih]

/-- Entries with distinct keys, each of which has its match under the same key of another
list of the same length, come to the same when put together in any order. -/
theorem flatMap_perm {g : α → List β} {es fs : List (κ × α)} (hkeys : (keys es).Nodup)
    (hlength : es.length = fs.length)
    (h : ∀ e ∈ es, ∃ b, fs.lookup e.1 = some b ∧ (g e.2).Perm (g b)) :
    (es.flatMap fun e => g e.2).Perm (fs.flatMap fun e => g e.2) := by
  induction es generalizing fs with
  | nil =>
      obtain rfl := List.length_eq_zero_iff.1 hlength.symm
      exact List.Perm.refl _
  | cons e rest ih =>
      obtain ⟨key, a⟩ := e
      have hnodup : (key :: keys rest).Nodup := hkeys
      obtain ⟨hkey, hrest⟩ := List.nodup_cons.1 hnodup
      obtain ⟨⟨b, hb, hperm⟩, hothers⟩ := List.forall_mem_cons.1 h
      obtain ⟨before, after, rfl⟩ := List.append_of_mem (mem_of_lookup hb)
      -- the match of the first entry is taken out, and none of the others needs it
      have hmatched : ∀ e ∈ rest, ∃ b, (before ++ after).lookup e.1 = some b ∧
          (g e.2).Perm (g b) := by
        intro e he
        have hne : e.1 ≠ key := by
          rintro rfl
          exact hkey (List.mem_map_of_mem he)
        rw [← lookup_remove (a := b) hne]
        exact hothers e he
      have hcount : rest.length = (before ++ after).length := by
        simp only [List.length_cons, List.length_append] at hlength ⊢
        omega
      have hmiddle : ((key, b) :: (before ++ after)).Perm (before ++ (key, b) :: after) :=
        List.perm_middle.symm
      have hmove := hmiddle.flatMap_right fun e => g e.2
      rw [List.flatMap_cons] at hmove
      exact (hperm.append (ih hrest hcount hmatched)).trans hmove

end Entries

namespace Expr

theorem entryPlaceholders_eq_flatMap (es : List (String × Expr)) :
    entryPlaceholders es = es.flatMap fun e => e.2.placeholders := by
  induction es with
  | nil => rfl
  | cons e rest ih =>
      obtain ⟨key, value⟩ := e
      rw [entryPlaceholders, ih, List.flatMap_cons]

/-! ## Expressions -/

/-- Expressions that are the same are built by one constructor. -/
theorem ctorIdx_of_same {a b : Expr} (h : a.same b = true) : a.ctorIdx = b.ctorIdx := by
  unfold same at h
  split at h <;> first | rfl | cases h

mutual

/-- Expressions that are the same have the same placeholders, up to the order of map entries. -/
theorem placeholders_perm_of_same : ∀ a b : Expr, a.distinctKeys = true → a.same b = true →
    a.placeholders.Perm b.placeholders
  | .literal value, b, _, h => by
      cases b with
      | literal => exact List.Perm.refl _
      | _ => cases ctorIdx_of_same h
  | .name var, b, _, h => by
      cases b with
      | name => exact List.Perm.refl _
      | _ => cases ctorIdx_of_same h
  | .placeholder p, b, _, h => by
      cases b with
      | placeholder q =>
          obtain rfl : p = q := by simpa [same] using h
          exact List.Perm.refl _
      | _ => cases ctorIdx_of_same h
  | .call f first rest, b, hkeys, h => by
      cases b with
      | call g first' rest' =>
          simp only [distinctKeys, same, Bool.and_eq_true] at hkeys h
          exact (placeholders_perm_of_same first first' hkeys.1 h.1.2).append
            (listPlaceholders_perm_of_same rest rest' hkeys.2 h.2)
      | _ => cases ctorIdx_of_same h
  | .map es, b, hkeys, h => by
      cases b with
      | map fs =>
          simp only [distinctKeys, same, Bool.and_eq_true, decide_eq_true_eq, beq_iff_eq] at hkeys h
          simp only [placeholders, entryPlaceholders_eq_flatMap]
          exact Entries.flatMap_perm hkeys.1 h.1 (matched_of_same es fs hkeys.2 h.2)
      | _ => cases ctorIdx_of_same h
  | .list as, b, hkeys, h => by
      cases b with
      | list bs =>
          simp only [distinctKeys, same] at hkeys h
          exact listPlaceholders_perm_of_same as bs hkeys h
      | _ => cases ctorIdx_of_same h
  | .property a key, b, hkeys, h => by
      cases b with
      | property b key' =>
          simp only [distinctKeys, same, Bool.and_eq_true] at hkeys h
          exact placeholders_perm_of_same a b hkeys h.1
      | _ => cases ctorIdx_of_same h
  | .index a i, b, hkeys, h => by
      cases b with
      | index b j =>
          simp only [distinctKeys, same, Bool.and_eq_true] at hkeys h
          exact (placeholders_perm_of_same a b hkeys.1 h.1).append
            (placeholders_perm_of_same i j hkeys.2 h.2)
      | _ => cases ctorIdx_of_same h
  | .sliceFrom a low, b, hkeys, h => by
      cases b with
      | sliceFrom b low' =>
          simp only [distinctKeys, same, Bool.and_eq_true] at hkeys h
          exact (placeholders_perm_of_same a b hkeys.1 h.1).append
            (placeholders_perm_of_same low low' hkeys.2 h.2)
      | _ => cases ctorIdx_of_same h
  | .sliceTo a high, b, hkeys, h => by
      cases b with
      | sliceTo b high' =>
          simp only [distinctKeys, same, Bool.and_eq_true] at hkeys h
          exact (placeholders_perm_of_same a b hkeys.1 h.1).append
            (placeholders_perm_of_same high high' hkeys.2 h.2)
      | _ => cases ctorIdx_of_same h
  | .slice a low high, b, hkeys, h => by
      cases b with
      | slice b low' high' =>
          simp only [distinctKeys, same, Bool.and_eq_true] at hkeys h
          exact ((placeholders_perm_of_same a b hkeys.1.1 h.1.1).append
            (placeholders_perm_of_same low low' hkeys.1.2 h.1.2)).append
              (placeholders_perm_of_same high high' hkeys.2 h.2)
      | _ => cases ctorIdx_of_same h
  | .unary op a, b, hkeys, h => by
      cases b with
      | unary op' b =>
          simp only [distinctKeys, same, Bool.and_eq_true] at hkeys h
          exact placeholders_perm_of_same a b hkeys h.2
      | _ => cases ctorIdx_of_same h
  | .binary op l r, b, hkeys, h => by
      cases b with
      | binary op' l' r' =>
          simp only [distinctKeys, same, Bool.and_eq_true] at hkeys h
          exact (placeholders_perm_of_same l l' hkeys.1 h.1.2).append
            (placeholders_perm_of_same r r' hkeys.2 h.2)
      | _ => cases ctorIdx_of_same h
  | .case c r more fallback, b, hkeys, h => by
      cases b with
      | case c' r' more' fallback' =>
          simp only [distinctKeys, same, Bool.and_eq_true] at hkeys h
          exact (((placeholders_perm_of_same c c' hkeys.1.1.1 h.1.1.1).append
            (placeholders_perm_of_same r r' hkeys.1.1.2 h.1.1.2)).append
              (armPlaceholders_perm_of_same more more' hkeys.1.2 h.1.2)).append
                (fallbackPlaceholders_perm_of_same fallback fallback' hkeys.2 h.2)
      | _ => cases ctorIdx_of_same h
termination_by structural a => a

theorem listPlaceholders_perm_of_same : ∀ as bs : List Expr, listDistinctKeys as = true →
    sameList as bs = true → (listPlaceholders as).Perm (listPlaceholders bs)
  | [], bs, _, h => by
      cases bs with
      | nil => exact List.Perm.refl _
      | cons => simp [sameList] at h
  | a :: as, bs, hkeys, h => by
      cases bs with
      | nil => simp [sameList] at h
      | cons b bs =>
          simp only [listDistinctKeys, sameList, Bool.and_eq_true] at hkeys h
          exact (placeholders_perm_of_same a b hkeys.1 h.1).append
            (listPlaceholders_perm_of_same as bs hkeys.2 h.2)
termination_by structural a => a

/-- Every entry of a map has its match in a map that is the same. -/
theorem matched_of_same : ∀ es fs : List (String × Expr), entriesDistinctKeys es = true →
    sameEntries es fs = true →
      ∀ e ∈ es, ∃ b, fs.lookup e.1 = some b ∧ e.2.placeholders.Perm b.placeholders
  | [], _, _, _ => fun e he => nomatch he
  | (key, a) :: rest, fs, hkeys, h => by
      simp only [entriesDistinctKeys, sameEntries, Bool.and_eq_true] at hkeys h
      refine List.forall_mem_cons.2 ⟨?_, matched_of_same rest fs hkeys.2 h.2⟩
      have ha := h.1
      cases hb : fs.lookup key with
      | none =>
          rw [hb] at ha
          cases ha
      | some b =>
          rw [hb] at ha
          exact ⟨b, rfl, placeholders_perm_of_same a b hkeys.1 ha⟩
termination_by structural a => a

theorem armPlaceholders_perm_of_same : ∀ as bs : List (Expr × Expr),
    armsDistinctKeys as = true → sameArms as bs = true →
      (armPlaceholders as).Perm (armPlaceholders bs)
  | [], bs, _, h => by
      cases bs with
      | nil => exact List.Perm.refl _
      | cons => simp [sameArms] at h
  | (c, r) :: as, bs, hkeys, h => by
      cases bs with
      | nil => simp [sameArms] at h
      | cons b bs =>
          obtain ⟨c', r'⟩ := b
          simp only [armsDistinctKeys, sameArms, Bool.and_eq_true] at hkeys h
          exact ((placeholders_perm_of_same c c' hkeys.1.1 h.1.1).append
            (placeholders_perm_of_same r r' hkeys.1.2 h.1.2)).append
              (armPlaceholders_perm_of_same as bs hkeys.2 h.2)
termination_by structural a => a

theorem fallbackPlaceholders_perm_of_same : ∀ a b : Option Expr,
    fallbackDistinctKeys a = true → sameFallback a b = true →
      (fallbackPlaceholders a).Perm (fallbackPlaceholders b)
  | none, b, _, h => by
      cases b with
      | none => exact List.Perm.refl _
      | some => simp [sameFallback] at h
  | some a, b, hkeys, h => by
      cases b with
      | none => simp [sameFallback] at h
      | some b =>
          simp only [fallbackDistinctKeys, sameFallback] at hkeys h
          exact placeholders_perm_of_same a b hkeys h
termination_by structural a => a

end

end Expr

/-! ## Patterns and projections -/

/-- Maps that are the same have the same placeholders up to order, if no key is repeated. -/
theorem Expr.entryPlaceholders_perm_of_same {es fs : List (String × Expr)}
    (hkeys : Expr.mapDistinctKeys es = true) (h : Expr.sameMap es fs = true) :
    (Expr.entryPlaceholders es).Perm (Expr.entryPlaceholders fs) := by
  simp only [Expr.mapDistinctKeys, Expr.sameMap, Bool.and_eq_true, decide_eq_true_eq,
    beq_iff_eq] at hkeys h
  rw [entryPlaceholders_eq_flatMap, entryPlaceholders_eq_flatMap]
  exact Entries.flatMap_perm hkeys.1 h.1 (matched_of_same es fs hkeys.2 h.2)

/-- What is gathered along lists that are the same is a permutation if it is for each pair of
elements. -/
theorem flatMap_perm_of_sameListBy {α β : Type} {same : α → α → Bool} {g : α → List β}
    {as bs : List α} (h : sameListBy same as bs = true)
    (hsame : ∀ a ∈ as, ∀ b, same a b = true → (g a).Perm (g b)) :
    (as.flatMap g).Perm (bs.flatMap g) := by
  induction as generalizing bs with
  | nil =>
      cases bs with
      | nil => exact List.Perm.refl _
      | cons => cases h
  | cons a rest ih =>
      cases bs with
      | nil => cases h
      | cons b others =>
          obtain ⟨hb, hothers⟩ := (Bool.and_eq_true _ _).mp h
          obtain ⟨ha, hrest⟩ := List.forall_mem_cons.1 hsame
          rw [List.flatMap_cons, List.flatMap_cons]
          exact (ha b hb).append (ih hothers hrest)

theorem NodePattern.placeholders_perm_of_same {n m : NodePattern}
    (hkeys : Expr.mapDistinctKeys n.properties = true) (h : n.same m = true) :
    n.placeholders.Perm m.placeholders := by
  simp only [NodePattern.same, Bool.and_eq_true] at h
  exact Expr.entryPlaceholders_perm_of_same hkeys h.2

theorem RelationshipPattern.placeholders_perm_of_same {r s : RelationshipPattern}
    (hkeys : Expr.mapDistinctKeys r.properties = true) (h : r.same s = true) :
    r.placeholders.Perm s.placeholders := by
  simp only [RelationshipPattern.same, Bool.and_eq_true] at h
  exact Expr.entryPlaceholders_perm_of_same hkeys h.2

/-- Paths that are the same have the same placeholders up to order. -/
theorem Path.placeholders_perm_of_same {p q : Path} (hkeys : p.distinctKeys = true)
    (h : p.same q = true) : p.placeholders.Perm q.placeholders := by
  simp only [Path.distinctKeys, Path.same, Bool.and_eq_true, List.all_eq_true] at hkeys h
  refine (NodePattern.placeholders_perm_of_same hkeys.1 h.1).append
    (flatMap_perm_of_sameListBy h.2 ?_)
  rintro ⟨r, n⟩ hstep ⟨s, m⟩ hsame
  obtain ⟨hr, hn⟩ := hkeys.2 (r, n) hstep
  simp only [Bool.and_eq_true] at hsame
  exact (RelationshipPattern.placeholders_perm_of_same hr hsame.1).append
    (NodePattern.placeholders_perm_of_same hn hsame.2)

theorem Projection.sameItems_of_same {p q : Projection} (h : p.same q = true) :
    sameListBy Column.same p.items q.items = true := by
  obtain ⟨distinct, selection⟩ := p
  obtain ⟨distinct', selection'⟩ := q
  have hselection : selection.same selection' = true := ((Bool.and_eq_true _ _).mp h).2
  cases selection with
  | everything more =>
      cases selection' with
      | everything => exact hselection
      | items => cases hselection
  | items first more =>
      cases selection' with
      | everything => cases hselection
      | items => exact hselection

theorem Projection.placeholders_perm_of_same {p q : Projection} (hkeys : p.distinctKeys = true)
    (h : p.same q = true) : p.placeholders.Perm q.placeholders := by
  apply flatMap_perm_of_sameListBy (Projection.sameItems_of_same h)
  intro a ha b hab
  simp only [Column.same, Bool.and_eq_true] at hab
  exact a.expr.placeholders_perm_of_same b.expr (List.all_eq_true.1 hkeys a ha) hab.1

/-! ## Clauses and statements -/

/-- Clauses that are the same are built by one constructor. -/
theorem Clause.ctorIdx_of_same {c d : Clause} (h : c.same d = true) : c.ctorIdx = d.ctorIdx := by
  unfold Clause.same at h
  split at h <;> first | rfl | cases h

mutual

/-- Clauses that are the same have the same placeholders up to order. -/
theorem Clause.placeholders_perm_of_same : ∀ c d : Clause, c.distinctKeys = true →
    c.same d = true → c.placeholders.Perm d.placeholders
  | .matching optional p ps filter, d, hkeys, h => by
      cases d with
      | matching optional' q qs filter' =>
          simp only [Clause.distinctKeys, Clause.same, Bool.and_eq_true, List.all_eq_true]
            at hkeys h
          refine (flatMap_perm_of_sameListBy h.1.2 ?_).append
            (Expr.fallbackPlaceholders_perm_of_same filter filter' hkeys.2 h.2)
          intro path hpath other hother
          exact Path.placeholders_perm_of_same (hkeys.1 path hpath) hother
      | _ => cases Clause.ctorIdx_of_same h
  | .passing p filter, d, hkeys, h => by
      cases d with
      | passing q filter' =>
          simp only [Clause.distinctKeys, Clause.same, Bool.and_eq_true] at hkeys h
          exact (Projection.placeholders_perm_of_same hkeys.1 h.1).append
            (Expr.fallbackPlaceholders_perm_of_same filter filter' hkeys.2 h.2)
      | _ => cases Clause.ctorIdx_of_same h
  | .unwind a element, d, hkeys, h => by
      cases d with
      | unwind b element' =>
          simp only [Clause.distinctKeys, Clause.same, Bool.and_eq_true] at hkeys h
          exact a.placeholders_perm_of_same b hkeys h.1
      | _ => cases Clause.ctorIdx_of_same h
  | .create p, d, hkeys, h => by
      cases d with
      | create q =>
          simp only [Clause.distinctKeys, Clause.same] at hkeys h
          exact Path.placeholders_perm_of_same hkeys h
      | _ => cases Clause.ctorIdx_of_same h
  | .setKey var key a, d, hkeys, h => by
      cases d with
      | setKey var' key' b =>
          simp only [Clause.distinctKeys, Clause.same, Bool.and_eq_true] at hkeys h
          exact a.placeholders_perm_of_same b hkeys h.2
      | _ => cases Clause.ctorIdx_of_same h
  | .delete detach a, d, hkeys, h => by
      cases d with
      | delete detach' b =>
          simp only [Clause.distinctKeys, Clause.same, Bool.and_eq_true] at hkeys h
          exact a.placeholders_perm_of_same b hkeys h.2
      | _ => cases Clause.ctorIdx_of_same h
  | .returning p, d, hkeys, h => by
      cases d with
      | returning q =>
          simp only [Clause.distinctKeys, Clause.same] at hkeys h
          exact Projection.placeholders_perm_of_same hkeys h
      | _ => cases Clause.ctorIdx_of_same h
  | .orderBy items, d, hkeys, h => by
      cases d with
      | orderBy others =>
          simp only [Clause.distinctKeys, Clause.same, List.all_eq_true] at hkeys h
          apply flatMap_perm_of_sameListBy h
          intro a ha b hab
          simp only [SortKey.same, Bool.and_eq_true] at hab
          exact a.expr.placeholders_perm_of_same b.expr (hkeys a ha) hab.1
      | _ => cases Clause.ctorIdx_of_same h
  | .skip a, d, hkeys, h => by
      cases d with
      | skip b =>
          simp only [Clause.distinctKeys, Clause.same] at hkeys h
          exact a.placeholders_perm_of_same b hkeys h
      | _ => cases Clause.ctorIdx_of_same h
  | .limit a, d, hkeys, h => by
      cases d with
      | limit b =>
          simp only [Clause.distinctKeys, Clause.same] at hkeys h
          exact a.placeholders_perm_of_same b hkeys h
      | _ => cases Clause.ctorIdx_of_same h
  | .subquery s, d, hkeys, h => by
      cases d with
      | subquery t =>
          simp only [Clause.distinctKeys, Clause.same] at hkeys h
          exact Statement.placeholders_perm_of_same s t hkeys h
      | _ => cases Clause.ctorIdx_of_same h
  | .choice b, d, hkeys, h => by
      cases d with
      | choice c =>
          simp only [Clause.distinctKeys, Clause.same] at hkeys h
          exact Choice.placeholders_perm_of_same b c hkeys h
      | _ => cases Clause.ctorIdx_of_same h
termination_by structural a => a

theorem Choice.placeholders_perm_of_same : ∀ b c : Choice, b.distinctKeys = true →
    b.same c = true → b.placeholders.Perm c.placeholders
  | ⟨cases, fallback, columns⟩, ⟨cases', fallback', columns'⟩, hkeys, h => by
      simp only [Choice.distinctKeys, Choice.same, Bool.and_eq_true] at hkeys h
      obtain ⟨hconditions, harms⟩ :=
        Choice.casePlaceholders_perm_of_same cases cases' hkeys.1 h.1.1
      exact (hconditions.append harms).append
        (Statement.placeholders_perm_of_same fallback fallback' hkeys.2 h.1.2)
termination_by structural a => a

theorem Choice.casePlaceholders_perm_of_same : ∀ cases cases' : List (Expr × Statement),
    Choice.casesDistinctKeys cases = true → Choice.sameCases cases cases' = true →
      ((cases.map Prod.fst).flatMap Expr.placeholders).Perm
        ((cases'.map Prod.fst).flatMap Expr.placeholders) ∧
      (Choice.armPlaceholders cases).Perm (Choice.armPlaceholders cases')
  | [], others, _, h => by
      cases others with
      | nil => exact ⟨List.Perm.refl _, List.Perm.refl _⟩
      | cons => simp [Choice.sameCases] at h
  | (condition, arm) :: rest, others, hkeys, h => by
      cases others with
      | nil => simp [Choice.sameCases] at h
      | cons other others =>
          obtain ⟨condition', arm'⟩ := other
          simp only [Choice.casesDistinctKeys, Choice.sameCases, Bool.and_eq_true] at hkeys h
          obtain ⟨hconditions, harms⟩ :=
            Choice.casePlaceholders_perm_of_same rest others hkeys.2 h.2
          constructor
          · rw [List.map_cons, List.flatMap_cons, List.map_cons, List.flatMap_cons]
            exact (condition.placeholders_perm_of_same condition' hkeys.1.1 h.1.1).append
              hconditions
          · exact (Statement.placeholders_perm_of_same arm arm' hkeys.1.2 h.1.2).append harms
termination_by structural a => a

theorem Query.placeholders_perm_of_same : ∀ q r : Query, q.distinctKeys = true →
    q.same r = true → q.placeholders.Perm r.placeholders
  | ⟨clauses⟩, ⟨others⟩, hkeys, h => by
      simp only [Query.distinctKeys, Query.same] at hkeys h
      exact Clause.listPlaceholders_perm_of_same clauses others hkeys h
termination_by structural a => a

theorem Clause.listPlaceholders_perm_of_same : ∀ cs ds : List Clause,
    Clause.listDistinctKeys cs = true → Clause.sameList cs ds = true →
      (Clause.listPlaceholders cs).Perm (Clause.listPlaceholders ds)
  | [], ds, _, h => by
      cases ds with
      | nil => exact List.Perm.refl _
      | cons => simp [Clause.sameList] at h
  | c :: cs, ds, hkeys, h => by
      cases ds with
      | nil => simp [Clause.sameList] at h
      | cons d ds =>
          simp only [Clause.listDistinctKeys, Clause.sameList, Bool.and_eq_true] at hkeys h
          exact (Clause.placeholders_perm_of_same c d hkeys.1 h.1).append
            (Clause.listPlaceholders_perm_of_same cs ds hkeys.2 h.2)
termination_by structural a => a

theorem Query.listPlaceholders_perm_of_same : ∀ qs rs : List Query,
    Query.listDistinctKeys qs = true → Query.sameList qs rs = true →
      (Query.listPlaceholders qs).Perm (Query.listPlaceholders rs)
  | [], rs, _, h => by
      cases rs with
      | nil => exact List.Perm.refl _
      | cons => simp [Query.sameList] at h
  | q :: qs, rs, hkeys, h => by
      cases rs with
      | nil => simp [Query.sameList] at h
      | cons r rs =>
          simp only [Query.listDistinctKeys, Query.sameList, Bool.and_eq_true] at hkeys h
          exact (Query.placeholders_perm_of_same q r hkeys.1 h.1).append
            (Query.listPlaceholders_perm_of_same qs rs hkeys.2 h.2)
termination_by structural a => a

/-- Statements that are the same have the same placeholders up to order, at every level. -/
theorem Statement.placeholders_perm_of_same : ∀ s t : Statement, s.distinctKeys = true →
    s.same t = true → s.placeholders.Perm t.placeholders
  | ⟨first, more, union⟩, ⟨first', more', union'⟩, hkeys, h => by
      simp only [Statement.distinctKeys, Statement.same, Bool.and_eq_true] at hkeys h
      exact (Query.placeholders_perm_of_same first first' hkeys.1 h.1.1).append
        (Query.listPlaceholders_perm_of_same more more' hkeys.2 h.1.2)
termination_by structural a => a

end

/-- Fragments that are the same have the same placeholders, equally often. -/
theorem Fragment.placeholders_perm_of_same {a b : Fragment} (hkeys : a.distinctKeys = true)
    (h : a.same b = true) : a.placeholders.Perm b.placeholders := by
  cases a with
  | expr e =>
      cases b with
      | expr e' => exact e.placeholders_perm_of_same e' hkeys h
      | _ => cases h
  | node n =>
      cases b with
      | node n' => exact NodePattern.placeholders_perm_of_same hkeys h
      | _ => cases h
  | relationship r =>
      cases b with
      | relationship r' => exact RelationshipPattern.placeholders_perm_of_same hkeys h
      | _ => cases h
  | length l =>
      cases b with
      | length l' => exact List.Perm.refl _
      | _ => cases h
  | path p =>
      cases b with
      | path p' => exact Path.placeholders_perm_of_same hkeys h
      | _ => cases h
  | projection p =>
      cases b with
      | projection p' => exact Projection.placeholders_perm_of_same hkeys h
      | _ => cases h
  | clause c =>
      cases b with
      | clause c' => exact c.placeholders_perm_of_same c' hkeys h
      | _ => cases h
  | query q =>
      cases b with
      | query q' => exact q.placeholders_perm_of_same q' hkeys h
      | _ => cases h
  | statement s =>
      cases b with
      | statement s' => exact s.placeholders_perm_of_same s' hkeys h
      | _ => cases h

end GraphQuery
