import GraphQuery.Proofs.Naming.Claiming

/-!
# Numbers of fresh names

A search for an unused name ends with the first name of the supply that is neither claimed
nor a name of the part itself. If no part has a name that the supply could hand out, every
search ends at once, so a merge draws one name for each collision, numbered in the order in
which the names are claimed.

Main statement: `Conditional.numbers_select`.
-/

set_option autoImplicit false

namespace GraphQuery

/-- Of the names of several parts, those that an earlier part has as well. The names in
`seen` count as names of an earlier part. -/
def collisions (seen : List Identifier) : List (List Identifier) → List Identifier
  | [] => []
  | names :: rest => names.filter (· ∈ seen) ++ collisions (seen ++ names) rest

theorem Event.map_replacement?_renamed (sources targets : List Identifier) :
    (List.zipWith Event.renamed sources targets).map Event.replacement? =
      ((sources.map Identifier.text).zip targets).map some := by
  rw [List.map_zipWith, List.map_zip_eq_zipWith, List.zipWith_map_left]
  rfl

namespace NameSupply

/-- None of the names is among those that the supply has still to hand out. -/
def Ahead (s : NameSupply) (names : List Identifier) : Prop :=
  ∀ j, s.issued ≤ j → s.stem.numbered j ∉ names

/-- A supply that is ahead of the names draws a new one. -/
theorem Ahead.next_not_mem {s : NameSupply} {names : List Identifier} (h : s.Ahead names) :
    s.next ∉ names :=
  h s.issued (Nat.le_refl _)

/-- Behind a draw it is ahead of the drawn name, too. -/
theorem Ahead.advance {s : NameSupply} {names : List Identifier} (h : s.Ahead names) :
    s.advance.Ahead (names ++ [s.next]) := by
  intro j hj
  have hlater : s.issued + 1 ≤ j := hj
  rw [List.mem_append, List.mem_singleton, not_or]
  refine ⟨h j (by omega), fun heq => ?_⟩
  have hnumber := Identifier.numbered_injective heq
  omega

end NameSupply

namespace Claims

/-! ## One name for each collision -/

/-- On the way from `m` to `m'`, each of the names `collided` is replaced by the next name of
the supply, and no other name is drawn. -/
structure Numbers (m m' : Claims) (drawn collided : List Identifier) : Prop where
  draws : drawn = (m.supply.take collided.length).1
  supply : m'.supply = m.supply.after collided.length
  events : m'.events = m.events ++ List.zipWith Event.renamed collided drawn

theorem Numbers.refl (m : Claims) : m.Numbers m [] [] :=
  ⟨rfl, rfl, (List.append_nil _).symm⟩

/-- Draws and collisions add up along claims. -/
theorem Numbers.trans {m m₁ m' : Claims} {drawn more collided others : List Identifier}
    (h : m.Numbers m₁ drawn collided) (hmore : m₁.Numbers m' more others) :
    m.Numbers m' (drawn ++ more) (collided ++ others) where
  draws := by
    rw [List.length_append, NameSupply.take_add, ← h.draws, NameSupply.take_eq m.supply,
      ← h.supply, ← hmore.draws]
  supply := by
    rw [hmore.supply, h.supply, NameSupply.after_after, List.length_append]
  events := by
    have hlength : collided.length = drawn.length := by
      rw [h.draws, NameSupply.length_take]
    rw [hmore.events, h.events, List.append_assoc, List.zipWith_append hlength]

variable {own : Declarations}

/-- A claimed name is replaced by the next name of the supply. -/
theorem claim_numbers_of_taken {m : Claims} {name : Identifier} (kind : Kind) (renames : Renaming)
    (htaken : name ∈ m.claimed.keys) (hclaimed : m.supply.Ahead m.claimed.keys)
    (hown : m.supply.Ahead own.keys) :
    m.Numbers (m.claim own name kind renames).1 (m.claimDraws own name) [name] ∧
      (m.claim own name kind renames).1.claimed.keys = m.claimed.keys ++ [m.supply.next] := by
  have hcontains := Table.contains_iff.2 htaken
  have hfree : m.supply.next ∉ m.claimed.keys ++ own.keys := by
    rw [List.mem_append, not_or]
    exact ⟨hclaimed.next_not_mem, hown.next_not_mem⟩
  obtain ⟨hattempts, hdrawn⟩ := NameSupply.attempts_of_free hfree
  rw [claim_of_taken hcontains hdrawn, claimDraws, if_pos hcontains, hattempts]
  refine ⟨⟨rfl, rfl, rfl⟩, ?_⟩
  rw [Table.keys_insert, if_neg hclaimed.next_not_mem]

/-- A name that is free takes no number. -/
theorem claim_numbers_of_free (own : Declarations) {m : Claims} {name : Identifier} (kind : Kind)
    (renames : Renaming) (hfree : name ∉ m.claimed.keys) :
    m.Numbers (m.claim own name kind renames).1 (m.claimDraws own name) [] ∧
      (m.claim own name kind renames).1.claimed.keys = m.claimed.keys ++ [name] := by
  have hcontains := mt Table.contains_iff.1 hfree
  rw [claim_of_free hcontains, claimDraws, if_neg hcontains]
  refine ⟨⟨rfl, rfl, (List.append_nil _).symm⟩, ?_⟩
  rw [Table.keys_insert, if_neg hfree]

/-- The names of one part, where `earlier` are those among them that are claimed before. -/
theorem claimAll_numbers (earlier : List Identifier) (es : List (Identifier × Kind)) (m : Claims)
    (renames : Renaming) (hnodup : (Entries.keys es).Nodup)
    (hes : ∀ name ∈ Entries.keys es, name ∈ own.keys)
    (hearlier : ∀ name ∈ Entries.keys es, name ∈ m.claimed.keys ↔ name ∈ earlier)
    (hclaimed : m.supply.Ahead m.claimed.keys) (hown : m.supply.Ahead own.keys) :
    m.Numbers (m.claimAll own renames es).1 (m.claimAllDraws own renames es)
        ((Entries.keys es).filter (· ∈ earlier)) ∧
      (m.claimAll own renames es).1.supply.Ahead (m.claimAll own renames es).1.claimed.keys := by
  induction es generalizing m renames with
  | nil => exact ⟨.refl m, hclaimed⟩
  | cons e rest ih =>
      obtain ⟨name, kind⟩ := e
      obtain ⟨hname, hnodup⟩ : name ∉ Entries.keys rest ∧ (Entries.keys rest).Nodup :=
        List.nodup_cons.1 hnodup
      have hne : ∀ other ∈ Entries.keys rest, other ≠ name :=
        fun other hother h => hname (h ▸ hother)
      obtain ⟨hnameOwn, hes⟩ := List.forall_mem_cons.1 hes
      obtain ⟨hearlierName, hearlier⟩ := List.forall_mem_cons.1 hearlier
      have hkeys : Entries.keys ((name, kind) :: rest) = name :: Entries.keys rest := rfl
      rw [claimAll, claimAllDraws, hkeys]
      by_cases htaken : name ∈ m.claimed.keys
      · obtain ⟨hnumbers, hgrown⟩ := claim_numbers_of_taken kind renames htaken hclaimed hown
        have hsupply : (m.claim own name kind renames).1.supply = m.supply.advance :=
          hnumbers.supply
        have hrest := ih (m.claim own name kind renames).1 (m.claim own name kind renames).2 hnodup
          hes (fun other hother => ?_) ?_ ?_
        · rw [List.filter_cons_of_pos (by simpa using hearlierName.1 htaken)]
          exact ⟨hnumbers.trans hrest.1, hrest.2⟩
        · -- the name that is drawn is none of the part
          have hdrawn : other ≠ m.supply.next := by
            intro h
            exact hown.next_not_mem (h ▸ hes other hother)
          rw [hgrown, List.mem_append, List.mem_singleton, or_iff_left hdrawn]
          exact hearlier other hother
        · rw [hgrown, hsupply]
          exact hclaimed.advance
        · rw [hsupply]
          intro j hj
          exact hown j (Nat.le_of_succ_le hj)
      · obtain ⟨hnumbers, hgrown⟩ := claim_numbers_of_free own kind renames htaken
        have hsupply : (m.claim own name kind renames).1.supply = m.supply := hnumbers.supply
        have hrest := ih (m.claim own name kind renames).1 (m.claim own name kind renames).2 hnodup
          hes (fun other hother => ?_) ?_ ?_
        · rw [List.filter_cons_of_neg (by simpa using mt hearlierName.2 htaken)]
          exact ⟨hnumbers.trans hrest.1, hrest.2⟩
        · rw [hgrown, List.mem_append, List.mem_singleton, or_iff_left (hne other hother)]
          exact hearlier other hother
        · rw [hgrown, hsupply]
          intro j hj hmem
          rcases List.mem_append.1 hmem with hold | hnew
          · exact hclaimed j hj hold
          · exact hown j hj (List.mem_singleton.1 hnew ▸ hnameOwn)
        · rw [hsupply]
          exact hown

/-! ## Parts whose names the supply cannot hand out -/

/-- Names without a number are claimed as they are. -/
theorem mem_claimAll_keys {x : Identifier} (es : List (Identifier × Kind)) (m : Claims)
    (renames : Renaming) (hx : ∀ n, x ≠ m.supply.stem.numbered n) :
    x ∈ (m.claimAll own renames es).1.claimed.keys ↔
      x ∈ m.claimed.keys ∨ x ∈ Entries.keys es := by
  induction es generalizing m renames with
  | nil => simp [claimAll, Entries.keys]
  | cons e rest ih =>
      obtain ⟨name, kind⟩ := e
      have hkeys : Entries.keys ((name, kind) :: rest) = name :: Entries.keys rest := rfl
      rw [claimAll, hkeys, List.mem_cons, ← or_assoc]
      rcases m.claim_cases own name kind renames with
        ⟨hfree, hclaim⟩ | ⟨htaken, j, events, -, hdrawn, -, hclaim⟩
      · have hrest := ih ⟨m.claimed.insert name kind, m.supply, m.events⟩ renames hx
        rw [hclaim, hrest, Table.keys_insert, if_neg hfree, List.mem_append, List.mem_singleton]
      · have hrest := ih ⟨m.claimed.insert (m.supply.stem.numbered j) kind,
          ⟨m.supply.stem, j + 1⟩, events⟩ (renames.insert name.text (m.supply.stem.numbered j)) hx
        rw [hclaim, hrest, Table.keys_insert, if_neg hdrawn, List.mem_append, List.mem_singleton,
          or_iff_left (hx j)]
        refine or_congr_left ⟨Or.inl, ?_⟩
        rintro (hclaimed | rfl)
        · exact hclaimed
        · exact htaken

/-- The names of several parts, where `seen` are the names that count as claimed before. -/
theorem parts_number (parts : List Declarations) (m : Claims) (seen : List Identifier)
    (hparts : ∀ own ∈ parts, ∀ name ∈ own.keys, ∀ n, name ≠ m.supply.stem.numbered n)
    (hseen : ∀ name, (∀ n, name ≠ m.supply.stem.numbered n) →
      (name ∈ m.claimed.keys ↔ name ∈ seen))
    (hclaimed : m.supply.Ahead m.claimed.keys) :
    m.Numbers (m.claimParts parts) (m.partDraws parts)
      (collisions seen (parts.map Table.keys)) := by
  induction parts generalizing m seen with
  | nil => exact .refl m
  | cons own rest ih =>
      obtain ⟨hown, hrest⟩ := List.forall_mem_cons.1 hparts
      obtain ⟨hnumbers, hgrown⟩ := claimAll_numbers seen own.entries m Table.empty own.nodup
        (fun _ hname => hname) (fun name hname => hseen name (hown name hname)) hclaimed
        (fun j _ hmem => hown _ hmem j rfl)
      have hstem : (m.claimAll own Table.empty own.entries).1.supply.stem = m.supply.stem := by
        rw [hnumbers.supply]
        rfl
      refine hnumbers.trans (ih _ _ (by rwa [hstem]) ?_ hgrown)
      rw [hstem]
      intro name hname
      rw [mem_claimAll_keys own.entries m Table.empty hname, hseen name hname, List.mem_append]
      exact Iff.rfl

end Claims

namespace Conditional

/-- A search for an unused name ends, after one draw more than there are claimed names and
names of the part at most; it runs in one way only, ends with the first name of the supply
that is neither claimed nor a name of the part, and leaves the supply behind that name.

If no part has a name that the supply could hand out, a merge draws one name for each
collision and no other, numbered in the order in which the names are claimed; this is what
it reports, and a successful merge holds the same in its renamings. -/
theorem numbers_select :
    (∀ (claimed own : Declarations) (s : NameSupply),
      let taken := claimed.keys ++ own.keys
      ∃ m, NameSupply.Searches taken s (s.attempts taken)
          (s.stem.numbered m, ⟨s.stem, m + 1⟩) ∧
        (∀ names result, NameSupply.Searches taken s names result →
          names = s.attempts taken ∧ result = (s.stem.numbered m, ⟨s.stem, m + 1⟩)) ∧
        (s.attempts taken).length ≤ 1 + claimed.size + own.size ∧
        s.firstUnused taken = (s.stem.numbered m, ⟨s.stem, m + 1⟩) ∧ s.issued ≤ m ∧
        s.stem.numbered m ∉ claimed.keys ∧ s.stem.numbered m ∉ own.keys ∧
        ∀ j, s.issued ≤ j → j < m →
          s.stem.numbered j ∈ claimed.keys ∨ s.stem.numbered j ∈ own.keys) ∧
    ∀ (cases : List (Parametrized Expr × Parametrized Statement))
      (fallback : Option (Parametrized Statement)) (supply : NameSupply),
      (∀ own ∈ claimants cases fallback, ∀ name ∈ own.keys, ∀ n,
        name ≠ supply.stem.numbered n) →
      let collided := collisions [] ((claimants cases fallback).map Table.keys)
      let fresh := (supply.take collided.length).1
      draws cases fallback supply = fresh ∧
        (select cases fallback supply).2 = supply.after collided.length ∧
        (select cases fallback supply).1.events = List.zipWith Event.renamed collided fresh ∧
        ∀ c, (select cases fallback supply).1.result = .ok c →
          ∃ last, fallback = some last ∧
            claimants cases fallback = (fragments cases last).map Parametrized.params ∧
            (c.conditionRenamings ++ c.armRenamings).flatMap Table.entries =
              (collided.map Identifier.text).zip fresh := by
  constructor
  · intro claimed own s taken
    obtain ⟨m, hloop, hlength, hm, hfree, hbefore⟩ := s.searches_least taken
    obtain ⟨-, hfound⟩ := hloop.unique (s.searches_firstUnused taken)
    rw [List.length_append, Table.length_keys, Table.length_keys, ← Nat.add_assoc] at hlength
    rw [List.mem_append, not_or] at hfree
    exact ⟨m, hloop, fun names result h => hloop.unique h, hlength, hfound, hm, hfree.1, hfree.2,
      fun j hj hlt => List.mem_append.1 (hbefore j hj hlt)⟩
  · intro cases fallback supply hforeign collided fresh
    obtain ⟨hdraws, hsupply, hevents⟩ := Claims.parts_number (claimants cases fallback)
      ⟨Table.empty, supply, []⟩ [] hforeign (fun _ _ => Iff.rfl)
      (fun _ _ hmem => List.not_mem_nil hmem)
    obtain ⟨hselect, hreported⟩ := select_claims cases fallback supply
    have hdrawn : draws cases fallback supply = fresh := hdraws
    rw [hdraws, List.nil_append] at hevents
    refine ⟨hdrawn, hselect.trans hsupply, hreported.trans hevents, fun c hc => ?_⟩
    obtain ⟨last, events, left, rfl, hok⟩ := exists_fallback hc
    refine ⟨last, rfl, claimants_of_select hok, ?_⟩
    rw [hok] at hreported
    have hrenamed : events = List.zipWith Event.renamed collided fresh := hreported.trans hevents
    have hrecords := select_records hok
    rw [hrenamed, Event.map_replacement?_renamed] at hrecords
    exact (List.map_injective_iff.2 (fun _ _ => Option.some.inj) hrecords).symm

/-- Three parts declare `x`, so two names are drawn, for the arm and for the fallback. -/
theorem numbers_select_sample :
    (∀ own ∈ claimants [(Sample.condition, Sample.arm)] (some Sample.fallback),
      ∀ name ∈ own.keys, ∀ n, name ≠ NameSupply.fresh.stem.numbered n) ∧
    draws [(Sample.condition, Sample.arm)] (some Sample.fallback) .fresh =
      [NameSupply.defaultStem.numbered 0, NameSupply.defaultStem.numbered 1] ∧
    (select [(Sample.condition, Sample.arm)] (some Sample.fallback) .fresh).1.events =
      [.renamed Sample.x (NameSupply.defaultStem.numbered 0),
        .renamed Sample.x (NameSupply.defaultStem.numbered 1)] ∧
    (select [(Sample.condition, Sample.arm)] (some Sample.fallback) .fresh).2 =
      ⟨NameSupply.defaultStem, 2⟩ := by
  have hheads : ∀ own ∈ claimants [(Sample.condition, Sample.arm)] (some Sample.fallback),
      ∀ name ∈ own.keys, name.text.toList.head? ≠ some '_' := by decide +kernel
  have hforeign : ∀ own ∈ claimants [(Sample.condition, Sample.arm)] (some Sample.fallback),
      ∀ name ∈ own.keys, ∀ n, name ≠ NameSupply.fresh.stem.numbered n := by
    intro own hown name hname n hn
    refine hheads own hown name hname ?_
    rw [hn]
    exact congrArg List.head? String.toList_ofList
  obtain ⟨hdraws, hleft, hevents, -⟩ := numbers_select.2 [(Sample.condition, Sample.arm)]
    (some Sample.fallback) .fresh hforeign
  have hcollided : collisions []
      ((claimants [(Sample.condition, Sample.arm)] (some Sample.fallback)).map Table.keys) =
        [Sample.x, Sample.x] := by decide +kernel
  rw [hcollided] at hdraws hleft hevents
  exact ⟨hforeign, hdraws, hevents, hleft⟩

end Conditional

end GraphQuery
