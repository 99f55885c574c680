import GraphQuery.Proofs.Layout.Levels

/-!
# Modes of unions

A machine reads the pieces of a text and keeps, for the current level of braces and for
those around it, the mode in which queries were joined so far. It stops where two modes
meet at a level, so pieces that it reads to the end mix no modes.

Main statements: `BraceLevel.exists_run`, a uniform level is read to the end, and
`UnionReader.eq_of_run`, what this means for any two joints at one level.
-/

set_option autoImplicit false

namespace GraphQuery

/-- The mode with the given words. -/
def UnionMode.ofWords? (words : String) : Option UnionMode :=
  if words = "UNION" then some .distinct else if words = "UNION ALL" then some .all else none

/-- The words of a union tell its mode. -/
theorem UnionMode.ofWords?_words (mode : UnionMode) : ofWords? mode.words = some mode := by
  cases mode <;> decide

/-- Other words tell no mode. -/
theorem UnionMode.ofWords?_eq_none {words : String}
    (h : ∀ joint : UnionMode, words ≠ joint.words) : ofWords? words = none :=
  (if_neg (h .distinct)).trans (if_neg (h .all))

/-- What stands on the current line: nothing, the words of a union and nothing else, or
anything else. -/
inductive LineSoFar where
  | empty
  | joint (mode : UnionMode)
  | other

/-- The line that begins with the given words. -/
def LineSoFar.ofWords (words : String) : LineSoFar :=
  match UnionMode.ofWords? words with
  | some mode => .joint mode
  | none => .other

/-- A reader of pieces: the current line, and the modes of the current level and of the
levels around it. A level has no mode before its first joint. -/
structure UnionReader where
  line : LineSoFar
  mode : Option UnionMode
  outer : List (Option UnionMode)

namespace UnionReader

/-- Reads a piece, if it does not mix modes and closes no body that is not open. -/
def step (s : UnionReader) : Piece → Option UnionReader
  | .lineBreak =>
      match s.line with
      | .joint joint =>
          if s.mode = none ∨ s.mode = some joint then some ⟨.empty, some joint, s.outer⟩ else none
      | _ => some ⟨.empty, s.mode, s.outer⟩
  | .openBody => some ⟨.empty, none, s.mode :: s.outer⟩
  | .closeBody =>
      match s.outer with
      | [] => none
      | mode :: outer => some ⟨.other, mode, outer⟩
  | .word text =>
      match s.line with
      | .empty => some ⟨.ofWords text, s.mode, s.outer⟩
      | _ => some ⟨.other, s.mode, s.outer⟩
  | _ => some ⟨.other, s.mode, s.outer⟩

/-- Reads pieces one after the other. -/
def run (s : UnionReader) (ps : List Piece) : Option UnionReader := ps.foldlM step s

theorem step_word (words : String) (mode : Option UnionMode) (outer : List (Option UnionMode)) :
    (⟨.empty, mode, outer⟩ : UnionReader).step (.word words) =
      some ⟨.ofWords words, mode, outer⟩ := rfl

theorem run_cons {s t : UnionReader} {p : Piece} (h : s.step p = some t) (rest : List Piece) :
    s.run (p :: rest) = t.run rest := by
  rw [run, List.foldlM_cons, h]
  rfl

/-- A reader goes on with what stands behind some pieces in the state behind these. -/
theorem run_append {s t : UnionReader} {xs : List Piece} (h : s.run xs = some t)
    (ys : List Piece) : s.run (xs ++ ys) = t.run ys := by
  rw [run, List.foldlM_append]
  show s.run xs >>= _ = _
  rw [h]
  rfl

/-- A reader that gets to the end has been behind every piece. -/
theorem exists_run_append {s u : UnionReader} {xs ys : List Piece}
    (h : s.run (xs ++ ys) = some u) : ∃ t, s.run xs = some t ∧ t.run ys = some u := by
  rw [run, List.foldlM_append] at h
  exact Option.bind_eq_some_iff.1 h

/-! ## Reading a level -/

/-- The rest of a line that is none of a union keeps the modes. -/
theorem run_inline {ps : List Piece} (h : ps.all Piece.isInline = true) (mode : Option UnionMode)
    (outer : List (Option UnionMode)) :
    (⟨.other, mode, outer⟩ : UnionReader).run ps = some ⟨.other, mode, outer⟩ := by
  induction ps with
  | nil => rfl
  | cons p rest ih =>
      rw [List.all_cons, Bool.and_eq_true] at h
      cases p with
      | lineBreak | openBody | closeBody => cases h.1
      | word _ | name _ | selector _ | quoted _ _ | placeholder _ | gap => exact ih h.2

/-- A reader at a level whose joints are all in the given mode. -/
structure Within (mode : UnionMode) (outer : List (Option UnionMode)) (s : UnionReader) :
    Prop where
  mode_eq : s.mode = none ∨ s.mode = some mode
  outer_eq : s.outer = outer
  line_eq : ∀ joint, s.line = .joint joint → joint = mode

/-- A line break at a level whose joints are all in one mode. -/
theorem Within.lineBreak {mode : UnionMode} {outer : List (Option UnionMode)} {s : UnionReader}
    (h : Within mode outer s) :
    ∃ seen, s.step .lineBreak = some ⟨.empty, seen, outer⟩ ∧ (seen = none ∨ seen = some mode) := by
  obtain ⟨line, seen, inner⟩ := s
  obtain ⟨hmode, rfl, hline⟩ := h
  cases line with
  | empty => exact ⟨seen, rfl, hmode⟩
  | other => exact ⟨seen, rfl, hmode⟩
  | joint joint =>
      obtain rfl := hline joint rfl
      exact ⟨some joint, if_pos hmode, .inr rfl⟩

end UnionReader

open UnionReader (Within)

/-- A uniform level is read to its end. -/
theorem BraceLevel.exists_run {uniform filled : Prop} (huniform : uniform) {mode : UnionMode}
    {ps : List Piece} (h : BraceLevel uniform filled mode ps) :
    ∀ (seen : Option UnionMode) (outer : List (Option UnionMode)),
      seen = none ∨ seen = some mode →
        ∃ t, (⟨.empty, seen, outer⟩ : UnionReader).run ps = some t ∧ Within mode outer t := by
  induction h with
  | nil _ => exact fun seen outer hseen => ⟨_, rfl, hseen, rfl, by simp⟩
  | @line mode words rest hwords hrest =>
      intro seen outer hseen
      have hstep := UnionReader.step_word words seen outer
      rw [LineSoFar.ofWords, UnionMode.ofWords?_eq_none hwords.not_joint] at hstep
      exact ⟨_, (UnionReader.run_cons hstep rest).trans (UnionReader.run_inline hrest seen outer),
        hseen, rfl, by simp⟩
  | @joint mode joint hjoint =>
      intro seen outer hseen
      obtain rfl := hjoint huniform
      have hstep := UnionReader.step_word joint.words seen outer
      rw [LineSoFar.ofWords, UnionMode.ofWords?_words] at hstep
      exact ⟨_, UnionReader.run_cons hstep [], hseen, rfl, fun _ h => LineSoFar.joint.inj h.symm⟩
  | @body mode inner inside _ ih =>
      intro seen outer hseen
      -- the level inside begins without a mode, and the level around it gets its own back
      obtain ⟨t, hrun, -, houter, -⟩ := ih none (seen :: outer) (.inl rfl)
      have hclose : t.step .closeBody = some ⟨.other, seen, outer⟩ := by
        rw [UnionReader.step, houter]
      refine ⟨⟨.other, seen, outer⟩, ?_, hseen, rfl, by simp⟩
      exact (UnionReader.run_append hrun [.closeBody]).trans (UnionReader.run_cons hclose [])
  | @glue mode xs ys _ _ ihx ihy =>
      intro seen outer hseen
      obtain ⟨t, hrun, hwithin⟩ := ihx seen outer hseen
      obtain ⟨seen', hbreak, hseen'⟩ := hwithin.lineBreak
      obtain ⟨u, hrest, hlast⟩ := ihy seen' outer hseen'
      refine ⟨u, ?_, hlast⟩
      rw [UnionReader.run_append hrun, UnionReader.run_cons hbreak]
      exact hrest

/-! ## Joints at one level -/

namespace UnionReader

/-- The modes of all levels, the current one first. -/
def modes (s : UnionReader) : List (Option UnionMode) := s.mode :: s.outer

/-- A break begins an empty line. It sets the mode of the level or leaves it. -/
theorem step_lineBreak {s t : UnionReader} (h : s.step .lineBreak = some t) :
    t.line = .empty ∧ t.outer = s.outer ∧ ∀ mode, s.mode = some mode → t.mode = some mode := by
  obtain ⟨line, seen, outer⟩ := s
  cases line with
  | empty | other => cases h; exact ⟨rfl, rfl, fun _ h => h⟩
  | joint joint =>
      obtain ⟨hseen, heq⟩ := Option.ite_none_right_eq_some.1 h
      cases heq
      refine ⟨rfl, rfl, fun mode hmode => ?_⟩
      rcases hseen with hnone | hsome
      · cases hnone.symm.trans hmode
      · exact hsome.symm.trans hmode

/-- The mode of a level stays while the pieces inside it are read. -/
theorem modes_step {s t : UnionReader} {p : Piece} (h : s.step p = some t) {depth : Nat}
    (hdepth : p = .closeBody → 0 < depth) {mode : UnionMode} {outer : List (Option UnionMode)}
    (hmodes : s.modes.drop depth = some mode :: outer) :
    t.modes.drop (p.depthAfter depth) = some mode :: outer := by
  cases p with
  | lineBreak =>
      -- only a break changes a mode, and only one that is not yet set
      obtain ⟨-, houter, hmode⟩ := step_lineBreak h
      show (t.mode :: t.outer).drop depth = _
      rw [houter]
      cases depth with
      | zero =>
          obtain ⟨hhead, rfl⟩ := List.cons.inj hmodes
          rw [hmode mode hhead]
          rfl
      | succ depth => exact hmodes
  | openBody => cases h; exact hmodes
  | closeBody =>
      obtain ⟨line, seen, around⟩ := s
      cases around with
      | nil => cases h
      | cons next rest =>
          cases h
          cases depth with
          | zero => exact absurd (hdepth rfl) (Nat.lt_irrefl 0)
          | succ depth => exact hmodes
  | word text =>
      obtain ⟨line, seen, around⟩ := s
      cases line <;> (cases h; exact hmodes)
  | name _ | selector _ | quoted _ _ | placeholder _ | gap => cases h; exact hmodes

theorem exists_of_run_cons {s u : UnionReader} {p : Piece} {rest : List Piece}
    (h : s.run (p :: rest) = some u) : ∃ t, s.step p = some t ∧ t.run rest = some u :=
  Option.bind_eq_some_iff.1 h

/-- The mode of a level stays while pieces are read that do not close the level. -/
theorem modes_run {s t : UnionReader} {ps : List Piece} (h : s.run ps = some t) {depth : Nat}
    (hcovered : Piece.Covered depth ps) {mode : UnionMode} {outer : List (Option UnionMode)}
    (hmodes : s.modes.drop depth = some mode :: outer) :
    t.modes.drop (Piece.depthBehind depth ps) = some mode :: outer := by
  induction ps generalizing s depth with
  | nil =>
      cases h
      exact hmodes
  | cons p rest ih =>
      obtain ⟨u, hstep, hrest⟩ := exists_of_run_cons h
      exact ih hrest hcovered.2 (modes_step hstep hcovered.1 hmodes)

/-- Behind the words of a union, the level has their mode, which it had before if any. -/
theorem run_joint {s t : UnionReader} {joint : UnionMode} (h : s.run joint.pieces = some t) :
    t.mode = some joint ∧ t.outer = s.outer ∧ ∀ mode, s.mode = some mode → mode = joint := by
  obtain ⟨u, hfirst, hrest⟩ := exists_of_run_cons h
  obtain ⟨line, seen, outer⟩ := u
  obtain ⟨hline, houter, hmode⟩ := step_lineBreak hfirst
  cases hline
  have hword := step_word joint.words seen outer
  rw [LineSoFar.ofWords, UnionMode.ofWords?_words] at hword
  rw [run_cons hword] at hrest
  obtain ⟨v, hlast, hdone⟩ := exists_of_run_cons hrest
  cases hdone
  obtain ⟨hseen, heq⟩ := Option.ite_none_right_eq_some.1 hlast
  cases heq
  refine ⟨rfl, houter, fun mode hsome => ?_⟩
  rcases hseen with hnone | hjoint
  · cases hnone.symm.trans (hmode mode hsome)
  · exact Option.some.inj ((hmode mode hsome).symm.trans hjoint)

/-- Two joints between which all bodies are closed again have one mode. -/
theorem eq_of_run {s t : UnionReader} {before between behind : List Piece}
    {first second : UnionMode} (hbetween : Piece.Balanced between)
    (h : s.run (before ++ first.pieces ++ between ++ second.pieces ++ behind) = some t) :
    first = second := by
  obtain ⟨w, h, -⟩ := exists_run_append h
  obtain ⟨v, h, hsecond⟩ := exists_run_append h
  obtain ⟨u, h, hmiddle⟩ := exists_run_append h
  obtain ⟨r, -, hfirst⟩ := exists_run_append h
  have hmodes : u.modes.drop 0 = some first :: u.outer :=
    congrArg (· :: u.outer) (run_joint hfirst).1
  have hlevel := modes_run hmiddle hbetween.covered hmodes
  rw [hbetween.settled] at hlevel
  exact (run_joint hsecond).2.2 first (List.cons.inj hlevel).1

end UnionReader

/-- No level of a fragment mixes modes: where bodies close again between two joints, the
joints have one mode. -/
theorem Fragment.joints_eq (f : Fragment) (supply : NameSupply) (h : Uniform f.occurrences)
    {before between behind : List Piece} {first second : UnionMode}
    (hpieces : (f.pieces supply).1 =
      before ++ first.pieces ++ between ++ second.pieces ++ behind)
    (hbetween : Piece.Balanced between) : first = second := by
  rcases f.level_or_inline True supply fun _ => h with ⟨mode, hlevel⟩ | hinline
  · obtain ⟨t, hrun, -⟩ := hlevel.exists_run trivial none [] (.inl rfl)
    rw [hpieces] at hrun
    exact UnionReader.eq_of_run hbetween hrun
  · -- no line ends in such a fragment
    have hmem : Piece.lineBreak ∈ (f.pieces supply).1 := by
      rw [hpieces]
      simp [UnionMode.pieces]
    cases List.all_eq_true.1 hinline _ hmem

end GraphQuery
