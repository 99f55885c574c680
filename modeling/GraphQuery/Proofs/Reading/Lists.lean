import GraphQuery.Proofs.Reading.Nodes

/-!
# Reading nodes with lists of parts

Calls, lists, maps and conditionals have any number of parts. The part that was read
last has not ended yet when the rest of the list begins, so the run over the rest
starts in the state after an expression, with the parts before it in the frame. The
induction is on the rest.
-/

set_option autoImplicit false

namespace GraphQuery

open Text (Token)
open Reader (Frame Mark Sequence after caseOf? read EndsNumeral endsNumeral_mark read_resume)

namespace Expr

/-! ## Sequences -/

/-- What follows an item goes on with no number. -/
theorem endsNumeral_tail (es : List Expr) (m : Mark) (ts : List Token) :
    EndsNumeral ((tailPieces es).flatMap Piece.tokens ++ (m.tokens ++ ts)) := by
  cases es with
  | nil => exact endsNumeral_mark m ts
  | cons e rest => trivial

/-- The rest of a sequence is read behind its first expressions. -/
theorem read_tail (kind : Sequence) (fs : List Frame) (ts : List Token) (es : List Expr)
    (hes : ∀ e ∈ es, Reads e) : ∀ (done : List Expr) (d : Expr),
    read (after (.sequence kind done :: fs) d)
        ((tailPieces es).flatMap Piece.tokens ++ (kind.closer.tokens ++ ts)) =
      (kind.build? (done ++ d :: mapList Placeholder.forgetKind es)).bind fun e =>
        read ⟨fs, .complete e⟩ ts := by
  -- `d` has been read but not ended, so a comma or the closer comes first in every case
  induction es with
  | nil =>
      intro done d
      refine (read_resume rfl fs d kind.closer ts).trans ?_
      have hresume : (Frame.sequence kind done).resume d kind.closer =
          (kind.build? (done ++ [d])).map fun e => ([], .complete e) := by
        cases kind <;> rfl
      rw [hresume]
      exact Option.bind_map
  | cons e rest ih =>
      intro done d
      obtain ⟨he, hrest⟩ := List.forall_mem_cons.1 hes
      have htokens : (tailPieces (e :: rest)).flatMap Piece.tokens ++ (kind.closer.tokens ++ ts) =
          Mark.comma.tokens ++ (.sign ' ' :: (e.tokens ++
            ((tailPieces rest).flatMap Piece.tokens ++ (kind.closer.tokens ++ ts)))) := by
        simp only [tokens, tailPieces, List.flatMap_append, List.flatMap_cons, List.append_assoc]
        rfl
      rw [htokens]
      calc read (after (.sequence kind done :: fs) d) (Mark.comma.tokens ++ (.sign ' ' :: _))
          = read ⟨.sequence kind (done ++ [d]) :: fs, .expecting⟩ (e.tokens ++
              ((tailPieces rest).flatMap Piece.tokens ++ (kind.closer.tokens ++ ts))) :=
            read_resume rfl fs d .comma _
        _ = read (after (.sequence kind (done ++ [d]) :: fs) e.forgetKinds)
              ((tailPieces rest).flatMap Piece.tokens ++ (kind.closer.tokens ++ ts)) :=
            he _ _ (endsNumeral_tail rest kind.closer ts)
        _ = (kind.build? (done ++ [d] ++ e.forgetKinds :: mapList Placeholder.forgetKind rest)).bind
              fun e => read ⟨fs, .complete e⟩ ts := ih hrest (done ++ [d]) e.forgetKinds
        _ = _ := by rw [List.append_assoc]; rfl

/-- A call is read back. -/
theorem reads_call (function : String) {first : Expr} {rest : List Expr} (hf : Reads first)
    (hr : ∀ e ∈ rest, Reads e) : Reads (.call function first rest) := by
  intro fs ts _
  have htokens : (call function first rest).tokens ++ ts =
      .quoted .backtick function.toList :: .sign '(' :: (first.tokens ++
        ((tailPieces rest).flatMap Piece.tokens ++ (Mark.paren.tokens ++ ts))) := by
    simp only [tokens, pieces, List.flatMap_append, List.flatMap_cons, List.append_assoc,
      List.cons_append]
    rfl
  rw [htokens]
  show read ⟨.sequence (.arguments (String.ofList function.toList)) [] :: fs, .expecting⟩ _ = _
  rw [String.ofList_toList, hf _ _ (endsNumeral_tail rest .paren ts)]
  exact read_tail (.arguments function) fs ts rest hr [] first.forgetKinds

/-- A list is read back. -/
theorem reads_list {items : List Expr} (hi : ∀ e ∈ items, Reads e) : Reads (.list items) := by
  intro fs ts _
  cases items with
  | nil => rfl
  | cons first rest =>
      obtain ⟨hf, hr⟩ := List.forall_mem_cons.1 hi
      have htokens : (list (first :: rest)).tokens ++ ts = .sign '[' :: (first.tokens ++
          ((tailPieces rest).flatMap Piece.tokens ++ (Mark.bracket.tokens ++ ts))) := by
        simp only [tokens, pieces, itemPieces, List.flatMap_append, List.flatMap_cons,
          List.append_assoc, List.cons_append]
        rfl
      rw [htokens]
      show read ⟨.sequence .items [] :: fs, .expecting⟩ _ = _
      rw [hf _ _ (endsNumeral_tail rest .bracket ts)]
      exact read_tail .items fs ts rest hr [] first.forgetKinds

/-! ## Maps -/

theorem endsNumeral_entries (es : List (String × Expr)) (m : Mark) (ts : List Token) :
    EndsNumeral ((entryPieces es).flatMap Piece.tokens ++ (m.tokens ++ ts)) := by
  cases es with
  | nil => exact endsNumeral_mark m ts
  | cons e rest => trivial

/-- The rest of a map is read behind its first entries. -/
theorem read_entries (fs : List Frame) (ts : List Token) (es : List (String × Expr))
    (hes : ∀ entry ∈ es, Reads entry.2) : ∀ (done : List (String × Expr)) (key : String) (d : Expr),
    read (after (.entry done key :: fs) d)
        ((entryPieces es).flatMap Piece.tokens ++ (Mark.brace.tokens ++ ts)) =
      read ⟨fs, .complete (.map (done ++ (key, d) :: mapEntries Placeholder.forgetKind es))⟩
        ts := by
  induction es with
  | nil =>
      intro done key d
      exact read_resume rfl fs d .brace ts
  | cons entry rest ih =>
      intro done key d
      obtain ⟨nextKey, e⟩ := entry
      obtain ⟨he, hrest⟩ := List.forall_mem_cons.1 hes
      have htokens : (entryPieces ((nextKey, e) :: rest)).flatMap Piece.tokens ++
            (Mark.brace.tokens ++ ts) =
          Mark.comma.tokens ++ (.sign ' ' :: .quoted .backtick nextKey.toList :: .sign ':' ::
            .sign ' ' :: (e.tokens ++
              ((entryPieces rest).flatMap Piece.tokens ++ (Mark.brace.tokens ++ ts)))) := by
        simp only [tokens, entryPieces, List.flatMap_append, List.flatMap_cons, List.append_assoc,
          List.cons_append]
        rfl
      rw [htokens]
      calc read (after (.entry done key :: fs) d) (Mark.comma.tokens ++ (.sign ' ' :: _))
          = read ⟨.entry (done ++ [(key, d)]) (String.ofList nextKey.toList) :: fs, .expecting⟩
              (e.tokens ++ ((entryPieces rest).flatMap Piece.tokens ++
                (Mark.brace.tokens ++ ts))) := read_resume rfl fs d .comma _
        _ = read (after (.entry (done ++ [(key, d)]) nextKey :: fs) e.forgetKinds)
              ((entryPieces rest).flatMap Piece.tokens ++ (Mark.brace.tokens ++ ts)) := by
            rw [String.ofList_toList]
            exact he _ _ (endsNumeral_entries rest .brace ts)
        _ = read ⟨fs, .complete (.map (done ++ [(key, d)] ++
              (nextKey, e.forgetKinds) :: mapEntries Placeholder.forgetKind rest))⟩ ts :=
            ih hrest (done ++ [(key, d)]) nextKey e.forgetKinds
        _ = _ := by rw [List.append_assoc]; rfl

/-- A map is read back, with its keys in their order. -/
theorem reads_map {entries : List (String × Expr)} (he : ∀ entry ∈ entries, Reads entry.2) :
    Reads (.map entries) := by
  intro fs ts _
  cases entries with
  | nil => rfl
  | cons entry rest =>
      obtain ⟨key, e⟩ := entry
      obtain ⟨hfirst, hrest⟩ := List.forall_mem_cons.1 he
      have htokens : (map ((key, e) :: rest)).tokens ++ ts =
          .sign '\x7b' :: .sign ' ' :: .quoted .backtick key.toList :: .sign ':' :: .sign ' ' ::
            (e.tokens ++ ((entryPieces rest).flatMap Piece.tokens ++
              (Mark.brace.tokens ++ ts))) := by
        simp only [tokens, pieces, mapPieces, List.flatMap_append, List.flatMap_cons,
          List.append_assoc, List.cons_append]
        rfl
      rw [htokens]
      show read ⟨.entry [] (String.ofList key.toList) :: fs, .expecting⟩ _ = _
      rw [String.ofList_toList]
      refine (hfirst _ _ (endsNumeral_entries rest .brace ts)).trans ?_
      exact read_entries fs ts rest hrest [] key e.forgetKinds

/-! ## Conditionals -/

theorem endsNumeral_arms (more : List (Expr × Expr)) (fallback : Option Expr) (m : Mark)
    (ts : List Token) :
    EndsNumeral ((armPieces more).flatMap Piece.tokens ++
      ((fallbackPieces fallback).flatMap Piece.tokens ++ (m.tokens ++ ts))) := by
  cases more with
  | cons arm rest => trivial
  | nil =>
      cases fallback with
      | none => exact endsNumeral_mark m ts
      | some e => trivial

/-- An arm is read behind the space that follows its first word. -/
theorem read_arm {condition result : Expr} (hc : Reads condition) (hr : Reads result)
    (done : List (Expr × Expr)) (fs : List Frame) {ts : List Token} (hts : EndsNumeral ts) :
    read ⟨.condition done :: fs, .expecting⟩ (.sign ' ' :: (condition.tokens ++
        (Mark.result.tokens ++ (.sign ' ' :: (result.tokens ++ ts))))) =
      read (after (.result done condition.forgetKinds :: fs) result.forgetKinds) ts :=
  calc read ⟨.condition done :: fs, .expecting⟩ (.sign ' ' :: (condition.tokens ++ _))
      = read (after (.condition done :: fs) condition.forgetKinds)
          (Mark.result.tokens ++ (.sign ' ' :: (result.tokens ++ ts))) :=
        hc _ _ (endsNumeral_mark .result _)
    _ = read ⟨.result done condition.forgetKinds :: fs, .expecting⟩ (result.tokens ++ ts) :=
        read_resume rfl fs condition.forgetKinds .result _
    _ = read (after (.result done condition.forgetKinds :: fs) result.forgetKinds) ts :=
        hr _ _ hts

/-- The rest of a conditional is read behind its first arms. -/
theorem read_arms (fs : List Frame) (ts : List Token) {fallback : Option Expr}
    (hf : ∀ e ∈ fallback, Reads e) (more : List (Expr × Expr))
    (hmore : ∀ arm ∈ more, Reads arm.1 ∧ Reads arm.2) :
    ∀ (done : List (Expr × Expr)) (c r : Expr),
    read (after (.result done c :: fs) r) ((armPieces more).flatMap Piece.tokens ++
        ((fallbackPieces fallback).flatMap Piece.tokens ++ (Mark.finish.tokens ++ ts))) =
      (caseOf? (done ++ (c, r) :: mapArms Placeholder.forgetKind more)
        (mapFallback Placeholder.forgetKind fallback)).bind fun e =>
          read ⟨fs, .complete e⟩ ts := by
  induction more with
  | nil =>
      intro done c r
      cases fallback with
      | none =>
          refine (read_resume rfl fs r .finish ts).trans ?_
          exact Option.bind_map
      | some e =>
          have he : Reads e := hf e rfl
          have htokens : (armPieces []).flatMap Piece.tokens ++
                ((fallbackPieces (some e)).flatMap Piece.tokens ++ (Mark.finish.tokens ++ ts)) =
              Mark.fallback.tokens ++ (.sign ' ' :: (e.tokens ++ (Mark.finish.tokens ++ ts))) := by
            simp only [tokens, armPieces, fallbackPieces, List.flatMap_cons, List.append_assoc]
            rfl
          rw [htokens]
          calc read (after (.result done c :: fs) r) (Mark.fallback.tokens ++ (.sign ' ' :: _))
              = read ⟨.fallback (done ++ [(c, r)]) :: fs, .expecting⟩
                  (e.tokens ++ (Mark.finish.tokens ++ ts)) := read_resume rfl fs r .fallback _
            _ = read (after (.fallback (done ++ [(c, r)]) :: fs) e.forgetKinds)
                  (Mark.finish.tokens ++ ts) := he _ _ (endsNumeral_mark .finish ts)
            _ = _ := (read_resume rfl fs e.forgetKinds .finish ts).trans Option.bind_map
  | cons arm rest ih =>
      intro done c r
      obtain ⟨condition, result⟩ := arm
      obtain ⟨⟨hc, hr⟩, hrest⟩ := List.forall_mem_cons.1 hmore
      have htokens : (armPieces ((condition, result) :: rest)).flatMap Piece.tokens ++
            ((fallbackPieces fallback).flatMap Piece.tokens ++ (Mark.finish.tokens ++ ts)) =
          Mark.arm.tokens ++ (.sign ' ' :: (condition.tokens ++ (Mark.result.tokens ++
            (.sign ' ' :: (result.tokens ++ ((armPieces rest).flatMap Piece.tokens ++
              ((fallbackPieces fallback).flatMap Piece.tokens ++
                (Mark.finish.tokens ++ ts)))))))) := by
        simp only [tokens, armPieces, List.flatMap_append, List.flatMap_cons, List.append_assoc,
          List.cons_append]
        rfl
      rw [htokens]
      -- the arm at hand ends, and the next one is the arm at hand for the rest
      refine (read_resume rfl fs r .arm _).trans ?_
      refine (read_arm hc hr _ fs (endsNumeral_arms rest fallback .finish ts)).trans ?_
      refine (ih hrest _ _ _).trans ?_
      rw [List.append_assoc]
      rfl

/-- A conditional is read back, with all its arms and with or without a fallback. -/
theorem reads_case {condition result : Expr} {more : List (Expr × Expr)} {fallback : Option Expr}
    (hc : Reads condition) (hr : Reads result) (hmore : ∀ arm ∈ more, Reads arm.1 ∧ Reads arm.2)
    (hf : ∀ e ∈ fallback, Reads e) : Reads (.case condition result more fallback) := by
  intro fs ts _
  have htokens : (case condition result more fallback).tokens ++ ts =
      .word "CASE".toList :: .sign ' ' :: .word "WHEN".toList :: .sign ' ' ::
        (condition.tokens ++ (Mark.result.tokens ++ (.sign ' ' :: (result.tokens ++
          ((armPieces more).flatMap Piece.tokens ++
            ((fallbackPieces fallback).flatMap Piece.tokens ++
              (Mark.finish.tokens ++ ts))))))) := by
    simp only [tokens, pieces, List.flatMap_append, List.flatMap_cons, List.append_assoc,
      List.cons_append]
    rfl
  rw [htokens]
  refine (read_arm hc hr [] fs (endsNumeral_arms more fallback .finish ts)).trans ?_
  exact read_arms fs ts hf more hmore [] condition.forgetKinds result.forgetKinds

end Expr

end GraphQuery
