import GraphQuery.Checked.Statement
import GraphQuery.Template

/-!
# Conditional statements

Parametrized conditions and statements merge into one statement that picks among
them when it runs. The parts were written independently, so their parameters may
collide: names are claimed in order, those of all conditions first, then those of
the arms, then those of the fallback, and a name that an earlier part has claimed
is replaced by a fresh one throughout its own part. The renamings are kept, so
that values given under a part's own names can be brought to the merged names.
-/

set_option autoImplicit false

namespace GraphQuery

/-- A merged statement, and the renaming that each part underwent. The fallback
is the last arm. -/
structure Conditional where
  query : Parametrized Statement
  conditionRenamings : List Renaming
  armRenamings : List Renaming

/-- The first placeholder of a part that its own parameters do not declare. -/
def Parametrized.undeclared? {β : Type} [Renameable β] (q : Parametrized β) :
    Option Identifier :=
  (placeholderNames (Renameable.placeholders q.body)).find? fun name =>
    !q.params.contains name

/-- The parameters claimed so far, the supply of fresh names, and the events
reported. -/
structure Claims where
  claimed : Declarations
  supply : NameSupply
  events : List Event

namespace Claims

/-- Claims a name for a part with the parameters `own`. If it is taken, the part
gets a fresh name instead, one that is neither claimed nor its own. -/
def claim (m : Claims) (own : Declarations) (name : Identifier) (kind : Kind)
    (renames : Renaming) : Claims × Renaming :=
  if m.claimed.contains name then
    let drawn := m.supply.firstUnused (m.claimed.keys ++ own.keys)
    (⟨m.claimed.insert drawn.1 kind, drawn.2, m.events ++ [.renamed name drawn.1]⟩,
      renames.insert name.text drawn.1)
  else (⟨m.claimed.insert name kind, m.supply, m.events⟩, renames)

/-- Claims names in order. -/
def claimAll (m : Claims) (own : Declarations) (renames : Renaming) :
    List (Identifier × Kind) → Claims × Renaming
  | [] => (m, renames)
  | (name, kind) :: rest =>
      let claimed := m.claim own name kind renames
      claimed.1.claimAll own claimed.2 rest

/-- Claims the parameters of a part and renames the part accordingly. -/
def absorb {β : Type} [Renameable β] (m : Claims) (q : Parametrized β) :
    Claims × Except Error (β × Renaming) :=
  match q.undeclared? with
  | some name => (m, .error (.undeclaredParameter name))
  | none =>
      let claimed := m.claimAll q.params Table.empty q.params.entries
      (claimed.1, .ok (claimed.2.rename q.body, claimed.2))

/-- Absorbs parts in order, up to the first that fails. -/
def absorbAll {β : Type} [Renameable β] (m : Claims) :
    List (Parametrized β) → Claims × Except Error (List (β × Renaming))
  | [] => (m, .ok [])
  | q :: rest =>
      match m.absorb q with
      | (m', .error e) => (m', .error e)
      | (m', .ok part) =>
          match m'.absorbAll rest with
          | (m'', .error e) => (m'', .error e)
          | (m'', .ok parts) => (m'', .ok (part :: parts))

end Claims

namespace Conditional

/-- The statement that consists of one conditional. -/
def statement (cases : List (Expr × Statement)) (fallback : Statement) :
    Except Error Statement := do
  let choice ← Choice.build cases fallback
  Statement.single ⟨[.choice choice]⟩

/-- The conditional of absorbed parts. -/
def assemble (params : Declarations) (conditions : List (Expr × Renaming))
    (arms : List (Statement × Renaming)) (fallback : Statement × Renaming) :
    Except Error Conditional := do
  let cases := (conditions.map Prod.fst).zip (arms.map Prod.fst)
  let body ← statement cases fallback.1
  return ⟨⟨params, body⟩, conditions.map Prod.snd, arms.map Prod.snd ++ [fallback.2]⟩

/-- Merges cases and a fallback. Both are required. -/
def select (cases : List (Parametrized Expr × Parametrized Statement))
    (fallback : Option (Parametrized Statement)) (supply : NameSupply) :
    Logged Conditional × NameSupply :=
  match fallback with
  | none => (⟨.error .missingFallback, []⟩, supply)
  | some fallback =>
      if cases.isEmpty then (⟨.error .noCases, []⟩, supply)
      else
        let start : Claims := ⟨Table.empty, supply, []⟩
        match start.absorbAll (cases.map Prod.fst) with
        | (m, .error e) => (⟨.error e, m.events⟩, m.supply)
        | (m, .ok conditions) =>
            match m.absorbAll (cases.map Prod.snd) with
            | (m, .error e) => (⟨.error e, m.events⟩, m.supply)
            | (m, .ok arms) =>
                match m.absorb fallback with
                | (m, .error e) => (⟨.error e, m.events⟩, m.supply)
                | (m, .ok last) =>
                    (⟨assemble m.claimed conditions arms last, m.events⟩, m.supply)

/-- Merges two statements and the condition that decides between them. -/
def choose (condition : Parametrized Expr) (thenArm elseArm : Parametrized Statement)
    (supply : NameSupply) : Logged Conditional × NameSupply :=
  select [(condition, thenArm)] (some elseArm) supply

/-- Compiles the merged statement in the compact layout. The supply is to be the
one that the merge left behind. -/
def compile (c : Conditional) (supply : NameSupply) : Logged Template × NameSupply :=
  Parametrized.compile ⟨c.query.params, .statement c.query.body⟩ .compact supply

/-- Bindings under a part's own names brought to the merged names; a part that
does not exist leaves them alone. -/
def rebind (renamings : List Renaming) (part : Nat) (values : Bindings) : Bindings :=
  match renamings[part]? with
  | some renames => values.renamed renames
  | none => values

/-- Bindings for a condition brought to the merged names. -/
def conditionBindings (c : Conditional) (condition : Nat) (values : Bindings) : Bindings :=
  rebind c.conditionRenamings condition values

/-- Bindings for an arm brought to the merged names. -/
def armBindings (c : Conditional) (arm : Nat) (values : Bindings) : Bindings :=
  rebind c.armRenamings arm values

/-- Equality of conditionals, parameters and renamings without regard to order. -/
def same (c d : Conditional) : Bool :=
  c.query.params.same d.query.params && c.query.body.same d.query.body &&
    sameListBy (Table.sameBy (· == ·)) c.conditionRenamings d.conditionRenamings &&
      sameListBy (Table.sameBy (· == ·)) c.armRenamings d.armRenamings

end Conditional

end GraphQuery
