import GraphQuery.Proofs.Binding.Matching

/-!
# Payloads

A bound statement is sent as a JSON object, and its values can be read back by the shapes of
their JSON. What arrives is the value that was bound as far as JSON has numbers for its doubles.
An infinity or NaN can be bound like any other double but arrives as null. So two values are sent
alike if they agree once null has taken the place of their infinities and NaNs.

Main statement: `BoundStatement.payload_of_bind`.
-/

set_option autoImplicit false

namespace GraphQuery

namespace Value

mutual

/-- The value that a JSON value stands for by its shape. -/
def ofJson : Json → Value
  | .null => .null
  | .bool b => .bool b
  | .int n => .int n
  | .double x => .double x.value
  | .string s => .string s
  | .array items => .list (ofItems items)
  | .object members => .map (ofMembers members)

/-- The values that the items of an array stand for. -/
def ofItems : List Json → List Value
  | [] => []
  | j :: rest => ofJson j :: ofItems rest

/-- The entries that the members of an object stand for. -/
def ofMembers : List (String × Json) → List (String × Value)
  | [] => []
  | (key, j) :: rest => (key, ofJson j) :: ofMembers rest

end

mutual

/-- A value as it arrives: null stands in the place of each infinity and each NaN. -/
def received : Value → Value
  | .double x => if x.isFinite then .double x else .null
  | .list items => .list (receivedItems items)
  | .map entries => .map (receivedEntries entries)
  | v => v

/-- The items of a list as they arrive. -/
def receivedItems : List Value → List Value
  | [] => []
  | v :: rest => v.received :: receivedItems rest

/-- The entries of a map as they arrive. -/
def receivedEntries : List (String × Value) → List (String × Value)
  | [] => []
  | (key, v) :: rest => (key, v.received) :: receivedEntries rest

end

mutual

/-- Whether all doubles in a value are finite. -/
def allFinite : Value → Bool
  | .double x => x.isFinite
  | .list items => allFiniteItems items
  | .map entries => allFiniteEntries entries
  | _ => true

/-- Whether all doubles in the items of a list are finite. -/
def allFiniteItems : List Value → Bool
  | [] => true
  | v :: rest => v.allFinite && allFiniteItems rest

/-- Whether all doubles in the entries of a map are finite. -/
def allFiniteEntries : List (String × Value) → Bool
  | [] => true
  | (_, v) :: rest => v.allFinite && allFiniteEntries rest

end

/-! ## Doubles -/

section Doubles

variable {x : Number.Binary64}

/-- A finite number arrives as it is. -/
theorem received_of_isFinite (h : x.isFinite = true) :
    (Value.double x).received = .double x := by
  rw [received, if_pos h]

/-- A number that is not finite arrives as null. -/
theorem received_of_not_isFinite (h : ¬ x.isFinite = true) :
    (Value.double x).received = .null := by
  rw [received, if_neg h]

theorem toJson_of_isFinite (h : x.isFinite = true) :
    (Value.double x).toJson = .double ⟨x, h⟩ := by
  simp [toJson, Json.ofDouble, Number.FiniteDouble.of?, h]

theorem toJson_of_not_isFinite (h : ¬ x.isFinite = true) : (Value.double x).toJson = .null := by
  simp [toJson, Json.ofDouble, Number.FiniteDouble.of?, h]

end Doubles

/-! ## Reading back -/

mutual

/-- Reading the JSON of a value gives the value as it arrives. -/
theorem ofJson_toJson : ∀ v : Value, ofJson v.toJson = v.received
  | .double x => by
      by_cases h : x.isFinite = true
      · rw [toJson_of_isFinite h, received_of_isFinite h, ofJson]
      · rw [toJson_of_not_isFinite h, received_of_not_isFinite h, ofJson]
  | .list items => congrArg Value.list (ofItems_itemsToJson items)
  | .map entries => congrArg Value.map (ofMembers_entriesToJson entries)
  | .null | .bool _ | .int _ | .string _ => rfl

/-- The items of a list arrive one by one. -/
theorem ofItems_itemsToJson : ∀ items : List Value,
    ofItems (itemsToJson items) = receivedItems items
  | [] => rfl
  | v :: rest => congrArg₂ List.cons (ofJson_toJson v) (ofItems_itemsToJson rest)

/-- The entries of a map arrive under their keys. -/
theorem ofMembers_entriesToJson : ∀ entries : List (String × Value),
    ofMembers (entriesToJson entries) = receivedEntries entries
  | [] => rfl
  | (key, v) :: rest =>
      congrArg₂ List.cons (congrArg (key, ·) (ofJson_toJson v)) (ofMembers_entriesToJson rest)

end

mutual

/-- A value and what arrives of it are sent alike. -/
theorem toJson_received : ∀ v : Value, v.received.toJson = v.toJson
  | .double x => by
      by_cases h : x.isFinite = true
      · rw [received_of_isFinite h]
      · rw [received_of_not_isFinite h, toJson_of_not_isFinite h, toJson]
  | .list items => congrArg Json.array (itemsToJson_received items)
  | .map entries => congrArg Json.object (entriesToJson_received entries)
  | .null | .bool _ | .int _ | .string _ => rfl

/-- Items that have arrived are sent on as they were sent. -/
theorem itemsToJson_received : ∀ items : List Value,
    itemsToJson (receivedItems items) = itemsToJson items
  | [] => rfl
  | v :: rest => congrArg₂ List.cons (toJson_received v) (itemsToJson_received rest)

theorem entriesToJson_received : ∀ entries : List (String × Value),
    entriesToJson (receivedEntries entries) = entriesToJson entries
  | [] => rfl
  | (key, v) :: rest =>
      congrArg₂ List.cons (congrArg (key, ·) (toJson_received v)) (entriesToJson_received rest)

end

mutual

/-- Values arrive unchanged if their doubles are finite. -/
theorem received_eq_self_iff : ∀ v : Value, v.received = v ↔ v.allFinite = true
  | .double x => by
      rw [allFinite]
      by_cases h : x.isFinite = true
      · simp [received_of_isFinite h, h]
      · simp [received_of_not_isFinite h, h]
  | .list items => by
      rw [received, list.injEq, allFinite]
      exact receivedItems_eq_self_iff items
  | .map entries => by
      rw [received, map.injEq, allFinite]
      exact receivedEntries_eq_self_iff entries
  | .null | .bool _ | .int _ | .string _ => by simp [received, allFinite]

/-- A list arrives unchanged if no item loses a number. -/
theorem receivedItems_eq_self_iff : ∀ items : List Value,
    receivedItems items = items ↔ allFiniteItems items = true
  | [] => by simp [receivedItems, allFiniteItems]
  | v :: rest => by
      rw [receivedItems, allFiniteItems, List.cons.injEq, Bool.and_eq_true]
      exact and_congr (received_eq_self_iff v) (receivedItems_eq_self_iff rest)

theorem receivedEntries_eq_self_iff : ∀ entries : List (String × Value),
    receivedEntries entries = entries ↔ allFiniteEntries entries = true
  | [] => by simp [receivedEntries, allFiniteEntries]
  | (key, v) :: rest => by
      rw [receivedEntries, allFiniteEntries, List.cons.injEq, Prod.mk.injEq, Bool.and_eq_true]
      exact and_congr ((and_iff_right rfl).trans (received_eq_self_iff v))
        (receivedEntries_eq_self_iff rest)

end

/-- Values are sent alike if the same arrives of both. -/
theorem toJson_eq_iff {v w : Value} : v.toJson = w.toJson ↔ v.received = w.received := by
  constructor
  · intro h
    rw [← ofJson_toJson, ← ofJson_toJson, h]
  · intro h
    rw [← toJson_received v, ← toJson_received w, h]

/-- Apart from null itself only an infinity or NaN is sent as null. -/
theorem toJson_eq_null_iff {v : Value} :
    v.toJson = .null ↔ v = .null ∨ ∃ x : Number.Binary64, v = .double x ∧ x.isFinite = false := by
  cases v with
  | double x =>
      by_cases h : x.isFinite = true
      · simp [toJson_of_isFinite h, h]
      · simp [toJson_of_not_isFinite h, h]
  | null => simp [toJson]
  | bool _ | int _ | string _ | list _ | map _ => simp [toJson]

end Value

/-! ## Sending a bound statement -/

namespace BoundStatement

/-- The members of a payload are named by the parameters, in their order. -/
theorem keys_members (b : BoundStatement) :
    b.members.map Prod.fst = b.values.keys.map Identifier.text := by
  simp [members, Table.keys, Entries.keys]

/-- The parameter of a name carries the value of the name. -/
theorem lookup_members {b : BoundStatement} {name : Identifier} {value : Value}
    (h : b.values.get? name = some value) : b.members.lookup name.text = some value.toJson := by
  -- names with the same text are the same name, so no text occurs twice
  have hkeys : (Entries.keys b.members).Nodup := by
    rw [Entries.keys, keys_members]
    exact Identifier.nodup_texts b.values.nodup
  exact Entries.lookup_of_mem hkeys
    (List.mem_map_of_mem (Table.get?_eq_some_iff.1 h))

/-- What is sent for a bound statement: its text, and a parameter for each declared name in the
order of declaration. A parameter read back is the value that was bound if all doubles in the
value are finite; otherwise null has taken the place of the others. Null is sent for null, an
infinity or NaN only, and values are sent alike exactly if the same arrives of both. -/
theorem payload_of_bind {t : Template} {values : Bindings} {b : BoundStatement}
    (hb : (t.bind values).result = .ok b) :
    (∃ parameters,
      b.toJson = .object [("statement", .string t.text), ("parameters", .object parameters)] ∧
      parameters.map Prod.fst = t.params.keys.map Identifier.text ∧
      ∀ name ∈ t.params.keys, ∃ value json,
        values.get? name.text = some value ∧ b.values.get? name = some value ∧
          parameters.lookup name.text = some json ∧
          Value.ofJson json = value.received ∧
          (Value.ofJson json = value ↔ value.allFinite = true) ∧
          (json = .null ↔
            value = .null ∨ ∃ x : Number.Binary64, value = .double x ∧ x.isFinite = false)) ∧
    ∀ v w : Value, v.toJson = w.toJson ↔ v.received = w.received := by
  have hsupplies := Template.bind_ok_iff.1 ⟨b, hb⟩
  obtain ⟨bound, hbound, htext, hkeys, hvalues⟩ := Template.bind_of_supplies hsupplies
  obtain rfl : bound = b := by rwa [hbound, Except.ok.injEq] at hb
  refine ⟨⟨bound.members, ?_, ?_, fun name hname => ?_⟩, fun v w => Value.toJson_eq_iff⟩
  · rw [toJson, htext]
  · rw [keys_members, hkeys]
  · obtain ⟨value, hvalue⟩ := Table.mem_keys_iff.1 (Bindings.mem_keys_of_supplies hsupplies hname)
    have hheld := (hvalues name hname).trans hvalue
    refine ⟨value, value.toJson, hvalue, hheld, lookup_members hheld, Value.ofJson_toJson value,
      ?_, Value.toJson_eq_null_iff⟩
    rw [Value.ofJson_toJson, Value.received_eq_self_iff]

namespace Sample

def ratio : Identifier := ⟨"ratio", by decide⟩

def ratios : Identifier := ⟨"ratios", by decide⟩

/-- One half. -/
def half : Number.Binary64 := ⟨0x3fe0000000000000⟩

/-- Positive infinity. -/
def infinity : Number.Binary64 := ⟨0x7ff0000000000000⟩

/-- NaN with the payload that operations give it. -/
def nan : Number.Binary64 := ⟨0x7ff8000000000000⟩

/-- A template with a float and a list of floats. -/
def template : Template :=
  ⟨"RETURN $ratio, $ratios", ⟨[(ratio, .float), (ratios, .list .float)], by decide⟩⟩

def values : Bindings :=
  ⟨[("ratio", .double half), ("ratios", .list [.double infinity, .int 1])], by decide⟩

end Sample

/-- The finite half arrives. The infinity in the list does not: null stands in its place. -/
theorem payload_of_bind_infinity :
    ∃ b parameters, (Sample.template.bind Sample.values).result = .ok b ∧
      b.toJson = .object [("statement", .string "RETURN $ratio, $ratios"),
        ("parameters", .object parameters)] ∧
      parameters.map Prod.fst = ["ratio", "ratios"] ∧
      (parameters.lookup "ratio").map Value.ofJson = some (.double Sample.half) ∧
      (parameters.lookup "ratios").map Value.ofJson = some (.list [.null, .int 1]) := by
  have hsupplies : Sample.values.Supplies Sample.template.params := by
    rw [Bindings.supplies_iff]
    exact fun name => Iff.rfl
  obtain ⟨b, hb⟩ := Template.bind_ok_iff.2 hsupplies
  obtain ⟨⟨parameters, hjson, hkeys, hcarried⟩, -⟩ := payload_of_bind hb
  obtain ⟨ratio, json, hratio, -, hlookup, -, hcarry, -⟩ := hcarried Sample.ratio List.mem_cons_self
  obtain ⟨ratios, json', hratios, -, hlookup', hreceived, -⟩ :=
    hcarried Sample.ratios (List.mem_cons_of_mem _ List.mem_cons_self)
  cases hratio
  cases hratios
  have hratio : parameters.lookup "ratio" = some json := hlookup
  have hratios : parameters.lookup "ratios" = some json' := hlookup'
  refine ⟨b, parameters, hb, hjson, hkeys, ?_, ?_⟩
  · rw [hratio, Option.map_some, hcarry.2 rfl]
  · rw [hratios, Option.map_some, hreceived]
    rfl

namespace Sample

/-- A template with nothing but a float. -/
def single : Template := ⟨"$ratio", ⟨[(ratio, .float)], by decide⟩⟩

def nanValues : Bindings := ⟨[("ratio", .double nan)], by decide⟩

end Sample

/-- A NaN is bound where a float is declared, and no warning is given. What is sent for it is
null, as it is for an infinity. -/
theorem nan_sent_as_null :
    ∃ b, Sample.single.bind Sample.nanValues = ⟨.ok b, [.bound 1]⟩ ∧
      b.values.get? Sample.ratio = some (.double Sample.nan) ∧
      b.toJson = .object [("statement", .string "$ratio"),
        ("parameters", .object [("ratio", .null)])] ∧
      Value.ofJson .null ≠ .double Sample.nan ∧
      (Value.double Sample.nan).toJson = (Value.double Sample.infinity).toJson := by
  refine ⟨⟨"$ratio", ⟨[(Sample.ratio, .double Sample.nan)], by decide⟩⟩, rfl, rfl, rfl, ?_, rfl⟩
  rintro ⟨⟩

end BoundStatement

end GraphQuery
