import DataMigration.Operator.Arithmetic
import DataMigration.Operator.Wording

/-!
# Operators on objects and arrays

They rename, collect and rearrange fields. Values of another kind pass unchanged.
-/

namespace DataMigration.Reshape

/-- Adds the values found at configured paths to an object. -/
def merge (v : Option Value) (config : Dict Value) (payloads : Payloads) : Option Value :=
  match v with
  | some (.obj fields) =>
    match configObject? config "additional_fields" with
    | some paths => some (.obj (gather paths payloads.first? fields))
    | none => some (.obj fields)
  | v => v

/-- The configured fields of one element under their target names. With `idRule`, the start of ids
is replaced. -/
def mapItem (mapping : Dict Value) (idRule : Option (Dict Value)) (item : Value) : Value :=
  .obj (mapping.foldl
    (fun out e =>
      match e.2.asText?, Path.lookup item e.1 with
      | some target, some found =>
        let written := match idRule with
          | some rule =>
            if Text.endsWith "_id" target && isLabel found then
              replaceStart found (configText rule "prefix") (configText rule "new_prefix")
            else found
          | none => found
        Dict.insert out target written
      | _, _ => out)
    [])

/-- Maps the elements of an array. -/
def arrayMap (v : Option Value) (config : Dict Value) : Option Value :=
  match v with
  | some (.arr items) =>
    let mapping := (configObject? config "item_mapping").getD []
    let idRule := (configObject? config "id_transform").filter fun rule => !rule.isEmpty
    some (.arr (items.map (mapItem mapping idRule)))
  | v => v

/-- The fields of a tier that a band takes over unless the configuration says otherwise. -/
def defaultTierFields : Dict Value :=
  [("unit_amount", .str "price"), ("up_to", .str "ending_unit")]

/-- The bound of a tier: a number, or nothing for an open tier. -/
def tierBound (index : Nat) (tier : Dict Value) : Except TransformError (Option Number) :=
  match configValue? tier "up_to" with
  | none => pure none
  | some v =>
    match numberOf? v with
    | some n => pure (some n)
    | none =>
      throw (.invalidInput "tier_mapping"
        ("tier " ++ String.ofList (Decimal.natDigits index) ++ " has a non-numeric up_to: " ++
          Json.compact v))

/-- The first unit after a tier. Whole numbers of 64 bits wrap around. -/
def unitAfter : Option Number → Number
  | some (.int n) => .int (if n + 1 < Decimal.int64Bound then n + 1 else Decimal.int64Min)
  | some (.float x) => .float (Binary64.ofFloat (x.toFloat + 1.0))
  | none => .int 1

/-- The band of a tier that starts at a unit. -/
def band (fields : Dict Value) (openEnd : Value) (start : Number) (tier : Dict Value) : Value :=
  let base : Dict Value :=
    Dict.insert
      (Dict.insert [] "starting_unit" ((numberValue? start).getD .null))
      "ending_unit" ((configValue? tier "up_to").getD openEnd)
  .obj (fields.foldl
    (fun out e =>
      match e.2.asText?, configValue? tier e.1 with
      | some target, some v => Dict.insert out target v
      | _, _ => out)
    base)

/-- The bands of tiers, the first of which has number `index` and starts at `start`. -/
def bands (fields : Dict Value) (openEnd : Value) :
    Nat → Number → List Value → Except TransformError (List Value)
  | _, _, [] => pure []
  | index, start, tier :: tiers =>
    match tier with
    | .obj tier => do
      let bound ← tierBound index tier
      let rest ← bands fields openEnd (index + 1) (unitAfter bound) tiers
      return band fields openEnd start tier :: rest
    | _ =>
      throw (.invalidInput "tier_mapping"
        ("tier " ++ String.ofList (Decimal.natDigits index) ++ " is not an object"))

/-- Turns price tiers, each with its upper bound, into bands with both ends. -/
def tierMapping (v : Option Value) (config : Dict Value) : Outcome :=
  match v with
  | some (.arr tiers) => do
    let fields := (configObject? config "field_mapping").getD defaultTierFields
    let openEnd := (Dict.get? config "null_up_to").getD (.str "inf")
    let bands ← bands fields openEnd 0 (.int 1) tiers
    return some (.arr bands)
  | v => pure v

/-- The names of the parts of an address in the target unless the configuration says otherwise. -/
def defaultAddressFields : Dict Value := [
  ("city", .str "city"), ("country", .str "country"), ("line1", .str "line1"),
  ("line2", .str "line2"), ("postal_code", .str "zip"), ("state", .str "state_code")]

/-- Renames the parts of an address. -/
def addressMapping (v : Option Value) (config : Dict Value) : Option Value :=
  match v with
  | some (.obj address) =>
    let fields := (configObject? config "field_map").getD defaultAddressFields
    some (.obj (fields.foldl
      (fun out e =>
        match Dict.get? address e.1, e.2.asText? with
        | some v, some target => Dict.insert out target v
        | _, _ => out)
      []))
  | v => v

/-- An object of the values found at configured paths, if there are any. -/
def compileMetadata (config : Dict Value) (payloads : Payloads) : Option Value :=
  let paths := (configObject? config "source_fields").getD []
  let found := gather paths payloads.first? []
  if found.isEmpty then none else some (.obj found)

end DataMigration.Reshape
