import DataMigration.Proofs.Path.Obstacle

/-!
# Writes that do not meet commute

Two walks of which neither leads on from the end of the other part at some value. If both can be
planted there, that value is of the kind that both want, and each finds at its own place what it
would find without the other. So the two writes may change places: both come through again, and
they leave the same object.
-/

namespace DataMigration.Path

variable {u u' v w w' : Value} {p q : Place} {ps qs : List Place}

/-! ## One level down -/

theorem plant_cons (w : Value) (p : Place) (ps : List Place) (v : Value) :
    plant w (p :: ps) v = plant (plant w ps ((inside? v p).getD .null)) [p] v := by
  cases p <;> rfl

theorem fits_cons_iff :
    Fits (p :: ps) v ↔ Fits [p] v ∧ Fits ps ((inside? v p).getD .null) := by
  constructor
  · intro fits
    refine ⟨?_, fits.inside⟩
    cases fits with
    | null => exact .null _
    | key => exact .key (.nil _)
    | item => exact .item (.nil _)
  · rintro ⟨here, further⟩
    cases here with
    | null => exact .null _
    | key => exact .key further
    | item => exact .item further

/-- What may be planted after another value wants a container of the same kind, so either may be
planted first. -/
theorem Fits.swap (first : Fits [p] v) (second : Fits [q] (plant u [p] v)) :
    Fits [q] v ∧ Fits [p] (plant u' [q] v) := by
  cases p with
  | key name =>
    cases q with
    | item j => cases second
    | key name' =>
      cases first with
      | null => exact ⟨.null _, .key (.nil _)⟩
      | key => exact ⟨.key (.nil _), .key (.nil _)⟩
  | item i =>
    cases q with
    | key name' => cases second
    | item j =>
      cases first with
      | null => exact ⟨.null _, .item (.nil _)⟩
      | item => exact ⟨.item (.nil _), .item (.nil _)⟩

/-- The items after one was set, which may have made the list longer. -/
theorem getElem?_padded_set (items : List Value) (i j : Nat) (u : Value) :
    ((padded items i).set i u)[j]? =
      if j = i then some u else if j < i then some (items[j]?.getD .null) else items[j]? := by
  by_cases here : j = i
  · subst here
    rw [if_pos rfl, List.getElem?_set_self (lt_length_padded items j)]
  · rw [if_neg here, List.getElem?_set_ne (Ne.symm here)]
    split
    · rename_i before
      have inside := Nat.lt_trans before (lt_length_padded items i)
      rw [← padded_getD items i j, List.getElem?_eq_getElem inside, Option.getD_some]
    · rename_i behind
      have after : i < j := by omega
      rw [padded, List.getElem?_append]
      split
      · rfl
      · rename_i outside
        rw [List.getElem?_replicate, if_neg (by omega), List.getElem?_eq_none (by omega)]

theorem padded_set_self (items : List Value) (i : Nat) (u u' : Value) :
    (padded ((padded items i).set i u) i).set i u' = (padded items i).set i u' := by
  refine List.ext_getElem? fun j => ?_
  simp only [getElem?_padded_set]
  grind

theorem padded_set_comm (items : List Value) {i j : Nat} (other : i ≠ j) (u u' : Value) :
    (padded ((padded items i).set i u) j).set j u' =
      (padded ((padded items j).set j u') i).set i u := by
  refine List.ext_getElem? fun k => ?_
  simp only [getElem?_padded_set]
  grind

theorem plant_plant_self (u u' : Value) (p : Place) (v : Value) :
    plant u' [p] (plant u [p] v) = plant u' [p] v := by
  cases p with
  | key name => exact congrArg Value.obj (Dict.put_put _ _ _ _)
  | item i => exact congrArg Value.arr (padded_set_self _ _ _ _)

theorem plant_plant_of_ne (second : Fits [q] (plant u [p] v)) (other : p ≠ q) :
    plant u' [q] (plant u [p] v) = plant u [p] (plant u' [q] v) := by
  cases p with
  | key name =>
    cases q with
    | item j => cases second
    | key name' =>
      exact congrArg Value.obj (Dict.put_comm _ (fun same => other (congrArg Place.key same)) _ _)
  | item i =>
    cases q with
    | key name' => cases second
    | item j =>
      have other' : i ≠ j := fun same => other (congrArg Place.item same)
      exact congrArg Value.arr (padded_set_comm _ other' _ _)

theorem plant_cons_plant_cons (w w' : Value) (p : Place) (ps qs : List Place) (v : Value) :
    plant w' (p :: qs) (plant w (p :: ps) v) =
      plant (plant w' qs (plant w ps ((inside? v p).getD .null))) [p] v := by
  rw [plant_cons w', inside?_plant, Option.getD_some, plant_cons w, plant_plant_self]

/-! ## The whole way -/

/-- Neither walk leads on from the end of the other. -/
def Beside (ps qs : List Place) : Prop := ¬ ps <+: qs ∧ ¬ qs <+: ps

instance (ps qs : List Place) : Decidable (Beside ps qs) := inferInstanceAs (Decidable (_ ∧ _))

theorem Beside.symm (beside : Beside ps qs) : Beside qs ps := ⟨beside.2, beside.1⟩

/-- Two values that are planted beside each other may be planted in either order. -/
theorem Beside.plant_comm (beside : Beside ps qs) (w' : Value) (first : Fits ps v)
    (second : Fits qs (plant w ps v)) :
    Fits qs v ∧ Fits ps (plant w' qs v) ∧
      plant w' qs (plant w ps v) = plant w ps (plant w' qs v) := by
  induction ps generalizing qs v with
  | nil => exact absurd List.nil_prefix beside.1
  | cons p ps ih =>
    cases qs with
    | nil => exact absurd List.nil_prefix beside.2
    | cons q qs =>
      obtain ⟨here, inside⟩ := fits_cons_iff.1 first
      obtain ⟨here', inside'⟩ := fits_cons_iff.1 second
      rw [plant_cons] at here'
      by_cases same : p = q
      · -- both walks take the first step, and part below
        subst same
        have below : Beside ps qs :=
          ⟨fun h => beside.1 (List.cons_prefix_cons.2 ⟨rfl, h⟩),
            fun h => beside.2 (List.cons_prefix_cons.2 ⟨rfl, h⟩)⟩
        rw [inside?_plant, Option.getD_some] at inside'
        obtain ⟨fits, fits', comm⟩ := ih below inside inside'
        refine ⟨fits_cons_iff.2 ⟨here, fits⟩, fits_cons_iff.2 ⟨?_, ?_⟩, ?_⟩
        · rw [plant_cons]
          exact (here.swap here').2
        · rw [inside?_plant]
          exact fits'
        · rw [plant_cons_plant_cons, plant_cons_plant_cons, comm]
      · -- the walks part here, and below neither meets the other
        rw [inside?_plant_of_ne first (Ne.symm same)] at inside'
        obtain ⟨fits, fits'⟩ := here.swap here'
        have whole : Fits (q :: qs) v := fits_cons_iff.2 ⟨fits, inside'⟩
        refine ⟨whole, fits_cons_iff.2 ⟨?_, ?_⟩, ?_⟩
        · rw [plant_cons]
          exact fits'
        · rw [inside?_plant_of_ne whole same]
          exact inside
        · rw [plant_cons w', inside?_plant_of_ne first (Ne.symm same), plant_cons w p ps v,
            plant_plant_of_ne here' same, ← plant_cons w', plant_cons w p ps (plant w' (q :: qs) v),
            inside?_plant_of_ne whole same]

/-! ## Writes -/

/-- Neither path leads on from the end of the other. -/
def Independent (path other : String) : Prop :=
  Beside (placesOf (Text.split '.' path)) (placesOf (Text.split '.' other))

instance (path other : String) : Decidable (Independent path other) :=
  inferInstanceAs (Decidable (Beside _ _))

theorem Independent.symm {path other : String} (independent : Independent path other) :
    Independent other path := Beside.symm independent

theorem places_eq_placesOf {path : String} (nonempty : path ≠ "") :
    places path = placesOf (Text.split '.' path) := by
  rw [places, segments, if_neg nonempty, placesOf]

/-- Two independent writes that come through one after the other come through in the other order,
too, and leave the same object. -/
theorem Independent.write_comm {fields : Dict Value} {path other : String}
    (independent : Independent path other) (first : (write fields path v).error = none)
    (second : (write (write fields path v).value other w).error = none) :
    (write fields other w).error = none ∧
      (write (write fields other w).value path v).error = none ∧
      (write (write fields other w).value path v).value =
        (write (write fields path v).value other w).value := by
  obtain ⟨nonempty, fits⟩ := write_error_eq_none_iff.1 first
  obtain ⟨nonempty', fits'⟩ := write_error_eq_none_iff.1 second
  rw [obj_write_value first] at fits'
  have beside : Beside (places path) (places other) := by
    rw [places_eq_placesOf nonempty, places_eq_placesOf nonempty']
    exact independent
  obtain ⟨begun, ended, comm⟩ := beside.plant_comm w fits fits'
  have first' : (write fields other w).error = none :=
    write_error_eq_none_iff.2 ⟨nonempty', begun⟩
  rw [← obj_write_value first'] at ended
  have second' : (write (write fields other w).value path v).error = none :=
    write_error_eq_none_iff.2 ⟨nonempty, ended⟩
  refine ⟨first', second', Value.obj.inj ?_⟩
  rw [obj_write_value second', obj_write_value first', obj_write_value second,
    obj_write_value first, comm]

end DataMigration.Path
