import DataMigration.Path.Write

/-!
# Writes that stop leave nothing behind

A write makes missing containers on its way down, before it can know whether it will come through.
It makes them empty, and in something empty nothing can stop it. So a write that stops has only
walked through values that were there already, and it puts each of them back as it was.
-/

namespace DataMigration.Path

variable {α : Type}

/-- A change that goes through on the blank value, and that leaves every value it stops at as it
is. -/
structure Sound (blank : α) (f : α → Changed PathError α) : Prop where
  fresh : (f blank).error = none
  kept : ∀ a, (f a).error ≠ none → (f a).value = a

theorem sound_assign (v : Value) : Sound .null fun _ => { value := v } where
  fresh := rfl
  kept _ stopped := absurd rfl stopped

/-! ## One level down -/

theorem padded_of_lt {items : List Value} {i : Nat} (inside : i < items.length) :
    padded items i = items := by
  rw [padded, Nat.sub_eq_zero_of_le (Nat.succ_le_of_lt inside)]
  exact List.append_nil items

/-- What an array is filled with is null. -/
theorem padded_getD_of_le {items : List Value} {i : Nat} (outside : items.length ≤ i) :
    (padded items i)[i]?.getD .null = .null := by
  rw [padded, List.getElem?_append_right outside, List.getElem?_replicate]
  split <;> rfl

theorem Sound.atIndex {f : Value → Changed PathError Value} (sound : Sound .null f) (i : Nat) :
    Sound [] (atIndex f i) where
  fresh := by
    have blank : (padded [] i)[i]?.getD .null = .null := padded_getD_of_le (Nat.zero_le i)
    simp only [Path.atIndex, Changed.map_error, blank]
    exact sound.fresh
  kept items stopped := by
    obtain inside | outside := Nat.lt_or_ge i items.length
    · have there : items[i]?.getD .null = items[i] := by simp [inside]
      simp only [Path.atIndex, padded_of_lt inside, there, Changed.map_error,
        Changed.map_value] at stopped ⊢
      rw [sound.kept _ stopped, List.set_getElem_self]
    · simp only [Path.atIndex, padded_getD_of_le outside, Changed.map_error] at stopped
      exact absurd sound.fresh stopped

theorem Sound.inArray {f : List Value → Changed PathError (List Value)} (sound : Sound [] f)
    (path name : String) : Sound .null (inArray path name f) where
  fresh := sound.fresh
  kept v stopped := by
    cases v with
    | null => exact absurd sound.fresh stopped
    | arr items => exact congrArg Value.arr (sound.kept items stopped)
    | _ => rfl

theorem Sound.inObject {f : Dict Value → Changed PathError (Dict Value)} (sound : Sound [] f)
    (path text : String) : Sound .null (inObject path text f) where
  fresh := sound.fresh
  kept v stopped := by
    cases v with
    | null => exact absurd sound.fresh stopped
    | obj fields => exact congrArg Value.obj (sound.kept fields stopped)
    | _ => rfl

theorem Sound.atField {f : Value → Changed PathError Value} (sound : Sound .null f)
    (name : String) : Sound [] (atField f name) where
  fresh := sound.fresh
  kept fields stopped := by
    cases found : Dict.get? fields name with
    | none =>
      simp only [Path.atField, found, Option.getD_none, Changed.map_error] at stopped
      exact absurd sound.fresh stopped
    | some v =>
      simp only [Path.atField, found, Option.getD_some, Changed.map_error,
        Changed.map_value] at stopped ⊢
      rw [sound.kept v stopped, Dict.put_of_get? found]

theorem Sound.atPlace {f : Value → Changed PathError Value} (sound : Sound .null f)
    (path : String) (place : Segment) : Sound [] (atPlace path f place) := by
  cases place with
  | plain name => exact sound.atField name
  | unindexable text => exact sound.atField text
  | indexed name i => exact ((sound.atIndex i).inArray path name).atField name

/-! ## The whole way -/

theorem sound_writeAlong (path : String) (v : Value) {texts : List String} (some : texts ≠ []) :
    Sound [] (writeAlong path v texts) := by
  induction texts with
  | nil => exact absurd rfl some
  | cons text rest ih =>
    cases rest with
    | nil => exact (sound_assign v).atPlace path (Segment.ofText text)
    | cons next rest =>
      have inner : Sound [] (writeAlong path v (next :: rest)) := ih (List.cons_ne_nil _ _)
      exact (inner.inObject path text).atPlace path (Segment.ofText text)

/-- A write that stops leaves the object as it was. -/
theorem write_value_of_error {fields : Dict Value} {path : String} {v : Value}
    (stopped : (write fields path v).error ≠ none) : (write fields path v).value = fields := by
  unfold write at stopped ⊢
  generalize (if path = "" then [] else Text.split '.' path) = texts at stopped ⊢
  cases texts with
  | nil => rfl
  | cons text rest =>
    exact (sound_writeAlong path v (List.cons_ne_nil text rest)).kept fields stopped

end DataMigration.Path
