import DataMigration.Mapping.Basic

/-!
# Load order

Entity mappings are placed one after the other: always the first one in the document whose
dependencies are met, and when there is none the rest as it stands. What the mapping asks to load
first is then drawn to the front.
-/

namespace DataMigration.Mapping

/-- A dependency is met when a placed mapping answers to it, or none at all does. -/
def isMet (known placed : List EntityMapping) (dependency : String) : Bool :=
  !(known.any fun m => m.answersTo dependency) || placed.any fun m => m.answersTo dependency

/-- All dependencies of a mapping are met. -/
def isReady (known placed : List EntityMapping) (m : EntityMapping) : Bool :=
  m.dependencies.all (isMet known placed)

/-- The first element that satisfies `p`, and the others. -/
def takeFirst? {α : Type} (p : α → Bool) : List α → Option (α × List α)
  | [] => none
  | x :: xs => if p x then some (x, xs) else (takeFirst? p xs).map fun r => (r.1, x :: r.2)

/-- Places at most `steps` mappings after those placed, and then the rest. -/
def placeAll (known : List EntityMapping) :
    Nat → List EntityMapping → List EntityMapping → List EntityMapping
  | 0, placed, remaining => placed ++ remaining
  | steps + 1, placed, remaining =>
    match takeFirst? (isReady known placed) remaining with
    | some (m, rest) => placeAll known steps (placed ++ [m]) rest
    | none => placed ++ remaining

/-- The entity mappings in the order of their dependencies. -/
def dependencyOrder (m : Mapping) : List EntityMapping :=
  placeAll m.entities m.entities.length [] m.entities

/-- Draws the mappings that answer to a name to the front, name by name. -/
def drawForward : List String → List EntityMapping → List EntityMapping
  | [], ms => ms
  | name :: names, ms =>
    (ms.filter fun m => m.answersTo name) ++
      drawForward names (ms.filter fun m => !m.answersTo name)

/-- The entity mappings in the order in which their records are loaded. -/
def loadOrder (m : Mapping) : List EntityMapping := drawForward m.order m.dependencyOrder

/-- The elements of a list without repetitions, each at its first place. -/
def firsts {α : Type} [BEq α] (xs : List α) : List α :=
  xs.foldl (fun seen x => if seen.contains x then seen else seen ++ [x]) []

/-- The target entities in the order in which they are loaded. -/
def targetOrder (m : Mapping) : List String := firsts (m.loadOrder.map fun e => e.target.entity)

end DataMigration.Mapping
