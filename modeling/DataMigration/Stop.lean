/-!
# Work that stops

Work that does not go through stops with an error, or it comes to a standstill: then it neither
goes on nor comes back, and everything stays as it is.
-/

namespace DataMigration

/-- Why work does not come back. -/
inductive Standstill where
  /-- It waits in a pause that no request ends. -/
  | waits
  /-- It panics, because no duration holds the time between two requests. -/
  | panics
  deriving DecidableEq, Repr

/-- What stops work. -/
inductive Stop (ε : Type) where
  | error (e : ε)
  | standstill (why : Standstill)

namespace Stop

variable {ε δ : Type}

/-- The error that stopped work, if one did. -/
def error? : Option (Stop ε) → Option ε
  | some (.error e) => some e
  | _ => none

theorem eq_of_error? {stop : Option (Stop ε)} {e : ε} (h : error? stop = some e) :
    stop = some (.error e) := by
  obtain _ | _ | _ := stop <;> cases h
  rfl

/-- The standstill that work came to, if it did. -/
def standstill? : Option (Stop ε) → Option Standstill
  | some (.standstill why) => some why
  | _ => none

/-- Work that is at no standstill is over: it went through, or an error stopped it. -/
def isOver (stop : Option (Stop ε)) : Bool := (standstill? stop).isNone

@[simp] theorem isOver_map (outcome : Option ε) : isOver (outcome.map .error) = true := by
  cases outcome <;> rfl

/-- The error in other words. -/
def map (f : ε → δ) : Stop ε → Stop δ
  | .error e => .error (f e)
  | .standstill why => .standstill why

end Stop

end DataMigration
