/-!
# Run control

The signal by which a run is paused, resumed and cancelled. A run looks at it between batches
only. Cancelling is final.
-/

namespace DataMigration

/-- What a run is asked to do. -/
inductive Signal where
  | running
  | paused
  | cancelled
  deriving DecidableEq, Repr

/-- A request to a run. -/
inductive Request where
  | pause
  | resume
  | cancel
  deriving DecidableEq, Repr

namespace Signal

/-- The signal after a request. A pause only stops a run that is running, and only a paused run can
resume. -/
def after : Signal → Request → Signal
  | .running, .pause => .paused
  | .paused, .resume => .running
  | _, .cancel => .cancelled
  | s, _ => s

/-- A cancelled run stays cancelled. -/
theorem after_cancelled (r : Request) : after .cancelled r = .cancelled := by cases r <;> rfl

end Signal

/-- A signal, and the requests that come while a run waits in a pause, in their order. -/
structure Control where
  signal : Signal := .running
  onPause : List Request := []
  /-- The signals that a run saw when it looked, the latest first. -/
  seen : List Signal := []
  deriving DecidableEq, Repr

namespace Control

/-- The control after a request. -/
def after (c : Control) (r : Request) : Control := { c with signal := c.signal.after r }

/-- The control after a pause that a request follows as soon as a run waits in it. -/
def pauseThen (c : Control) (r : Request) : Control :=
  { c with signal := c.signal.after .pause, onPause := c.onPause ++ [r] }

/-- The control after a run looked at it. -/
def look (c : Control) : Control := { c with seen := c.signal :: c.seen }

/-- The signal that ends a wait, and the requests that have not come by then. A wait goes on until
a request ends the pause; when no request comes any more, it never ends. -/
def endOfWait : Signal → List Request → Option (Signal × List Request)
  | .paused, [] => none
  | .paused, r :: rest => endOfWait (Signal.paused.after r) rest
  | signal, onPause => some (signal, onPause)

/-- The control when a wait for the end of a pause is over, if it ever is. -/
def waited (c : Control) : Option Control :=
  (endOfWait c.signal c.onPause).map fun (signal, onPause) => { c with signal, onPause }

end Control

end DataMigration
