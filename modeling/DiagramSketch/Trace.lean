import DiagramSketch.Fault

/-!
# Trace

Work on a source tells what it does, in the order in which it is done. Each event is told by
the part of the work that it belongs to; what was told before a fault stays told.
-/

namespace DiagramSketch

/-- A part of the work on a source. -/
inductive Stage where
  | classifier
  | diagrams
  | rendering
deriving DecidableEq, Repr

/-- The name under which a part tells its events. -/
def Stage.name : Stage → Text
  | classifier => "plantsketch.classifier"
  | diagrams => "plantsketch.diagrams"
  | rendering => "plantsketch.plantsketch"

/-- Something that happened. -/
structure Event where
  stage : Stage
  message : Text
deriving DecidableEq, Repr

/-- The line of a log that tells an event. -/
def Event.logLine (event : Event) : Text :=
  "DEBUG " ++ event.stage.name ++ ": " ++ event.message ++ "\n"

/-- Work that comes to a result or to an error, and what it tells on the way. -/
structure Work (ε α : Type) where
  events : List Event
  result : Except ε α

namespace Work

variable {ε δ α β : Type}

/-- Work that tells nothing. -/
def of (result : Except ε α) : Work ε α :=
  { events := [], result }

/-- Tells events. -/
def tell (events : List Event) : Work ε Unit :=
  { events, result := .ok () }

/-- Goes on with the result, if there is one. -/
def andThen (work : Work ε α) (next : α → Work ε β) : Work ε β :=
  match work.result with
  | .error error => { events := work.events, result := .error error }
  | .ok value => { next value with events := work.events ++ (next value).events }

/-- Work with another error. -/
def mapError (change : ε → δ) (work : Work ε α) : Work δ α :=
  { events := work.events, result := work.result.mapError change }

instance : Monad (Work ε) where
  pure value := of (.ok value)
  bind := andThen

@[simp] theorem result_of (result : Except ε α) : (of result).result = result :=
  rfl

@[simp] theorem result_tell (events : List Event) :
    (tell events : Work ε Unit).result = .ok () :=
  rfl

@[simp] theorem result_pure (value : α) : (pure value : Work ε α).result = .ok value :=
  rfl

@[simp] theorem result_bind (work : Work ε α) (next : α → Work ε β) :
    (work >>= next).result = work.result.bind fun value => (next value).result := by
  change (work.andThen next).result = _
  unfold andThen
  split
  · next error failed => rw [failed]; rfl
  · next value done => rw [done]; rfl

@[simp] theorem result_mapError (change : ε → δ) (work : Work ε α) :
    (work.mapError change).result = work.result.mapError change :=
  rfl

end Work

end DiagramSketch
