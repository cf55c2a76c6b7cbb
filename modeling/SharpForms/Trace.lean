/-
# Traces

Every stage can say what it makes, in the order in which it makes it: the scanner its tokens once,
the reader each form when it is complete, the walk each expression when it is complete.  A
computation that is traced gives the list of these events beside its result, also when it fails
half way; whether anybody prints them changes nothing.
-/
import SharpForms.Node.Described

namespace SharpForms

/-- Something that a stage has made. -/
inductive Event where
  | tokens (tokens : List Token)
  | form (node : Node)
  | expression (node : Node)
  deriving Repr

/-- An event as a line of the printed trace.  Descriptions carry bounds there. -/
def Event.line : Event → Text
  | .tokens ts => "tok: ".toList ++ Token.showAll ts
  | .form n => "read: ".toList ++ n.caption true
  | .expression n => "walk: ".toList ++ n.caption true

/-- What a computation made on its way, and how it ended. -/
structure Traced (ε α : Type) where
  events : List Event
  result : Except ε α

namespace Traced

variable {ε ε' α β : Type}

/-- A result, with nothing made on the way. -/
def done (a : α) : Traced ε α := ⟨[], .ok a⟩

/-- A failure, with nothing made on the way. -/
def fail (e : ε) : Traced ε α := ⟨[], .error e⟩

/-- Something is made, and then the rest runs. -/
def emit (e : Event) (rest : Traced ε α) : Traced ε α := { rest with events := e :: rest.events }

/-- The rest runs on the result, unless there is none; what both make adds up. -/
def andThen (x : Traced ε α) (f : α → Traced ε β) : Traced ε β :=
  match x.result with
  | .ok a => let y := f a; ⟨x.events ++ y.events, y.result⟩
  | .error e => ⟨x.events, .error e⟩

/-- A traced computation with its result changed. -/
def map (f : α → β) (x : Traced ε α) : Traced ε β := ⟨x.events, x.result.map f⟩

/-- A traced computation that fails in a wider class of errors. -/
def mapError (f : ε → ε') (x : Traced ε α) : Traced ε' α := ⟨x.events, x.result.mapError f⟩

@[simp] theorem except_mapError_ok (f : ε → ε') (a : α) :
    (.ok a : Except ε α).mapError f = .ok a := rfl

@[simp] theorem except_mapError_error (f : ε → ε') (e : ε) :
    (.error e : Except ε α).mapError f = .error (f e) := rfl

@[simp] theorem events_done (a : α) : (done a : Traced ε α).events = [] := rfl
@[simp] theorem result_done (a : α) : (done a : Traced ε α).result = .ok a := rfl
@[simp] theorem events_fail (e : ε) : (fail e : Traced ε α).events = [] := rfl
@[simp] theorem result_fail (e : ε) : (fail e : Traced ε α).result = .error e := rfl

@[simp] theorem events_emit (e : Event) (x : Traced ε α) : (emit e x).events = e :: x.events := rfl
@[simp] theorem result_emit (e : Event) (x : Traced ε α) : (emit e x).result = x.result := rfl

/-- The result of a sequence does not depend on what its parts make. -/
@[simp] theorem result_andThen (x : Traced ε α) (f : α → Traced ε β) :
    (x.andThen f).result = x.result.bind fun a => (f a).result := by
  unfold andThen Except.bind
  cases x.result <;> rfl

/-- A failed first part is all that a sequence makes. -/
theorem events_andThen_error {x : Traced ε α} {e : ε} (h : x.result = .error e)
    (f : α → Traced ε β) : (x.andThen f).events = x.events := by
  simp [andThen, h]

/-- A sequence makes what its first part makes, and then what the rest makes. -/
theorem events_andThen_ok {x : Traced ε α} {a : α} (h : x.result = .ok a)
    (f : α → Traced ε β) : (x.andThen f).events = x.events ++ (f a).events := by
  simp [andThen, h]

@[simp] theorem events_map (f : α → β) (x : Traced ε α) : (x.map f).events = x.events := rfl
@[simp] theorem result_map (f : α → β) (x : Traced ε α) : (x.map f).result = x.result.map f := rfl

@[simp] theorem events_mapError (f : ε → ε') (x : Traced ε α) :
    (x.mapError f).events = x.events := rfl
@[simp] theorem result_mapError (f : ε → ε') (x : Traced ε α) :
    (x.mapError f).result = x.result.mapError f := rfl

end Traced

end SharpForms
