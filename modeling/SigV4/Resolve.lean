import SigV4.World
import SigV4.World.Home
/-!
# Computations in a world

A computation looks at a world and makes calls in it. Its run is told by its result and the list
of all calls, those before it included. A call to a capability that is not installed ends in an
error and is not noted, since nobody is called.
-/

namespace SigV4

/-- A computation that looks at a world and makes calls in it. -/
abbrev Resolve := ReaderT World (ExceptT Error (StateM (List Call)))

namespace Resolve

/-- The outcome in a world where `before` has happened, and all calls after it. -/
def run {α : Type} (x : Resolve α) (w : World) (before : List Call) : Except Error α × List Call :=
  (ReaderT.run x w).run before

def fail {α : Type} (e : Error) : Resolve α := throw e

def lift {α : Type} (r : Except Error α) : Resolve α :=
  match r with
  | .ok a => pure a
  | .error e => throw e

/-- The outcome as a value; what was called stays called. -/
def attempt {α : Type} (x : Resolve α) : Resolve (Except Error α) :=
  fun w => ExceptT.mk do return .ok (← (x w).run)

/-- A change to the error, if `x` ends in one. -/
def mapError {α : Type} (f : Error → Error) (x : Resolve α) : Resolve α := do
  match ← x.attempt with
  | .ok a => pure a
  | .error e => throw (f e)

/-- The value, or the error when there is none. -/
def orFail {α : Type} (e : Error) : Option α → Resolve α
  | some a => pure a
  | none => throw e

/-! ## What is there to see -/

def now : Resolve Time := return (← read).now

def home : Resolve (Option String) := return (← read).home

/-- The path with the home directory put in; nothing when it needs one and there is none. -/
def expandHome (path : String) : Resolve (Option String) := return Home.expand (← read).home path

def lookup (name : String) : Resolve (Option String) := return (← read).lookup name
def filled? (name : String) : Resolve (Option String) := return (← read).filled? name

/-! ## Calls -/

/-- The answer to a call, which is noted. -/
def ask {α : Type} (call : Call) (answer : List Call → Except Error α) : Resolve α :=
  fun _ => ExceptT.mk fun before => (answer before, before ++ [call])

def fileBytes (path : String) : Resolve Bytes := do
  match (← read).file with
  | some f => ask (.file path) (f · path)
  | none => fail ⟨.unexpected, "no file reader configured", [s!"path: {path}"], none⟩

/-- The contents of a file that has to be UTF-8. -/
def fileText (path : String) : Resolve String := do
  let bs ← fileBytes path
  match Utf8.fault? bs with
  | some f => fail (f.error.during s!"path: {path}")
  | none => pure (Utf8.decodeLossy bs)

def send (request : Http.Request) (body : Bytes) : Resolve Http.Response := do
  match (← read).http with
  | some f => ask (.http request body) (f · request body)
  | none =>
    fail ⟨.unexpected, "no http client configured", [s!"uri: {Utf8.decodeLossy request.uri.bytes}"],
      none⟩

def execute (program : String) (arguments : List String) : Resolve CommandOutput := do
  match (← read).command with
  | some f => ask (.command program arguments) (f · program arguments)
  | none => fail ⟨.unexpected, "no command executor configured", [s!"program: {program}"], none⟩

/-! ## What a run gives -/

section
variable {α β : Type} (w : World) (before : List Call)

@[simp] theorem run_pure (a : α) : (pure a : Resolve α).run w before = (.ok a, before) := rfl

@[simp] theorem run_fail (e : Error) : (fail e : Resolve α).run w before = (.error e, before) := rfl

/-- The second computation runs where the first one left the world, unless that failed. -/
theorem run_bind (x : Resolve α) (f : α → Resolve β) :
    (x >>= f).run w before =
      match x.run w before with
      | (.ok a, after) => (f a).run w after
      | (.error e, after) => (.error e, after) := by
  change ExceptT.run (ExceptT.bind (x w) fun a => f a w) before = _
  simp only [ExceptT.run, ExceptT.bind, ExceptT.mk, run, ReaderT.run]
  change ExceptT.bindCont (fun a => f a w) (x w before).1 (x w before).2 = _
  cases x w before with
  | mk result after => cases result <;> rfl

@[simp] theorem run_map (f : α → β) (x : Resolve α) :
    (f <$> x).run w before = ((x.run w before).1.map f, (x.run w before).2) := by
  rw [show f <$> x = x >>= fun a => pure (f a) from rfl, run_bind]
  cases x.run w before with
  | mk result after => cases result <;> rfl

@[simp] theorem run_read : (read : Resolve World).run w before = (.ok w, before) := rfl

@[simp] theorem run_now : now.run w before = (.ok w.now, before) := rfl

@[simp] theorem run_filled? (name : String) : (filled? name).run w before = (.ok (w.filled? name), before) := rfl

@[simp] theorem run_attempt (x : Resolve α) :
    x.attempt.run w before = (.ok (x.run w before).1, (x.run w before).2) := rfl

@[simp] theorem run_mapError (f : Error → Error) (x : Resolve α) :
    (x.mapError f).run w before = ((x.run w before).1.mapError f, (x.run w before).2) := by
  rw [mapError, run_bind, run_attempt]
  cases x.run w before with
  | mk result after => cases result <;> rfl

@[simp] theorem run_lift (r : Except Error α) : (lift r).run w before = (r, before) := by
  cases r <;> rfl

@[simp] theorem run_orFail (e : Error) (o : Option α) :
    (orFail e o).run w before = ((o.map .ok).getD (.error e), before) := by
  cases o <;> rfl

@[simp] theorem run_ask (call : Call) (answer : List Call → Except Error α) :
    (ask call answer).run w before = (answer before, before ++ [call]) := rfl

end

end Resolve

end SigV4
