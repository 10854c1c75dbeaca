import SigV4.World
/-!
# Scripted worlds

A world that follows a script: files by path, routes for requests and rules for programs, the
first that fits answering. A route may answer a limited number of times; how often it has is
read off the calls made so far.
-/

namespace SigV4.Script

/-! ## Files -/

def noSuchFile (path : String) : Error := ⟨.unexpected, "no such file", [s!"path: {path}"], none⟩

def readFrom (files : List (String × Except Error Bytes)) (path : String) : Except Error Bytes :=
  (files.lookup path).getD (.error (noSuchFile path))

/-! ## Requests -/

structure Route where
  method : Option Bytes := none
  uri : Option Bytes := none
  /-- What the URI has to contain. -/
  part : Option Bytes := none
  /-- How many times the route still answers. -/
  times : Option Nat := none
  answer : Except Error Http.Response

/-- Whether `part` stands somewhere in `bs`. -/
def occursIn (part : Bytes) : Bytes → Bool
  | [] => part.isEmpty
  | b :: bs => part.isPrefixOf (b :: bs) || occursIn part bs

def Route.takes (r : Route) (q : Http.Request) : Bool :=
  r.method.all (· == q.method.token) && r.uri.all (· == q.uri.bytes)
    && r.part.all (occursIn · q.uri.bytes) && r.times != some 0

def Route.used (r : Route) : Route := { r with times := r.times.map (· - 1) }

def refused (q : Http.Request) : Error :=
  ⟨.unexpected, "connection refused", [s!"uri: {Utf8.decodeLossy q.uri.bytes}"], none⟩

/-- The answer to a request, and the routes as they are after it. -/
def serve : List Route → Http.Request → Except Error Http.Response × List Route
  | [], q => (.error (refused q), [])
  | r :: rs, q =>
    if r.takes q then (r.answer, r.used :: rs) else ((serve rs q).1, r :: (serve rs q).2)

/-- The routes as they are after some calls. -/
def routesAfter (routes : List Route) (calls : List Call) : List Route :=
  calls.foldl
    (fun rs call => match call with
      | .http q _ => (serve rs q).2
      | _ => rs)
    routes

/-! ## Programs -/

structure Rule where
  /-- The program and its arguments; every command line when absent. -/
  line : Option (List String) := none
  answer : Except Error CommandOutput

def notFound (program : String) : Error :=
  ⟨.unexpected, "command not found", [s!"program: {program}"], none⟩

def execute (rules : List Rule) (program : String) (arguments : List String) :
    Except Error CommandOutput :=
  match rules.find? fun r => r.line.all (· == program :: arguments) with
  | some r => r.answer
  | none => .error (notFound program)

end SigV4.Script

namespace SigV4

/-- What a script has to say; a part that is absent leaves its capability uninstalled. -/
structure Script where
  environment : List (String × String) := []
  home : Option String := none
  files : Option (List (String × Except Error Bytes)) := none
  routes : Option (List Script.Route) := none
  rules : Option (List Script.Rule) := none

def Script.world (s : Script) (now : Time) : World where
  now
  environment := s.environment
  home := s.home
  file := s.files.map fun files _ path => readFrom files path
  http := s.routes.map fun routes calls q _ => (serve (routesAfter routes calls) q).1
  command := s.rules.map fun rules _ program arguments => execute rules program arguments

end SigV4
