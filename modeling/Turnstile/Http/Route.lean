import Turnstile.Address
import Turnstile.Http.MediaType
import Turnstile.Http.Pattern
import Turnstile.Http.Response
import Turnstile.Http.Target

/-!
Requests and routes: patterns of paths, and what is done for each method.

A site is a set of routes. Each action has its own cover, which is what stands between a request and the
action. A request for a known path with another method is told which methods there are, behind the cover of
what was added last.
-/

namespace Turnstile.Http

/-- A request, and where it came from. -/
structure Request where
  method : String
  target : Target
  headers : Headers
  body : ByteArray
  /-- The other end of the connection, if it is known. -/
  peer : Option Endpoint

/-- Whether the request says that its body is JSON. -/
def Request.hasJson (r : Request) : Bool :=
  match (r.headers.get? "content-type").bind valueText? with
  | some text => MediaType.isJson text
  | none => false

/-- What stands between a request and what answers it. -/
structure Cover where
  /-- Requests go through the guard. -/
  isGuarded : Bool
  /-- Pages from elsewhere may ask, so that a request for the options is answered at once. -/
  isShared : Bool
  deriving DecidableEq, Repr

/-- What is done for a method, and its cover. -/
structure Handling (α : Type) where
  method : String
  action : α
  cover : Cover

/-- A pattern, and what is done for the methods, in the order in which it was added. -/
structure Route (α : Type) where
  pattern : String
  handlings : List (Handling α)
  /-- The cover for any other method. -/
  otherwise : Cover

/-- Routes, and whether unknown paths are shared. -/
structure Site (α : Type) where
  routes : List (Route α)
  sharesUnknown : Bool

namespace Route

variable {α : Type}

/-- What is done for a method. What is done for `GET` also stands for `HEAD`. -/
def handling? (r : Route α) (method : String) : Option (Handling α) :=
  let of (method : String) : Option (Handling α) := r.handlings.find? (·.method == method)
  match of method with
  | some handling => some handling
  | none => if method = "HEAD" then of "GET" else none

/-- The methods that something is done for, as a header tells them. -/
def allowed (r : Route α) : String :=
  String.intercalate "," (r.handlings.map fun h => if h.method = "GET" then "GET,HEAD" else h.method)

/-- A route with one method. -/
def single (pattern : String) (h : Handling α) : Route α := ⟨pattern, [h], h.cover⟩

/-- The same route with one more method. -/
def adding (r : Route α) (h : Handling α) : Route α :=
  { r with handlings := r.handlings ++ [h], otherwise := h.cover }

/-- Why a route can not be added. -/
inductive Fault where
  | badPattern (pattern : String) (fault : Pattern.Fault)
  /-- The path has that method already. -/
  | taken (pattern method : String)
  /-- The patterns can not be told apart. -/
  | clash (pattern existing : String)
  deriving DecidableEq, Repr

def Fault.message : Fault → String
  | .badPattern _ .empty => Pattern.Fault.empty.message
  | .badPattern _ .noSlash => Pattern.Fault.noSlash.message
  | .badPattern pattern fault => "Invalid route " ++ Text.quoted pattern ++ ": " ++ fault.message
  | .taken pattern method =>
    "Overlapping method route. Handler for `" ++ method ++ " " ++ pattern ++ "` already exists"
  | .clash pattern existing =>
    "Invalid route " ++ Text.quoted pattern ++
      ": insertion failed due to conflict with previously registered route: " ++ existing

end Route

namespace Site

variable {α : Type}

/-- The route of a path, with the names and values of the open parts. -/
def find? (s : Site α) (path : String) : Option (Route α × List (String × String)) :=
  (Pattern.search (s.routes.map fun r => (r.pattern, r)) path).map fun (route, parts) =>
    (route, (Pattern.names route.pattern).zip parts)

/-- Adds what is done for a method on a path. Unknown paths are shared as long as all that was added is. -/
def add (s : Site α) (pattern : String) (h : Handling α) : Except Route.Fault (Site α) :=
  let sharesUnknown := s.sharesUnknown && h.cover.isShared
  match s.routes.find? (·.pattern == pattern) with
  | some route =>
    if route.handlings.any (·.method == h.method) then .error (.taken pattern h.method)
    else
      let routes := s.routes.map fun r => if r.pattern == pattern then r.adding h else r
      .ok { routes, sharesUnknown }
  | none =>
    match Pattern.fault? pattern with
    | some fault => .error (.badPattern pattern fault)
    | none =>
      match Pattern.clashing? (s.routes.map fun r => (r.pattern, r.pattern)) pattern with
      | some existing => .error (.clash pattern existing)
      | none =>
        match Pattern.restFault? pattern with
        | some fault => .error (.badPattern pattern fault)
        | none => .ok { routes := s.routes ++ [.single pattern h], sharesUnknown }

end Site

end Turnstile.Http
